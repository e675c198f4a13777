/-!
# Blank characters

The characters of the Unicode White_Space property, and trimming them from both ends of a
text. Tuples, their tokens and column names are trimmed with this set, so an ideographic
space or a no-break space around a token is dropped like an ordinary space.
-/

namespace QueryFilters.Text

/-- A character of the Unicode White_Space property: tab to carriage return, space, next
line, no-break space, ogham space mark, en quad to hair space, the line and paragraph
separators, narrow no-break space, medium mathematical space and ideographic space. -/
def isBlank (c : Char) : Bool :=
  let n := c.toNat
  (0x09 ≤ n && n ≤ 0x0D) || n == 0x20 || n == 0x85 || n == 0xA0 || n == 0x1680 ||
    (0x2000 ≤ n && n ≤ 0x200A) || n == 0x2028 || n == 0x2029 || n == 0x202F ||
    n == 0x205F || n == 0x3000

/-- Drops blank characters from both ends of a character list. -/
def trimChars (cs : List Char) : List Char :=
  ((cs.dropWhile isBlank).reverse.dropWhile isBlank).reverse

/-- Drops blank characters from both ends of a text. -/
def trim (s : String) : String :=
  String.ofList (trimChars s.toList)

/-- Every character that core counts as white space is blank. -/
theorem isBlank_of_isWhitespace {c : Char} (h : c.isWhitespace = true) : isBlank c = true := by
  simp only [Char.isWhitespace, Bool.or_eq_true, decide_eq_true_eq] at h
  rcases h with ((h | h) | h) | h <;> subst h <;> decide

-- the ideographic space and the no-break space are blank, though core does not count them as
-- white space
example : isBlank '\u3000' = true ∧ isBlank '\u00A0' = true := ⟨by decide, by decide⟩

/-- Trimming a text trims its characters. -/
@[simp] theorem toList_trim (s : String) : (trim s).toList = trimChars s.toList := by
  simp [trim]

end QueryFilters.Text
