import QueryFilters.Text.Blank
import QueryFilters.Error

/-!
# Splitting tuple and list texts

The text between a tuple's parentheses, or a list's brackets, splits into tokens at each
separator (`,` in a tuple, `;` in a list) that stands outside quotes and outside brackets.
A quote toggles quoting wherever it stands, so a quote inside brackets quotes too; `[` and `]`
outside quotes open and close brackets. Each token is trimmed.

Main statement: every token is at most as long as the text it came from, which is what lets
nested lists be read by recursion on their length.
-/

namespace QueryFilters.Tuple

/-- Splits characters at every separator outside quotes and brackets, trimming each token.
`quoted` and `depth` are the scan's state, `current` the token so far, reversed. Fails on a `]`
that closes nothing as soon as it is met, and at the end on an open quote before an open
bracket. -/
def splitOuter (sep : Char) :
    List Char → (quoted : Bool) → (depth : Nat) → (current : List Char) →
      Except TupleFault (List (List Char))
  | [], quoted, depth, current =>
    if quoted then .error .unterminatedQuote
    else if depth ≠ 0 then .error .unterminatedList
    else .ok [Text.trimChars current.reverse]
  | c :: rest, quoted, depth, current =>
    if c = '"' then splitOuter sep rest (!quoted) depth (c :: current)
    else if c = '[' ∧ quoted = false then splitOuter sep rest quoted (depth + 1) (c :: current)
    else if c = ']' ∧ quoted = false then
      if depth = 0 then .error .unexpectedClose
      else splitOuter sep rest quoted (depth - 1) (c :: current)
    else if c = sep ∧ quoted = false ∧ depth = 0 then
      (splitOuter sep rest quoted depth []).map (Text.trimChars current.reverse :: ·)
    else splitOuter sep rest quoted depth (c :: current)

/-- Splits the inside of a tuple or list into trimmed tokens. -/
def split (sep : Char) (cs : List Char) : Except TupleFault (List (List Char)) :=
  splitOuter sep cs false 0 []

theorem length_trimChars_le (cs : List Char) : (Text.trimChars cs).length ≤ cs.length := by
  unfold Text.trimChars
  rw [List.length_reverse]
  calc _ ≤ (List.dropWhile Text.isBlank cs).reverse.length := (List.dropWhile_suffix _).length_le
    _ = (List.dropWhile Text.isBlank cs).length := List.length_reverse
    _ ≤ cs.length := (List.dropWhile_suffix _).length_le

theorem length_le_of_splitOuter {sep : Char} :
    ∀ {cs : List Char} {quoted : Bool} {depth : Nat} {current : List Char}
      {tokens : List (List Char)},
      splitOuter sep cs quoted depth current = .ok tokens →
        ∀ t ∈ tokens, t.length ≤ current.length + cs.length := by
  intro cs
  induction cs with
  | nil =>
    intro quoted depth current tokens h t ht
    simp only [splitOuter] at h
    split at h
    · cases h
    · split at h
      · cases h
      · cases h
        simp only [List.mem_singleton] at ht
        subst ht
        have := length_trimChars_le current.reverse
        simp only [List.length_reverse] at this
        simp only [List.length_nil]
        omega
  | cons c rest ih =>
    intro quoted depth current tokens h t ht
    simp only [splitOuter] at h
    simp only [List.length_cons]
    split at h
    · have := ih h t ht
      simp only [List.length_cons] at this
      omega
    · split at h
      · have := ih h t ht
        simp only [List.length_cons] at this
        omega
      · split at h
        · split at h
          · cases h
          · have := ih h t ht
            simp only [List.length_cons] at this
            omega
        · split at h
          · cases hs : splitOuter sep rest quoted depth [] with
            | error e => rw [hs] at h; cases h
            | ok toks =>
              rw [hs] at h
              cases h
              simp only [List.mem_cons] at ht
              rcases ht with ht | ht
              · subst ht
                have := length_trimChars_le current.reverse
                simp only [List.length_reverse] at this
                omega
              · have := ih hs t ht
                simp only [List.length_nil] at this
                omega
          · have := ih h t ht
            simp only [List.length_cons] at this
            omega

/-- Every token of a split is at most as long as the text split. -/
theorem length_le_of_split {sep : Char} {cs : List Char} {tokens : List (List Char)}
    (h : split sep cs = .ok tokens) : ∀ t ∈ tokens, t.length ≤ cs.length := by
  intro t ht
  have := length_le_of_splitOuter h t ht
  simpa using this

end QueryFilters.Tuple
