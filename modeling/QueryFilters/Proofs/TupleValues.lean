import QueryFilters.Proofs.TupleGrammar

/-!
Values written as tuple tokens. A string is written between quotes, an integer in decimal, and a
list between brackets with its items separated by a semicolon and a space (`Tuple.encode`). The
values written so (`Tuple.Encodable`) are strings without a quote, signed 64-bit integers, and
lists of them to any depth.

The scan that splits tuples and lists passes over a written value from any bracket depth back to
that depth, meeting no separator (`Tuple.passes_encode`), so a tuple or a list of written values
splits into them; a written integer reads back as itself (`Decimal.readInt64?_toString`), and so
each written value reads as its value (`Tuple.valueOf_encode`). A tuple of written values reads
as their tokens, and the tokens as the values (`Tuple.parse_encoded_values`).
-/

namespace QueryFilters

/-! ### Decimal integers -/

namespace Decimal

theorem digitsValue_eq_ofDigitChars (ds : List Char) : digitsValue ds = Nat.ofDigitChars 10 ds 0 := by
  rw [Nat.ofDigitChars_eq_foldl, digitsValue]
  congr 1
  funext acc c
  rw [Nat.mul_comm]
  rfl

theorem splitSign_digits {ds : List Char} (digit : ∀ c ∈ ds.head?, c.isDigit = true) :
    splitSign ds = (false, ds) := by
  match ds, digit with
  | [], _ => rfl
  | c :: rest, digit =>
    have isDigit := digit c rfl
    have notMinus : c ≠ '-' := by rintro rfl; simp at isDigit
    have notPlus : c ≠ '+' := by rintro rfl; simp at isDigit
    simp [splitSign, notMinus, notPlus]

/-- The decimal digits of a number are some digits, and their value is the number. -/
theorem read_toDigits (m : Nat) :
    (Nat.toDigits 10 m).isEmpty = false ∧ (Nat.toDigits 10 m).all Char.isDigit = true ∧
      digitsValue (Nat.toDigits 10 m) = m := by
  refine ⟨by simp [Nat.toDigits_ne_nil], ?_, ?_⟩
  · simp only [List.all_eq_true]
    intro c mem
    exact Nat.isDigit_of_mem_toDigits (by decide) (by decide) mem
  · rw [digitsValue_eq_ofDigitChars, Nat.ofDigitChars_ten_toDigits]

/-- The decimal text of an integer: a minus sign if it is negative, then the digits of its
magnitude. -/
theorem toList_toString_int (n : Int) :
    (toString n).toList = (if n < 0 then ['-'] else []) ++ Nat.toDigits 10 n.natAbs := by
  rw [Int.toString_eq_repr, Int.repr_eq_if]
  split
  · rw [Nat.toList_repr, show n.toNat = n.natAbs by omega, if_neg (by omega)]
    rfl
  · rw [String.toList_append, Nat.toList_repr, show (-n).toNat = n.natAbs by omega, if_pos (by omega)]
    rfl

/-- The decimal text of a signed 64-bit integer reads back as the integer. -/
theorem readInt64?_toString {n : Int} (low : -0x8000000000000000 ≤ n) (high : n < 0x8000000000000000) :
    readInt64? (toString n) = some n := by
  obtain ⟨nonempty, digits, value⟩ := read_toDigits n.natAbs
  have lead : ∀ c ∈ (Nat.toDigits 10 n.natAbs).head?, c.isDigit = true := fun c mem =>
    Nat.isDigit_of_mem_toDigits (by decide) (by decide) (List.mem_of_mem_head? mem)
  have bounded : (decide (-0x8000000000000000 ≤ n) && decide (n < 0x8000000000000000)) = true := by
    simp only [decide_eq_true low, decide_eq_true high, Bool.and_self]
  unfold readInt64?
  rw [toList_toString_int]
  by_cases sign : n < 0
  · have magnitude : -((n.natAbs : Nat) : Int) = n := by omega
    simp only [if_pos sign, List.cons_append, List.nil_append, splitSign, nonempty, digits, value, magnitude,
      Bool.false_or, Bool.not_true, Bool.false_eq_true, if_false, if_true, bounded]
  · have magnitude : ((n.natAbs : Nat) : Int) = n := by omega
    rw [if_neg sign, List.nil_append, splitSign_digits lead]
    simp only [nonempty, digits, value, magnitude, Bool.false_or, Bool.not_true, Bool.false_eq_true, if_false,
      bounded, if_true]

end Decimal

namespace Text

/-- A text that neither starts nor ends with a blank is its own trim. -/
theorem trimChars_eq_self {cs : List Char} (first : ∀ c ∈ cs.head?, isBlank c = false)
    (last : ∀ c ∈ cs.getLast?, isBlank c = false) : trimChars cs = cs := by
  have keep : ∀ {xs : List Char}, (∀ c ∈ xs.head?, isBlank c = false) → xs.dropWhile isBlank = xs
    | [], _ => rfl
    | x :: rest, solid => by simp [solid x rfl]
  have lastFirst : ∀ c ∈ cs.reverse.head?, isBlank c = false := by
    simpa [List.head?_reverse] using last
  rw [trimChars, keep first, keep lastFirst, List.reverse_reverse]

/-- A text that is its own trim starts with no blank. -/
theorem head_of_trimmed : ∀ {cs : List Char}, trimChars cs = cs → ∀ x ∈ cs.head?, isBlank x = false
  | [], _ => by simp
  | x :: rest, trimmed => by
    intro y head
    obtain rfl : x = y := by simpa using head
    by_contra blank
    -- a blank first character is dropped, so the trim would be shorter than the text
    have shorter : (trimChars (x :: rest)).length ≤ rest.length := by
      calc (trimChars (x :: rest)).length
          _ ≤ ((x :: rest).dropWhile isBlank).length := by
            simpa [trimChars] using List.length_dropWhile_le isBlank ((x :: rest).dropWhile isBlank).reverse
          _ ≤ rest.length := by simpa [List.dropWhile_cons, blank] using List.length_dropWhile_le isBlank rest
    rw [trimmed,List.length_cons] at shorter
    omega

theorem isBlank_of_isDigit {c : Char} (digit : c.isDigit = true) : isBlank c = false := by
  have range : 48 ≤ c.toNat ∧ c.toNat ≤ 57 := by
    simp only [Char.isDigit, Bool.and_eq_true, decide_eq_true_eq] at digit
    exact ⟨digit.1, digit.2⟩
  simp only [isBlank, Bool.or_eq_false_iff, Bool.and_eq_false_iff, beq_eq_false_iff_ne, decide_eq_false_iff_not]
  omega

end Text

theorem List.mapM_eq_ok_self {α ε : Type} {f : α → Except ε α} :
    ∀ {l : List α}, (∀ x ∈ l, f x = .ok x) → l.mapM f = .ok l
  | [], _ => rfl
  | x :: rest, fixed => by
    simp only [List.mapM_cons, fixed x (by simp), List.mapM_eq_ok_self fun y mem => fixed y (List.mem_cons_of_mem x mem)]
    rfl

namespace Tuple

/-! ### Written values -/

/-- The values a tuple token writes: strings without a double quote, signed 64-bit integers, and
lists of such values to any depth. -/
inductive Encodable : Json → Prop
  | str {s : String} : '"' ∉ s.toList → Encodable (.str s)
  | int {n : Int} : -0x8000000000000000 ≤ n → n < 0x8000000000000000 → Encodable (.int n)
  | arr {items : List Json} : (∀ x ∈ items, Encodable x) → Encodable (.arr items)

/-- The token of a value: a string between quotes, an integer in decimal, a list between brackets
with its items separated by `; `. Other values have no token and are written as nothing. -/
def encode : Json → String
  | .str s => "\"" ++ s ++ "\""
  | .int n => toString n
  | .arr items => "[" ++ "; ".intercalate (items.map encode) ++ "]"
  | _ => ""

theorem encode_str_toList (s : String) : (encode (.str s)).toList = '"' :: (s.toList ++ ['"']) := by
  simp [encode]

theorem encode_arr_toList (items : List Json) :
    (encode (.arr items)).toList =
      '[' :: ([';', ' '].intercalate (items.map fun x => (encode x).toList) ++ [']']) := by
  simp [encode, String.toList_intercalate, List.map_map, Function.comp_def]

theorem toString_int_chars (n : Int) : ∀ c ∈ (toString n).toList, c = '-' ∨ c.isDigit = true := by
  intro c mem
  rw [Decimal.toList_toString_int, List.mem_append] at mem
  rcases mem with sign | digit
  · split at sign <;> simp_all
  · exact .inr (Nat.isDigit_of_mem_toDigits (by decide) (by decide) digit)

/-- A written value holds a character that is not blank. -/
theorem encode_solid {v : Json} (encodable : Encodable v) : ∃ c ∈ (encode v).toList, Text.isBlank c = false := by
  cases encodable with
  | str _ => exact ⟨'"', by simp [encode_str_toList], by decide⟩
  | @int n _ _ =>
    obtain ⟨d, mem⟩ := List.exists_mem_of_ne_nil _ (Nat.toDigits_ne_nil (n := n.natAbs) (b := 10))
    refine ⟨d, by rw [encode, Decimal.toList_toString_int]; simp [mem], Text.isBlank_of_isDigit ?_⟩
    exact Nat.isDigit_of_mem_toDigits (by decide) (by decide) mem
  | arr _ => exact ⟨'[', by simp [encode_arr_toList], by decide⟩

/-- A written value starts and ends with no blank. -/
theorem encode_trimmed {v : Json} (encodable : Encodable v) :
    Text.trimChars (encode v).toList = (encode v).toList := by
  cases encodable with
  | str _ =>
    rw [encode_str_toList]
    apply Text.trimChars_eq_self <;> simp [List.getLast?_cons, Text.isBlank]
  | @int n _ _ =>
    have solid : ∀ c ∈ (encode (.int n)).toList, Text.isBlank c = false := by
      intro c mem
      rcases toString_int_chars n c (by simpa [encode] using mem) with rfl | digit
      · decide
      · exact Text.isBlank_of_isDigit digit
    exact Text.trimChars_eq_self (fun c mem => solid c (List.mem_of_mem_head? mem))
      (fun c mem => solid c (List.mem_of_mem_getLast? mem))
  | arr _ =>
    rw [encode_arr_toList]
    apply Text.trimChars_eq_self <;> simp [List.getLast?_cons, Text.isBlank]

/-! ### The scan over written values -/

/-- A separator of tuples or lists that no written value holds outside quotes: not a quote, a
bracket, a space, a minus sign or a digit. -/
def Separator (sep : Char) : Prop :=
  sep ≠ '"' ∧ sep ≠ '[' ∧ sep ≠ ']' ∧ sep ≠ ' ' ∧ sep ≠ '-' ∧ sep.isDigit = false

theorem comma_separator : Separator ',' :=
  ⟨by decide, by decide, by decide, by decide, by decide, by decide⟩

theorem semicolon_separator : Separator ';' :=
  ⟨by decide, by decide, by decide, by decide, by decide, by decide⟩

/-- The scan passes the text outside quotes from a depth back to it, meeting no separator at the
top level, and gathers the text. -/
def Passes (sep : Char) (depth : Nat) (cs : List Char) : Prop :=
  ∀ current, scanThrough sep cs false depth current = some (false, depth, cs.reverse ++ current)

theorem scanThrough_append {sep : Char} :
    ∀ {xs : List Char} {quoted : Bool} {depth : Nat} {current : List Char} {state : Bool × Nat × List Char},
      scanThrough sep xs quoted depth current = some state → ∀ ys,
        scanThrough sep (xs ++ ys) quoted depth current = scanThrough sep ys state.1 state.2.1 state.2.2
  | [], quoted, depth, current, state, scanned, ys => by
    simp only [scanThrough, Option.some.injEq] at scanned
    subst scanned
    rfl
  | c :: xs, quoted, depth, current, state, scanned, ys => by
    unfold scanThrough at scanned
    rw [List.cons_append, scanThrough]
    split_ifs at scanned ⊢ <;> exact scanThrough_append scanned ys

/-- Inside quotes the scan passes any text without a quote. -/
theorem scanThrough_quoted {sep : Char} :
    ∀ {cs : List Char}, '"' ∉ cs → ∀ {depth : Nat} {current : List Char},
      scanThrough sep cs true depth current = some (true, depth, cs.reverse ++ current)
  | [], _, _, _ => rfl
  | c :: cs, noQuote, depth, current => by
    have notQuote : c ≠ '"' := fun same => noQuote (same ▸ List.mem_cons_self)
    have rest := @scanThrough_quoted sep cs (fun mem => noQuote (List.mem_cons_of_mem c mem)) depth (c :: current)
    simp [scanThrough, notQuote, rest]

namespace Passes
variable {sep : Char} {depth : Nat}

theorem nil : Passes sep depth [] := fun _ => rfl

theorem append {xs ys : List Char} (first : Passes sep depth xs) (second : Passes sep depth ys) :
    Passes sep depth (xs ++ ys) := by
  intro current
  rw [scanThrough_append (first current) ys, second]
  simp

theorem single {c : Char} (notQuote : c ≠ '"') (notOpen : c ≠ '[') (notClose : c ≠ ']')
    (inside : c = sep → depth ≠ 0) : Passes sep depth [c] := by
  intro current
  simp [scanThrough, notQuote, notOpen, notClose]
  exact inside

theorem intercalate {sp : List Char} (separator : Passes sep depth sp) :
    ∀ {ts : List (List Char)}, (∀ t ∈ ts, Passes sep depth t) → Passes sep depth (sp.intercalate ts)
  | [], _ => nil
  | [t], each => by simpa using each t (by simp)
  | t :: t' :: rest, each => by
    rw [List.intercalate_cons_cons, List.append_assoc]
    have later : ∀ u ∈ t' :: rest, Passes sep depth u := fun u mem => each u (List.mem_cons_of_mem t mem)
    exact (each t (by simp)).append (separator.append (intercalate separator later))

theorem ordinary {cs : List Char} (ordinary : ∀ c ∈ cs, c ≠ '"' ∧ c ≠ '[' ∧ c ≠ ']' ∧ c ≠ sep) :
    Passes sep depth cs :=
  fun _ => scanThrough_ordinary ordinary

/-- What the scan passes one bracket deeper it passes between brackets. -/
theorem bracketed {cs : List Char} (inner : Passes sep (depth + 1) cs) : Passes sep depth ('[' :: (cs ++ [']'])) := by
  intro current
  simp only [scanThrough, if_true, and_self, show ('[' : Char) ≠ '"' by decide]
  rw [scanThrough_append (inner ('[' :: current))]
  simp [scanThrough]

end Passes

section Separated
variable {sep : Char} (separator : Separator sep)
include separator

/-- The scan passes a written value from any depth back to it. The induction is on the value: a
string is passed inside its quotes, an integer holds no character the scan acts on, and the items
of a list, with their separators, are passed one bracket deeper. -/
theorem passes_encode {v : Json} (encodable : Encodable v) : ∀ depth, Passes sep depth (encode v).toList := by
  obtain ⟨notQuote, notOpen, notClose, notSpace, notMinus, notDigit⟩ := separator
  induction encodable with
  | @str s noQuote =>
    intro depth current
    rw [encode_str_toList]
    have inside := @scanThrough_quoted sep s.toList noQuote depth ('"' :: current)
    simp only [scanThrough, if_true, Bool.not_false]
    rw [scanThrough_append inside]
    simp [scanThrough]
  | @int n _ _ =>
    intro depth current
    apply scanThrough_ordinary
    intro c mem
    rcases toString_int_chars n c (by simpa [encode] using mem) with rfl | digit
    · exact ⟨by decide, by decide, by decide, Ne.symm notMinus⟩
    · refine ⟨?_, ?_, ?_, fun same => ?_⟩
      · rintro rfl; simp at digit
      · rintro rfl; simp at digit
      · rintro rfl; simp at digit
      · rw [same] at digit; simp [notDigit] at digit
  | @arr items _ ih =>
    intro depth
    rw [encode_arr_toList]
    -- below the list's bracket no character separates
    have separates : Passes sep (depth + 1) [';', ' '] :=
      (Passes.single (by decide) (by decide) (by decide) (fun _ => by omega)).append
        (Passes.single (by decide) (by decide) (by decide) (fun _ => by omega))
    exact Passes.bracketed (Passes.intercalate separates (fun t mem => by
      obtain ⟨x, member, rfl⟩ := List.mem_map.mp mem
      exact ih x member (depth + 1)))

/-- Texts that the scan passes and that have no blank at either end, joined by the separator and
a space, split back into those texts. -/
theorem split_intercalate {ts : List (List Char)} (nonempty : ts ≠ []) (passes : ∀ t ∈ ts, Passes sep 0 t)
    (trimmed : ∀ t ∈ ts, Text.trimChars t = t) : split sep ([sep, ' '].intercalate ts) = .ok ts := by
  obtain ⟨quote, opening, closing, space, -, -⟩ := separator
  obtain ⟨t, rest, rfl⟩ := List.exists_cons_of_ne_nil nonempty
  have spaced : ∀ u ∈ rest, Passes sep 0 (' ' :: u) := fun u mem =>
    (Passes.single (by decide) (by decide) (by decide) (fun same => absurd same.symm space)).append
      (passes u (List.mem_cons_of_mem t mem))
  have unspaced : ∀ u ∈ rest, Text.trimChars (' ' :: u) = u := fun u mem => by
    rw [show ' ' :: u = [' '] ++ u from rfl, Text.trimChars_blank_append (by simp [Text.isBlank]),
      trimmed u (List.mem_cons_of_mem t mem)]
  rw [split, intercalate_separator, splitOuter_eq_ok_iff quote opening closing]
  refine ⟨t, rest.map (' ' :: ·), rfl, by simpa using passes t (by simp) [], ?_, ?_⟩
  · intro s mem
    obtain ⟨u, member, rfl⟩ := List.mem_map.mp mem
    simpa using spaced u member []
  · simp only [List.reverse_nil, List.nil_append, trimmed t (by simp), List.map_map, List.cons.injEq, true_and]
    calc rest
        _ = rest.map id := (List.map_id rest).symm
        _ = _ := List.map_congr_left fun u mem => (unspaced u mem).symm

end Separated

/-- A text with no blank at either end that the scan passes at the top level is a well-formed
token of a tuple. -/
theorem WellFormedToken.of_passes {t : String} (passes : Passes ',' 0 t.toList)
    (trimmed : Text.trimChars t.toList = t.toList) : WellFormedToken t := by
  obtain ⟨quote, opening, closing, -, -, -⟩ := comma_separator
  obtain ⟨balanced, noComma⟩ := (scanThrough_top_iff quote opening closing).mp (by simpa using passes [])
  exact ⟨balanced, trimmed, noComma⟩

/-- A written value is a well-formed token of a tuple. -/
theorem encode_wellFormedToken {v : Json} (encodable : Encodable v) : WellFormedToken (encode v) :=
  WellFormedToken.of_passes (passes_encode comma_separator encodable 0) (encode_trimmed encodable)

/-! ### Reading written values -/

theorem isQuoted_of_head {cs : List Char} (first : ∀ c ∈ cs.head?, c ≠ '"') : isQuoted cs = false := by
  cases cs with
  | nil => rfl
  | cons c rest => simp [isQuoted, first c rfl]

theorem isBracketed_of_head {cs : List Char} (first : ∀ c ∈ cs.head?, c ≠ '[') : isBracketed cs = false := by
  cases cs with
  | nil => rfl
  | cons c rest => simp [isBracketed, first c rfl]

/-- A written value reads as the value. The induction is on the value; a list's items are split
at their separators and read each by the induction hypothesis. -/
theorem valueOf_encode {v : Json} (encodable : Encodable v) : valueOf (encode v).toList = .ok v := by
  induction encodable with
  | @str s _ =>
    rw [encode_str_toList, valueOf]
    have quoted : isQuoted ('"' :: (s.toList ++ ['"'])) = true := by
      simp [isQuoted, List.getLast?_cons]
    simp [quoted, inner]
  | @int n low high =>
    have text : (encode (.int n)).toList = (toString n).toList := by rw [encode]
    have lead : ∀ c ∈ (toString n).toList.head?, c ≠ '"' ∧ c ≠ '[' := by
      intro c mem
      rcases toString_int_chars n c (List.mem_of_mem_head? mem) with rfl | digit
      · decide
      · constructor <;> (rintro rfl; simp at digit)
    rw [text, valueOf, if_neg (by rw [isQuoted_of_head fun c mem => (lead c mem).1]; exact Bool.false_ne_true),
      dif_neg (by rw [isBracketed_of_head fun c mem => (lead c mem).2]; exact Bool.false_ne_true),
      String.ofList_toList, coerce, Decimal.readInt64?_toString low high]
  | @arr items encodable ih =>
    rw [encode_arr_toList, valueOf]
    have notQuoted : isQuoted ('[' :: ([';', ' '].intercalate (items.map fun x => (encode x).toList) ++ [']'])) = false := by
      simp [isQuoted]
    have bracketed : isBracketed ('[' :: ([';', ' '].intercalate (items.map fun x => (encode x).toList) ++ [']'])) = true := by
      simp [isBracketed, List.getLast?_cons]
    simp only [notQuoted, bracketed, dif_pos, inner, List.drop_one, List.tail_cons, List.dropLast_concat,
      Bool.false_eq_true, if_false]
    cases items with
    | nil => simp [Text.trimChars]
    | cons x rest =>
      -- the items are not blank, so they are split at their separators
      obtain ⟨c, mem, solid⟩ := encode_solid (encodable x (by simp))
      have notBlank : (Text.trimChars ([';', ' '].intercalate ((x :: rest).map fun x => (encode x).toList))).isEmpty = false := by
        rw [List.isEmpty_eq_false_iff, ne_eq, Text.trimChars_eq_nil_iff]
        intro blank
        have inside : c ∈ [';', ' '].intercalate ((x :: rest).map fun x => (encode x).toList) := by
          cases rest with
          | nil => simpa using mem
          | cons y more => simp [List.intercalate_cons_cons, mem]
        simp [blank c inside] at solid
      have splitting : split ';' ([';', ' '].intercalate ((x :: rest).map fun x => (encode x).toList)) =
          .ok ((x :: rest).map fun x => (encode x).toList) :=
        split_intercalate semicolon_separator (by simp)
          (fun t member => by
            obtain ⟨y, inItems, rfl⟩ := List.mem_map.mp member
            exact passes_encode semicolon_separator (encodable y inItems) 0)
          (fun t member => by
            obtain ⟨y, inItems, rfl⟩ := List.mem_map.mp member
            exact encode_trimmed (encodable y inItems))
      rw [if_neg (Bool.eq_false_iff.mp notBlank)]
      split
      · next fault failed =>
        simp only [List.drop_one, List.tail_cons, List.dropLast_concat, splitting] at failed
        cases failed
      · next tokens split =>
        simp only [List.drop_one, List.tail_cons, List.dropLast_concat, splitting, Except.ok.injEq] at split
        subst split
        rw [List.mapM_subtype (g := valueOf) (fun _ _ => rfl), List.unattach_attach, List.mapM_map,
          @List.mapM_eq_ok_self _ _ (valueOf ∘ fun x => (encode x).toList) _ (fun y mem => ih y mem)]
        rfl

/-- A tuple written from values, each a string without a quote, a signed 64-bit integer or a list
of such values to any depth, reads as the tokens of the values, and the tokens read as the
values. -/
theorem parse_encoded_values {vs : List Json} (nonempty : vs ≠ []) (encodable : ∀ v ∈ vs, Encodable v) :
    Tuple.parse (text (vs.map encode)) = .ok ⟨vs.map encode⟩ ∧ (⟨vs.map encode⟩ : Tuple).values = .ok vs := by
  have notEmpty : vs.map encode ≠ [""] := by
    intro single
    obtain ⟨v, rfl⟩ : ∃ v, vs = [v] := List.length_eq_one_iff.mp (by simpa using congrArg List.length single)
    obtain ⟨c, mem, -⟩ := encode_solid (encodable v (by simp))
    simp only [List.map_cons, List.map_nil, List.cons.injEq, and_true] at single
    simp [single] at mem
  refine ⟨parse_text_wellFormed (by simpa using nonempty) notEmpty ?_, ?_⟩
  · intro t mem
    obtain ⟨v, member, rfl⟩ := List.mem_map.mp mem
    exact encode_wellFormedToken (encodable v member)
  · rw [values, List.mapM_map]
    exact List.mapM_eq_ok_self fun v member => valueOf_encode (encodable v member)

/-- Quoted delimiters and blanks, the least 64-bit integer, and empty and nested lists read
back. -/
theorem parse_encoded_values_mixed :
    ([.str " a, [b]; ", .int (-0x8000000000000000), .arr [.arr [], .arr [.int 7]]] : List Json) ≠ [] ∧
      (∀ v ∈ ([.str " a, [b]; ", .int (-0x8000000000000000), .arr [.arr [], .arr [.int 7]]] : List Json), Encodable v) ∧
      Tuple.parse (text (([.str " a, [b]; ", .int (-0x8000000000000000), .arr [.arr [], .arr [.int 7]]] : List Json).map encode)) =
        .ok ⟨([.str " a, [b]; ", .int (-0x8000000000000000), .arr [.arr [], .arr [.int 7]]] : List Json).map encode⟩ ∧
      (⟨([.str " a, [b]; ", .int (-0x8000000000000000), .arr [.arr [], .arr [.int 7]]] : List Json).map encode⟩ : Tuple).values =
        .ok [.str " a, [b]; ", .int (-0x8000000000000000), .arr [.arr [], .arr [.int 7]]] := by
  have encodable : ∀ v ∈ ([.str " a, [b]; ", .int (-0x8000000000000000), .arr [.arr [], .arr [.int 7]]] : List Json), Encodable v := by
    intro v mem
    simp only [List.mem_cons, List.not_mem_nil, or_false] at mem
    rcases mem with rfl | rfl | rfl
    · exact .str (by decide)
    · exact .int (by decide) (by decide)
    · exact .arr fun x mem => by
        simp only [List.mem_cons, List.not_mem_nil, or_false] at mem
        rcases mem with rfl | rfl
        · exact .arr (by simp)
        · exact .arr fun y mem => by
            simp only [List.mem_cons, List.not_mem_nil, or_false] at mem
            exact mem ▸ .int (by decide) (by decide)
  exact ⟨by simp, encodable, parse_encoded_values (by simp) encodable⟩

end Tuple

end QueryFilters
