import Mathlib.Data.List.TakeWhile
import Mathlib.Tactic.SplitIfs
import QueryFilters.Tuple.Basic

/-!
Tuple texts written from tokens. `Tuple.text` writes tokens between parentheses, separated by a
comma and a space. A token (`Tuple.IsToken`) is a text that the tuple scan reads, alone, as
itself: no comma outside quotes and brackets, its quotes and brackets closed, no blank at either
end. Reading a written tuple gives its tokens back (`Tuple.parse_text`). A plain name
(`Tuple.IsPlainName`) is a token, reads as no tuple, and as a column reads as itself.
-/

namespace QueryFilters.Tuple

/-- The text of a tuple of tokens: `(t1, t2, ..., tn)`. -/
def text (tokens : List String) : String := "(" ++ ", ".intercalate tokens ++ ")"

/-- A token of a tuple: a text that is not empty and that the tuple scan reads, alone, as
itself. -/
def IsToken (t : String) : Prop := t ≠ "" ∧ splitOuter ',' t.toList false 0 [] = .ok [t.toList]

/-- The state of the tuple scan after a text in which it meets no separator at the top level: the
quoting, the bracket depth and the token so far, reversed; nothing if the scan fails or meets
such a separator. -/
def scanThrough (sep : Char) : List Char → Bool → Nat → List Char → Option (Bool × Nat × List Char)
  | [], quoted, depth, current => some (quoted,depth,current)
  | c :: rest, quoted, depth, current =>
    if c = '"' then scanThrough sep rest (!quoted) depth (c :: current)
    else if c = '[' ∧ quoted = false then scanThrough sep rest quoted (depth + 1) (c :: current)
    else if c = ']' ∧ quoted = false then
      if depth = 0 then none else scanThrough sep rest quoted (depth - 1) (c :: current)
    else if c = sep ∧ quoted = false ∧ depth = 0 then none
    else scanThrough sep rest quoted depth (c :: current)

/-! ### The scan -/

section Scan
variable {sep : Char}

/-- Where the scan passes a text without meeting a separator, splitting goes on from the state
it reaches. -/
theorem splitOuter_append :
    ∀ {cs : List Char} {quoted : Bool} {depth : Nat} {current : List Char} {state : Bool × Nat × List Char},
      scanThrough sep cs quoted depth current = some state → ∀ rest,
        splitOuter sep (cs ++ rest) quoted depth current = splitOuter sep rest state.1 state.2.1 state.2.2
  | [], quoted, depth, current, state, scanned, rest => by
    simp only [scanThrough,Option.some.injEq] at scanned
    subst scanned
    rfl
  | c :: cs, quoted, depth, current, state, scanned, rest => by
    unfold scanThrough at scanned
    rw [List.cons_append,splitOuter]
    -- the failing branches of the scan are closed by `split_ifs` itself
    split_ifs at scanned ⊢ <;> exact splitOuter_append scanned rest

/-- The scan gathers every character it passes, whatever it started from. -/
theorem scanThrough_current :
    ∀ {cs : List Char} {quoted : Bool} {depth : Nat} {current : List Char},
      scanThrough sep cs quoted depth current =
        (scanThrough sep cs quoted depth []).map fun state => (state.1,state.2.1,cs.reverse ++ current)
  | [], quoted, depth, current => rfl
  | c :: cs, quoted, depth, current => by
    unfold scanThrough
    split_ifs <;> simp [@scanThrough_current cs _ _ (c :: current),
      @scanThrough_current cs _ _ [c],Option.map_map,Function.comp_def]

theorem splitOuter_ne_nil :
    ∀ {cs : List Char} {quoted : Bool} {depth : Nat} {current : List Char} {tokens : List (List Char)},
      splitOuter sep cs quoted depth current = .ok tokens → tokens ≠ []
  | [], quoted, depth, current, tokens, split => by
    unfold splitOuter at split
    split_ifs at split
    cases split
    simp
  | c :: cs, quoted, depth, current, tokens, split => by
    unfold splitOuter at split
    split_ifs at split <;> first
      | exact splitOuter_ne_nil split
      | cases split
      | (cases more : splitOuter sep cs quoted depth [] with
          | error _ => simp [more,Except.map] at split
          | ok rest =>
            simp only [more,Except.map,Except.ok.injEq] at split
            simp [← split])

/-- A scan that ends in one token met no separator, and ended outside quotes and brackets. -/
theorem scanThrough_of_splitOuter :
    ∀ {cs : List Char} {quoted : Bool} {depth : Nat} {current x : List Char},
      splitOuter sep cs quoted depth current = .ok [x] →
        ∃ current', scanThrough sep cs quoted depth current = some (false,0,current') ∧
          x = Text.trimChars current'.reverse
  | [], quoted, depth, current, x, split => by
    unfold splitOuter at split
    split_ifs at split with quotedEnd depthEnd
    simp only [Except.ok.injEq,List.cons.injEq,and_true] at split
    subst split
    simp only [Bool.not_eq_true] at quotedEnd
    simp only [ne_eq,Decidable.not_not] at depthEnd
    exact ⟨current,by simp [scanThrough,quotedEnd,depthEnd],rfl⟩
  | c :: cs, quoted, depth, current, x, split => by
    unfold splitOuter at split
    unfold scanThrough
    split_ifs at split ⊢ <;> first
      | exact scanThrough_of_splitOuter split
      | cases split
      | (cases more : splitOuter sep cs quoted depth [] with
          | error _ => simp [more,Except.map] at split
          | ok rest =>
            simp only [more,Except.map,Except.ok.injEq,List.cons.injEq] at split
            exact absurd split.2 (splitOuter_ne_nil more))

end Scan

/-! ### Trimming -/

theorem Text.trimChars_blank_append {bs : List Char} (blank : ∀ b ∈ bs, Text.isBlank b = true)
    (cs : List Char) : Text.trimChars (bs ++ cs) = Text.trimChars cs := by
  simp only [Text.trimChars,List.dropWhile_append_of_pos blank]

/-- Trimming leaves nothing exactly of a text of blanks. -/
theorem Text.trimChars_eq_nil_iff {cs : List Char} :
    Text.trimChars cs = [] ↔ ∀ c ∈ cs, Text.isBlank c = true := by
  simp only [Text.trimChars,List.reverse_eq_nil_iff,List.dropWhile_eq_nil_iff,List.mem_reverse]
  constructor
  · intro blankRest c mem
    rw [← List.takeWhile_append_dropWhile (p := Text.isBlank) (l := cs),List.mem_append] at mem
    rcases mem with leading | rest
    · exact List.mem_takeWhile_imp leading
    · exact blankRest c rest
  · intro blank c mem
    exact blank c (List.dropWhile_sublist _ |>.subset mem)

/-! ### Tokens -/

theorem IsToken.scan {t : String} (token : IsToken t) :
    scanThrough ',' t.toList false 0 [] = some (false,0,t.toList.reverse) ∧
      Text.trimChars t.toList = t.toList := by
  obtain ⟨current,scanned,same⟩ := scanThrough_of_splitOuter token.2
  have gathered := @scanThrough_current ',' t.toList false 0 []
  rw [scanned] at gathered
  simp only [Option.map_some,List.append_nil,Option.some.injEq,Prod.mk.injEq,true_and] at gathered
  subst gathered
  rw [List.reverse_reverse] at same
  exact ⟨scanned,same.symm⟩

/-- The tuple scan passes a token, whatever it gathered before, without meeting a separator. -/
theorem IsToken.splitOuter_append {t : String} (token : IsToken t) (current rest : List Char) :
    splitOuter ',' (t.toList ++ rest) false 0 current =
      splitOuter ',' rest false 0 (t.toList.reverse ++ current) := by
  have scanned := @scanThrough_current ',' t.toList false 0 current
  rw [token.scan.1] at scanned
  exact Tuple.splitOuter_append scanned rest

/-- A token holds a character that is not blank. -/
theorem IsToken.trimChars_ne_nil {t : String} (token : IsToken t) {rest : List Char} :
    Text.trimChars (t.toList ++ rest) ≠ [] := by
  intro empty
  rw [Text.trimChars_eq_nil_iff] at empty
  have blank : Text.trimChars t.toList = [] :=
    Text.trimChars_eq_nil_iff.mpr fun c mem => empty c (List.mem_append_left rest mem)
  rw [token.scan.2,String.toList_eq_nil_iff] at blank
  exact token.1 blank

/-- Tokens joined by a comma and a space split back into the tokens, after any blanks. -/
theorem splitOuter_intercalate :
    ∀ {ts : List String}, ts ≠ [] → (∀ t ∈ ts, IsToken t) → ∀ {bs : List Char},
      (∀ b ∈ bs, Text.isBlank b = true) →
        splitOuter ',' ([',',' '].intercalate (ts.map String.toList)) false 0 bs = .ok (ts.map String.toList)
  | [], nonempty, _, _, _ => absurd rfl nonempty
  | [t], _, tokens, bs, blank => by
    have token := tokens t (by simp)
    have ended := token.splitOuter_append bs []
    rw [List.append_nil] at ended
    simp only [List.map_cons,List.map_nil,List.intercalate_singleton,ended,splitOuter]
    simp [List.reverse_append,Text.trimChars_blank_append (fun b mem => blank b (List.mem_reverse.mp mem)),
      token.scan.2]
  | t :: t' :: rest, _, tokens, bs, blank => by
    have token := tokens t (by simp)
    -- after the token, the comma closes it and the space is the first blank of the next one
    have more := @splitOuter_intercalate (t' :: rest) (List.cons_ne_nil t' rest)
      (fun u mem => tokens u (List.mem_cons_of_mem t mem)) [' '] (by simp [Text.isBlank])
    rw [List.map_cons] at more
    rw [List.map_cons,List.map_cons,List.intercalate_cons_cons,List.append_assoc,token.splitOuter_append]
    simp [splitOuter,more,Except.map,List.reverse_append,
      Text.trimChars_blank_append (fun b mem => blank b (List.mem_reverse.mp mem)),token.scan.2]

theorem trimChars_parenthesized (inside : List Char) :
    Text.trimChars ('(' :: (inside ++ [')'])) = '(' :: (inside ++ [')']) := by
  have openSolid : Text.isBlank '(' = false := by decide
  have closeSolid : Text.isBlank ')' = false := by decide
  simp [Text.trimChars,List.reverse_append,openSolid,closeSolid]

theorem isParenthesized_parenthesized (inside : List Char) :
    isParenthesized ('(' :: (inside ++ [')'])) = true := by
  have last : ('(' :: (inside ++ [')'])).getLast? = some ')' := by
    rw [← List.cons_append,List.getLast?_concat]
  simp [isParenthesized,last]

/-- A text between parentheses reads as the tokens its inside splits into. -/
theorem parse_parenthesized {inside : List Char} {tokens : List (List Char)}
    (solid : Text.trimChars inside ≠ []) (split : splitOuter ',' inside false 0 [] = .ok tokens) :
    Tuple.parse (String.ofList ('(' :: (inside ++ [')']))) = .ok ⟨tokens.map String.ofList⟩ := by
  simp [Tuple.parse,trimChars_parenthesized,isParenthesized_parenthesized,inner,solid,Tuple.split,split]

theorem text_toList (ts : List String) :
    (text ts).toList = '(' :: ([',',' '].intercalate (ts.map String.toList) ++ [')']) := by
  simp [text,String.toList_intercalate]

/-- The text of tokens reads as a tuple text. -/
theorem isTupleText_text (ts : List String) : isTupleText (text ts) = true := by
  rw [isTupleText,text_toList,trimChars_parenthesized,isParenthesized_parenthesized]

/-- Reading the text of tokens gives the tokens back. -/
theorem parse_text {ts : List String} (nonempty : ts ≠ []) (tokens : ∀ t ∈ ts, IsToken t) :
    Tuple.parse (text ts) = .ok ⟨ts⟩ := by
  obtain ⟨t,more,rfl⟩ := List.exists_cons_of_ne_nil nonempty
  have solid : Text.trimChars ([',',' '].intercalate ((t :: more).map String.toList)) ≠ [] := by
    cases more with
    | nil => simpa using @IsToken.trimChars_ne_nil t (tokens t (by simp)) []
    | cons t' rest => simpa [List.append_assoc] using (tokens t (by simp)).trimChars_ne_nil
  have split := @splitOuter_intercalate _ nonempty tokens [] (by simp)
  rw [← @String.ofList_toList (text (t :: more)),text_toList,parse_parenthesized solid split]
  simp [List.map_map,Function.comp_def]

/-! ### Plain names -/

/-- A plain name: not empty, with no blank at either end, and free of the characters that
tuples, lists and quotes are made of. -/
def IsPlainName (s : String) : Prop :=
  s ≠ "" ∧ Text.trimChars s.toList = s.toList ∧ ∀ c ∈ s.toList, c ∉ ['(', ')', '[', ']', ',', ';', '"']

/-- The scan passes a text of ordinary characters unchanged. -/
theorem scanThrough_ordinary {sep : Char} :
    ∀ {cs : List Char}, (∀ c ∈ cs, c ≠ '"' ∧ c ≠ '[' ∧ c ≠ ']' ∧ c ≠ sep) →
      ∀ {quoted : Bool} {depth : Nat} {current : List Char},
        scanThrough sep cs quoted depth current = some (quoted,depth,cs.reverse ++ current)
  | [], _, _, _, _ => by simp [scanThrough]
  | c :: cs, ordinary, quoted, depth, current => by
    obtain ⟨notQuote,notOpen,notClose,notSep⟩ := ordinary c (by simp)
    have rest := @scanThrough_ordinary sep cs (fun c' mem => ordinary c' (List.mem_cons_of_mem c mem))
      quoted depth (c :: current)
    simp [scanThrough,notQuote,notOpen,notClose,notSep,rest]

namespace IsPlainName
variable {s : String} (plain : IsPlainName s)
include plain

theorem head_ne {c : Char} (special : c ∈ ['(', ')', '[', ']', ',', ';', '"']) :
    s.toList.head? ≠ some c := by
  intro head
  exact plain.2.2 c (List.mem_of_mem_head? head) special

/-- A plain name has no quote, no bracket and no comma. -/
theorem ordinary : ∀ c ∈ s.toList, c ≠ '"' ∧ c ≠ '[' ∧ c ≠ ']' ∧ c ≠ ',' := fun c mem => by
  have ordinary := plain.2.2 c mem
  simp only [List.mem_cons,List.not_mem_nil,or_false,not_or] at ordinary
  obtain ⟨-,-,notOpen,notClose,notComma,-,notQuote⟩ := ordinary
  exact ⟨notQuote,notOpen,notClose,notComma⟩

theorem isToken : IsToken s := by
  refine ⟨plain.1,?_⟩
  have scanned := @scanThrough_ordinary ',' s.toList plain.ordinary false 0 []
  have ended := Tuple.splitOuter_append scanned []
  rw [List.append_nil] at ended
  simp [ended,splitOuter,plain.2.1]

theorem isTupleText : isTupleText s = false := by
  have := plain.head_ne (c := '(') (by simp)
  simp_all [Tuple.isTupleText,isParenthesized,plain.2.1]

theorem unquote : unquote s.toList = s.toList := by
  have := plain.head_ne (c := '"') (by simp)
  simp_all [Tuple.unquote,isQuoted]

theorem valueOf : valueOf s.toList = .ok (coerce s) := by
  have notQuote := plain.head_ne (c := '"') (by simp)
  have notOpen := plain.head_ne (c := '[') (by simp)
  rw [Tuple.valueOf]
  simp_all [isQuoted,isBracketed]

end IsPlainName

/-- Names that unquoting leaves as they are read as columns are themselves. -/
theorem columns_of_unquote {names : List String} (same : ∀ n ∈ names, Tuple.unquote n.toList = n.toList) :
    (⟨names⟩ : Tuple).columns = names := by
  calc names.map (fun n => String.ofList (Tuple.unquote n.toList))
      _ = names.map id := List.map_congr_left fun n mem => by simp [same n mem]
      _ = names := List.map_id names

/-- Plain names read as columns are themselves. -/
theorem columns_of_plain {names : List String} (plain : ∀ n ∈ names, IsPlainName n) :
    (⟨names⟩ : Tuple).columns = names :=
  columns_of_unquote fun n mem => (plain n mem).unquote

end QueryFilters.Tuple
