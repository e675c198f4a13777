import QueryFilters.Proofs.TupleText

/-!
The language of tuple texts. The scan that splits a tuple keeps whether it is inside quotes and
how many brackets are open (`Tuple.bracketScan`). A text is balanced (`Tuple.Balanced`) when that
scan never closes a bracket it did not open and ends outside quotes with every bracket closed. A
well-formed token (`Tuple.WellFormedToken`) is balanced, has no blank at either end, and has no
comma where the scan is outside quotes and brackets.

Splitting cuts a text at the separators the scan meets at the top level, and its tokens are the
parts trimmed (`Tuple.splitOuter_eq_ok_iff`). So a text reads as a tuple exactly when it trims to
a balanced inside, not all blank, between parentheses; the tokens read are well formed and are not
the one empty token; and any such list of tokens is read back from its text
(`Tuple.parse_language_round_trip`).
-/

namespace QueryFilters

namespace Text

theorem trimChars_append_blank (cs : List Char) {bs : List Char} (blank : ∀ b ∈ bs, isBlank b = true) :
    trimChars (cs ++ bs) = trimChars cs := by
  unfold trimChars
  rw [List.dropWhile_append]
  split
  · next allBlank =>
    have dropped : cs.dropWhile isBlank = [] := List.isEmpty_iff.mp allBlank
    have none : bs.dropWhile isBlank = [] := List.dropWhile_eq_nil_iff.mpr blank
    simp [dropped,none]
  · rw [List.reverse_append,List.dropWhile_append_of_pos (fun b mem => blank b (List.mem_reverse.mp mem))]

/-- A text is its trimmed part with blanks before and after. -/
theorem trimChars_decompose (cs : List Char) :
    ∃ before after, (∀ b ∈ before, isBlank b = true) ∧ (∀ b ∈ after, isBlank b = true) ∧
      cs = before ++ trimChars cs ++ after := by
  refine ⟨cs.takeWhile isBlank,((cs.dropWhile isBlank).reverse.takeWhile isBlank).reverse,
    fun b mem => List.mem_takeWhile_imp mem,fun b mem => List.mem_takeWhile_imp (List.mem_reverse.mp mem),?_⟩
  -- the rest after the leading blanks, reversed, is its trailing blanks and then the trimmed text
  have rest : cs.dropWhile isBlank = trimChars cs ++
      ((cs.dropWhile isBlank).reverse.takeWhile isBlank).reverse := by
    have split := List.takeWhile_append_dropWhile (p := isBlank) (l := (cs.dropWhile isBlank).reverse)
    calc cs.dropWhile isBlank
        _ = ((cs.dropWhile isBlank).reverse).reverse := (List.reverse_reverse _).symm
        _ = ((cs.dropWhile isBlank).reverse.takeWhile isBlank ++
            (cs.dropWhile isBlank).reverse.dropWhile isBlank).reverse := by rw [split]
        _ = _ := by rw [List.reverse_append]; rfl
  calc cs
      _ = cs.takeWhile isBlank ++ cs.dropWhile isBlank := (List.takeWhile_append_dropWhile ..).symm
      _ = cs.takeWhile isBlank ++ (trimChars cs ++
          ((cs.dropWhile isBlank).reverse.takeWhile isBlank).reverse) := congrArg _ rest
      _ = _ := (List.append_assoc ..).symm

@[simp] theorem trimChars_trimChars (cs : List Char) : trimChars (trimChars cs) = trimChars cs := by
  obtain ⟨before,after,blankBefore,blankAfter,split⟩ := trimChars_decompose cs
  calc trimChars (trimChars cs)
      _ = trimChars (before ++ trimChars cs ++ after) := by
        rw [List.append_assoc,Tuple.Text.trimChars_blank_append blankBefore,trimChars_append_blank _ blankAfter]
      _ = trimChars cs := by rw [← split]

end Text

namespace Tuple

/-- The quoting and the bracket depth after a text, from a given start: a quote toggles
quoting, `[` and `]` outside quotes open and close a bracket; nothing once a `]` closes no
bracket. -/
def bracketScan : List Char → Bool → Nat → Option (Bool × Nat)
  | [], quoted, depth => some (quoted,depth)
  | c :: rest, quoted, depth =>
    if c = '"' then bracketScan rest (!quoted) depth
    else if c = '[' ∧ quoted = false then bracketScan rest quoted (depth + 1)
    else if c = ']' ∧ quoted = false then
      if depth = 0 then none else bracketScan rest quoted (depth - 1)
    else bracketScan rest quoted depth

/-- The scan from the top level never closes a bracket it did not open, and ends outside quotes
with every bracket closed. -/
def Balanced (cs : List Char) : Prop := bracketScan cs false 0 = some (false,0)

/-- The scan from the top level meets no separator while outside quotes and brackets. -/
def NoTopSeparator (sep : Char) (cs : List Char) : Prop :=
  ∀ pre post, cs = pre ++ sep :: post → bracketScan pre false 0 ≠ some (false,0)

/-- A well-formed token of a tuple. -/
structure WellFormedToken (t : String) : Prop where
  balanced : Balanced t.toList
  trimmed : Text.trimChars t.toList = t.toList
  noComma : NoTopSeparator ',' t.toList

/-- How a split from a state cuts a text: a first part that the scan passes from that state back
to the top level, then segments after separators, each passed from the top level back to it. The
tokens are the parts trimmed, the first after what the split gathered before. -/
def Cuts (sep : Char) (cs : List Char) (quoted : Bool) (depth : Nat) (current : List Char)
    (toks : List (List Char)) : Prop :=
  ∃ (first : List Char) (segs : List (List Char)), cs = first ++ segs.flatMap (sep :: ·) ∧
    scanThrough sep first quoted depth [] = some (false,0,first.reverse) ∧
    (∀ s ∈ segs, scanThrough sep s false 0 [] = some (false,0,s.reverse)) ∧
    toks = Text.trimChars (current.reverse ++ first) :: segs.map Text.trimChars

/-! ### The bracket scan -/

theorem bracketScan_append : ∀ (xs ys : List Char) (quoted : Bool) (depth : Nat),
    bracketScan (xs ++ ys) quoted depth = (bracketScan xs quoted depth).bind fun st => bracketScan ys st.1 st.2
  | [], ys, quoted, depth => rfl
  | c :: xs, ys, quoted, depth => by
    simp only [List.cons_append,bracketScan]
    split_ifs <;> first | rfl | exact bracketScan_append xs ys _ _

/-- Blanks leave the scan where it is. -/
theorem bracketScan_blank : ∀ {bs : List Char}, (∀ b ∈ bs, Text.isBlank b = true) →
    ∀ quoted depth, bracketScan bs quoted depth = some (quoted,depth)
  | [], _, quoted, depth => rfl
  | b :: bs, blank, quoted, depth => by
    have isBlank := blank b (by simp)
    have notQuote : b ≠ '"' := by rintro rfl; simp [Text.isBlank] at isBlank
    have notOpen : b ≠ '[' := by rintro rfl; simp [Text.isBlank] at isBlank
    have notClose : b ≠ ']' := by rintro rfl; simp [Text.isBlank] at isBlank
    simp only [bracketScan,notQuote,notOpen,notClose,false_and,if_false]
    exact bracketScan_blank (fun b' mem => blank b' (by simp [mem])) quoted depth

/-- Trimming keeps a text balanced and free of separators at the top level. -/
theorem trimChars_top {sep : Char} {cs : List Char} (balanced : Balanced cs) (clear : NoTopSeparator sep cs) :
    Balanced (Text.trimChars cs) ∧ NoTopSeparator sep (Text.trimChars cs) := by
  obtain ⟨before,after,blankBefore,blankAfter,split⟩ := Text.trimChars_decompose cs
  have skipBefore : ∀ xs, bracketScan (before ++ xs) false 0 = bracketScan xs false 0 := fun xs => by
    simp [bracketScan_append,bracketScan_blank blankBefore]
  constructor
  · have whole : bracketScan cs false 0 = bracketScan (Text.trimChars cs) false 0 := by
      conv => lhs; rw [split,List.append_assoc,skipBefore,bracketScan_append]
      cases bracketScan (Text.trimChars cs) false 0 <;> simp [bracketScan_blank blankAfter]
    rw [Balanced,← whole]
    exact balanced
  · intro pre post inner top
    apply clear (before ++ pre) (post ++ after) (by rw [split,inner]; simp)
    rw [skipBefore]
    exact top

/-! ### The scan of a split -/

section Scan
variable {sep : Char}

/-- A statement about every place where a separator stands in `c :: rest`: the first place, or a
place in `rest`. -/
theorem forall_split_cons {P : List Char → Prop} {c : Char} {rest : List Char} :
    (∀ pre post, c :: rest = pre ++ sep :: post → P pre) ↔
      (c = sep → P []) ∧ ∀ pre post, rest = pre ++ sep :: post → P (c :: pre) := by
  constructor
  · intro all
    exact ⟨fun first => all [] rest (by simp [first]),
      fun pre post split => all (c :: pre) post (by simp [split])⟩
  · rintro ⟨first,later⟩ pre post split
    cases pre with
    | nil =>
      simp only [List.nil_append,List.cons.injEq] at split
      exact first split.1
    | cons x pre =>
      simp only [List.cons_append,List.cons.injEq] at split
      obtain ⟨rfl,split⟩ := split
      exact later pre post split

variable (quote : sep ≠ '"') (opening : sep ≠ '[') (closing : sep ≠ ']')
include quote opening closing

/-- The scan of a split passes a text exactly when the bracket scan passes it and is never at the
top level where a separator stands; it gathers the text. -/
theorem scanThrough_eq_some_iff : ∀ {cs : List Char} {quoted : Bool} {depth : Nat} {current : List Char}
    {quoted' : Bool} {depth' : Nat} {current' : List Char},
    scanThrough sep cs quoted depth current = some (quoted',depth',current') ↔
      bracketScan cs quoted depth = some (quoted',depth') ∧
        (∀ pre post, cs = pre ++ sep :: post → bracketScan pre quoted depth ≠ some (false,0)) ∧
        current' = cs.reverse ++ current
  | [], quoted, depth, current, quoted', depth', current' => by
    simp only [scanThrough,bracketScan,Option.some.injEq,Prod.mk.injEq,List.reverse_nil,List.nil_append]
    constructor
    · rintro ⟨rfl,rfl,rfl⟩
      exact ⟨⟨rfl,rfl⟩,fun pre post empty => absurd empty.symm (by simp),rfl⟩
    · rintro ⟨⟨rfl,rfl⟩,-,rfl⟩
      exact ⟨rfl,rfl,rfl⟩
  | c :: rest, quoted, depth, current, quoted', depth', current' => by
    rw [forall_split_cons]
    have gathered : (c :: rest).reverse ++ current = rest.reverse ++ c :: current := by simp
    rw [gathered]
    by_cases isQuote : c = '"'
    · subst isQuote
      simp only [scanThrough,bracketScan,if_true,Ne.symm quote,false_implies,true_and]
      exact scanThrough_eq_some_iff
    by_cases isOpen : c = '[' ∧ quoted = false
    · obtain ⟨rfl,rfl⟩ := isOpen
      simp only [scanThrough,bracketScan,Ne.symm opening,false_implies,true_and,and_self,if_true]
      exact scanThrough_eq_some_iff
    by_cases isClose : c = ']' ∧ quoted = false
    · obtain ⟨rfl,rfl⟩ := isClose
      by_cases top : depth = 0
      · subst top
        simp [scanThrough,bracketScan]
      · simp only [scanThrough,bracketScan,Ne.symm closing,false_implies,true_and,and_self,if_true,
          top,if_false]
        exact scanThrough_eq_some_iff
    have ordinary : bracketScan (c :: rest) quoted depth = bracketScan rest quoted depth := by
      simp only [bracketScan,isQuote,isOpen,isClose,if_false]
    have ordinaryPre : ∀ pre, bracketScan (c :: pre) quoted depth = bracketScan pre quoted depth := by
      intro pre
      simp only [bracketScan,isQuote,isOpen,isClose,if_false]
    simp only [ordinary,ordinaryPre]
    by_cases separates : c = sep ∧ quoted = false ∧ depth = 0
    · obtain ⟨rfl,rfl,rfl⟩ := separates
      simp [scanThrough,quote,opening,closing,bracketScan]
    · have unfolded : scanThrough sep (c :: rest) quoted depth current =
          scanThrough sep rest quoted depth (c :: current) := by
        simp only [scanThrough,isQuote,isOpen,isClose,separates,if_false]
      rw [unfolded,scanThrough_eq_some_iff]
      have away : c = sep → bracketScan [] quoted depth ≠ some (false,0) := by
        rintro rfl same
        simp only [bracketScan,Option.some.injEq,Prod.mk.injEq] at same
        exact separates ⟨rfl,same⟩
      constructor
      · rintro ⟨scanned,clear,gathered⟩
        exact ⟨scanned,⟨away,clear⟩,gathered⟩
      · rintro ⟨scanned,⟨-,clear⟩,gathered⟩
        exact ⟨scanned,clear,gathered⟩

/-- The scan passes a text from the top level back to the top level, meeting no separator there,
exactly when the text is balanced and has no separator at the top level. -/
theorem scanThrough_top_iff {cs : List Char} :
    scanThrough sep cs false 0 [] = some (false,0,cs.reverse) ↔ Balanced cs ∧ NoTopSeparator sep cs := by
  rw [scanThrough_eq_some_iff quote opening closing]
  simp [Balanced,NoTopSeparator]

/-- A split succeeds exactly when the bracket scan ends outside quotes with every bracket
closed. -/
theorem splitOuter_isOk_iff : ∀ {cs : List Char} {quoted : Bool} {depth : Nat} {current : List Char},
    (∃ toks, splitOuter sep cs quoted depth current = .ok toks) ↔ bracketScan cs quoted depth = some (false,0)
  | [], quoted, depth, current => by
    cases quoted <;> by_cases top : depth = 0 <;> simp [splitOuter,bracketScan,top]
  | c :: rest, quoted, depth, current => by
    by_cases isQuote : c = '"'
    · subst isQuote
      simp only [splitOuter,bracketScan,if_true]
      exact splitOuter_isOk_iff
    by_cases isOpen : c = '[' ∧ quoted = false
    · obtain ⟨rfl,rfl⟩ := isOpen
      simp only [splitOuter,bracketScan,and_self,if_true]
      exact splitOuter_isOk_iff
    by_cases isClose : c = ']' ∧ quoted = false
    · obtain ⟨rfl,rfl⟩ := isClose
      by_cases top : depth = 0
      · simp [splitOuter,bracketScan,top]
      · simp only [splitOuter,bracketScan,and_self,if_true,top,if_false]
        exact splitOuter_isOk_iff
    have ordinary : bracketScan (c :: rest) quoted depth = bracketScan rest quoted depth := by
      simp only [bracketScan,isQuote,isOpen,isClose,if_false]
    rw [ordinary]
    by_cases separates : c = sep ∧ quoted = false ∧ depth = 0
    · obtain ⟨same,rfl,rfl⟩ := separates
      have more : (∃ toks, splitOuter sep rest false 0 [] = .ok toks) ↔ bracketScan rest false 0 = some (false,0) :=
        splitOuter_isOk_iff
      simp only [splitOuter,same,and_self,if_true]
      rw [← more]
      cases splitOuter sep rest false 0 [] <;> simp [Except.map,quote,opening,closing]
    · simp only [splitOuter,isQuote,isOpen,isClose,separates,if_false]
      exact splitOuter_isOk_iff

omit quote opening closing in
/-- A character that the scan passes without a separator joins the first part. -/
theorem Cuts.cons {c : Char} {rest : List Char} {quoted quoted' : Bool} {depth depth' : Nat}
    {current : List Char} {toks : List (List Char)}
    (step : ∀ xs, scanThrough sep (c :: xs) quoted depth [] = scanThrough sep xs quoted' depth' [c])
    (cut : Cuts sep rest quoted' depth' (c :: current) toks) : Cuts sep (c :: rest) quoted depth current toks := by
  obtain ⟨first,segs,rfl,passes,segments,rfl⟩ := cut
  refine ⟨c :: first,segs,rfl,?_,segments,by simp⟩
  rw [step,scanThrough_current,passes]
  simp

/-- A successful split cuts its text, by recursion on the text with the scan's state general. -/
theorem cuts_of_splitOuter : ∀ {cs : List Char} {quoted : Bool} {depth : Nat} {current : List Char}
    {toks : List (List Char)}, splitOuter sep cs quoted depth current = .ok toks → Cuts sep cs quoted depth current toks
  | [], quoted, depth, current, toks, split => by
    unfold splitOuter at split
    split_ifs at split with quotedEnd depthEnd
    simp only [Except.ok.injEq] at split
    simp only [Bool.not_eq_true] at quotedEnd
    simp only [ne_eq,Decidable.not_not] at depthEnd
    exact ⟨[],[],rfl,by simp [scanThrough,quotedEnd,depthEnd],by simp,by simp [split]⟩
  | c :: rest, quoted, depth, current, toks, split => by
    by_cases isQuote : c = '"'
    · subst isQuote
      simp only [splitOuter,if_true] at split
      exact Cuts.cons (fun xs => by simp [scanThrough]) (cuts_of_splitOuter split)
    by_cases isOpen : c = '[' ∧ quoted = false
    · obtain ⟨rfl,rfl⟩ := isOpen
      simp only [splitOuter,and_self,if_true] at split
      exact Cuts.cons (fun xs => by simp [scanThrough]) (cuts_of_splitOuter split)
    by_cases isClose : c = ']' ∧ quoted = false
    · obtain ⟨rfl,rfl⟩ := isClose
      by_cases top : depth = 0
      · simp [splitOuter,top] at split
      · simp only [splitOuter,and_self,if_true,top,if_false] at split
        exact Cuts.cons (fun xs => by simp [scanThrough,top]) (cuts_of_splitOuter split)
    by_cases separates : c = sep ∧ quoted = false ∧ depth = 0
    · obtain ⟨same,rfl,rfl⟩ := separates
      simp [splitOuter,same,quote,opening,closing] at split
      -- the separator ends an empty first part, and what follows is cut from the top level
      cases more : splitOuter sep rest false 0 [] with
      | error _ => simp [more,Except.map] at split
      | ok toks' =>
        simp only [more,Except.map,Except.ok.injEq] at split
        have cut : Cuts sep rest false 0 [] toks' := cuts_of_splitOuter more
        obtain ⟨first,segs,rfl,passes,segments,rfl⟩ := cut
        refine ⟨[],first :: segs,by simp [same],by simp [scanThrough],?_,by simp [← split]⟩
        intro s mem
        rcases List.mem_cons.mp mem with rfl | later
        · exact passes
        · exact segments s later
    · simp only [splitOuter,isQuote,isOpen,isClose,separates,if_false] at split
      exact Cuts.cons (fun xs => by simp [scanThrough,isQuote,isOpen,isClose,separates])
        (cuts_of_splitOuter split)

/-- Segments after separators, each passed by the scan from the top level back to it, split into
themselves trimmed, after what was gathered before. -/
theorem splitOuter_segments : ∀ {segs : List (List Char)},
    (∀ s ∈ segs, scanThrough sep s false 0 [] = some (false,0,s.reverse)) → ∀ current,
      splitOuter sep (segs.flatMap (sep :: ·)) false 0 current =
        .ok (Text.trimChars current.reverse :: segs.map Text.trimChars)
  | [], _, current => by simp [splitOuter]
  | s :: segs, passes, current => by
    have first := passes s (by simp)
    have more : ∀ current, splitOuter sep (segs.flatMap (sep :: ·)) false 0 current =
        .ok (Text.trimChars current.reverse :: segs.map Text.trimChars) :=
      splitOuter_segments (fun s' mem => passes s' (List.mem_cons_of_mem s mem))
    -- the separator ends the token gathered so far
    have ends : splitOuter sep (sep :: (s ++ segs.flatMap (sep :: ·))) false 0 current =
        (splitOuter sep (s ++ segs.flatMap (sep :: ·)) false 0 []).map (Text.trimChars current.reverse :: ·) := by
      simp [splitOuter,quote,opening,closing]
    rw [List.flatMap_cons,List.cons_append,ends,splitOuter_append first,more]
    simp [Except.map]

/-- A split succeeds exactly on a text it cuts, with the tokens of the cut. -/
theorem splitOuter_eq_ok_iff {cs : List Char} {quoted : Bool} {depth : Nat} {current : List Char}
    {toks : List (List Char)} :
    splitOuter sep cs quoted depth current = .ok toks ↔ Cuts sep cs quoted depth current toks := by
  refine ⟨cuts_of_splitOuter quote opening closing,?_⟩
  rintro ⟨first,segs,rfl,passes,segments,rfl⟩
  have gathered := @scanThrough_current sep first quoted depth current
  rw [passes] at gathered
  rw [splitOuter_append gathered,splitOuter_segments quote opening closing segments]
  simp

end Scan

/-! ### Reading a tuple -/

theorem comma_ordinary : ',' ≠ '"' ∧ ',' ≠ '[' ∧ ',' ≠ ']' := by decide

theorem isParenthesized_iff {cs : List Char} :
    isParenthesized cs = true ↔ ∃ inside, cs = '(' :: (inside ++ [')']) := by
  constructor
  · intro paren
    simp only [isParenthesized,Bool.and_eq_true,decide_eq_true_eq,beq_iff_eq] at paren
    obtain ⟨⟨long,opens⟩,closes⟩ := paren
    obtain ⟨body,rfl⟩ := List.getLast?_eq_some_iff.mp closes
    cases body with
    | nil => simp at long
    | cons c inside =>
      simp only [List.cons_append,List.head?_cons,Option.some.injEq] at opens
      exact ⟨inside,by rw [opens]; rfl⟩
  · rintro ⟨inside,rfl⟩
    exact isParenthesized_parenthesized inside

theorem inner_parenthesized (inside : List Char) : inner ('(' :: (inside ++ [')'])) = inside := by
  simp [inner]

/-- A text reads as a tuple when it trims to an inside between parentheses, not all blank, that
splits into the tuple's tokens. -/
theorem parse_eq_ok_iff_split {raw : String} {tuple : Tuple} :
    Tuple.parse raw = .ok tuple ↔ ∃ inside tokens, Text.trimChars raw.toList = '(' :: (inside ++ [')']) ∧
      Text.trimChars inside ≠ [] ∧ split ',' inside = .ok tokens ∧ tuple = ⟨tokens.map String.ofList⟩ := by
  constructor
  · intro read
    simp only [Tuple.parse] at read
    split_ifs at read with unparenthesized blank
    obtain ⟨inside,trimmed⟩ := isParenthesized_iff.mp (by simpa using unparenthesized)
    rw [trimmed,inner_parenthesized] at blank read
    cases splitting : split ',' inside with
    | error _ => simp [splitting] at read
    | ok tokens =>
      simp only [splitting,Except.ok.injEq] at read
      exact ⟨inside,tokens,trimmed,by simpa using blank,splitting,read.symm⟩
  · rintro ⟨inside,tokens,trimmed,solid,splitting,rfl⟩
    simp [Tuple.parse,trimmed,isParenthesized_parenthesized,inner_parenthesized,solid,splitting]

/-- A text reads as a tuple exactly when it trims to a balanced inside, not all blank, between
parentheses. -/
theorem parse_isOk_iff {raw : String} :
    (∃ t, Tuple.parse raw = .ok t) ↔ ∃ inside, Text.trimChars raw.toList = '(' :: (inside ++ [')']) ∧
      (∃ c ∈ inside, Text.isBlank c = false) ∧ Balanced inside := by
  have solid : ∀ {inside : List Char}, Text.trimChars inside ≠ [] ↔ ∃ c ∈ inside, Text.isBlank c = false := by
    intro inside
    rw [ne_eq,Text.trimChars_eq_nil_iff]
    simp
  obtain ⟨quote,opening,closing⟩ := comma_ordinary
  constructor
  · rintro ⟨t,read⟩
    obtain ⟨inside,tokens,trimmed,notBlank,splitting,-⟩ := parse_eq_ok_iff_split.mp read
    exact ⟨inside,trimmed,solid.mp notBlank,(splitOuter_isOk_iff quote opening closing).mp ⟨tokens,splitting⟩⟩
  · rintro ⟨inside,trimmed,notBlank,balanced⟩
    obtain ⟨tokens,splitting⟩ := (splitOuter_isOk_iff quote opening closing).mpr balanced
    exact ⟨_,parse_eq_ok_iff_split.mpr ⟨inside,tokens,trimmed,solid.mpr notBlank,splitting,rfl⟩⟩

/-- A part between separators, trimmed, is a well-formed token. -/
theorem wellFormedToken_trimChars {part : List Char} (passes : scanThrough ',' part false 0 [] = some (false,0,part.reverse)) :
    WellFormedToken (String.ofList (Text.trimChars part)) := by
  obtain ⟨quote,opening,closing⟩ := comma_ordinary
  obtain ⟨balanced,clear⟩ := (scanThrough_top_iff quote opening closing).mp passes
  obtain ⟨balanced',clear'⟩ := trimChars_top balanced clear
  exact ⟨by simpa using balanced',by simp,by simpa using clear'⟩

/-- The tokens read are some, not only the empty one, and each well formed. -/
theorem parse_tokens_wellFormed {raw : String} {tuple : Tuple} (read : Tuple.parse raw = .ok tuple) :
    tuple.tokens ≠ [] ∧ tuple.tokens ≠ [""] ∧ ∀ t ∈ tuple.tokens, WellFormedToken t := by
  obtain ⟨quote,opening,closing⟩ := comma_ordinary
  obtain ⟨inside,tokens,-,solid,splitting,rfl⟩ := parse_eq_ok_iff_split.mp read
  obtain ⟨first,segs,rfl,passes,segments,rfl⟩ := (splitOuter_eq_ok_iff quote opening closing).mp splitting
  refine ⟨by simp,?_,?_⟩
  · -- a single token is the trimmed inside, which is not empty
    cases segs with
    | nil =>
      simp only [List.flatMap_nil,List.append_nil] at solid
      simpa [String.ofList_eq_empty_iff] using solid
    | cons _ _ => simp
  · intro t member
    simp only [List.reverse_nil,List.nil_append,List.map_cons,List.map_map,List.mem_cons,List.mem_map,
      Function.comp_apply] at member
    rcases member with rfl | ⟨s,inSegs,rfl⟩
    · exact wellFormedToken_trimChars passes
    · exact wellFormedToken_trimChars (segments s inSegs)

/-- Texts joined by a separator and a space: the first, then each other after the separator and
a blank. -/
theorem intercalate_separator (sep : Char) (t : List Char) :
    ∀ rest : List (List Char), [sep,' '].intercalate (t :: rest) = t ++ (rest.map (' ' :: ·)).flatMap (sep :: ·)
  | [] => by simp
  | u :: rest => by
    rw [List.intercalate_cons_cons,intercalate_separator sep u rest]
    simp

/-- A blank before a well-formed token leaves a part between separators. -/
theorem WellFormedToken.passes_after_space {t : String} (token : WellFormedToken t) :
    scanThrough ',' (' ' :: t.toList) false 0 [] = some (false,0,(' ' :: t.toList).reverse) := by
  obtain ⟨quote,opening,closing⟩ := comma_ordinary
  have space : ∀ pre, bracketScan (' ' :: pre) false 0 = bracketScan pre false 0 := fun pre => by
    simp [bracketScan]
  refine (scanThrough_top_iff quote opening closing).mpr ⟨?_,?_⟩
  · rw [Balanced,space]
    exact token.balanced
  · refine forall_split_cons.mpr ⟨by decide,fun pre post split => ?_⟩
    rw [space]
    exact token.noComma pre post split

/-- The text of well-formed tokens, some and not only the empty one, reads as those tokens. -/
theorem parse_text_wellFormed {ts : List String} (nonempty : ts ≠ []) (notEmpty : ts ≠ [""])
    (wellFormed : ∀ t ∈ ts, WellFormedToken t) : Tuple.parse (text ts) = .ok ⟨ts⟩ := by
  obtain ⟨quote,opening,closing⟩ := comma_ordinary
  obtain ⟨t,rest,rfl⟩ := List.exists_cons_of_ne_nil nonempty
  have first := wellFormed t (by simp)
  have passes := (scanThrough_top_iff quote opening closing).mpr ⟨first.balanced,first.noComma⟩
  have segments : ∀ s ∈ rest.map (fun u => ' ' :: u.toList),
      scanThrough ',' s false 0 [] = some (false,0,s.reverse) := by
    intro s member
    obtain ⟨u,inRest,rfl⟩ := List.mem_map.mp member
    exact (wellFormed u (by simp [inRest])).passes_after_space
  have inside : [',',' '].intercalate ((t :: rest).map String.toList) =
      t.toList ++ (rest.map fun u => ' ' :: u.toList).flatMap (',' :: ·) := by
    rw [List.map_cons,intercalate_separator,List.map_map]
    rfl
  have splitting : split ',' ([',',' '].intercalate ((t :: rest).map String.toList)) =
      .ok (Text.trimChars ([].reverse ++ t.toList) :: (rest.map fun u => ' ' :: u.toList).map Text.trimChars) :=
    (splitOuter_eq_ok_iff quote opening closing).mpr ⟨_,_,inside,passes,segments,rfl⟩
  -- the inside is not blank: a comma, or the one token, which is not empty
  have solid : Text.trimChars ([',',' '].intercalate ((t :: rest).map String.toList)) ≠ [] := by
    rw [ne_eq,Text.trimChars_eq_nil_iff,inside]
    cases rest with
    | nil =>
      have named : t.toList ≠ [] := fun empty => notEmpty (by rw [String.toList_eq_nil_iff.mp empty])
      intro blank
      have trimmedAway : Text.trimChars t.toList = [] :=
        Text.trimChars_eq_nil_iff.mpr fun c mem => blank c (List.mem_append_left _ mem)
      rw [first.trimmed] at trimmedAway
      exact named trimmedAway
    | cons u more =>
      intro blank
      have comma := blank ',' (by simp)
      exact absurd comma (by decide)
  rw [parse_eq_ok_iff_split]
  refine ⟨_,_,by rw [text_toList,trimChars_parenthesized],solid,splitting,?_⟩
  have spaced : ∀ u ∈ rest, Text.trimChars (' ' :: u.toList) = u.toList := fun u inRest => by
    rw [show ' ' :: u.toList = [' '] ++ u.toList from rfl,Text.trimChars_blank_append (by simp [Text.isBlank]),
      (wellFormed u (by simp [inRest])).trimmed]
  simp only [List.reverse_nil,List.nil_append,first.trimmed,List.map_cons,List.map_map,Tuple.mk.injEq,
    List.cons.injEq,String.ofList_toList,true_and]
  symm
  calc rest.map (String.ofList ∘ Text.trimChars ∘ fun u => ' ' :: u.toList)
      _ = rest.map id := List.map_congr_left fun u inRest => by simp [spaced u inRest]
      _ = rest := List.map_id rest

/-- Reading a tuple accepts exactly the texts that trim to a balanced inside, not all blank,
between parentheses. The tokens it reads are well formed, some and not only the empty one; the
text of any such tokens reads back as them; so a tuple read and written again reads the same. -/
theorem parse_language_round_trip :
    (∀ raw : String, (∃ t, Tuple.parse raw = .ok t) ↔
      ∃ inside, Text.trimChars raw.toList = '(' :: (inside ++ [')']) ∧
        (∃ c ∈ inside, Text.isBlank c = false) ∧ Balanced inside) ∧
    (∀ ts : List String, ts ≠ [] → ts ≠ [""] → (∀ t ∈ ts, WellFormedToken t) →
      Tuple.parse (text ts) = .ok ⟨ts⟩) ∧
    ∀ (raw : String) (t : Tuple), Tuple.parse raw = .ok t →
      t.tokens ≠ [] ∧ t.tokens ≠ [""] ∧ (∀ x ∈ t.tokens, WellFormedToken x) ∧ Tuple.parse (text t.tokens) = .ok t := by
  refine ⟨fun _ => parse_isOk_iff,fun _ => parse_text_wellFormed,fun raw t read => ?_⟩
  obtain ⟨some,notEmpty,wellFormed⟩ := parse_tokens_wellFormed read
  exact ⟨some,notEmpty,wellFormed,parse_text_wellFormed some notEmpty wellFormed⟩

/-- The tuple `( x, , [1, 2] )`, with blanks around its tokens, an empty token and a list among
them, reads to its three tokens; each is well formed, and the text written back from them reads to
the same tuple. -/
theorem parse_language_round_trip_list :
    Tuple.parse "( x, , [1, 2] )" = .ok ⟨["x", "", "[1, 2]"]⟩ ∧
      (∀ x ∈ ["x", "", "[1, 2]"], WellFormedToken x) ∧
      Tuple.parse (text ["x", "", "[1, 2]"]) = .ok ⟨["x", "", "[1, 2]"]⟩ := by
  have read : Tuple.parse "( x, , [1, 2] )" = .ok ⟨["x", "", "[1, 2]"]⟩ := by decide
  obtain ⟨-, -, wellFormed, again⟩ := parse_language_round_trip.2.2 _ _ read
  exact ⟨read, wellFormed, again⟩

end Tuple

end QueryFilters
