import QueryFilters.Apply
import QueryFilters.Proofs.Firing

/-!
Parameter blocks. The filters of a read are made of pieces (`Query.Pieces`): the block of an
invocation, which is the invocation filter of a registered function followed at once by one
argument filter per parameter carrying the value the invocation supplies (`Query.Supplies`), or
the filters of an entry read by its shape. One entry read from a sound state gives pieces and
leaves a sound state (`readEntry_pieces`), so a whole pass does (`readEntries_pieces`), and the
arguments of every invocation of a read are found among its filters
(`Query.read_parameter_blocks`).

An entry read by its shape makes no invocation, but it makes an argument filter where its filter
word is `function_parameter` (`Filter.create_raw_argument`): such an argument stands outside
every block, and when it comes first its value is the one the function is given.
-/

namespace QueryFilters

open Invocation

/-- Where the arguments of an invocation come from: the query's columns of the parameters (an
invocation by list or by parameters), the value under the function's name, one tuple of the
value of a tuple key led by the function column, or the value of a tuple key of the parameters
in any order. -/
inductive Query.Supplies (q : Query) (r : Registry) (column : String) (e : Entry) :
    List (String × Json) → Prop
  | columns {pairs : List (String × Json)} : q.argumentsOf e.parameters = some pairs →
      Supplies q r column e pairs
  | value {v : Json} {pairs : List (String × Json)} : (e.name,v) ∈ q →
      byNameArguments e.parameters v = some pairs → Supplies q r column e pairs
  | tuple {c : String} {v item : Json} {t : Tuple} {pairs : List (String × Json)} : (c,v) ∈ q →
      Tuple.parse c = .ok t → t.firstColumn? = some column → (item = v ∨ ∃ items, v = .arr items ∧ item ∈ items) →
      tupleBlock r t.size item = some (e,pairs) → Supplies q r column e pairs
  | parameterTuple {c : String} {v : Json} {t : Tuple} {pairs : List (String × Json)} : (c,v) ∈ q →
      Tuple.parse c = .ok t → t.columns.Perm e.parameters → parameterTupleArguments t.columns v = some pairs →
      Supplies q r column e pairs

/-- A piece of the filters of a read: the block of an invocation of a registered function, or the
filters of an entry read by its shape. -/
inductive Query.Piece (q : Query) (r : Registry) (column : String) : List Filter → Prop
  | block {e : Entry} {pairs : List (String × Json)} : e ∈ r.entries → q.Supplies r column e pairs →
      Piece q r column (e.invocation :: argumentFilters pairs)
  | ordinary {c : String} {v : Json} {fs : List Filter} : (c,v) ∈ q → Shape.reading c v = .ok fs →
      Piece q r column fs

/-- Filters made of pieces, in order. -/
def Query.Pieces (q : Query) (r : Registry) (column : String) (fs : List Filter) : Prop :=
  ∃ pieces : List (List Filter), fs = pieces.flatten ∧ ∀ piece ∈ pieces, q.Piece r column piece

/-! ### Arguments of a block -/

theorem Invocation.tupleBlock_map_fst {r : Registry} {n : Nat} {item : Json} {e : Entry}
    {pairs : List (String × Json)} (made : tupleBlock r n item = some (e,pairs)) : pairs.map Prod.fst = e.parameters := by
  simp only [tupleBlock,Option.bind_eq_bind,Option.bind_eq_some_iff,Except.toOption_eq_some] at made
  obtain ⟨_,_,_,_,vals,_,e',_,given⟩ := made
  split at given
  · next enough =>
    simp only [Option.some.injEq,Prod.mk.injEq] at given
    obtain ⟨rfl,rfl⟩ := given
    exact List.map_fst_zip enough
  · cases given

/-- The arguments an invocation supplies are one per parameter: in the declared order, or in
the order of the column tuple of an invocation by a tuple of parameters. -/
theorem Query.Supplies.map_fst {q : Query} {r : Registry} {column : String} {e : Entry}
    {pairs : List (String × Json)} (supplies : q.Supplies r column e pairs) :
    pairs.map Prod.fst = e.parameters ∨ ∃ c v t, (c,v) ∈ q ∧ Tuple.parse c = .ok t ∧
      t.columns.Perm e.parameters ∧ pairs.map Prod.fst = t.columns := by
  cases supplies with
  | columns given => exact .inl (Query.argumentsOf_map_fst given)
  | value _ given => exact .inl (byNameArguments_map_fst given)
  | tuple _ _ _ _ made => exact .inl (tupleBlock_map_fst made)
  | parameterTuple member parsed perm given =>
    exact .inr ⟨_,_,_,member,parsed,perm,parameterTupleArguments_map_fst given⟩

theorem Query.Supplies.map_fst_perm {q : Query} {r : Registry} {column : String} {e : Entry}
    {pairs : List (String × Json)} (supplies : q.Supplies r column e pairs) : (pairs.map Prod.fst).Perm e.parameters := by
  rcases supplies.map_fst with same | ⟨_,_,_,_,_,perm,same⟩
  · rw [same]
  · rw [same]
    exact perm

/-! ### Ordinary filters -/

/-- The factory makes an argument filter only of the word `function_parameter`, on the column and
with the value it is given. -/
theorem Filter.create_raw_argument {c w p : String} {x : Json} {y : Value}
    (made : Filter.create c w (.raw x) = .ok (.argument p y)) :
    w.toLower = "function_parameter" ∧ p = c ∧ y = .raw x := by
  unfold Filter.create at made
  split at made <;> simp_all [Except.map]
  split at made <;> simp_all

/-- The argument filters of an entry read by its shape come from the word `function_parameter`. -/
theorem Shape.reading_argument {c : String} {v : Json} {fs : List Filter} (read : Shape.reading c v = .ok fs)
    {p : String} {y : Value} (member : Filter.argument p y ∈ fs) :
    ∃ w x, w.toLower = "function_parameter" ∧ Filter.create p w (.raw x) = .ok (.argument p y) := by
  obtain ⟨c',w,x,made⟩ := Shape.reading_made read _ member
  obtain ⟨word,rfl,-⟩ := Filter.create_raw_argument made
  exact ⟨w,x,word,made⟩

/-! ### Pieces -/

section Pieces
variable {q : Query} {r : Registry} {column : String}

theorem Query.Pieces.nil : q.Pieces r column [] := ⟨[],rfl,by simp⟩

theorem Query.Pieces.of_piece {fs : List Filter} (piece : q.Piece r column fs) : q.Pieces r column fs :=
  ⟨[fs],by simp,by simpa using piece⟩

theorem Query.Pieces.append {fs fs' : List Filter} (first : q.Pieces r column fs) (rest : q.Pieces r column fs') :
    q.Pieces r column (fs ++ fs') := by
  obtain ⟨pieces,rfl,valid⟩ := first
  obtain ⟨pieces',rfl,valid'⟩ := rest
  refine ⟨pieces ++ pieces',by simp,fun piece member => ?_⟩
  rcases List.mem_append.mp member with old | new
  · exact valid piece old
  · exact valid' piece new

theorem Query.Pieces.blockFilters {blocks : List (Entry × List (String × Json))}
    (blocked : ∀ b ∈ blocks, b.1 ∈ r.entries ∧ q.Supplies r column b.1 b.2) : q.Pieces r column (blockFilters blocks) := by
  refine ⟨blocks.map fun b => b.1.invocation :: argumentFilters b.2,by simp [Invocation.blockFilters,List.flatMap],?_⟩
  intro piece member
  obtain ⟨b,inBlocks,rfl⟩ := List.mem_map.mp member
  exact .block (blocked b inBlocks).1 (blocked b inBlocks).2

end Pieces

theorem Invocation.tupleBlocks_items {r : Registry} {n : Nat} {v : Json}
    {blocks : List (Entry × List (String × Json))} (made : tupleBlocks r n v = some blocks) :
    ∀ b ∈ blocks, ∃ item, (item = v ∨ ∃ items, v = .arr items ∧ item ∈ items) ∧ tupleBlock r n item = some b := by
  intro b member
  cases v with
  | arr items =>
    obtain ⟨item,inItems,block⟩ := List.mapM_option_mem_right made b member
    exact ⟨item,.inr ⟨items,rfl,inItems⟩,block⟩
  | _ =>
    simp only [tupleBlocks,Option.map_eq_some_iff] at made
    obtain ⟨b',block,rfl⟩ := made
    rw [List.mem_singleton.mp member]
    exact ⟨_,.inl rfl,block⟩

/-! ### One entry -/

section Step
variable {q : Query} {r : Registry} {column : String} (wf : r.WellFormed)
  (notColumn : ∀ e ∈ r.entries, column ∉ e.parameters) {s : PassState} (sound : s.Sound r column)
  {c : String} {v : Json} (member : (c,v) ∈ q) {out : List Filter} {s' : PassState}
include wf sound

omit member in
include notColumn in
theorem Recognition.explicitByList_pieces
    (read : (Recognition.explicitByList.parse (q.scope r column) c v).ends s = some (out,s')) :
    q.Pieces r column out ∧ s'.Sound r column := by
  rw [parse_explicitByList_ends wf sound notColumn] at read
  by_cases consumed : column ∈ s.consumed
  · simp only [consumed,if_true,Option.some.injEq,Prod.mk.injEq] at read
    obtain ⟨rfl,rfl⟩ := read
    exact ⟨Query.Pieces.nil,sound⟩
  simp only [consumed,if_false,Option.bind_eq_some_iff,Except.toOption_eq_some] at read
  obtain ⟨names,-,blocks,made,fresh⟩ := read
  split at fresh
  · next distinct =>
    simp only [Option.some.injEq,Prod.mk.injEq] at fresh
    obtain ⟨rfl,rfl⟩ := fresh
    have blocked : ∀ b ∈ blocks, b.1 ∈ r.entries ∧ q.Supplies r column b.1 b.2 := by
      intro b inBlocks
      obtain ⟨name,-,block⟩ := List.mapM_option_mem_right made b inBlocks
      obtain ⟨entry,-,given⟩ := listedBlock_eq block
      exact ⟨entry,.columns given⟩
    have apart : ((s.extend ⟨[],[],[column]⟩).firedNames ++
        (blocksDelta .explicitByList true blocks).firedNames).Nodup := by
      rw [PassState.firedNames_extend,Invocation.blocksDelta_firedNames]
      simpa using (sound.freshBlocks_iff blocks).mp distinct
    exact ⟨Query.Pieces.blockFilters blocked,sound.consumeColumn.extend
      (sound_blocksDelta (fun b inBlocks => (blocked b inBlocks).1) distinct.1) apart⟩
  · cases fresh

include member in
theorem Recognition.explicitByName_pieces
    (accepts : Recognition.explicitByName.supports (q.scope r column) s c v = .ok true)
    (read : (Recognition.explicitByName.parse (q.scope r column) c v).ends s = some (out,s')) :
    q.Pieces r column out ∧ s'.Sound r column := by
  rw [Recognition.supports_explicitByName] at accepts
  simp only [Except.ok.injEq,Bool.and_eq_true,Bool.not_eq_true'] at accepts
  obtain ⟨e,entry,rfl⟩ := Registry.isRegistered_iff.mp accepts.2
  have wfScope : (q.scope r column).registry.WellFormed := wf
  rw [parse_explicitByName_ends wfScope sound entry v] at read
  simp only [Option.bind_eq_some_iff] at read
  obtain ⟨pairs,given,fresh⟩ := read
  split at fresh
  · cases fresh
  · next unfired =>
    simp only [Option.some.injEq,Prod.mk.injEq] at fresh
    obtain ⟨rfl,rfl⟩ := fresh
    exact ⟨Query.Pieces.of_piece (.block entry (.value member given)),
      sound.record entry unfired (fun _ owned => owned) (by simp)⟩

include member in
theorem Recognition.explicitByTuple_pieces
    (accepts : Recognition.explicitByTuple.supports (q.scope r column) s c v = .ok true)
    (read : (Recognition.explicitByTuple.parse (q.scope r column) c v).ends s = some (out,s')) :
    q.Pieces r column out ∧ s'.Sound r column := by
  rw [Recognition.supports_explicitByTuple] at accepts
  split at accepts
  · cases parsed : Tuple.parse c with
    | error _ => simp [parsed,Except.map] at accepts
    | ok t =>
      simp only [parsed,Except.map,Except.ok.injEq,beq_iff_eq] at accepts
      have wfScope : (q.scope r column).registry.WellFormed := wf
      rw [parse_explicitByTuple_ends wfScope sound c v] at read
      simp only [parsed,Except.toOption_ok,Option.bind_some,Option.bind_eq_some_iff] at read
      obtain ⟨blocks,made,fresh⟩ := read
      split at fresh
      · next distinct =>
        simp only [Option.some.injEq,Prod.mk.injEq] at fresh
        obtain ⟨rfl,rfl⟩ := fresh
        have blocked : ∀ b ∈ blocks, b.1 ∈ r.entries ∧ q.Supplies r column b.1 b.2 := by
          intro b inBlocks
          obtain ⟨item,from_,block⟩ := tupleBlocks_items made b inBlocks
          exact ⟨tupleBlock_registered block,.tuple member parsed accepts from_ block⟩
        exact ⟨Query.Pieces.blockFilters blocked,sound.extend
          (sound_blocksDelta (fun b inBlocks => (blocked b inBlocks).1) distinct.1)
          (by rw [Invocation.blocksDelta_firedNames]; exact (sound.freshBlocks_iff blocks).mp distinct)⟩
      · cases fresh
  · cases accepts

include member in
theorem Recognition.implicitByTuple_pieces
    (accepts : Recognition.implicitByTuple.supports (q.scope r column) s c v = .ok true)
    (read : (Recognition.implicitByTuple.parse (q.scope r column) c v).ends s = some (out,s')) :
    q.Pieces r column out ∧ s'.Sound r column := by
  rw [Recognition.supports_implicitByTuple] at accepts
  split at accepts
  · cases parsed : Tuple.parse c with
    | error _ => simp [parsed,Except.map] at accepts
    | ok t =>
      simp only [parsed,Except.map,Except.ok.injEq,Bool.not_eq_true',List.isEmpty_eq_false_iff] at accepts
      obtain ⟨name,named⟩ := List.exists_mem_of_ne_nil _ accepts
      simp only [Registry.namesByAllParameters,List.mem_map,List.mem_filter,List.isPerm_iff] at named
      obtain ⟨e,⟨entry,perm⟩,rfl⟩ := named
      have wfScope : (q.scope r column).registry.WellFormed := wf
      rw [parse_implicitByTuple_ends wfScope sound parsed entry perm.symm v] at read
      simp only [Option.bind_eq_some_iff] at read
      obtain ⟨pairs,given,fresh⟩ := read
      split at fresh
      · cases fresh
      · next unfired =>
        simp only [Option.some.injEq,Prod.mk.injEq] at fresh
        obtain ⟨rfl,rfl⟩ := fresh
        exact ⟨Query.Pieces.of_piece (.block entry (.parameterTuple member parsed perm.symm given)),
          sound.record entry unfired (fun p named => perm.symm.subset named) (by simp)⟩
  · cases accepts

omit member in
include notColumn in
theorem Recognition.implicitByValue_pieces
    (accepts : Recognition.implicitByValue.supports (q.scope r column) s c v = .ok true)
    (read : (Recognition.implicitByValue.parse (q.scope r column) c v).ends s = some (out,s')) :
    q.Pieces r column out ∧ s'.Sound r column := by
  rw [Recognition.supports_implicitByValue] at accepts
  simp only [Except.ok.injEq,Bool.and_eq_true,Bool.not_eq_true',List.isEmpty_eq_false_iff] at accepts
  obtain ⟨name,completes⟩ := List.exists_mem_of_ne_nil _ accepts.2
  have only := List.eq_singleton_of_length_le_one completes (Invocation.length_completed_le wf c)
  obtain ⟨e,entry,rfl,-,-,present⟩ := (Invocation.mem_completed wf).mp completes
  obtain ⟨pairs,given⟩ := Query.argumentsOf_of_given present
  rw [parse_implicitByValue_ends wf sound notColumn entry only given v] at read
  split at read
  · simp only [Option.some.injEq,Prod.mk.injEq] at read
    obtain ⟨rfl,rfl⟩ := read
    exact ⟨Query.Pieces.nil,sound⟩
  · cases read
  · next unfired =>
    simp only [Option.some.injEq,Prod.mk.injEq] at read
    obtain ⟨rfl,rfl⟩ := read
    exact ⟨Query.Pieces.of_piece (.block entry (.columns given)),
      sound.record entry (PassState.firedBy_eq_none.mp unfired) (fun _ owned => owned) (fun _ owned => owned)⟩

include notColumn member in
/-- Each way of recognition that accepts an entry reads it into pieces and keeps the state
sound. -/
theorem Recognition.parse_pieces {how : Recognition} (accepts : how.supports (q.scope r column) s c v = .ok true)
    (read : (how.parse (q.scope r column) c v).ends s = some (out,s')) :
    q.Pieces r column out ∧ s'.Sound r column := by
  cases how with
  | explicitByList => exact Recognition.explicitByList_pieces wf notColumn sound read
  | explicitByName => exact Recognition.explicitByName_pieces wf sound member accepts read
  | explicitByTuple => exact Recognition.explicitByTuple_pieces wf sound member accepts read
  | implicitByTuple => exact Recognition.implicitByTuple_pieces wf sound member accepts read
  | implicitByValue => exact Recognition.implicitByValue_pieces wf notColumn sound accepts read

include notColumn member in
/-- The step of a pass: one entry, read from a sound state, gives pieces and leaves a sound
state. -/
theorem readEntry_pieces (read : (readEntry (q.scope r column) c v).ends s = some (out,s')) :
    q.Pieces r column out ∧ s'.Sound r column := by
  rw [readEntry_ends] at read
  split at read
  · cases read
  · -- function recognition accepts the entry, or the entry's column was consumed
    rw [Invocation.parse_ends] at read
    split at read
    · cases read
    · next how found =>
      exact Recognition.parse_pieces wf notColumn sound member (Recognition.supports_of_find? found) read
    · simp only [Option.some.injEq,Prod.mk.injEq] at read
      obtain ⟨rfl,rfl⟩ := read
      exact ⟨Query.Pieces.nil,sound⟩
  · -- the entry is read by its shape
    simp only [PassM.ends_lift] at read
    split at read
    · next fs shaped =>
      simp only [Option.some.injEq,Prod.mk.injEq] at read
      obtain ⟨rfl,rfl⟩ := read
      exact ⟨Query.Pieces.of_piece (.ordinary member shaped),sound⟩
    · cases read

end Step

/-! ### A whole pass -/

section Run
variable {q : Query} {r : Registry} {column : String} (wf : r.WellFormed)
  (notColumn : ∀ e ∈ r.entries, column ∉ e.parameters)
include wf notColumn

/-- The run of a pass: entries of the query, read from a sound state, give pieces and leave a
sound state. The induction is on the entries, with the state generalised. -/
theorem readEntries_pieces : ∀ (l : Query) {s : PassState} {out : List Filter} {s' : PassState},
    (∀ e ∈ l, e ∈ q) → s.Sound r column → (readEntries (q.scope r column) l).ends s = some (out,s') →
      q.Pieces r column out ∧ s'.Sound r column
  | [], s, out, s', _, sound, read => by
    simp only [readEntries,PassM.ends_pure,Option.some.injEq,Prod.mk.injEq] at read
    obtain ⟨rfl,rfl⟩ := read
    exact ⟨Query.Pieces.nil,sound⟩
  | (c,v) :: rest, s, out, s', sub, sound, read => by
    simp only [readEntries,PassM.ends_bind,PassM.ends_pure,Option.bind_eq_some_iff] at read
    obtain ⟨⟨fs,s₁⟩,first,⟨more,s₂⟩,later,done⟩ := read
    simp only [Option.some.injEq,Prod.mk.injEq] at done
    obtain ⟨rfl,rfl⟩ := done
    obtain ⟨pieces,sound₁⟩ := readEntry_pieces wf notColumn sound (sub (c,v) (by simp)) first
    obtain ⟨morePieces,sound₂⟩ :=
      readEntries_pieces rest (fun e named => sub e (by simp [named])) sound₁ later
    exact ⟨pieces.append morePieces,sound₂⟩

end Run

/-! ### The arguments of an invocation -/

theorem Filter.findArgument_of_mem {fs : List Filter} {p : String} {x : Value}
    (member : Filter.argument p x ∈ fs) : ∃ y, Filter.findArgument fs p = .ok y := by
  unfold Filter.findArgument
  split
  · next y _ => exact ⟨y,rfl⟩
  · next none =>
    have missing := List.findSome?_eq_none_iff.mp none _ member
    simp at missing

theorem mapM_findArgument {fs : List Filter} :
    ∀ {ps : List String}, (∀ p ∈ ps, ∃ x, Filter.argument p x ∈ fs) →
      ∃ args, (ps.mapM fun p => do
        let v ← Filter.findArgument fs p
        pure (p,v)) = .ok args ∧ args.map Prod.fst = ps
  | [], _ => ⟨[],rfl,rfl⟩
  | p :: rest, given => by
    obtain ⟨x,present⟩ := given p (by simp)
    obtain ⟨y,found⟩ := Filter.findArgument_of_mem present
    obtain ⟨args,more,names⟩ := @mapM_findArgument fs rest (fun p' named => given p' (by simp [named]))
    refine ⟨(p,y) :: args,?_,by simp [names]⟩
    rw [List.mapM_cons,more]
    simp [found,bind,Except.bind,pure,Except.pure]

/-- An invocation whose parameters all have an argument filter gets its arguments, one per
parameter in the declared order. -/
theorem argumentsFor_of_mem {r : Registry} (wf : r.WellFormed) {e : Entry} (entry : e ∈ r.entries)
    {fs : List Filter} (given : ∀ p ∈ e.parameters, ∃ x, Filter.argument p x ∈ fs) :
    ∃ args, argumentsFor r fs e.name = .ok args ∧ args.map Prod.fst = e.parameters := by
  obtain ⟨args,mapped,names⟩ := mapM_findArgument given
  refine ⟨args,?_,names⟩
  simp only [argumentsFor,Registry.parametersFor_of_mem wf entry,bind,Except.bind]
  exact mapped

/-- An invocation among pieces heads a block, whose arguments are one per parameter. -/
theorem Query.Pieces.invocation_block {q : Query} {r : Registry} {column : String} {fs : List Filter}
    (pieces : q.Pieces r column fs) {c : String} {h : Handle} (member : Filter.invocation c h ∈ fs) :
    ∃ e ∈ r.entries, e.name = c ∧ ∀ p ∈ e.parameters, ∃ x, Filter.argument p x ∈ fs := by
  obtain ⟨pieces,rfl,valid⟩ := pieces
  obtain ⟨piece,inPieces,inPiece⟩ := List.mem_flatten.mp member
  cases valid piece inPieces with
  | block entry supplies =>
    have same := mem_block_invocation inPiece
    simp only [Entry.invocation,Filter.invocation.injEq] at same
    refine ⟨_,entry,same.1,fun p owned => ?_⟩
    obtain ⟨⟨p',x⟩,inPairs,rfl⟩ := List.mem_map.mp (supplies.map_fst_perm.symm.subset owned)
    refine ⟨.raw x,List.mem_flatten.mpr ⟨_,inPieces,?_⟩⟩
    exact List.mem_cons_of_mem _ (List.mem_map.mpr ⟨(p',x),inPairs,rfl⟩)
  | ordinary _ read =>
    have none := List.filterMap_eq_nil_iff.mp (Shape.reading_invoked? read) _ inPiece
    simp [Filter.invoked?] at none

/-- An argument filter among pieces is an argument of a block, or was made of the word
`function_parameter` by an entry read by its shape. -/
theorem Query.Pieces.argument_source {q : Query} {r : Registry} {column : String} {fs : List Filter}
    (pieces : q.Pieces r column fs) {p : String} {y : Value} (member : Filter.argument p y ∈ fs) :
    (∃ e ∈ r.entries, ∃ pairs, q.Supplies r column e pairs ∧ ∃ x, (p,x) ∈ pairs ∧ y = .raw x) ∨
      ∃ w x, w.toLower = "function_parameter" ∧ Filter.create p w (.raw x) = .ok (.argument p y) := by
  obtain ⟨pieces,rfl,valid⟩ := pieces
  obtain ⟨piece,inPieces,inPiece⟩ := List.mem_flatten.mp member
  cases valid piece inPieces with
  | block entry supplies =>
    rcases List.mem_cons.mp inPiece with clash | inArguments
    · cases clash
    · obtain ⟨⟨p',x⟩,inPairs,same⟩ := List.mem_map.mp inArguments
      simp only [Filter.argument.injEq] at same
      obtain ⟨rfl,rfl⟩ := same
      exact .inl ⟨_,entry,_,supplies,x,inPairs,rfl⟩
  | ordinary _ read => exact .inr (Shape.reading_argument read inPiece)

/-! ### Reads -/

/-- The filters of a read are blocks and ordinary readings: every invocation filter is followed
at once by the arguments its invocation supplies, one per parameter of the registered function,
so the arguments of every invocation are found among the read's filters; an argument filter
outside the blocks was made of the word `function_parameter`. -/
theorem Query.read_parameter_blocks {r : Registry} {column : String} (reachable : r.Reachable)
    (notColumn : ∀ e ∈ r.entries, column ∉ e.parameters) {q : Query} {fs : List Filter}
    (read : Query.read r column q = .ok fs) :
    q.Pieces r column fs ∧
      (∀ c h, Filter.invocation c h ∈ fs → ∃ e ∈ r.entries, e.name = c ∧
        ∃ args, argumentsFor r fs c = .ok args ∧ args.map Prod.fst = e.parameters) ∧
      ∀ p y, Filter.argument p y ∈ fs →
        (∃ e ∈ r.entries, ∃ pairs, q.Supplies r column e pairs ∧ ∃ x, (p,x) ∈ pairs ∧ y = .raw x) ∨
          ∃ w x, w.toLower = "function_parameter" ∧ Filter.create p w (.raw x) = .ok (.argument p y) := by
  have wf := reachable.wellFormed
  obtain ⟨s,ran⟩ := Query.read_eq_ok_iff.mp read
  obtain ⟨pieces,-⟩ := readEntries_pieces wf notColumn q (fun _ named => named) (PassState.sound_empty r column) ran
  refine ⟨pieces,fun c h member => ?_,fun p y member => pieces.argument_source member⟩
  obtain ⟨e,entry,rfl,given⟩ := pieces.invocation_block member
  exact ⟨e,entry,rfl,argumentsFor_of_mem wf entry given⟩

/-- A listed function's block: the invocation, then its two arguments. -/
theorem Query.read_parameter_blocks_listed :
    Query.read ⟨[⟨"f",["a","b"],.host 0,[]⟩]⟩ "F" [("F",.arr [.str "f"]),("a",.int 1),("b",.int 2)] =
        .ok [.invocation "f" ⟨"f",.host 0⟩,.argument "a" (.raw (.int 1)),.argument "b" (.raw (.int 2))] ∧
      Query.Pieces [("F",.arr [.str "f"]),("a",.int 1),("b",.int 2)] ⟨[⟨"f",["a","b"],.host 0,[]⟩]⟩ "F"
          [.invocation "f" ⟨"f",.host 0⟩,.argument "a" (.raw (.int 1)),.argument "b" (.raw (.int 2))] ∧
        (∀ c h, Filter.invocation c h ∈
            [.invocation "f" ⟨"f",.host 0⟩,.argument "a" (.raw (.int 1)),.argument "b" (.raw (.int 2))] →
          ∃ e ∈ (⟨[⟨"f",["a","b"],.host 0,[]⟩]⟩ : Registry).entries, e.name = c ∧
            ∃ args, argumentsFor ⟨[⟨"f",["a","b"],.host 0,[]⟩]⟩
              [.invocation "f" ⟨"f",.host 0⟩,.argument "a" (.raw (.int 1)),.argument "b" (.raw (.int 2))] c = .ok args ∧
              args.map Prod.fst = e.parameters) ∧
        ∀ p y, Filter.argument p y ∈
            [.invocation "f" ⟨"f",.host 0⟩,.argument "a" (.raw (.int 1)),.argument "b" (.raw (.int 2))] →
          (∃ e ∈ (⟨[⟨"f",["a","b"],.host 0,[]⟩]⟩ : Registry).entries, ∃ pairs,
              Query.Supplies [("F",.arr [.str "f"]),("a",.int 1),("b",.int 2)] ⟨[⟨"f",["a","b"],.host 0,[]⟩]⟩ "F" e pairs ∧
              ∃ x, (p,x) ∈ pairs ∧ y = .raw x) ∨
            ∃ w x, w.toLower = "function_parameter" ∧ Filter.create p w (.raw x) = .ok (.argument p y) :=
  have read : Query.read ⟨[⟨"f",["a","b"],.host 0,[]⟩]⟩ "F" [("F",.arr [.str "f"]),("a",.int 1),("b",.int 2)] =
      .ok [.invocation "f" ⟨"f",.host 0⟩,.argument "a" (.raw (.int 1)),.argument "b" (.raw (.int 2))] := by rfl
  ⟨read,Query.read_parameter_blocks (@Registry.Reachable.register {} ⟨[⟨"f",["a","b"],.host 0,[]⟩]⟩ "f" ["a","b"]
    (.host 0) [] .empty rfl) (by simp) read⟩

/-- The word `function_parameter` makes an argument filter outside every block: on a column that is
no parameter at all, and on the parameter of an invoked function ahead of its block, where it is
the argument the function is given. -/
theorem Query.read_function_parameter_word :
    Query.read ⟨[⟨"f",["a","b"],.host 0,[]⟩]⟩ "F" [("c",.obj [("function_parameter",.int 1)])] =
        .ok [.argument "c" (.raw (.int 1))] ∧
      ((Query.read ⟨[⟨"f",["a"],.host 0,[]⟩]⟩ "F" [("a[function_parameter]",.int 9),("a",.int 1)]).toOption.map
        fun fs => fs.map fun f => (f.column,f.value.display)) = some [("a","9"),("f","callable"),("a","1")] ∧
      ((Query.read ⟨[⟨"f",["a"],.host 0,[]⟩]⟩ "F" [("a[function_parameter]",.int 9),("a",.int 1)]).toOption.bind
        fun fs => (argumentsFor ⟨[⟨"f",["a"],.host 0,[]⟩]⟩ fs "f").toOption.map (·.map fun a => (a.1,a.2.display))) =
        some [("a","9")] :=
  ⟨by with_unfolding_all rfl,by decide +kernel,by decide +kernel⟩

end QueryFilters
