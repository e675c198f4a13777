import QueryFilters.Proofs.Recognition
import QueryFilters.Query.Read

/-!
How a pass reads one entry. A pass reads its query only through the values under columns, so
two orders of one query are read by the same steps (`readEntries_congr`). The entries of a query
fall into parts read together: the function column with the parameters of the functions it
lists, the parameters of each complete function that is not listed, and every other entry on its
own. From a state that has read some parts, an entry of a part already read reads as nothing,
and an entry of a new part does what the part does from the empty state, unless it fires a
function that has fired.
-/
namespace QueryFilters

namespace Keyed

theorem get?_of_mem {α : Type} {l : List (String × α)} (distinct : (l.map Prod.fst).Nodup)
    {k : String} {v : α} (member : (k,v) ∈ l) : get? k l = some v := by
  induction l with
  | nil => simp at member
  | cons e rest ih =>
    obtain ⟨k',v'⟩ := e
    simp only [List.map_cons,List.nodup_cons] at distinct
    rcases List.mem_cons.mp member with same | later
    · simp_all [get?]
    · have other : k' ≠ k := fun same => distinct.1 (same ▸ List.mem_map_of_mem later)
      simp [get?,other,ih distinct.2 later]

theorem get?_eq_none {α : Type} {l : List (String × α)} {k : String} (absent : k ∉ l.map Prod.fst) :
    get? k l = none := by
  induction l with
  | nil => rfl
  | cons e rest ih =>
    simp only [List.map_cons,List.mem_cons,not_or] at absent
    simp [get?,Ne.symm absent.1,ih absent.2]

/-- Reordering a list of distinct keys changes no lookup. -/
theorem get?_perm {α : Type} {l l' : List (String × α)} (distinct : (l.map Prod.fst).Nodup)
    (perm : l.Perm l') (k : String) : get? k l = get? k l' := by
  have distinct' : (l'.map Prod.fst).Nodup := (perm.map Prod.fst).nodup_iff.mp distinct
  by_cases present : k ∈ l.map Prod.fst
  · obtain ⟨⟨k₀,v⟩,member,rfl⟩ := List.mem_map.mp present
    rw [get?_of_mem distinct member,get?_of_mem distinct' (perm.mem_iff.mp member)]
  · have absent : k ∉ l'.map Prod.fst := fun named => present ((perm.map Prod.fst).mem_iff.mpr named)
    rw [get?_eq_none present,get?_eq_none absent]

end Keyed

/-- A query reads into filters exactly when its pass ends. -/
theorem Query.read_eq_ok_iff {r : Registry} {column : String} {q : Query} {fs : List Filter} :
    Query.read r column q = .ok fs ↔ ∃ s, (readEntries (q.scope r column) q).ends {} = some (fs,s) := by
  unfold Query.read PassM.ends Query.scope
  cases (readEntries ⟨some q,r,column⟩ q).run {} <;> simp

/-! Firing reads only the registry of a scope, not its query. -/

theorem Invocation.fireTuples_scope (q q' : Query) (r : Registry) (column : String) (n : Nat)
    (items : List Json) :
    Invocation.fireTuples (q.scope r column) n items = Invocation.fireTuples (q'.scope r column) n items := by
  induction items with
  | nil => rfl
  | cons v rest ih =>
    simp only [Invocation.fireTuples,ih]
    rfl

theorem Invocation.fireAll_scope (q q' : Query) (r : Registry) (column : String) (how : Recognition)
    (names : List String) :
    Invocation.fireAll (q.scope r column) how names = Invocation.fireAll (q'.scope r column) how names := by
  induction names with
  | nil => rfl
  | cons name rest ih =>
    simp only [Invocation.fireAll,ih]
    rfl

section Congruence
variable {q q' : Query} (same : ∀ c, Keyed.get? c q = Keyed.get? c q') {r : Registry} {column : String}
include same

theorem Scope.listed_congr (sc : Scope) : sc.listed q = sc.listed q' := by
  simp only [Scope.listed,same]

theorem Invocation.completed_congr (sc : Scope) (c : String) :
    Invocation.completed sc q c = Invocation.completed sc q' c := by
  simp only [Invocation.completed,Scope.listed_congr same,same]

theorem Invocation.listedArguments_congr (function : String) (ps : List String) :
    Invocation.listedArguments q function ps = Invocation.listedArguments q' function ps := by
  induction ps with
  | nil => rfl
  | cons p rest ih => simp only [Invocation.listedArguments,same,ih]

theorem Invocation.presentArguments_congr (ps : List String) :
    Invocation.presentArguments q ps = Invocation.presentArguments q' ps := by
  induction ps with
  | nil => rfl
  | cons p rest ih => simp only [Invocation.presentArguments,same,ih]

theorem Invocation.fireListed_congr (names : List String) :
    Invocation.fireListed (q.scope r column) q names = Invocation.fireListed (q'.scope r column) q' names := by
  induction names with
  | nil => rfl
  | cons name rest ih =>
    simp only [Invocation.fireListed,Invocation.listedArguments_congr same,ih]
    rfl

theorem Recognition.supports_congr (how : Recognition) (s : PassState) (c : String) (v : Json) :
    how.supports (q.scope r column) s c v = how.supports (q'.scope r column) s c v := by
  cases how <;> simp only [Recognition.supports,Query.scope_query,bind,Except.bind,
    Scope.listed_congr same,Invocation.completed_congr same] <;> rfl

theorem Recognition.parse_congr (how : Recognition) (c : String) (v : Json) :
    how.parse (q.scope r column) c v = how.parse (q'.scope r column) c v := by
  cases how <;> simp only [Recognition.parse,Query.scope_query,PassM.lift,pure_bind,same,
    Invocation.fireListed_congr same,Invocation.completed_congr same,
    Invocation.presentArguments_congr same,Invocation.fireTuples_scope q q',
    Invocation.fireAll_scope q q'] <;> rfl

theorem Recognition.find?_congr (s : PassState) (c : String) (v : Json) :
    Recognition.find? (q.scope r column) s c v = Recognition.find? (q'.scope r column) s c v := by
  simp only [Recognition.find?,Recognition.supports_congr same]

theorem Reader.supports_congr (reader : Reader) (s : PassState) (c : String) (v : Json) :
    reader.supports (q.scope r column) s c v = reader.supports (q'.scope r column) s c v := by
  cases reader <;> simp only [Reader.supports,Invocation.supports,Recognition.find?_congr same]

theorem Reader.parse_congr (reader : Reader) (c : String) (v : Json) :
    reader.parse (q.scope r column) c v = reader.parse (q'.scope r column) c v := by
  cases reader <;> simp only [Reader.parse,Invocation.parse,Recognition.find?_congr same,
    Recognition.parse_congr same]

/-- A pass reads entries by the same steps under two queries with the same lookups. -/
theorem readEntries_congr (l : Query) :
    readEntries (q.scope r column) l = readEntries (q'.scope r column) l := by
  induction l with
  | nil => rfl
  | cons e rest ih =>
    obtain ⟨c,v⟩ := e
    simp only [readEntries,readEntry,Reader.supports_congr same,Reader.parse_congr same,ih]

end Congruence

theorem Registry.parametersFor_eq_ok {r : Registry} {name : String} {ps : List String}
    (given : r.parametersFor name = .ok ps) : ∃ e ∈ r.entries, e.name = name ∧ e.parameters = ps := by
  cases found : r.find? name with
  | none => simp [Registry.parametersFor,Registry.get,found,Except.map] at given
  | some e =>
    obtain ⟨member,rfl⟩ := Registry.find?_eq_some found
    simp only [Registry.parametersFor,Registry.get,found,Except.map,Except.ok.injEq] at given
    exact ⟨e,member,rfl,given⟩

theorem Registry.mem_namesByParameter {r : Registry} {p f : String} :
    f ∈ r.namesByParameter p ↔ ∃ e ∈ r.entries, p ∈ e.parameters ∧ e.name = f := by
  simp [Registry.namesByParameter,and_assoc]

/-! ### The parts of a query -/

/-- The column names a parameter of a function listed in the function column. -/
def Scope.listsParameter (sc : Scope) (q : Query) (c : String) : Bool :=
  (sc.listed q).any fun name =>
    match sc.registry.parametersFor name with
    | .ok ps => ps.contains c
    | .error _ => false

/-- The parts of a query that a pass reads together. -/
inductive Part where
  /-- The function column with the parameters of the functions it lists. -/
  | listing
  /-- The parameters of a complete function that is not listed. -/
  | parameters (function : String)
  /-- An entry on its own. -/
  | single (column : String)
  deriving DecidableEq

/-- Whether a part is read together with other entries, which its reading consumes. -/
def Part.isGroup : Part → Bool
  | .single _ => false
  | _ => true

/-- The part a column of a query belongs to. -/
def Query.partOf (q : Query) (r : Registry) (column c : String) : Part :=
  if c = column ∨ (q.scope r column).listsParameter q c = true then .listing
  else if Tuple.isTupleText c then .single c
  else match Invocation.completed (q.scope r column) q c with
    | [f] => .parameters f
    | _ => .single c

section Parts
variable {q : Query} {r : Registry} {column : String}

theorem Scope.listsParameter_iff (wf : r.WellFormed) {c : String} :
    (q.scope r column).listsParameter q c = true ↔
      ∃ e ∈ r.entries, e.name ∈ (q.scope r column).listed q ∧ c ∈ e.parameters := by
  simp only [Scope.listsParameter,List.any_eq_true,Query.scope_registry]
  constructor
  · rintro ⟨name,listed,holds⟩
    cases given : r.parametersFor name with
    | error _ => simp [given] at holds
    | ok ps =>
      obtain ⟨e,member,rfl,rfl⟩ := Registry.parametersFor_eq_ok given
      simp only [given,List.contains_iff_mem] at holds
      exact ⟨e,member,listed,holds⟩
  · rintro ⟨e,member,listed,owned⟩
    exact ⟨e.name,listed,by simp [Registry.parametersFor_of_mem wf member,owned]⟩

theorem partOf_eq_listing {c : String} :
    q.partOf r column c = .listing ↔ c = column ∨ (q.scope r column).listsParameter q c = true := by
  unfold Query.partOf
  split
  · simp_all
  · split
    · simp_all
    · split <;> simp_all

theorem partOf_eq_parameters {c f : String} :
    q.partOf r column c = .parameters f ↔ ¬(c = column ∨ (q.scope r column).listsParameter q c = true) ∧
      Tuple.isTupleText c = false ∧ Invocation.completed (q.scope r column) q c = [f] := by
  unfold Query.partOf
  split
  · simp_all
  · split
    · simp_all
    · split <;> simp_all

theorem partOf_eq_single {c c' : String} (single : q.partOf r column c = .single c') : c' = c := by
  unfold Query.partOf at single
  split at single
  · cases single
  split at single
  · cases single; rfl
  split at single <;> cases single; rfl

/-! ### Which way of recognition accepts an entry -/

theorem Recognition.supports_explicitByList (s : PassState) (c : String) (v : Json) :
    Recognition.explicitByList.supports (q.scope r column) s c v =
      .ok (decide (c = column) || (!decide (column ∈ s.consumed) && (q.scope r column).listsParameter q c)) := by
  by_cases same : c = column
  · simp [Recognition.supports,same,bind,Except.bind,pure,Except.pure]
  · by_cases consumed : column ∈ s.consumed
    · simp [Recognition.supports,same,consumed,bind,Except.bind,pure,Except.pure]
    · simp only [Recognition.supports,Query.scope_query,Query.scope_functionColumn,bind,Except.bind,same,
        PassState.isConsumed_iff,consumed,if_false,decide_false,Bool.false_or,Bool.not_false,Bool.true_and]
      rfl

/-- Only recognition by list looks at the state of the pass. -/
theorem Recognition.supports_fresh {how : Recognition} (other : how ≠ .explicitByList) (sc : Scope)
    (s : PassState) (c : String) (v : Json) : how.supports sc s c v = how.supports sc {} c v := by
  cases how
  · exact absurd rfl other
  all_goals rfl

theorem Recognition.supports_explicitByName (s : PassState) (c : String) (v : Json) :
    Recognition.explicitByName.supports (q.scope r column) s c v = .ok (!Tuple.isTupleText c && r.isRegistered c) :=
  rfl

theorem Recognition.supports_implicitByValue (s : PassState) (c : String) (v : Json) :
    Recognition.implicitByValue.supports (q.scope r column) s c v =
      .ok (!Tuple.isTupleText c && !(Invocation.completed (q.scope r column) q c).isEmpty) := by
  by_cases tuple : Tuple.isTupleText c = true <;>
    simp [Recognition.supports,tuple,bind,Except.bind,pure,Except.pure]

theorem Recognition.supports_explicitByTuple (s : PassState) (c : String) (v : Json) :
    Recognition.explicitByTuple.supports (q.scope r column) s c v =
      if Tuple.isTupleText c then (Tuple.parse c).map (·.firstColumn? == some column) else .ok false := by
  by_cases tuple : Tuple.isTupleText c = true
  · cases parsed : Tuple.parse c <;>
      simp [Recognition.supports,tuple,parsed,bind,Except.bind,pure,Except.pure,Except.map]
  · simp [Recognition.supports,tuple,bind,Except.bind,pure,Except.pure]

theorem Recognition.supports_implicitByTuple (s : PassState) (c : String) (v : Json) :
    Recognition.implicitByTuple.supports (q.scope r column) s c v =
      if Tuple.isTupleText c then (Tuple.parse c).map (fun t => !(r.namesByAllParameters t.columns).isEmpty)
      else .ok false := by
  by_cases tuple : Tuple.isTupleText c = true
  · cases parsed : Tuple.parse c <;>
      simp [Recognition.supports,tuple,parsed,bind,Except.bind,pure,Except.pure,Except.map]
  · simp [Recognition.supports,tuple,bind,Except.bind,pure,Except.pure]

/-- The ways by tuple refuse a column that reads as no tuple. -/
theorem Recognition.supports_of_plain {how : Recognition} (byTuple : how = .explicitByTuple ∨ how = .implicitByTuple)
    (s : PassState) {c : String} (plain : Tuple.isTupleText c = false) (v : Json) :
    how.supports (q.scope r column) s c v = .ok false := by
  rcases byTuple with rfl | rfl <;> simp [Recognition.supports,plain,bind,Except.bind,pure,Except.pure]

theorem Invocation.mem_completed (wf : r.WellFormed) {c f : String} :
    f ∈ Invocation.completed (q.scope r column) q c ↔ ∃ e ∈ r.entries, e.name = f ∧ c ∈ e.parameters ∧
      f ∉ (q.scope r column).listed q ∧ ∀ p ∈ e.parameters, (Keyed.get? p q).isSome := by
  simp only [Invocation.completed,List.mem_filter,Registry.mem_namesByParameter,Query.scope_registry,
    Bool.and_eq_true]
  constructor
  · rintro ⟨⟨e,member,owned,rfl⟩,unlisted,complete⟩
    rw [Registry.parametersFor_of_mem wf member] at complete
    exact ⟨e,member,rfl,owned,by simpa using unlisted,by simpa using complete⟩
  · rintro ⟨e,member,rfl,owned,unlisted,complete⟩
    refine ⟨⟨e,member,owned,rfl⟩,by simpa using unlisted,?_⟩
    rw [Registry.parametersFor_of_mem wf member]
    simpa using complete

/-- A column is no function name where it is the parameter of one. -/
theorem Registry.SeparatedOn.unregistered {column c : String} {keys : List String} (sep : r.SeparatedOn column keys)
    {e : Entry} (member : e ∈ r.entries) (owned : c ∈ e.parameters) : r.isRegistered c = false := by
  by_contra registered
  obtain ⟨x,xMember,rfl⟩ := Registry.isRegistered_iff.mp (Bool.not_eq_false _ ▸ registered)
  exact sep.functionNotParameter x xMember e member owned

theorem Registry.Separated.unregistered {column c : String} (sep : r.Separated column) {e : Entry}
    (member : e ∈ r.entries) (owned : c ∈ e.parameters) : r.isRegistered c = false :=
  (sep.on []).unregistered member owned

theorem Recognition.find?_of_listing {s : PassState} {c : String} (listing : q.partOf r column c = .listing)
    (unconsumed : column ∉ s.consumed) (v : Json) :
    Recognition.find? (q.scope r column) s c v = .ok (some .explicitByList) := by
  have accepts : Recognition.explicitByList.supports (q.scope r column) s c v = .ok true := by
    rcases partOf_eq_listing.mp listing with same | lists
    · simp [Recognition.supports_explicitByList,same]
    · simp [Recognition.supports_explicitByList,lists,unconsumed]
  simp only [Recognition.find?,Recognition.order,List.findM?,accepts,bind,Except.bind]
  rfl

/-- Once the function column is consumed, a parameter of a listed function is accepted by no way
of recognition. -/
theorem Recognition.find?_of_listed_parameter (wf : r.WellFormed) (sep : r.SeparatedOn column (q.map Prod.fst))
    {s : PassState} {c : String} (key : c ∈ q.map Prod.fst) (other : c ≠ column)
    (lists : (q.scope r column).listsParameter q c = true) (consumed : column ∈ s.consumed) (v : Json) :
    Recognition.find? (q.scope r column) s c v = .ok none := by
  obtain ⟨e,member,listed,owned⟩ := (Scope.listsParameter_iff wf).mp lists
  have plain := sep.parameterPlain e member c owned key
  have incomplete : Invocation.completed (q.scope r column) q c = [] := by
    apply List.eq_nil_iff_forall_not_mem.mpr
    intro f completes
    obtain ⟨x,xMember,rfl,xOwns,xUnlisted,-⟩ := (Invocation.mem_completed wf).mp completes
    exact xUnlisted (wf.ownerUnique x xMember e member c xOwns owned ▸ listed)
  simp [Recognition.find?,Recognition.order,List.findM?,Recognition.supports_explicitByList,
    Recognition.supports_explicitByName,Recognition.supports_of_plain (.inl rfl) s plain,
    Recognition.supports_of_plain (.inr rfl) s plain,Recognition.supports_implicitByValue,
    sep.unregistered member owned,plain,incomplete,other,consumed,bind,Except.bind,pure,Except.pure]

/-- A parameter of a complete function that is not listed is read by parameters, whatever the
pass did before. -/
theorem Recognition.find?_of_parameters (wf : r.WellFormed) {keys : List String} (sep : r.SeparatedOn column keys)
    {s : PassState}
    {c f : String} (params : q.partOf r column c = .parameters f) (v : Json) :
    Recognition.find? (q.scope r column) s c v = .ok (some .implicitByValue) := by
  obtain ⟨notListing,plain,completes⟩ := partOf_eq_parameters.mp params
  obtain ⟨e,member,-,owned,-,-⟩ := (Invocation.mem_completed wf).mp (completes ▸ List.mem_singleton_self f)
  simp only [not_or,Bool.not_eq_true] at notListing
  simp [Recognition.find?,Recognition.order,List.findM?,Recognition.supports_explicitByList,
    Recognition.supports_explicitByName,Recognition.supports_of_plain (.inl rfl) s plain,
    Recognition.supports_of_plain (.inr rfl) s plain,Recognition.supports_implicitByValue,
    sep.unregistered member owned,plain,completes,notListing,bind,Except.bind,pure,Except.pure]

/-- An entry on its own is recognised as it would be at the start of a pass. -/
theorem Recognition.find?_of_single {s : PassState} {c : String} (single : q.partOf r column c = .single c)
    (v : Json) : Recognition.find? (q.scope r column) s c v = Recognition.find? (q.scope r column) {} c v := by
  have notListing : ¬(c = column ∨ (q.scope r column).listsParameter q c = true) := fun listing => by
    simp [partOf_eq_listing.mpr listing] at single
  simp only [not_or,Bool.not_eq_true] at notListing
  have refuses : ∀ s', Recognition.explicitByList.supports (q.scope r column) s' c v = .ok false := by
    simp [Recognition.supports_explicitByList,notListing]
  simp only [Recognition.find?,Recognition.order,List.findM?,refuses]
  rfl

theorem Recognition.find?_of_column (s : PassState) (v : Json) :
    Recognition.find? (q.scope r column) s column v = .ok (some .explicitByList) := by
  have accepts : Recognition.explicitByList.supports (q.scope r column) s column v = .ok true := by
    simp [Recognition.supports_explicitByList]
  simp only [Recognition.find?,Recognition.order,List.findM?,accepts,bind,Except.bind]
  rfl

theorem List.findM?_eq_ok_some {α ε : Type} {p : α → Except ε Bool} :
    ∀ {l : List α} {a : α}, l.findM? p = .ok (some a) → p a = .ok true
  | [], _, found => by simp [List.findM?,pure,Except.pure] at found
  | x :: rest, a, found => by
    simp only [List.findM?,bind,Except.bind] at found
    cases accepts : p x with
    | error _ => simp [accepts] at found
    | ok b =>
      cases b
      · exact List.findM?_eq_ok_some (by simpa [accepts] using found)
      · simp only [accepts,pure,Except.pure,Except.ok.injEq,Option.some.injEq] at found
        exact found ▸ accepts

/-- The way of recognition found accepts the entry. -/
theorem Recognition.supports_of_find? {sc : Scope} {s : PassState} {c : String} {v : Json} {how : Recognition}
    (found : Recognition.find? sc s c v = .ok (some how)) : how.supports sc s c v = .ok true := by
  unfold Recognition.find? at found
  exact List.findM?_eq_ok_some (p := fun (way : Recognition) => way.supports sc s c v) found

/-- At most one function is completed by a column. -/
theorem Invocation.length_completed_le (wf : r.WellFormed) (c : String) :
    (Invocation.completed (q.scope r column) q c).length ≤ 1 :=
  Nat.le_trans (List.length_filter_le _ _) (Registry.length_namesByParameter_le wf c)

end Parts

theorem Query.argumentsOf_of_given {q : Query} :
    ∀ {ps : List String}, (∀ p ∈ ps, (Keyed.get? p q).isSome) → ∃ pairs, q.argumentsOf ps = some pairs
  | [], _ => ⟨[],rfl⟩
  | p :: rest, given => by
    obtain ⟨v,found⟩ := Option.isSome_iff_exists.mp (given p (by simp))
    have restGiven : ∀ p' ∈ rest, (Keyed.get? p' q).isSome := fun p' named => given p' (by simp [named])
    obtain ⟨pairs,more⟩ := Query.argumentsOf_of_given restGiven
    exact ⟨(p,v) :: pairs,by simp [found,more]⟩

/-! ### Reading from a state as from the start -/

/-- A reading from the start of a pass, taken from a state instead: the same filters, with what
it did after what the state holds, and a failure if it fires a function that has fired. -/
def PassState.after (s : PassState) (o : Option (List Filter × PassState)) : Option (List Filter × PassState) :=
  o.bind fun res => if (s.firedNames ++ res.2.firedNames).Nodup then some (res.1,s.extend res.2) else none

@[simp] theorem PassState.after_none (s : PassState) : s.after none = none := rfl

theorem PassState.after_some (s : PassState) (fs : List Filter) (d : PassState) :
    s.after (some (fs,d)) = if (s.firedNames ++ d.firedNames).Nodup then some (fs,s.extend d) else none :=
  rfl

@[simp] theorem PassState.firedNames_empty : ({} : PassState).firedNames = [] := rfl

@[simp] theorem PassState.firedBy_empty (f : String) : ({} : PassState).firedBy f = none := rfl

@[simp] theorem PassState.firedNames_mk (fired : List (String × Recognition)) (emitted consumed : List String) :
    (⟨fired,emitted,consumed⟩ : PassState).firedNames = fired.map Prod.fst := rfl

section After
variable {r : Registry} {column : String} {s : PassState} (sound : s.Sound r column)
include sound

theorem PassState.Sound.nodup_append_iff {names : List String} :
    (s.firedNames ++ names).Nodup ↔ names.Nodup ∧ ∀ f ∈ names, f ∉ s.firedNames := by
  rw [List.nodup_append]
  constructor
  · rintro ⟨-,distinct,apart⟩
    exact ⟨distinct,fun f named fired => apart f fired f named rfl⟩
  · rintro ⟨distinct,apart⟩
    exact ⟨sound.firedNodup,distinct,fun f fired g named same => apart g named (same ▸ fired)⟩

theorem PassState.Sound.after_quiet (fs : List Filter) : s.after (some (fs,{})) = some (fs,s) := by
  simp [PassState.after_some,sound.firedNodup]

theorem PassState.Sound.after_one (fs : List Filter) (f : String) (how : Recognition)
    (emitted consumed : List String) :
    s.after (some (fs,⟨[(f,how)],emitted,consumed⟩)) =
      if f ∈ s.firedNames then none else some (fs,s.extend ⟨[(f,how)],emitted,consumed⟩) := by
  by_cases fired : f ∈ s.firedNames <;> simp [PassState.after_some,sound.nodup_append_iff,fired]

theorem PassState.Sound.freshBlocks_iff (blocks : List (Entry × List (String × Json))) :
    Invocation.FreshBlocks s blocks ↔ (s.firedNames ++ blocks.map (·.1.name)).Nodup := by
  rw [sound.nodup_append_iff]
  simp only [Invocation.FreshBlocks,List.forall_mem_map]

end After

@[simp] theorem Invocation.blocksDelta_firedNames (how : Recognition) (consumes : Bool)
    (blocks : List (Entry × List (String × Json))) :
    (Invocation.blocksDelta how consumes blocks).firedNames = blocks.map (·.1.name) := by
  simp [Invocation.blocksDelta,PassState.firedNames]

/-! Each way of recognition, read from a sound state, does what it does from the start of a pass
(`PassState.after`). -/

section Framed
variable {sc : Scope} {column : String} (wf : sc.registry.WellFormed) {s : PassState}
  (sound : s.Sound sc.registry column)
include wf sound

theorem Invocation.parse_explicitByName_after {e : Entry} (member : e ∈ sc.registry.entries) (v : Json) :
    (Recognition.explicitByName.parse sc e.name v).ends s =
      s.after ((Recognition.explicitByName.parse sc e.name v).ends {}) := by
  rw [parse_explicitByName_ends wf sound member,
    parse_explicitByName_ends wf (PassState.sound_empty _ column) member]
  cases byNameArguments e.parameters v with
  | none => rfl
  | some pairs => simp [sound.after_one]

theorem Invocation.parse_explicitByTuple_after (c : String) (v : Json) :
    (Recognition.explicitByTuple.parse sc c v).ends s =
      s.after ((Recognition.explicitByTuple.parse sc c v).ends {}) := by
  have sound₀ := PassState.sound_empty sc.registry column
  rw [parse_explicitByTuple_ends wf sound,parse_explicitByTuple_ends wf sound₀]
  cases (Tuple.parse c).toOption with
  | none => rfl
  | some t =>
    simp only [Option.bind_some]
    cases tupleBlocks sc.registry t.size v with
    | none => rfl
    | some blocks =>
      simp only [Option.bind_some,sound.freshBlocks_iff,sound₀.freshBlocks_iff,PassState.firedNames_empty,
        List.nil_append]
      by_cases distinct : (blocks.map (·.1.name)).Nodup
      · simp [distinct,PassState.after_some]
      · have stale : ¬(s.firedNames ++ blocks.map (·.1.name)).Nodup := fun nodup => distinct nodup.of_append_right
        simp [distinct,stale]

theorem Invocation.parse_implicitByTuple_after {c : String} {t : Tuple} (parsed : Tuple.parse c = .ok t)
    {e : Entry} (member : e ∈ sc.registry.entries) (perm : t.columns.Perm e.parameters) (v : Json) :
    (Recognition.implicitByTuple.parse sc c v).ends s =
      s.after ((Recognition.implicitByTuple.parse sc c v).ends {}) := by
  rw [parse_implicitByTuple_ends wf sound parsed member perm,
    parse_implicitByTuple_ends wf (PassState.sound_empty _ column) parsed member perm]
  cases parameterTupleArguments t.columns v with
  | none => rfl
  | some pairs => simp [sound.after_one]

end Framed

section FramedScoped
variable {q : Query} {r : Registry} {column : String} (wf : r.WellFormed) {s : PassState}
  (sound : s.Sound r column) (notColumn : ∀ e ∈ r.entries, column ∉ e.parameters)
include wf sound notColumn

theorem Invocation.parse_explicitByList_after (unconsumed : column ∉ s.consumed) (c : String) (v : Json) :
    (Recognition.explicitByList.parse (q.scope r column) c v).ends s =
      s.after ((Recognition.explicitByList.parse (q.scope r column) c v).ends {}) := by
  have sound₀ := PassState.sound_empty r column
  rw [parse_explicitByList_ends wf sound notColumn,parse_explicitByList_ends wf sound₀ notColumn]
  simp only [unconsumed,if_false,List.not_mem_nil]
  cases (listedNames ((Keyed.get? column q).getD .null)).toOption with
  | none => rfl
  | some names =>
    simp only [Option.bind_some]
    cases names.mapM (listedBlock r q) with
    | none => rfl
    | some blocks =>
      simp only [Option.bind_some,sound.freshBlocks_iff,sound₀.freshBlocks_iff,PassState.firedNames_empty,
        List.nil_append]
      by_cases distinct : (blocks.map (·.1.name)).Nodup
      · simp [distinct,PassState.after_some,PassState.extend_assoc]
      · have stale : ¬(s.firedNames ++ blocks.map (·.1.name)).Nodup := fun nodup => distinct nodup.of_append_right
        simp [distinct,stale]

theorem Invocation.parse_implicitByValue_after {c : String} {e : Entry} (member : e ∈ r.entries)
    (completes : completed (q.scope r column) q c = [e.name]) {pairs : List (String × Json)}
    (given : Query.argumentsOf q e.parameters = some pairs) (v : Json) :
    (Recognition.implicitByValue.parse (q.scope r column) c v).ends s =
      if s.firedBy e.name = some .implicitByValue then some ([],s)
      else s.after ((Recognition.implicitByValue.parse (q.scope r column) c v).ends {}) := by
  rw [parse_implicitByValue_ends wf sound notColumn member completes given,
    parse_implicitByValue_ends wf (PassState.sound_empty r column) notColumn member completes given]
  cases fired : s.firedBy e.name with
  | none => simp [sound.after_one,PassState.firedBy_eq_none.mp fired]
  | some how =>
    have named : e.name ∈ s.firedNames := PassState.isSome_firedBy.mp (by simp [fired])
    cases how <;> simp [sound.after_one,named]

end FramedScoped

/-! ### Reading one entry -/

/-- The ordinary reading of an entry: by the first shape it has, nothing if it has none. -/
def Shape.reading (c : String) (v : Json) : Outcome (List Filter) :=
  match Shape.order.find? (·.supports c v) with
  | some sh => sh.parse c v
  | none => .ok []

theorem Invocation.parse_ends (sc : Scope) (c : String) (v : Json) (s : PassState) :
    (Invocation.parse sc c v).ends s =
      match Recognition.find? sc s c v with
      | .error _ => none
      | .ok (some how) => (how.parse sc c v).ends s
      | .ok none => some ([],s) := by
  unfold Invocation.parse
  cases found : Recognition.find? sc s c v with
  | error _ => simp [found]
  | ok how? => cases how? <;> simp [found]

theorem Reader.findM?_shapes (sc : Scope) (s : PassState) (c : String) (v : Json) :
    ∀ l : List Shape, (l.map Reader.shape).findM? (fun reader => reader.supports sc s c v) =
      .ok ((l.find? (·.supports c v)).map .shape)
  | [] => rfl
  | sh :: rest => by
    rw [List.map_cons,List.findM?,Reader.findM?_shapes sc s c v rest]
    cases shaped : sh.supports c v <;> simp [Reader.supports,shaped,bind,Except.bind,pure,Except.pure]

/-- An entry is read by function recognition when it accepts the entry, else by its shape. -/
theorem readEntry_ends (sc : Scope) (c : String) (v : Json) (s : PassState) :
    (readEntry sc c v).ends s =
      match Invocation.supports sc s c v with
      | .error _ => none
      | .ok true => (Invocation.parse sc c v).ends s
      | .ok false => (PassM.lift (Shape.reading c v)).ends s := by
  unfold readEntry
  simp only [PassM.ends_bind,PassM.ends_get,Option.bind_some,Reader.order]
  rw [List.findM?,Reader.findM?_shapes]
  cases accepts : Invocation.supports sc s c v with
  | error _ => simp [Reader.supports,accepts,bind,Except.bind]
  | ok b =>
    cases b
    · simp only [Reader.supports,accepts,bind,Except.bind,Shape.reading]
      cases Shape.order.find? (·.supports c v) <;> simp [Reader.parse]
    · simp [Reader.supports,accepts,bind,Except.bind,pure,Except.pure,Reader.parse]


/-- An entry of the listing is read by list while the function column is not consumed. -/
theorem readEntry_of_listing {q : Query} {r : Registry} {column c : String} (listing : q.partOf r column c = .listing)
    {s : PassState} (unconsumed : column ∉ s.consumed) (v : Json) :
    (readEntry (q.scope r column) c v).ends s = (Recognition.explicitByList.parse (q.scope r column) c v).ends s := by
  have found := Recognition.find?_of_listing listing unconsumed v
  have accepts : Invocation.supports (q.scope r column) s c v = .ok true := by
    unfold Invocation.supports
    split <;> simp [found,Except.map]
  rw [readEntry_ends,accepts]
  simp only
  rw [Invocation.parse_ends,found]

/-- An entry of the parameters of a function is read by parameters. -/
theorem readEntry_of_parameters {q : Query} {r : Registry} {column c f : String} (wf : r.WellFormed)
    {keys : List String} (sep : r.SeparatedOn column keys) (params : q.partOf r column c = .parameters f)
    (s : PassState) (v : Json) :
    (readEntry (q.scope r column) c v).ends s = (Recognition.implicitByValue.parse (q.scope r column) c v).ends s := by
  have found := Recognition.find?_of_parameters wf sep params (s := s) v
  have accepts : Invocation.supports (q.scope r column) s c v = .ok true := by
    unfold Invocation.supports
    split <;> simp [found,Except.map]
  rw [readEntry_ends,accepts]
  simp only
  rw [Invocation.parse_ends,found]

section Entries
variable {q : Query} {r : Registry} {column : String} (wf : r.WellFormed) (sep : r.SeparatedOn column (q.map Prod.fst))
  {s : PassState} (sound : s.Sound r column)
include wf sep sound

omit sep in
/-- A way of recognition that accepts an entry on its own reads it from a sound state as from the
start of a pass. -/
theorem Recognition.parse_single_after {c : String} (single : q.partOf r column c = .single c) {how : Recognition}
    {v : Json} (accepts : how.supports (q.scope r column) {} c v = .ok true) :
    (how.parse (q.scope r column) c v).ends s = s.after ((how.parse (q.scope r column) c v).ends {}) := by
  have notListing : ¬(c = column ∨ (q.scope r column).listsParameter q c = true) := fun listing => by
    simp [partOf_eq_listing.mpr listing] at single
  simp only [not_or,Bool.not_eq_true] at notListing
  cases how with
  | explicitByList => simp [Recognition.supports_explicitByList,notListing] at accepts
  | explicitByName =>
    simp only [Recognition.supports_explicitByName,Bool.and_eq_true,Except.ok.injEq] at accepts
    obtain ⟨e,member,rfl⟩ := Registry.isRegistered_iff.mp accepts.2
    exact Invocation.parse_explicitByName_after wf sound member v
  | explicitByTuple => exact Invocation.parse_explicitByTuple_after wf sound c v
  | implicitByTuple =>
    cases parsed : Tuple.parse c with
    | error _ =>
      by_cases tuple : Tuple.isTupleText c = true <;>
        simp [Recognition.supports,tuple,parsed,bind,Except.bind,pure,Except.pure] at accepts
    | ok t =>
      have named : (r.namesByAllParameters t.columns) ≠ [] := by
        by_cases tuple : Tuple.isTupleText c = true <;>
          simp [Recognition.supports,tuple,parsed,bind,Except.bind,pure,Except.pure] at accepts
        exact accepts
      obtain ⟨f,found⟩ := List.exists_mem_of_ne_nil _ named
      simp only [Registry.namesByAllParameters,List.mem_map,List.mem_filter,List.isPerm_iff] at found
      obtain ⟨e,⟨member,perm⟩,-⟩ := found
      exact Invocation.parse_implicitByTuple_after wf sound parsed member perm.symm v
  | implicitByValue =>
    simp only [Recognition.supports_implicitByValue,Bool.and_eq_true,Bool.not_eq_true',Except.ok.injEq,
      List.isEmpty_eq_false_iff] at accepts
    have atMost := @Invocation.length_completed_le q r column wf c
    generalize completes : Invocation.completed (q.scope r column) q c = names at accepts atMost
    rcases names with _ | ⟨f,_ | ⟨g,rest⟩⟩
    · exact absurd rfl accepts.2
    · have params : q.partOf r column c = .parameters f :=
        partOf_eq_parameters.mpr ⟨by simpa using notListing,accepts.1,completes⟩
      simp [params] at single
    · simp at atMost

omit sep in
/-- An entry on its own whose column no invocation consumed reads from a sound state as from the
start of a pass. -/
theorem readEntry_single_ends {c : String} (single : q.partOf r column c = .single c)
    (unconsumed : c ∉ s.consumed) (v : Json) :
    (readEntry (q.scope r column) c v).ends s = s.after ((readEntry (q.scope r column) c v).ends {}) := by
  have supports : ∀ s' : PassState, c ∉ s'.consumed → Invocation.supports (q.scope r column) s' c v =
      (Recognition.find? (q.scope r column) {} c v).map Option.isSome := by
    intro s' fresh
    simp [Invocation.supports,fresh,Recognition.find?_of_single single]
  rw [readEntry_ends,readEntry_ends,supports s unconsumed,supports {} (by simp)]
  cases found : Recognition.find? (q.scope r column) {} c v with
  | error _ => rfl
  | ok how? =>
    cases how? with
    | none =>
      simp only [Except.map,Option.isSome_none]
      cases Shape.reading c v <;> simp [sound.after_quiet]
    | some how =>
      simp only [Except.map,Option.isSome_some]
      rw [Invocation.parse_ends,Invocation.parse_ends,Recognition.find?_of_single single,found]
      exact Recognition.parse_single_after wf sound single (Recognition.supports_of_find? found)

/-- An entry of the listing reads as nothing once the function column is consumed, and otherwise
reads the whole listing as from the start of a pass. -/
theorem readEntry_listing_ends {c : String} (key : c ∈ q.map Prod.fst) (listing : q.partOf r column c = .listing)
    (consumedWith : column ∈ s.consumed → c ∈ s.consumed) (v : Json) :
    (readEntry (q.scope r column) c v).ends s =
      if column ∈ s.consumed then some ([],s) else s.after ((readEntry (q.scope r column) c v).ends {}) := by
  by_cases consumed : column ∈ s.consumed
  · have accepts : Invocation.supports (q.scope r column) s c v = .ok true := by
      simp [Invocation.supports,consumedWith consumed]
    rw [if_pos consumed,readEntry_ends,accepts]
    simp only
    rw [Invocation.parse_ends]
    by_cases same : c = column
    · subst same
      rw [Recognition.find?_of_column]
      simp only
      rw [Invocation.parse_explicitByList_ends wf sound sep.columnNotParameter]
      simp [consumed]
    · have lists := (partOf_eq_listing.mp listing).resolve_left same
      rw [Recognition.find?_of_listed_parameter wf sep key same lists consumed]
  · rw [if_neg consumed,readEntry_of_listing listing consumed,readEntry_of_listing listing (by simp)]
    exact Invocation.parse_explicitByList_after wf sound sep.columnNotParameter consumed c v

/-- An entry of the parameters of a function reads as nothing once the function fired by its
parameters, and otherwise fires it as from the start of a pass. -/
theorem readEntry_parameters_ends {c f : String} (params : q.partOf r column c = .parameters f) (v : Json) :
    (readEntry (q.scope r column) c v).ends s =
      if s.firedBy f = some .implicitByValue then some ([],s)
      else s.after ((readEntry (q.scope r column) c v).ends {}) := by
  obtain ⟨-,-,completes⟩ := partOf_eq_parameters.mp params
  obtain ⟨e,member,rfl,-,-,given⟩ := (Invocation.mem_completed wf).mp (completes ▸ List.mem_singleton_self _)
  obtain ⟨pairs,arguments⟩ := Query.argumentsOf_of_given given
  rw [readEntry_of_parameters wf sep params,readEntry_of_parameters wf sep params]
  exact Invocation.parse_implicitByValue_after wf sound sep.columnNotParameter member completes arguments v

end Entries

end QueryFilters
