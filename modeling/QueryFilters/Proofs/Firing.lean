import QueryFilters.Proofs.Parts

/-!
The functions a read invokes. Every way an entry names a function is an occurrence of it
(`Query.invocations`): a string of the list in the function column; a function not listed there
whose parameters are all keys; a key that is the name of a function and reads as no tuple; each
value tuple of a tuple key led by the function column, by its first token; and a tuple key whose
columns are a function's parameters in some order, each as often. A read that succeeds invokes
exactly its occurrences, each once and with the function's registered handle
(`Query.read_invokes_occurrences_once`), so a query in which a function occurs twice does not read.

No invocation comes from the shape of an ordinary entry: the filter factory makes one only of a
function value, and the values of a query are JSON.
-/

namespace QueryFilters

open Invocation

/-! ### Invocation filters -/

/-- The function an invocation filter invokes. -/
def Filter.invoked? : Filter → Option String
  | .invocation c _ => some c
  | _ => none

@[simp] theorem Entry.invoked?_invocation (e : Entry) : e.invocation.invoked? = some e.name := rfl

@[simp] theorem argumentFilters_invoked? (pairs : List (String × Json)) :
    (argumentFilters pairs).filterMap Filter.invoked? = [] := by
  simp [argumentFilters,Filter.invoked?]

theorem blockFilters_invoked? (blocks : List (Entry × List (String × Json))) :
    (blockFilters blocks).filterMap Filter.invoked? = blocks.map (·.1.name) := by
  induction blocks with
  | nil => rfl
  | cons b rest ih =>
    simp only [blockFilters,List.flatMap_cons,List.filterMap_append,List.filterMap_cons,
      Entry.invoked?_invocation,argumentFilters_invoked?,List.map_cons] at ih ⊢
    rw [ih]
    rfl

theorem mem_block_invocation {e : Entry} {pairs : List (String × Json)} {c : String} {h : Handle}
    (member : Filter.invocation c h ∈ e.invocation :: argumentFilters pairs) : e.invocation = .invocation c h := by
  rcases List.mem_cons.mp member with same | argument
  · exact same.symm
  · simp [argumentFilters] at argument

theorem mem_blockFilters_invocation {blocks : List (Entry × List (String × Json))} {c : String} {h : Handle}
    (member : Filter.invocation c h ∈ blockFilters blocks) : ∃ b ∈ blocks, b.1.invocation = .invocation c h := by
  obtain ⟨b,inBlocks,inBlock⟩ := List.mem_flatMap.mp member
  exact ⟨b,inBlocks,mem_block_invocation inBlock⟩

/-! ### Ordinary filters -/

theorem Except.bind_eq_ok {ε α β : Type} {x : Except ε α} {f : α → Except ε β} {b : β} :
    x >>= f = .ok b ↔ ∃ a, x = .ok a ∧ f a = .ok b := by
  cases x <;> simp [bind,Except.bind]

theorem List.mem_of_mapM_except {α β ε : Type} {f : α → Except ε β} :
    ∀ {l : List α} {ys : List β}, l.mapM f = .ok ys → ∀ y ∈ ys, ∃ x ∈ l, f x = .ok y
  | [], ys, mapped => by
    simp only [List.mapM_nil,pure,Except.pure,Except.ok.injEq] at mapped
    simp [← mapped]
  | a :: l, ys, mapped => by
    simp only [List.mapM_cons,Except.bind_eq_ok,pure,Except.pure,Except.ok.injEq] at mapped
    obtain ⟨b,first,bs,rest,rfl⟩ := mapped
    intro y member
    rcases List.mem_cons.mp member with rfl | later
    · exact ⟨a,List.mem_cons_self,first⟩
    · obtain ⟨x,xMember,made⟩ := List.mem_of_mapM_except rest y later
      exact ⟨x,List.mem_cons_of_mem a xMember,made⟩

/-- The factory makes no invocation of a JSON value. -/
theorem Filter.create_raw_invoked? {c w : String} {x : Json} {f : Filter}
    (made : Filter.create c w (.raw x) = .ok f) : f.invoked? = none := by
  cases f with
  | invocation c' h =>
    unfold Filter.create at made
    split at made <;> simp [Except.map] at made
    split at made <;> simp at made
  | _ => rfl

theorem Shape.wordFilters_made {c w : String} {columns : List String} {tv : Json} {fs : List Filter}
    (made : Shape.wordFilters c columns w tv = .ok fs) :
    ∀ f ∈ fs, ∃ c' w' x, Filter.create c' w' (.raw x) = .ok f := by
  unfold Shape.wordFilters at made
  split at made
  · simp [throw,throwThe,MonadExceptOf.throw,Except.bind_eq_ok] at made
  · dsimp only at made
    split at made
    · simp [throw,throwThe,MonadExceptOf.throw,Except.bind_eq_ok] at made
    · simp only [Except.bind_eq_ok] at made
      obtain ⟨t,-,vals,-,mapped⟩ := made
      intro f member
      obtain ⟨⟨c',x⟩,-,made⟩ := List.mem_of_mapM_except mapped f member
      exact ⟨_,_,_,made⟩

/-- Every filter of a shape is made by the factory of a JSON value. -/
theorem Shape.parse_made {sh : Shape} {c : String} {v : Json} {fs : List Filter}
    (parsed : sh.parse c v = .ok fs) : ∀ f ∈ fs, ∃ c' w x, Filter.create c' w (.raw x) = .ok f := by
  cases sh with
  | tupleColumnTupleValue =>
    simp only [Shape.parse,Except.bind_eq_ok] at parsed
    obtain ⟨t,-,t',-,vals,-,mapped⟩ := parsed
    intro f member
    obtain ⟨⟨c',x⟩,-,made⟩ := List.mem_of_mapM_except mapped f member
    exact ⟨_,_,_,made⟩
  | tupleColumnObjectValue =>
    cases v with
    | obj entries =>
      simp only [Shape.parse,Except.bind_eq_ok] at parsed
      obtain ⟨t,-,rest⟩ := parsed
      split at rest
      · simp [throw,throwThe,MonadExceptOf.throw,Except.bind_eq_ok] at rest
      · simp only [Except.bind_eq_ok,pure,Except.pure,Except.ok.injEq] at rest
        obtain ⟨groups,grouped,rfl⟩ := rest
        intro f member
        obtain ⟨g,gMember,inG⟩ := List.mem_flatten.mp member
        obtain ⟨⟨w,x⟩,-,made⟩ := List.mem_of_mapM_except grouped g gMember
        exact Shape.wordFilters_made made f inG
    | _ => simp only [Shape.parse,pure,Except.pure,Except.ok.injEq] at parsed; simp [← parsed]
  | tupleMismatch => simp [Shape.parse] at parsed
  | columnObjectValue =>
    cases v with
    | obj entries =>
      intro f member
      obtain ⟨⟨w,x⟩,-,made⟩ := List.mem_of_mapM_except parsed f member
      exact ⟨_,_,_,made⟩
    | _ => simp only [Shape.parse,pure,Except.pure,Except.ok.injEq] at parsed; simp [← parsed]
  | columnValue =>
    simp only [Shape.parse,Except.bind_eq_ok,pure,Except.pure,Except.ok.injEq] at parsed
    obtain ⟨f,made,rfl⟩ := parsed
    simpa using ⟨_,_,_,made⟩

theorem Shape.reading_made {c : String} {v : Json} {fs : List Filter} (read : Shape.reading c v = .ok fs) :
    ∀ f ∈ fs, ∃ c' w x, Filter.create c' w (.raw x) = .ok f := by
  unfold Shape.reading at read
  split at read
  · exact Shape.parse_made read
  · cases read
    simp

theorem Shape.reading_invoked? {c : String} {v : Json} {fs : List Filter} (read : Shape.reading c v = .ok fs) :
    fs.filterMap Filter.invoked? = [] := by
  refine List.filterMap_eq_nil_iff.mpr fun f member => ?_
  obtain ⟨_,_,_,made⟩ := Shape.reading_made read f member
  exact Filter.create_raw_invoked? made

/-! ### Occurrences -/

namespace Invocation

/-- The function a value tuple of an invocation by tuple names: its first token. -/
def leadingName? (value : Json) : Option String := do
  let raw ← (tupleText value).toOption
  let t ← (Tuple.parse raw).toOption
  let vals ← t.values.toOption
  vals.head?.map tokenName

/-- The functions the value of an invocation by tuple names, one per tuple. -/
def leadingNames : Json → List String
  | .arr items => items.filterMap leadingName?
  | value => (leadingName? value).toList

/-- The functions an entry other than the function column names: its key, if that is the name
of a function and reads as no tuple; for a tuple key led by the function column, the function
each tuple of the value names; for another tuple key, the functions whose parameters are its
columns. -/
def entryFunctions (r : Registry) (column c : String) (v : Json) : List String :=
  if c = column then []
  else if Tuple.isTupleText c then
    match Tuple.parse c with
    | .ok t => if t.firstColumn? = some column then leadingNames v else r.namesByAllParameters t.columns
    | .error _ => []
  else if r.isRegistered c then [c] else []

end Invocation

/-- The functions a query invokes by their parameters: those not listed in the function column
whose parameters are all keys of the query. -/
def Query.completedFunctions (q : Query) (r : Registry) (column : String) : List String :=
  (r.entries.filter fun e => !((q.scope r column).listed q).contains e.name &&
    e.parameters.all fun p => (q.map Prod.fst).contains p).map (·.name)

/-- Every occurrence of a function in a query: the strings of the list in the function column,
the functions invoked by their parameters, and what each entry names. -/
def Query.invocations (q : Query) (r : Registry) (column : String) : List String :=
  (q.scope r column).listed q ++ q.completedFunctions r column ++
    q.flatMap fun e => entryFunctions r column e.1 e.2

/-- The occurrences of functions that a part of a query holds. -/
def Query.partInvocations (q : Query) (r : Registry) (column : String) : Part → List String
  | .listing => (q.scope r column).listed q
  | .parameters f => [f]
  | .single c => entryFunctions r column c ((Keyed.get? c q).getD .null)

theorem Keyed.isSome_get?_iff {α : Type} {k : String} :
    ∀ {l : List (String × α)}, (Keyed.get? k l).isSome ↔ k ∈ l.map Prod.fst
  | [] => by simp [Keyed.get?]
  | (k',v) :: rest => by
    by_cases same : k' = k
    · simp [Keyed.get?,same]
    · simp [Keyed.get?,same,Ne.symm same,Keyed.isSome_get?_iff]

theorem List.map_of_mapM_option {α β γ : Type} {f : α → Option β} {g : β → γ} {h : α → Option γ}
    (agree : ∀ a b, f a = some b → h a = some (g b)) :
    ∀ {l : List α} {l' : List β}, l.mapM f = some l' → l'.map g = l.filterMap h
  | [], l', made => by
    simp only [List.mapM_nil,Option.pure_def,Option.some.injEq] at made
    simp [← made]
  | a :: rest, l', made => by
    simp only [List.mapM_cons,Option.bind_eq_bind,Option.bind_eq_some_iff,Option.pure_def,
      Option.some.injEq] at made
    obtain ⟨b,fa,bs,restMade,rfl⟩ := made
    simp [agree a b fa,List.map_of_mapM_option agree restMade]

theorem List.findM?_eq_ok_none {α ε : Type} {p : α → Except ε Bool} :
    ∀ {l : List α}, l.findM? p = .ok none → ∀ a ∈ l, p a = .ok false
  | [], _, a, member => by simp at member
  | x :: rest, found, a, member => by
    simp only [List.findM?,bind,Except.bind] at found
    cases accepts : p x with
    | error _ => simp [accepts] at found
    | ok b =>
      cases b
      · rcases List.mem_cons.mp member with rfl | later
        · exact accepts
        · exact List.findM?_eq_ok_none (by simpa [accepts] using found) a later
      · simp [accepts,pure,Except.pure] at found

section Occurrences
variable {q : Query} {r : Registry} {column : String} (wf : r.WellFormed) (sep : r.Separated column)

theorem Scope.listed_eq_nil (absent : column ∉ q.map Prod.fst) : (q.scope r column).listed q = [] := by
  simp [Scope.listed,Keyed.get?_eq_none absent]

theorem Scope.mem_keys_of_listed {name : String} (named : name ∈ (q.scope r column).listed q) :
    column ∈ q.map Prod.fst := by
  by_contra absent
  simp [Scope.listed_eq_nil absent] at named

theorem Query.mem_completedFunctions {f : String} :
    f ∈ q.completedFunctions r column ↔ ∃ e ∈ r.entries, e.name = f ∧
      f ∉ (q.scope r column).listed q ∧ ∀ p ∈ e.parameters, p ∈ q.map Prod.fst := by
  simp only [Query.completedFunctions,List.mem_map,List.mem_filter,Bool.and_eq_true,Bool.not_eq_true',
    List.all_eq_true,← Bool.not_eq_true,List.contains_iff_mem]
  constructor
  · rintro ⟨e,⟨member,unlisted,given⟩,rfl⟩
    exact ⟨e,member,rfl,unlisted,given⟩
  · rintro ⟨e,member,rfl,unlisted,given⟩
    exact ⟨e,⟨member,unlisted,given⟩,rfl⟩

include wf

theorem Invocation.leadingName?_of_tupleBlock {n : Nat} {value : Json} {b : Entry × List (String × Json)}
    (made : tupleBlock r n value = some b) : leadingName? value = some b.1.name := by
  simp only [tupleBlock,Option.bind_eq_bind,Option.bind_eq_some_iff,Except.toOption_eq_some] at made
  obtain ⟨raw,texted,t,counted,vals,valued,e,found,given⟩ := made
  have entry : b.1 = e := by
    split at given
    · cases given; rfl
    · cases given
  obtain ⟨member,named⟩ := Registry.find?_eq_some found
  -- a function's name is not empty, so the value tuple has a first token
  cases vals with
  | nil => exact absurd named (wf.nameNonempty e member)
  | cons first rest =>
    simp only [List.head?_cons,Option.map_some,Option.getD_some] at named
    simp [leadingName?,texted,(Tuple.parseCount_eq_ok.mp counted).1,valued,entry,named]

theorem Invocation.leadingNames_of_tupleBlocks {n : Nat} {value : Json} {blocks : List (Entry × List (String × Json))}
    (made : tupleBlocks r n value = some blocks) : blocks.map (·.1.name) = leadingNames value := by
  cases value with
  | arr items =>
    exact List.map_of_mapM_option (fun _ _ block => leadingName?_of_tupleBlock wf block) made
  | _ =>
    simp only [tupleBlocks,Option.map_eq_some_iff] at made
    obtain ⟨b,block,rfl⟩ := made
    simp [leadingNames,leadingName?_of_tupleBlock wf block]

include sep

omit wf in
theorem Invocation.entryFunctions_of_parameter {c : String} {e : Entry} (member : e ∈ r.entries)
    (owned : c ∈ e.parameters) (v : Json) : entryFunctions r column c v = [] := by
  simp [entryFunctions,sep.parameterPlain e member c owned,sep.unregistered member owned]

/-- An entry read together with others names no function of its own. -/
theorem Invocation.entryFunctions_of_group {c : String} (group : (q.partOf r column c).isGroup = true)
    (v : Json) : entryFunctions r column c v = [] := by
  cases part : q.partOf r column c with
  | listing =>
    rcases partOf_eq_listing.mp part with rfl | lists
    · simp [entryFunctions]
    · obtain ⟨e,member,-,owned⟩ := (Scope.listsParameter_iff wf).mp lists
      exact entryFunctions_of_parameter sep member owned v
  | parameters f =>
    obtain ⟨-,-,completes⟩ := partOf_eq_parameters.mp part
    obtain ⟨e,member,-,owned,-⟩ := (Invocation.mem_completed wf).mp (completes ▸ List.mem_singleton_self f)
    exact entryFunctions_of_parameter sep member owned v
  | single c' => simp [part,Part.isGroup] at group

omit wf sep in
/-- An entry that no way of recognition accepts names no function. -/
theorem Invocation.entryFunctions_of_ordinary {c : String} {v : Json}
    (found : Recognition.find? (q.scope r column) {} c v = .ok none) : entryFunctions r column c v = [] := by
  have refuses := List.findM?_eq_ok_none (p := fun (way : Recognition) => way.supports (q.scope r column) {} c v) found
  have byName := refuses .explicitByName (by simp [Recognition.order])
  have byTuple := refuses .explicitByTuple (by simp [Recognition.order])
  have byParameters := refuses .implicitByTuple (by simp [Recognition.order])
  rw [Recognition.supports_explicitByName] at byName
  rw [Recognition.supports_explicitByTuple] at byTuple
  rw [Recognition.supports_implicitByTuple] at byParameters
  unfold entryFunctions
  by_cases tuple : Tuple.isTupleText c = true
  · cases parsed : Tuple.parse c with
    | error _ => simp [tuple]
    | ok t =>
      simp [tuple,parsed,Except.map] at byTuple byParameters
      simp [tuple,byTuple,byParameters]
  · simp [tuple] at byName
    simp [tuple,byName]

end Occurrences

/-! ### What a part invokes -/

theorem Invocation.names_of_listedBlocks {r : Registry} {q : Query} {names : List String}
    {blocks : List (Entry × List (String × Json))} (made : names.mapM (listedBlock r q) = some blocks) :
    blocks.map (·.1.name) = names := by
  simpa using List.map_of_mapM_option (h := some) (fun _ _ block => by rw [(listedBlock_eq block).2.1]) made

section Readings
variable {q : Query} {r : Registry} {column : String} {g : Part} {out : List Filter} {d : PassState}

/-- The invocation filters of a reading are the functions it fires, in order. -/
theorem Query.PartReading.invoked? (reading : q.PartReading r column g out d) :
    out.filterMap Filter.invoked? = d.firedNames := by
  cases reading with
  | listing => simp [blockFilters_invoked?]
  | byTuple => simp [blockFilters_invoked?]
  | ordinary _ _ read => simp [Shape.reading_invoked? read]
  | _ => simp

/-- Every invocation a reading makes is that of a registered function. -/
theorem Query.PartReading.invocation_registered (reading : q.PartReading r column g out d) {c : String}
    {h : Handle} (member : Filter.invocation c h ∈ out) : ∃ e ∈ r.entries, e.invocation = .invocation c h := by
  cases reading with
  | listing _ made _ =>
    obtain ⟨b,inBlocks,same⟩ := mem_blockFilters_invocation member
    obtain ⟨name,-,block⟩ := List.mapM_option_mem_right made b inBlocks
    exact ⟨b.1,(listedBlock_eq block).1,same⟩
  | parameters entry _ _ => exact ⟨_,entry,mem_block_invocation member⟩
  | byName entry _ _ _ => exact ⟨_,entry,mem_block_invocation member⟩
  | byTuple _ _ _ _ _ blocks _ =>
    obtain ⟨b,inBlocks,same⟩ := mem_blockFilters_invocation member
    exact ⟨b.1,tupleBlocks_registered blocks b inBlocks,same⟩
  | byParameterTuple _ _ _ _ _ entry _ _ => exact ⟨_,entry,mem_block_invocation member⟩
  | ordinary _ _ read =>
    have none := List.filterMap_eq_nil_iff.mp (Shape.reading_invoked? read) _ member
    simp [Filter.invoked?] at none

/-- The functions a reading fires are the occurrences its part holds. -/
theorem Query.PartReading.firedNames_eq (wf : r.WellFormed) (sep : r.Separated column)
    (distinct : (q.map Prod.fst).Nodup) (reading : q.PartReading r column g out d) :
    d.firedNames = q.partInvocations r column g := by
  cases reading with
  | listing listed made _ =>
    simp [Query.partInvocations,Scope.listed_of_listedNames listed,Invocation.names_of_listedBlocks made]
  | parameters => simp [Query.partInvocations]
  | byName member given plain _ =>
    have registered : r.isRegistered _ = true := Registry.isRegistered_iff.mpr ⟨_,member,rfl⟩
    simp [Query.partInvocations,entryFunctions,plain,registered,sep.columnNotFunction _ member]
  | byTuple given other tuple parsed first blocks _ =>
    simp [Query.partInvocations,Keyed.get?_of_mem distinct given,entryFunctions,other,tuple,parsed,first,
      Invocation.leadingNames_of_tupleBlocks wf blocks]
  | byParameterTuple given other tuple parsed first member perm _ =>
    simp [Query.partInvocations,entryFunctions,other,tuple,parsed,first,
      Registry.namesByAllParameters_of_perm wf member perm]
  | ordinary given found _ =>
    simp [Query.partInvocations,Keyed.get?_of_mem distinct given,Invocation.entryFunctions_of_ordinary found]

end Readings

/-! ### The parts by kind -/

/-- The parts of a query by kind: the listing, when the function column is a key; the parameters
of each function invoked by them; and each entry read on its own. -/
def Query.partsByKind (q : Query) (r : Registry) (column : String) : List Part :=
  (if column ∈ q.map Prod.fst then [.listing] else []) ++ (q.completedFunctions r column).map .parameters ++
    (q.filter fun e => q.partOf r column e.1 = .single e.1).map (.single ·.1)

theorem List.eq_singleton_of_length_le_one {α : Type} {l : List α} {a : α} (member : a ∈ l)
    (short : l.length ≤ 1) : l = [a] := by
  obtain ⟨x,rfl⟩ := List.length_eq_one_iff.mp (Nat.le_antisymm short (List.length_pos_of_mem member))
  rw [List.mem_singleton.mp member]

theorem List.flatMap_filter_of_nil {α β : Type} {p : α → Bool} {f : α → List β} :
    ∀ {l : List α}, (∀ a ∈ l, p a = false → f a = []) → (l.filter p).flatMap f = l.flatMap f
  | [], _ => rfl
  | a :: l, rest => by
    have restL : ∀ b ∈ l, p b = false → f b = [] := fun b member => rest b (by simp [member])
    cases keep : p a
    · simp [keep,rest a (by simp) keep,List.flatMap_filter_of_nil restL]
    · simp [keep,List.flatMap_filter_of_nil restL]

theorem List.flatMap_filterMap_of_isSome {α β γ : Type} {f : α → Option β} {g : β → List γ} {h : α → List γ} :
    ∀ {l : List α}, (∀ a ∈ l, (f a).isSome) → (∀ a ∈ l, ∀ b, f a = some b → g b = h a) →
      (l.filterMap f).flatMap g = l.flatMap h
  | [], _, _ => rfl
  | a :: l, present, agree => by
    obtain ⟨b,fa⟩ := Option.isSome_iff_exists.mp (present a (by simp))
    rw [List.filterMap_cons_some fa,List.flatMap_cons,List.flatMap_cons,agree a (by simp) b fa,
      List.flatMap_filterMap_of_isSome (fun x member => present x (by simp [member]))
        (fun x member => agree x (by simp [member]))]

section ByKind
variable {q : Query} {r : Registry} {column : String} (wf : r.WellFormed) (sep : r.Separated column)
include wf

theorem Query.exists_partOf_listing_iff :
    (∃ c ∈ q.map Prod.fst, q.partOf r column c = .listing) ↔ column ∈ q.map Prod.fst := by
  constructor
  · rintro ⟨c,key,part⟩
    rcases partOf_eq_listing.mp part with rfl | lists
    · exact key
    · obtain ⟨e,-,listed,-⟩ := (Scope.listsParameter_iff wf).mp lists
      exact Scope.mem_keys_of_listed listed
  · intro key
    exact ⟨column,key,partOf_eq_listing.mpr (.inl rfl)⟩

include sep in
theorem Query.exists_partOf_parameters_iff {f : String} :
    (∃ c ∈ q.map Prod.fst, q.partOf r column c = .parameters f) ↔ f ∈ q.completedFunctions r column := by
  rw [Query.mem_completedFunctions]
  constructor
  · rintro ⟨c,-,part⟩
    obtain ⟨-,-,completes⟩ := partOf_eq_parameters.mp part
    obtain ⟨e,member,rfl,-,unlisted,given⟩ :=
      (Invocation.mem_completed wf).mp (completes ▸ List.mem_singleton_self _)
    exact ⟨e,member,rfl,unlisted,fun p owned => Keyed.isSome_get?_iff.mp (given p owned)⟩
  · rintro ⟨e,member,rfl,unlisted,given⟩
    -- the first parameter of the function is a key of its part
    obtain ⟨c,first⟩ := List.exists_mem_of_ne_nil _ (wf.parametersNonempty e member)
    have notListing : ¬(c = column ∨ (q.scope r column).listsParameter q c = true) := by
      rintro (rfl | lists)
      · exact sep.columnNotParameter e member first
      · obtain ⟨x,xMember,listed,xOwns⟩ := (Scope.listsParameter_iff wf).mp lists
        exact unlisted (wf.ownerUnique x xMember e member c xOwns first ▸ listed)
    have completes : e.name ∈ Invocation.completed (q.scope r column) q c :=
      (Invocation.mem_completed wf).mpr
        ⟨e,member,rfl,first,unlisted,fun p owned => Keyed.isSome_get?_iff.mpr (given p owned)⟩
    have only := List.eq_singleton_of_length_le_one completes (Invocation.length_completed_le wf c)
    exact ⟨c,given c first,partOf_eq_parameters.mpr ⟨notListing,sep.parameterPlain e member c first,only⟩⟩

include sep in
theorem Query.mem_partsByKind {g : Part} :
    g ∈ q.partsByKind r column ↔ ∃ c ∈ q.map Prod.fst, q.partOf r column c = g := by
  cases g with
  | listing =>
    rw [Query.exists_partOf_listing_iff wf]
    by_cases key : column ∈ q.map Prod.fst <;> simp [Query.partsByKind,key]
  | parameters f =>
    rw [Query.exists_partOf_parameters_iff wf sep]
    simp [Query.partsByKind]
  | single c =>
    simp only [Query.partsByKind,List.mem_append,List.mem_map,List.mem_filter,decide_eq_true_eq]
    constructor
    · rintro ((listing | ⟨f,-,clash⟩) | ⟨⟨c',v⟩,⟨member,part⟩,same⟩)
      · split at listing <;> simp at listing
      · cases clash
      · cases same
        exact ⟨c',⟨_,member,rfl⟩,part⟩
    · rintro ⟨c',⟨⟨c'',v⟩,member,rfl⟩,part⟩
      obtain rfl := partOf_eq_single part
      exact .inr ⟨(c,v),⟨member,part⟩,rfl⟩

theorem Query.nodup_partsByKind (distinct : (q.map Prod.fst).Nodup) : (q.partsByKind r column).Nodup := by
  have functions : (q.completedFunctions r column).Nodup :=
    wf.namesNodup.sublist (List.filter_sublist.map _)
  have singles : ((q.filter fun e => q.partOf r column e.1 = .single e.1).map (·.1)).Nodup :=
    distinct.sublist (List.filter_sublist.map _)
  simp only [Query.partsByKind,List.nodup_append]
  refine ⟨⟨?_,functions.map (fun _ _ same => Part.parameters.inj same),?_⟩,?_,?_⟩
  · split <;> simp
  · rintro a listing b parameter
    obtain ⟨f,-,rfl⟩ := List.mem_map.mp parameter
    split at listing <;> simp_all
  · have := singles.map (f := Part.single) (fun _ _ same => Part.single.inj same)
    rwa [List.map_map] at this
  · rintro a earlier b single
    obtain ⟨e,-,rfl⟩ := List.mem_map.mp single
    rcases List.mem_append.mp earlier with listing | parameter
    · split at listing <;> simp_all
    · obtain ⟨f,-,rfl⟩ := List.mem_map.mp parameter
      simp

omit wf in
theorem Query.isGroup_of_ne_single {c : String} (other : q.partOf r column c ≠ .single c) :
    (q.partOf r column c).isGroup = true := by
  cases part : q.partOf r column c with
  | single c' => exact absurd (partOf_eq_single part ▸ part) other
  | _ => rfl

include sep in
/-- The parts by kind hold the occurrences of the query. -/
theorem Query.flatMap_partsByKind (distinct : (q.map Prod.fst).Nodup) :
    (q.partsByKind r column).flatMap (q.partInvocations r column) = q.invocations r column := by
  have listing : (if column ∈ q.map Prod.fst then [Part.listing] else []).flatMap (q.partInvocations r column) =
      (q.scope r column).listed q := by
    by_cases key : column ∈ q.map Prod.fst
    · simp [key,Query.partInvocations]
    · simp [key,Scope.listed_eq_nil key]
  have parameters : ((q.completedFunctions r column).map Part.parameters).flatMap (q.partInvocations r column) =
      q.completedFunctions r column := by
    simp [List.flatMap_map,Query.partInvocations]
  -- an entry read together with others names nothing of its own, so only the entries on their
  -- own count
  have singles : ((q.filter fun e => q.partOf r column e.1 = .single e.1).map (.single ·.1)).flatMap
      (q.partInvocations r column) = q.flatMap fun e => entryFunctions r column e.1 e.2 := by
    rw [List.flatMap_map]
    calc (q.filter fun e => q.partOf r column e.1 = .single e.1).flatMap
          (fun e => entryFunctions r column e.1 ((Keyed.get? e.1 q).getD .null))
        = (q.filter fun e => q.partOf r column e.1 = .single e.1).flatMap
          (fun e => entryFunctions r column e.1 e.2) := by
          refine List.flatMap_congr fun e member => ?_
          rw [Keyed.get?_of_mem distinct (List.mem_of_mem_filter member),Option.getD_some]
      _ = q.flatMap fun e => entryFunctions r column e.1 e.2 := by
          refine List.flatMap_filter_of_nil fun e _ group => ?_
          exact entryFunctions_of_group wf sep (Query.isGroup_of_ne_single (by simpa using group)) e.2
  simp only [Query.partsByKind,List.flatMap_append,listing,parameters,singles,Query.invocations]

include sep in
/-- The parts a read runs hold the occurrences of the query, in some order. -/
theorem Query.newParts_invocations_perm (distinct : (q.map Prod.fst).Nodup) :
    ((q.newParts r column [] q).flatMap (q.partInvocations r column)).Perm (q.invocations r column) := by
  have parts : (q.newParts r column [] q).Perm (q.partsByKind r column) := by
    refine (List.perm_ext_iff_of_nodup (Query.nodup_newParts [] q) (Query.nodup_partsByKind wf distinct)).mpr ?_
    intro g
    rw [Query.mem_newParts,Query.mem_partsByKind wf sep]
    simp
  rw [← Query.flatMap_partsByKind wf sep distinct]
  exact parts.flatMap_right _

include sep in
/-- A read that succeeds is the run of its parts: every part reads, the functions they fire are
apart, and the filters are theirs in order. -/
theorem Query.read_eq_ok_parts (distinct : (q.map Prod.fst).Nodup) {fs : List Filter}
    (read : Query.read r column q = .ok fs) :
    (∀ g ∈ q.newParts r column [] q, (q.partEffect r column g).isSome) ∧
      (((q.newParts r column [] q).filterMap (q.partEffect r column)).flatMap (·.2.firedNames)).Nodup ∧
      fs = ((q.newParts r column [] q).filterMap (q.partEffect r column)).flatMap (·.1) := by
  obtain ⟨s,ran⟩ := (Query.read_eq_ok_iff_runParts wf sep distinct).mp read
  rw [Query.runParts_eq _ (by simp)] at ran
  split at ran
  · next holds =>
    simp only [Option.some.injEq,Prod.mk.injEq] at ran
    exact ⟨holds.1,by simpa using holds.2,ran.1.symm⟩
  · cases ran

end ByKind

/-! ### Each occurrence fires once -/

/-- A read invokes exactly the occurrences of functions in its query, none twice, each with the
handle of the registered function; so a query in which a function occurs twice does not read.
-/
theorem Query.read_invokes_occurrences_once {r : Registry} {column : String} (reachable : r.Reachable)
    (sep : r.Separated column) {q : Query} (distinct : (q.map Prod.fst).Nodup) :
    (∀ fs, Query.read r column q = .ok fs →
      (fs.filterMap Filter.invoked?).Perm (q.invocations r column) ∧ (fs.filterMap Filter.invoked?).Nodup ∧
        ∀ c h, Filter.invocation c h ∈ fs → r.handle c = .ok h) ∧
      (¬(q.invocations r column).Nodup → ∀ fs, Query.read r column q ≠ .ok fs) := by
  have wf := reachable.wellFormed
  have invokes : ∀ fs, Query.read r column q = .ok fs →
      (fs.filterMap Filter.invoked?).Perm (q.invocations r column) ∧ (fs.filterMap Filter.invoked?).Nodup ∧
        ∀ c h, Filter.invocation c h ∈ fs → r.handle c = .ok h := by
    intro fs read
    obtain ⟨allRead,apart,rfl⟩ := Query.read_eq_ok_parts wf sep distinct read
    have reading : ∀ res ∈ (q.newParts r column [] q).filterMap (q.partEffect r column),
        ∃ g, q.PartReading r column g res.1 res.2 := by
      intro res member
      obtain ⟨g,-,effect⟩ := List.mem_filterMap.mp member
      exact ⟨g,Query.partEffect_reading wf sep effect⟩
    have fired : (((q.newParts r column [] q).filterMap (q.partEffect r column)).flatMap (·.1)).filterMap
        Filter.invoked? = ((q.newParts r column [] q).filterMap (q.partEffect r column)).flatMap (·.2.firedNames) := by
      rw [List.filterMap_flatMap]
      refine List.flatMap_congr fun res member => ?_
      obtain ⟨g,readsPart⟩ := reading res member
      exact readsPart.invoked?
    have occurrences : ((q.newParts r column [] q).filterMap (q.partEffect r column)).flatMap (·.2.firedNames) =
        (q.newParts r column [] q).flatMap (q.partInvocations r column) :=
      List.flatMap_filterMap_of_isSome allRead fun g _ res effect =>
        (Query.partEffect_reading wf sep effect).firedNames_eq wf sep distinct
    refine ⟨?_,?_,?_⟩
    · rw [fired,occurrences]
      exact Query.newParts_invocations_perm wf sep distinct
    · rw [fired]
      exact apart
    · intro c h member
      obtain ⟨res,inRun,inOut⟩ := List.mem_flatMap.mp member
      obtain ⟨g,readsPart⟩ := reading res inRun
      obtain ⟨e,registered,same⟩ := readsPart.invocation_registered inOut
      simp only [Entry.invocation,Filter.invocation.injEq] at same
      obtain ⟨rfl,rfl⟩ := same
      exact Registry.handle_of_mem wf registered
  refine ⟨invokes,fun repeated fs read => repeated ?_⟩
  obtain ⟨perm,once,-⟩ := invokes fs read
  exact perm.nodup_iff.mp once

/-- A function listed in the function column, with its parameters as keys, fires once. -/
theorem Query.read_invokes_occurrences_once_listed :
    (∀ fs, Query.read ⟨[⟨"f",["a","b"],.host 0,[]⟩]⟩ "F" [("F",.arr [.str "f"]),("a",.int 1),("b",.int 2)] = .ok fs →
      (fs.filterMap Filter.invoked?).Perm
          (Query.invocations [("F",.arr [.str "f"]),("a",.int 1),("b",.int 2)] ⟨[⟨"f",["a","b"],.host 0,[]⟩]⟩ "F") ∧
        (fs.filterMap Filter.invoked?).Nodup ∧
        ∀ c h, Filter.invocation c h ∈ fs → Registry.handle ⟨[⟨"f",["a","b"],.host 0,[]⟩]⟩ c = .ok h) ∧
      (¬(Query.invocations [("F",.arr [.str "f"]),("a",.int 1),("b",.int 2)] ⟨[⟨"f",["a","b"],.host 0,[]⟩]⟩ "F").Nodup →
        ∀ fs, Query.read ⟨[⟨"f",["a","b"],.host 0,[]⟩]⟩ "F" [("F",.arr [.str "f"]),("a",.int 1),("b",.int 2)] ≠ .ok fs) :=
  Query.read_invokes_occurrences_once (@Registry.Reachable.register {} ⟨[⟨"f",["a","b"],.host 0,[]⟩]⟩ "f" ["a","b"]
    (.host 0) [] .empty rfl) ⟨by simp,by simp,by simp,by decide⟩ (by decide)

/-- Where occurrences are finer than a reading by token sets and by keys. A tuple key with a
parameter twice has the token set of the parameters but names no function: beside the function's
own key the query reads. A key equal to a function's name that reads as a tuple is read as a
tuple: beside the listed function the query reads. And where a second occurrence fails on its own
tuple, the read fails with that failure, not with a repeated call. -/
theorem Query.read_occurrence_edges :
    (Tuple.parse "(a, a, b)").map Tuple.columns = .ok ["a","a","b"] ∧
      (Query.read ⟨[⟨"f",["a","b"],.host 0,[]⟩]⟩ "F"
        [("(a, a, b)",.str "(1, 1, 2)"),("f",.str "(1, 2)")]).isOk = true ∧
      (Query.read ⟨[⟨"(x)",["p"],.host 0,[]⟩]⟩ "F"
        [("F",.arr [.str "(x)"]),("p",.int 1),("(x)",.str "(2)")]).isOk = true ∧
      Query.read ⟨[⟨"f",["a","b"],.host 0,[]⟩]⟩ "F"
        [("a",.int 1),("b",.int 2),("(F, a)",.str "(f)")] = .error (.tupleCount 2 1) :=
  ⟨by decide +kernel,by decide +kernel,by decide +kernel,by rfl⟩

end QueryFilters
