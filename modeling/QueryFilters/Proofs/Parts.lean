import QueryFilters.Proofs.Dispatch

/-!
A pass reads a query part by part. The first entry of a part reads the whole part as it would
at the start of a pass (`Query.partEffect`), and the later entries of the part read as nothing;
so a pass is a run of the query's parts in the order of their first entries
(`readEntries_ends_runParts`). What reading one part can give is said once, by
`Query.PartReading`.
-/
namespace QueryFilters

open Invocation

/-- What a part does from the start of a pass, read at its first entry in the query. -/
def Query.partEffect (q : Query) (r : Registry) (column : String) (g : Part) :
    Option (List Filter × PassState) :=
  match q.find? (fun e => q.partOf r column e.1 == g) with
  | some (c,v) => (readEntry (q.scope r column) c v).ends {}
  | none => none

/-- What reading a part of a query from the start of a pass can give: its filters and what the
pass did. -/
inductive Query.PartReading (q : Query) (r : Registry) (column : String) :
    Part → List Filter → PassState → Prop
  /-- The functions listed in the function column fire in order, each with its arguments from
  the columns of its parameters, which are consumed with the function column. -/
  | listing {names : List String} {blocks : List (Entry × List (String × Json))} :
      listedNames ((Keyed.get? column q).getD .null) = .ok names →
      names.mapM (listedBlock r q) = some blocks → (blocks.map (·.1.name)).Nodup →
      PartReading q r column .listing (blockFilters blocks)
        ((⟨[],[],[column]⟩ : PassState).extend (blocksDelta .explicitByList true blocks))
  /-- A complete function that is not listed fires with all its parameters, consumed. -/
  | parameters {e : Entry} {pairs : List (String × Json)} :
      e ∈ r.entries → e.name ∉ (q.scope r column).listed q → q.argumentsOf e.parameters = some pairs →
      PartReading q r column (.parameters e.name) (e.invocation :: argumentFilters pairs)
        ⟨[(e.name,.implicitByValue)],e.parameters,e.parameters⟩
  /-- A column named after a function fires it with the arguments its value gives. -/
  | byName {e : Entry} {v : Json} {pairs : List (String × Json)} :
      e ∈ r.entries → (e.name,v) ∈ q → Tuple.isTupleText e.name = false →
      byNameArguments e.parameters v = some pairs →
      PartReading q r column (.single e.name) (e.invocation :: argumentFilters pairs)
        ⟨[(e.name,.explicitByName)],e.parameters,[]⟩
  /-- A tuple column led by the function column fires the function that each tuple of its value
  names. -/
  | byTuple {c : String} {v : Json} {t : Tuple} {blocks : List (Entry × List (String × Json))} :
      (c,v) ∈ q → c ≠ column → Tuple.isTupleText c = true → Tuple.parse c = .ok t →
      t.firstColumn? = some column → tupleBlocks r t.size v = some blocks → (blocks.map (·.1.name)).Nodup →
      PartReading q r column (.single c) (blockFilters blocks) (blocksDelta .explicitByTuple false blocks)
  /-- A tuple column of exactly the parameters of a function fires it with the values of its
  tuple value. -/
  | byParameterTuple {c : String} {v : Json} {t : Tuple} {e : Entry} {pairs : List (String × Json)} :
      (c,v) ∈ q → c ≠ column → Tuple.isTupleText c = true → Tuple.parse c = .ok t →
      t.firstColumn? ≠ some column → e ∈ r.entries → t.columns.Perm e.parameters →
      parameterTupleArguments t.columns v = some pairs →
      PartReading q r column (.single c) (e.invocation :: argumentFilters pairs)
        ⟨[(e.name,.implicitByTuple)],t.columns,[]⟩
  /-- An entry that invokes nothing gives its ordinary filters. -/
  | ordinary {c : String} {v : Json} {fs : List Filter} :
      (c,v) ∈ q → Recognition.find? (q.scope r column) {} c v = .ok none → Shape.reading c v = .ok fs →
      PartReading q r column (.single c) fs {}

/-! ### Facts the readings use -/

theorem Keyed.get?_append {α : Type} (k : String) (l l' : List (String × α)) :
    Keyed.get? k (l ++ l') = (Keyed.get? k l).or (Keyed.get? k l') := by
  induction l with
  | nil => rfl
  | cons e rest ih =>
    obtain ⟨k',v⟩ := e
    by_cases same : k' = k <;> simp [Keyed.get?,same,ih]

theorem Keyed.mem_of_get? {α : Type} {k : String} {v : α} :
    ∀ {l : List (String × α)}, Keyed.get? k l = some v → (k,v) ∈ l
  | [], found => by simp [Keyed.get?] at found
  | (k',v') :: rest, found => by
    by_cases same : k' = k
    · simp only [Keyed.get?,same,if_true,Option.some.injEq] at found
      simp [same,found]
    · simp only [Keyed.get?,same,if_false] at found
      exact List.mem_cons_of_mem _ (Keyed.mem_of_get? found)

theorem List.mapM_option_mem_left {α β : Type} {f : α → Option β} :
    ∀ {l : List α} {l' : List β}, l.mapM f = some l' → ∀ a ∈ l, ∃ b ∈ l', f a = some b
  | [], _, _, a, member => by simp at member
  | x :: rest, l', made, a, member => by
    simp only [List.mapM_cons,Option.bind_eq_bind,Option.bind_eq_some_iff,Option.pure_def,
      Option.some.injEq] at made
    obtain ⟨y,fx,ys,restMade,rfl⟩ := made
    rcases List.mem_cons.mp member with rfl | later
    · exact ⟨y,by simp,fx⟩
    · obtain ⟨b,inYs,fa⟩ := List.mapM_option_mem_left restMade a later
      exact ⟨b,List.mem_cons_of_mem _ inYs,fa⟩

theorem List.mapM_option_mem_right {α β : Type} {f : α → Option β} :
    ∀ {l : List α} {l' : List β}, l.mapM f = some l' → ∀ b ∈ l', ∃ a ∈ l, f a = some b
  | [], l', made, b, member => by
    simp only [List.mapM_nil,Option.pure_def,Option.some.injEq] at made
    subst made
    simp at member
  | x :: rest, l', made, b, member => by
    simp only [List.mapM_cons,Option.bind_eq_bind,Option.bind_eq_some_iff,Option.pure_def,
      Option.some.injEq] at made
    obtain ⟨y,fx,ys,restMade,rfl⟩ := made
    rcases List.mem_cons.mp member with rfl | later
    · exact ⟨x,by simp,fx⟩
    · obtain ⟨a,inRest,fa⟩ := List.mapM_option_mem_right restMade b later
      exact ⟨a,List.mem_cons_of_mem _ inRest,fa⟩

theorem Registry.WellFormed.eq_of_name {r : Registry} (wf : r.WellFormed) {x y : Entry} (xMember : x ∈ r.entries)
    (yMember : y ∈ r.entries) (same : x.name = y.name) : x = y :=
  List.inj_on_of_nodup_map wf.namesNodup xMember yMember same

/-- Two sound states whose fired functions are apart make a sound state. -/
theorem PassState.Sound.extend {r : Registry} {column : String} {s d : PassState} (sound : s.Sound r column)
    (later : d.Sound r column) (apart : (s.firedNames ++ d.firedNames).Nodup) : (s.extend d).Sound r column := by
  refine ⟨?_,?_,?_,?_⟩
  · simpa using apart
  · intro f named
    rcases List.mem_append.mp (by simpa using named) with old | new
    · exact sound.firedRegistered f old
    · exact later.firedRegistered f new
  · intro p emitted
    rcases List.mem_append.mp emitted with old | new
    · obtain ⟨e,member,fired,owned⟩ := sound.emittedOwned p old
      exact ⟨e,member,by simp [fired],owned⟩
    · obtain ⟨e,member,fired,owned⟩ := later.emittedOwned p new
      exact ⟨e,member,by simp [fired],owned⟩
  · intro c consumed
    rcases List.mem_append.mp consumed with old | new
    · rcases sound.consumedOwned c old with same | ⟨e,member,fired,owned⟩
      · exact .inl same
      · exact .inr ⟨e,member,by simp [fired],owned⟩
    · rcases later.consumedOwned c new with same | ⟨e,member,fired,owned⟩
      · exact .inl same
      · exact .inr ⟨e,member,by simp [fired],owned⟩

/-- The invocations of registered functions, none twice, leave a sound state. -/
theorem Invocation.sound_blocksDelta {r : Registry} {column : String} {how : Recognition} {consumes : Bool}
    {blocks : List (Entry × List (String × Json))} (registered : ∀ b ∈ blocks, b.1 ∈ r.entries)
    (distinct : (blocks.map (·.1.name)).Nodup) : (blocksDelta how consumes blocks).Sound r column := by
  have owned : ∀ p ∈ blocks.flatMap (·.1.parameters), ∃ e ∈ r.entries,
      e.name ∈ (blocksDelta how consumes blocks).firedNames ∧ p ∈ e.parameters := by
    intro p inBlocks
    obtain ⟨b,member,owns⟩ := List.mem_flatMap.mp inBlocks
    exact ⟨b.1,registered b member,by simpa only [blocksDelta_firedNames] using List.mem_map_of_mem member,owns⟩
  refine ⟨by simpa using distinct,?_,?_,?_⟩
  · intro f named
    simp only [blocksDelta_firedNames] at named
    obtain ⟨b,member,rfl⟩ := List.mem_map.mp named
    exact ⟨b.1,registered b member,rfl⟩
  · exact owned
  · intro c consumed
    cases consumes
    · simp [blocksDelta] at consumed
    · exact .inr (owned c (by simpa [blocksDelta] using consumed))

/-- Items that all read as names are the strings among them. -/
theorem Invocation.filterMap_of_names {refuse : FilterError} :
    ∀ {items : List Json} {names : List String},
      items.mapM (fun i => match i with
        | .str s => (Except.ok s : Outcome String)
        | _ => .error refuse) = .ok names →
      items.filterMap Json.asString? = names
  | [], names, listed => by
    simp only [List.mapM_nil,pure,Except.pure,Except.ok.injEq] at listed
    simp [← listed]
  | i :: rest, names, listed => by
    cases i with
    | str x =>
      simp only [List.mapM_cons,bind,Except.bind,pure,Except.pure] at listed
      cases restNames : rest.mapM (fun i => match i with
        | .str s => (Except.ok s : Outcome String)
        | _ => .error refuse) with
      | error _ => simp [restNames] at listed
      | ok more =>
        simp only [restNames,Except.ok.injEq] at listed
        simp [← listed,Json.asString?,Invocation.filterMap_of_names restNames]
    | _ => simp [List.mapM_cons,bind,Except.bind] at listed

/-- The listed names are the function column's strings once they read as names. -/
theorem Scope.listed_of_listedNames {q : Query} {r : Registry} {column : String} {names : List String}
    (listed : listedNames ((Keyed.get? column q).getD .null) = .ok names) :
    (q.scope r column).listed q = names := by
  unfold Scope.listed
  simp only [Query.scope_functionColumn]
  cases found : Keyed.get? column q with
  | none => simp [found,listedNames] at listed
  | some raw =>
    rw [found] at listed
    cases raw with
    | arr items =>
      simp only [listedNames,Option.getD_some] at listed
      exact Invocation.filterMap_of_names listed
    | _ => simp [listedNames] at listed

section Readings
variable {q : Query} {r : Registry} {column : String} (wf : r.WellFormed) (sep : r.SeparatedOn column (q.map Prod.fst))
include wf sep

theorem Query.reading_of_listing {c : String} {v : Json} (listing : q.partOf r column c = .listing)
    {out : List Filter} {d : PassState} (read : (readEntry (q.scope r column) c v).ends {} = some (out,d)) :
    q.PartReading r column .listing out d := by
  rw [readEntry_of_listing listing (by simp),
    parse_explicitByList_ends wf (PassState.sound_empty r column) sep.columnNotParameter] at read
  simp only [List.not_mem_nil,if_false,Option.bind_eq_some_iff,Except.toOption_eq_some] at read
  obtain ⟨names,listed,blocks,made,fresh⟩ := read
  by_cases distinct : FreshBlocks {} blocks
  · simp only [distinct,if_true,Option.some.injEq,Prod.mk.injEq,PassState.empty_extend] at fresh
    obtain ⟨rfl,rfl⟩ := fresh
    exact .listing listed made distinct.1
  · simp [distinct] at fresh

theorem Query.reading_of_parameters {c f : String} {v : Json} (params : q.partOf r column c = .parameters f)
    {out : List Filter} {d : PassState} (read : (readEntry (q.scope r column) c v).ends {} = some (out,d)) :
    q.PartReading r column (.parameters f) out d := by
  obtain ⟨-,-,completes⟩ := partOf_eq_parameters.mp params
  obtain ⟨e,member,rfl,-,unlisted,given⟩ := (Invocation.mem_completed wf).mp (completes ▸ List.mem_singleton_self _)
  obtain ⟨pairs,arguments⟩ := Query.argumentsOf_of_given given
  rw [readEntry_of_parameters wf sep params,parse_implicitByValue_ends wf (PassState.sound_empty r column)
    sep.columnNotParameter member completes arguments] at read
  simp only [PassState.firedBy_empty,Option.some.injEq,Prod.mk.injEq,PassState.empty_extend] at read
  obtain ⟨rfl,rfl⟩ := read
  exact .parameters member unlisted arguments

theorem Query.reading_of_single {c : String} {v : Json} (member : (c,v) ∈ q)
    (single : q.partOf r column c = .single c) {out : List Filter} {d : PassState}
    (read : (readEntry (q.scope r column) c v).ends {} = some (out,d)) :
    q.PartReading r column (.single c) out d := by
  have notListing : ¬(c = column ∨ (q.scope r column).listsParameter q c = true) := fun listing => by
    simp [partOf_eq_listing.mpr listing] at single
  simp only [not_or,Bool.not_eq_true] at notListing
  have sound₀ := PassState.sound_empty r column
  have wfScope : (q.scope r column).registry.WellFormed := wf
  rw [readEntry_ends] at read
  simp only [Invocation.supports,PassState.isConsumed,List.contains_nil,Bool.false_eq_true,if_false] at read
  cases found : Recognition.find? (q.scope r column) {} c v with
  | error _ => simp [found,Except.map] at read
  | ok how? =>
    cases how? with
    | none =>
      simp only [found,Except.map,Option.isSome_none] at read
      cases reading : Shape.reading c v with
      | error _ => simp [reading] at read
      | ok fs =>
        simp only [reading,PassM.ends_lift,Option.some.injEq,Prod.mk.injEq] at read
        obtain ⟨rfl,rfl⟩ := read
        exact .ordinary member found reading
    | some how =>
      simp only [found,Except.map,Option.isSome_some] at read
      rw [Invocation.parse_ends,found] at read
      simp only at read
      have accepts := Recognition.supports_of_find? found
      cases how with
      | explicitByList => simp [Recognition.supports_explicitByList,notListing] at accepts
      | explicitByName =>
        simp only [Recognition.supports_explicitByName,Bool.and_eq_true,Bool.not_eq_true',
          Except.ok.injEq] at accepts
        obtain ⟨e,entry,rfl⟩ := Registry.isRegistered_iff.mp accepts.2
        rw [parse_explicitByName_ends wfScope sound₀ entry] at read
        cases given : byNameArguments e.parameters v with
        | none => simp [given] at read
        | some pairs =>
          simp only [given,Option.bind_some,PassState.firedNames_empty,List.not_mem_nil,if_false,
            Option.some.injEq,Prod.mk.injEq,PassState.empty_extend] at read
          obtain ⟨rfl,rfl⟩ := read
          exact .byName entry member accepts.1 given
      | explicitByTuple =>
        by_cases tuple : Tuple.isTupleText c = true
        · cases parsed : Tuple.parse c with
          | error _ => simp [Recognition.supports_explicitByTuple,tuple,parsed,Except.map] at accepts
          | ok t =>
            have first : t.firstColumn? = some column := by
              simpa [Recognition.supports_explicitByTuple,tuple,parsed,Except.map] using accepts
            rw [parse_explicitByTuple_ends wfScope sound₀] at read
            simp only [parsed,Except.toOption_ok,Option.bind_some,Option.bind_eq_some_iff] at read
            obtain ⟨blocks,made,fresh⟩ := read
            by_cases distinct : FreshBlocks {} blocks
            · simp only [distinct,if_true,Option.some.injEq,Prod.mk.injEq,PassState.empty_extend] at fresh
              obtain ⟨rfl,rfl⟩ := fresh
              exact .byTuple member notListing.1 tuple parsed first made distinct.1
            · simp [distinct] at fresh
        · simp [Recognition.supports_explicitByTuple,tuple] at accepts
      | implicitByTuple =>
        by_cases tuple : Tuple.isTupleText c = true
        · cases parsed : Tuple.parse c with
          | error _ => simp [Recognition.supports_implicitByTuple,tuple,parsed,Except.map] at accepts
          | ok t =>
            have named : r.namesByAllParameters t.columns ≠ [] := by
              simpa [Recognition.supports_implicitByTuple,tuple,parsed,Except.map] using accepts
            obtain ⟨f,inNames⟩ := List.exists_mem_of_ne_nil _ named
            simp only [Registry.namesByAllParameters,List.mem_map,List.mem_filter,List.isPerm_iff] at inNames
            obtain ⟨e,⟨entry,perm⟩,-⟩ := inNames
            have notFirst : t.firstColumn? ≠ some column := by
              intro first
              have led : column ∈ t.columns := List.mem_of_mem_head? first
              exact sep.columnNotParameter e entry (perm.symm.mem_iff.mp led)
            rw [parse_implicitByTuple_ends wfScope sound₀ parsed entry perm.symm] at read
            cases given : parameterTupleArguments t.columns v with
            | none => simp [given] at read
            | some pairs =>
              simp only [given,Option.bind_some,PassState.firedNames_empty,List.not_mem_nil,if_false,
                Option.some.injEq,Prod.mk.injEq,PassState.empty_extend] at read
              obtain ⟨rfl,rfl⟩ := read
              exact .byParameterTuple member notListing.1 tuple parsed notFirst entry perm.symm given
        · simp [Recognition.supports_implicitByTuple,tuple] at accepts
      | implicitByValue =>
        simp only [Recognition.supports_implicitByValue,Bool.and_eq_true,Bool.not_eq_true',Except.ok.injEq,
          List.isEmpty_eq_false_iff] at accepts
        have atMost := @Invocation.length_completed_le q r column wf c
        generalize completes : Invocation.completed (q.scope r column) q c = names at accepts atMost
        rcases names with _ | ⟨f,_ | ⟨g,rest⟩⟩
        · exact absurd rfl accepts.2
        · have params : q.partOf r column c = .parameters f :=
            partOf_eq_parameters.mpr ⟨by simpa using notListing,accepts.1,completes⟩
          simp [params] at single
        · simp at atMost

/-- An entry reads from the start of a pass as every entry of its part does. -/
theorem Query.readEntry_fresh_congr (distinct : (q.map Prod.fst).Nodup) {c c' : String} {v v' : Json}
    (member : (c,v) ∈ q) (member' : (c',v') ∈ q) (same : q.partOf r column c' = q.partOf r column c) :
    (readEntry (q.scope r column) c' v').ends {} = (readEntry (q.scope r column) c v).ends {} := by
  generalize part : q.partOf r column c = g at same
  cases g with
  | listing =>
    rw [readEntry_of_listing same (by simp),readEntry_of_listing part (by simp)]
    rfl
  | parameters f =>
    obtain ⟨-,-,completes⟩ := partOf_eq_parameters.mp part
    obtain ⟨-,-,completes'⟩ := partOf_eq_parameters.mp same
    obtain ⟨e,entry,rfl,-,-,given⟩ := (Invocation.mem_completed wf).mp (completes ▸ List.mem_singleton_self _)
    obtain ⟨pairs,arguments⟩ := Query.argumentsOf_of_given given
    have sound₀ := PassState.sound_empty r column
    rw [readEntry_of_parameters wf sep same,readEntry_of_parameters wf sep part,
      parse_implicitByValue_ends wf sound₀ sep.columnNotParameter entry completes' arguments,
      parse_implicitByValue_ends wf sound₀ sep.columnNotParameter entry completes arguments]
  | single c₀ =>
    obtain rfl := partOf_eq_single part
    obtain rfl := partOf_eq_single same
    have values := (Keyed.get?_of_mem distinct member').symm.trans (Keyed.get?_of_mem distinct member)
    rw [Option.some.injEq] at values
    rw [values]

/-- A part's effect is what any of its entries reads from the start of a pass. -/
theorem Query.partEffect_of_mem (distinct : (q.map Prod.fst).Nodup) {c : String} {v : Json}
    (member : (c,v) ∈ q) :
    q.partEffect r column (q.partOf r column c) = (readEntry (q.scope r column) c v).ends {} := by
  have some : (q.find? fun e => q.partOf r column e.1 == q.partOf r column c).isSome :=
    List.find?_isSome.mpr ⟨(c,v),member,by simp⟩
  obtain ⟨⟨c',v'⟩,found⟩ := Option.isSome_iff_exists.mp some
  have same : q.partOf r column c' = q.partOf r column c := by simpa using List.find?_some found
  simp only [Query.partEffect,found]
  exact Query.readEntry_fresh_congr wf sep distinct member (List.mem_of_find?_eq_some found) same

/-- Every effect of a part is one of the readings of `Query.PartReading`. -/
theorem Registry.SeparatedOn.partEffect_reading {g : Part} {out : List Filter} {d : PassState}
    (effect : q.partEffect r column g = some (out,d)) : q.PartReading r column g out d := by
  unfold Query.partEffect at effect
  cases found : q.find? (fun e => q.partOf r column e.1 == g) with
  | none => simp [found] at effect
  | some entry =>
    obtain ⟨c,v⟩ := entry
    simp only [found] at effect
    have member := List.mem_of_find?_eq_some found
    have part : q.partOf r column c = g := by simpa using List.find?_some found
    subst part
    generalize part : q.partOf r column c = g
    cases g with
    | listing => exact Query.reading_of_listing wf sep part effect
    | parameters f => exact Query.reading_of_parameters wf sep part effect
    | single c₀ =>
      obtain rfl := partOf_eq_single part
      exact Query.reading_of_single wf sep member part effect

end Readings

theorem Query.partEffect_reading {q : Query} {r : Registry} {column : String} (wf : r.WellFormed)
    (sep : r.Separated column) {g : Part} {out : List Filter} {d : PassState}
    (effect : q.partEffect r column g = some (out,d)) : q.PartReading r column g out d :=
  (sep.on _).partEffect_reading wf effect


theorem Invocation.listedBlock_eq {r : Registry} {q : Query} {name : String} {b : Entry × List (String × Json)}
    (made : listedBlock r q name = some b) :
    b.1 ∈ r.entries ∧ b.1.name = name ∧ q.argumentsOf b.1.parameters = some b.2 := by
  simp only [listedBlock,Option.bind_eq_some_iff,Option.map_eq_some_iff] at made
  obtain ⟨e,found,pairs,given,rfl⟩ := made
  obtain ⟨member,rfl⟩ := Registry.find?_eq_some found
  exact ⟨member,rfl,given⟩

theorem Query.argumentsOf_given {q : Query} :
    ∀ {ps : List String} {pairs : List (String × Json)}, q.argumentsOf ps = some pairs →
      ∀ p ∈ ps, (Keyed.get? p q).isSome
  | [], _, _, p, named => by simp at named
  | p' :: rest, pairs, given, p, named => by
    simp only [Query.argumentsOf_cons,Option.bind_eq_some_iff,Option.map_eq_some_iff] at given
    obtain ⟨v,found,more,restGiven,-⟩ := given
    rcases List.mem_cons.mp named with rfl | later
    · simp [found]
    · exact Query.argumentsOf_given restGiven p later

theorem PassState.firedBy_extend (s d : PassState) (f : String) :
    (s.extend d).firedBy f = (s.firedBy f).or (d.firedBy f) :=
  Keyed.get?_append f s.fired d.fired

theorem PassState.firedBy_ne {d : PassState} {how : Recognition} (none : ∀ x ∈ d.fired, x.2 ≠ how) (f : String) :
    d.firedBy f ≠ some how := fun found => none _ (Keyed.mem_of_get? found) rfl

theorem Invocation.tupleBlocks_registered {r : Registry} {n : Nat} {v : Json}
    {blocks : List (Entry × List (String × Json))} (made : tupleBlocks r n v = some blocks) :
    ∀ b ∈ blocks, b.1 ∈ r.entries := by
  intro b member
  cases v with
  | arr items =>
    obtain ⟨item,-,block⟩ := List.mapM_option_mem_right made b member
    exact tupleBlock_registered block
  | _ =>
    simp only [tupleBlocks,Option.map_eq_some_iff] at made
    obtain ⟨b',block,rfl⟩ := made
    rw [List.mem_singleton.mp member]
    exact tupleBlock_registered block

theorem Invocation.how_of_mem_blocksDelta {how : Recognition} {consumes : Bool}
    {blocks : List (Entry × List (String × Json))} {x : String × Recognition}
    (fired : x ∈ (blocksDelta how consumes blocks).fired) : x.2 = how := by
  simp only [blocksDelta,List.mem_map] at fired
  obtain ⟨b,-,rfl⟩ := fired
  rfl

/-! ### What reading a part leaves -/

section Deltas
variable {q : Query} {r : Registry} {column : String} (wf : r.WellFormed) (sep : r.SeparatedOn column (q.map Prod.fst))
  {g : Part} {out : List Filter} {d : PassState}

theorem Query.PartReading.sound (reading : q.PartReading r column g out d) : d.Sound r column := by
  have sound₀ := PassState.sound_empty r column
  cases reading with
  | @listing names blocks listed made distinct =>
    have registered : ∀ b ∈ blocks, b.1 ∈ r.entries := fun b member => by
      obtain ⟨name,-,block⟩ := List.mapM_option_mem_right made b member
      exact (listedBlock_eq block).1
    have columnSound : (⟨[],[],[column]⟩ : PassState).Sound r column := by
      simpa using sound₀.consumeColumn
    exact columnSound.extend (sound_blocksDelta registered distinct) (by simpa using distinct)
  | parameters member _ _ => simpa using sound₀.record member (by simp) (fun _ h => h) (fun _ h => h)
  | byName member _ _ _ => simpa using sound₀.record member (by simp) (fun _ h => h) (by simp)
  | byTuple _ _ _ _ _ made distinct => exact sound_blocksDelta (tupleBlocks_registered made) distinct
  | byParameterTuple _ _ _ _ _ member perm _ =>
    simpa using sound₀.record member (by simp) (fun _ h => perm.mem_iff.mp h) (by simp)
  | ordinary => exact sound₀

include wf sep

/-- Reading a part consumes exactly the columns of the part when it is read together, and none
when it is an entry on its own. -/
theorem Query.PartReading.consumed_iff (reading : q.PartReading r column g out d) (c : String) :
    c ∈ d.consumed ↔ q.partOf r column c = g ∧ g.isGroup = true := by
  cases reading with
  | @listing names blocks listed made distinct =>
    have names_eq := Scope.listed_of_listedNames (r := r) listed
    simp only [PassState.extend,blocksDelta,if_true,List.nil_append,List.mem_append,List.mem_singleton,
      List.mem_flatMap,Part.isGroup,and_true,partOf_eq_listing]
    apply or_congr_right
    constructor
    · rintro ⟨b,member,owned⟩
      obtain ⟨name,named,block⟩ := List.mapM_option_mem_right made b member
      obtain ⟨entry,rfl,-⟩ := listedBlock_eq block
      exact (Scope.listsParameter_iff wf).mpr ⟨b.1,entry,names_eq ▸ named,owned⟩
    · intro lists
      obtain ⟨e,entry,inListed,owned⟩ := (Scope.listsParameter_iff wf).mp lists
      obtain ⟨b,member,block⟩ := List.mapM_option_mem_left made e.name (names_eq ▸ inListed)
      obtain ⟨bEntry,same,-⟩ := listedBlock_eq block
      exact ⟨b,member,wf.eq_of_name bEntry entry same ▸ owned⟩
  | @parameters e pairs member unlisted given =>
    simp only [Part.isGroup,and_true]
    constructor
    · intro owned
      obtain ⟨v,found⟩ := Option.isSome_iff_exists.mp (Query.argumentsOf_given given c owned)
      have plain := sep.parameterPlain e member c owned (List.mem_map.mpr ⟨(c,v),Keyed.mem_of_get? found,rfl⟩)
      have notListing : ¬(c = column ∨ (q.scope r column).listsParameter q c = true) := by
        rintro (rfl | lists)
        · exact sep.columnNotParameter e member owned
        · obtain ⟨x,xEntry,xListed,xOwns⟩ := (Scope.listsParameter_iff wf).mp lists
          exact unlisted (wf.ownerUnique x xEntry e member c xOwns owned ▸ xListed)
      have completes : completed (q.scope r column) q c = [e.name] := by
        have present := Query.argumentsOf_given given
        simp [completed,Registry.namesByParameter_of_mem wf member owned,unlisted,
          Registry.parametersFor_of_mem wf member]
        exact present
      exact partOf_eq_parameters.mpr ⟨notListing,plain,completes⟩
    · intro params
      obtain ⟨-,-,completes⟩ := partOf_eq_parameters.mp params
      obtain ⟨x,xEntry,same,owned,-⟩ := (Invocation.mem_completed wf).mp (completes ▸ List.mem_singleton_self _)
      exact wf.eq_of_name xEntry member same ▸ owned
  | byName => simp [Part.isGroup]
  | byTuple => simp [blocksDelta,Part.isGroup]
  | byParameterTuple => simp [Part.isGroup]
  | ordinary => simp [Part.isGroup]

omit wf sep in
/-- Reading a part fires a function by its parameters exactly when the part is that function's
parameters. -/
theorem Query.PartReading.byValue_iff (reading : q.PartReading r column g out d) (f : String) :
    d.firedBy f = some .implicitByValue ↔ g = .parameters f := by
  cases reading with
  | @parameters e pairs =>
    by_cases same : e.name = f <;> simp [PassState.firedBy,Keyed.get?,same]
  | listing =>
    simp only [reduceCtorEq,iff_false]
    refine PassState.firedBy_ne (fun x fired => ?_) f
    rw [how_of_mem_blocksDelta (by simpa [PassState.extend] using fired)]
    decide
  | byName =>
    simp only [reduceCtorEq,iff_false]
    exact PassState.firedBy_ne (by simp) f
  | byTuple =>
    simp only [reduceCtorEq,iff_false]
    refine PassState.firedBy_ne (fun x fired => ?_) f
    rw [how_of_mem_blocksDelta fired]
    decide
  | byParameterTuple =>
    simp only [reduceCtorEq,iff_false]
    exact PassState.firedBy_ne (by simp) f
  | ordinary =>
    simp only [reduceCtorEq,iff_false]
    exact PassState.firedBy_ne (by simp) f

end Deltas

/-! ### A pass that has read some parts -/

/-- The state of a pass that has read the parts `T` of a query: it is sound, the columns it
consumed are those of the parts read together, and a function fired by its parameters exactly
when its parameters were read. -/
structure Query.Tracks (q : Query) (r : Registry) (column : String) (T : List Part) (s : PassState) :
    Prop where
  sound : s.Sound r column
  consumed : ∀ c, c ∈ s.consumed ↔ q.partOf r column c ∈ T ∧ (q.partOf r column c).isGroup = true
  byValue : ∀ f, s.firedBy f = some .implicitByValue ↔ Part.parameters f ∈ T

section Tracks
variable {q : Query} {r : Registry} {column : String}

theorem Query.tracks_empty : q.Tracks r column [] {} :=
  ⟨PassState.sound_empty r column,by simp,by simp⟩

/-- Reading one more part, apart from the functions fired so far, keeps the state tracked. -/
theorem Query.Tracks.extend (wf : r.WellFormed) (sep : r.SeparatedOn column (q.map Prod.fst)) {T : List Part} {s : PassState}
    (tracks : q.Tracks r column T s) {g : Part} {out : List Filter} {d : PassState}
    (reading : q.PartReading r column g out d) (apart : (s.firedNames ++ d.firedNames).Nodup) :
    q.Tracks r column (T ++ [g]) (s.extend d) := by
  refine ⟨tracks.sound.extend (reading.sound) apart,?_,?_⟩
  · intro c
    simp only [PassState.extend,List.mem_append,tracks.consumed,reading.consumed_iff wf sep,List.mem_singleton]
    constructor
    · rintro (⟨inT,group⟩ | ⟨rfl,group⟩)
      · exact ⟨.inl inT,group⟩
      · exact ⟨.inr rfl,group⟩
    · rintro ⟨inT | rfl,group⟩
      · exact .inl ⟨inT,group⟩
      · exact .inr ⟨rfl,group⟩
  · intro f
    rw [PassState.firedBy_extend]
    simp only [List.mem_append,List.mem_singleton]
    cases old : s.firedBy f with
    | some how =>
      have named : f ∈ s.firedNames := PassState.isSome_firedBy.mp (by simp [old])
      simp only [Option.some_or]
      rw [← old,tracks.byValue]
      refine ⟨.inl,?_⟩
      rintro (inT | rfl)
      · exact inT
      · have fired : f ∈ d.firedNames := PassState.isSome_firedBy.mp (by simp [(reading.byValue_iff f).mpr rfl])
        exact absurd fired (List.disjoint_of_nodup_append apart named)
    | none =>
      simp only [Option.none_or,reading.byValue_iff]
      have unread : Part.parameters f ∉ T := fun inT => by simp [(tracks.byValue f).mpr inT] at old
      constructor
      · intro same
        exact .inr same.symm
      · rintro (inT | same)
        · exact absurd inT unread
        · exact same.symm

/-- An entry of a part already read together reads as nothing. -/
theorem Query.Tracks.readEntry_read (wf : r.WellFormed) (sep : r.SeparatedOn column (q.map Prod.fst))
    {T : List Part} {s : PassState} (tracks : q.Tracks r column T s) {c : String} (key : c ∈ q.map Prod.fst) (read : q.partOf r column c ∈ T)
    (group : (q.partOf r column c).isGroup = true) (v : Json) :
    (readEntry (q.scope r column) c v).ends s = some ([],s) := by
  generalize part : q.partOf r column c = g at read group
  cases g with
  | listing =>
    have listing : q.partOf r column column = .listing := partOf_eq_listing.mpr (.inl rfl)
    have consumed : column ∈ s.consumed := (tracks.consumed column).mpr ⟨listing ▸ read,by rw [listing]; rfl⟩
    rw [readEntry_listing_ends wf sep tracks.sound key part (fun _ => (tracks.consumed c).mpr ⟨part ▸ read,part ▸ group⟩),
      if_pos consumed]
  | parameters f => rw [readEntry_parameters_ends wf sep tracks.sound part,if_pos ((tracks.byValue f).mpr read)]
  | single c₀ => simp [Part.isGroup] at group

/-- The first entry of a part not yet read reads the part as from the start of a pass. -/
theorem Query.Tracks.readEntry_unread (wf : r.WellFormed) (sep : r.SeparatedOn column (q.map Prod.fst))
    (distinct : (q.map Prod.fst).Nodup) {T : List Part} {s : PassState} (tracks : q.Tracks r column T s)
    {c : String} {v : Json} (member : (c,v) ∈ q) (unread : q.partOf r column c ∉ T) :
    (readEntry (q.scope r column) c v).ends s = s.after (q.partEffect r column (q.partOf r column c)) := by
  rw [Query.partEffect_of_mem wf sep distinct member]
  generalize part : q.partOf r column c = g at unread
  cases g with
  | listing =>
    have listing : q.partOf r column column = .listing := partOf_eq_listing.mpr (.inl rfl)
    have unconsumed : column ∉ s.consumed := fun consumed => unread (listing ▸ ((tracks.consumed column).mp consumed).1)
    rw [readEntry_listing_ends wf sep tracks.sound (List.mem_map_of_mem member) part (fun consumed => absurd consumed unconsumed),
      if_neg unconsumed]
  | parameters f =>
    rw [readEntry_parameters_ends wf sep tracks.sound part,if_neg (fun fired => unread ((tracks.byValue f).mp fired))]
  | single c₀ =>
    obtain rfl := partOf_eq_single part
    have unconsumed : c₀ ∉ s.consumed := fun consumed => by
      simpa [part,Part.isGroup] using ((tracks.consumed c₀).mp consumed).2
    exact readEntry_single_ends wf tracks.sound part unconsumed v

end Tracks

/-! ### A pass is a run of parts -/

/-- The parts of entries not among `T`, in the order of their first entries. -/
def Query.newParts (q : Query) (r : Registry) (column : String) : List Part → Query → List Part
  | _, [] => []
  | T, (c,_) :: rest =>
    if q.partOf r column c ∈ T then q.newParts r column T rest
    else q.partOf r column c :: q.newParts r column (T ++ [q.partOf r column c]) rest

/-- Reads parts in order from a state, each as from the start of a pass. -/
def Query.runParts (q : Query) (r : Registry) (column : String) :
    List Part → PassState → Option (List Filter × PassState)
  | [], s => some ([],s)
  | g :: rest, s => (s.after (q.partEffect r column g)).bind fun res =>
      (q.runParts r column rest res.2).map fun more => (res.1 ++ more.1,more.2)

section NewParts
variable {q : Query} {r : Registry} {column : String}

theorem Query.mem_newParts {g : Part} :
    ∀ {T : List Part} {l : Query}, g ∈ q.newParts r column T l ↔ g ∉ T ∧ ∃ c ∈ l.map Prod.fst, q.partOf r column c = g
  | T, [] => by simp [Query.newParts]
  | T, (c,v) :: rest => by
    by_cases read : q.partOf r column c ∈ T
    · simp only [Query.newParts,if_pos read,Query.mem_newParts,List.map_cons,List.mem_cons,exists_eq_or_imp]
      constructor
      · rintro ⟨unread,named⟩
        exact ⟨unread,.inr named⟩
      · rintro ⟨unread,rfl | named⟩
        · exact absurd read unread
        · exact ⟨unread,named⟩
    · simp only [Query.newParts,if_neg read,List.mem_cons,Query.mem_newParts,List.mem_append,
        List.not_mem_nil,or_false,not_or,List.map_cons,exists_eq_or_imp]
      constructor
      · rintro (rfl | ⟨⟨unread,-⟩,named⟩)
        · exact ⟨read,.inl rfl⟩
        · exact ⟨unread,.inr named⟩
      · rintro ⟨unread,same | named⟩
        · exact .inl same.symm
        · by_cases first : g = q.partOf r column c
          · exact .inl first
          · exact .inr ⟨⟨unread,first⟩,named⟩

theorem Query.nodup_newParts : ∀ (T : List Part) (l : Query), (q.newParts r column T l).Nodup
  | T, [] => by simp [Query.newParts]
  | T, (c,v) :: rest => by
    by_cases read : q.partOf r column c ∈ T
    · simpa [Query.newParts,read] using Query.nodup_newParts T rest
    · simp only [Query.newParts,if_neg read,List.nodup_cons]
      exact ⟨fun named => (Query.mem_newParts.mp named).1 (by simp),Query.nodup_newParts _ rest⟩

/-- Two lists of entries with the same columns have the same new parts, in some order. -/
theorem Query.newParts_perm {l l' : Query} (same : ∀ c, c ∈ l.map Prod.fst ↔ c ∈ l'.map Prod.fst) (T : List Part) :
    (q.newParts r column T l).Perm (q.newParts r column T l') := by
  refine (List.perm_ext_iff_of_nodup (Query.nodup_newParts T l) (Query.nodup_newParts T l')).mpr ?_
  intro g
  simp only [Query.mem_newParts,same]

end NewParts

/-- A run of parts succeeds when every part succeeds and no function fires twice; its filters are
those of the parts in order. -/
theorem Query.runParts_eq {q : Query} {r : Registry} {column : String} :
    ∀ (G : List Part) {s : PassState}, s.firedNames.Nodup → q.runParts r column G s =
      if (∀ g ∈ G, (q.partEffect r column g).isSome) ∧
          (s.firedNames ++ (G.filterMap (q.partEffect r column)).flatMap (·.2.firedNames)).Nodup then
        some ((G.filterMap (q.partEffect r column)).flatMap (·.1),
          (G.filterMap (q.partEffect r column)).foldl (fun s res => s.extend res.2) s)
      else none
  | [], s, fresh => by simp [Query.runParts,fresh]
  | g :: rest, s, fresh => by
    simp only [Query.runParts]
    cases effect : q.partEffect r column g with
    | none => simp [effect]
    | some res =>
      obtain ⟨out,d⟩ := res
      simp only [List.filterMap_cons,effect,List.flatMap_cons,List.foldl_cons,List.forall_mem_cons,
        Option.isSome_some,true_and,← List.append_assoc]
      rw [PassState.after_some]
      by_cases first : (s.firedNames ++ d.firedNames).Nodup
      · rw [if_pos first,Option.bind_some,Query.runParts_eq rest (by simpa using first)]
        simp only [PassState.firedNames_extend]
        split <;> simp_all
      · rw [if_neg first,Option.bind_none,if_neg]
        rintro ⟨-,nodup⟩
        exact first (nodup.sublist (List.sublist_append_left _ _))

/-- Running the same parts in another order succeeds alike and gives the same filters, in some
order. -/
theorem Query.runParts_perm {q : Query} {r : Registry} {column : String} {G G' : List Part}
    (perm : G.Perm G') {s : PassState} (fresh : s.firedNames.Nodup) {fs : List Filter} {s₁ : PassState}
    (ran : q.runParts r column G s = some (fs,s₁)) :
    ∃ fs' s₁', q.runParts r column G' s = some (fs',s₁') ∧ fs.Perm fs' := by
  rw [Query.runParts_eq G fresh] at ran
  rw [Query.runParts_eq G' fresh]
  have results := perm.filterMap (q.partEffect r column)
  split at ran
  · next holds =>
    have holds' : (∀ g ∈ G', (q.partEffect r column g).isSome) ∧
        (s.firedNames ++ (G'.filterMap (q.partEffect r column)).flatMap (·.2.firedNames)).Nodup :=
      ⟨fun g named => holds.1 g (perm.mem_iff.mpr named),
        ((results.flatMap_right _).append_left s.firedNames).nodup_iff.mp holds.2⟩
    simp only [Option.some.injEq,Prod.mk.injEq] at ran
    obtain ⟨rfl,-⟩ := ran
    exact ⟨_,_,if_pos holds',results.flatMap_right _⟩
  · cases ran

section Run
variable {q : Query} {r : Registry} {column : String} (wf : r.WellFormed) (sep : r.SeparatedOn column (q.map Prod.fst))
  (distinct : (q.map Prod.fst).Nodup)
include wf sep distinct

/-- Reading entries of a query from a state that has read the parts `T` runs the new parts of
the entries, in the order of their first entries. The induction is on the entries, with the parts
read so far and the state generalised; `Query.Tracks` carries the state from one entry to the
next. -/
theorem Query.readEntries_ends_runParts :
    ∀ (l : Query) {T : List Part} {s : PassState}, (∀ e ∈ l, e ∈ q) → (l.map Prod.fst).Nodup →
      q.Tracks r column T s → (∀ c ∈ l.map Prod.fst, Part.single c ∉ T) →
      (readEntries (q.scope r column) l).ends s = q.runParts r column (q.newParts r column T l) s
  | [], _, _, _, _, _, _ => rfl
  | (c,v) :: rest, T, s, sub, lDistinct, tracks, fresh => by
    have member := sub (c,v) (by simp)
    have subRest : ∀ e ∈ rest, e ∈ q := fun e named => sub e (by simp [named])
    simp only [List.map_cons,List.nodup_cons] at lDistinct
    have freshRest : ∀ c' ∈ rest.map Prod.fst, Part.single c' ∉ T := fun c' named => fresh c' (by simp [named])
    simp only [readEntries,PassM.ends_bind,PassM.ends_pure]
    by_cases read : q.partOf r column c ∈ T
    · have group : (q.partOf r column c).isGroup = true := by
        cases part : q.partOf r column c with
        | single c₀ =>
          obtain rfl := partOf_eq_single part
          exact absurd (part ▸ read) (fresh c₀ (by simp))
        | _ => rfl
      rw [tracks.readEntry_read wf sep (List.mem_map_of_mem member) read group]
      simp only [Option.bind_some,Query.newParts,if_pos read]
      rw [Query.readEntries_ends_runParts rest subRest lDistinct.2 tracks freshRest]
      cases q.runParts r column (q.newParts r column T rest) s <;> simp
    · rw [tracks.readEntry_unread wf sep distinct member read]
      simp only [Query.newParts,if_neg read,Query.runParts]
      cases effect : q.partEffect r column (q.partOf r column c) with
      | none => simp
      | some res =>
        obtain ⟨out,d⟩ := res
        rw [PassState.after_some]
        by_cases apart : (s.firedNames ++ d.firedNames).Nodup
        · have tracks' := tracks.extend wf sep (sep.partEffect_reading wf effect) apart
          have fresh' : ∀ c' ∈ rest.map Prod.fst, Part.single c' ∉ T ++ [q.partOf r column c] := by
            intro c' named inT
            rcases List.mem_append.mp inT with old | new
            · exact freshRest c' named old
            · have same := partOf_eq_single (List.mem_singleton.mp new).symm
              exact lDistinct.1 (same ▸ named)
          simp only [if_pos apart,Option.bind_some]
          rw [Query.readEntries_ends_runParts rest subRest lDistinct.2 tracks' fresh']
          cases q.runParts r column (q.newParts r column (T ++ [q.partOf r column c]) rest) (s.extend d) <;> simp
        · simp [apart]

/-- A query reads into filters exactly when the run of its parts, in the order of their first
entries, ends with them. -/
theorem Registry.SeparatedOn.read_eq_ok_iff_runParts {fs : List Filter} :
    Query.read r column q = .ok fs ↔ ∃ s, q.runParts r column (q.newParts r column [] q) {} = some (fs,s) := by
  rw [Query.read_eq_ok_iff,Query.readEntries_ends_runParts wf sep distinct q (fun _ named => named) distinct
    Query.tracks_empty (by simp)]

end Run

theorem Query.read_eq_ok_iff_runParts {q : Query} {r : Registry} {column : String} (wf : r.WellFormed)
    (sep : r.Separated column) (distinct : (q.map Prod.fst).Nodup) {fs : List Filter} :
    Query.read r column q = .ok fs ↔ ∃ s, q.runParts r column (q.newParts r column [] q) {} = some (fs,s) :=
  (sep.on _).read_eq_ok_iff_runParts wf distinct

end QueryFilters
