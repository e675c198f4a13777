import QueryFilters.Proofs.Syntaxes
/-!
Reading a query whose columns are bare: none reads as a tuple and none is the name of a function.
Such a query reads as a scan of its columns in order (`Query.bareReading`). The function column
and the parameters of the functions it lists form one group, the listing; the parameters of a
registered function that is not listed and has all its parameters among the columns form that
function's group; every other column stands alone. A group gives its filters at its first column
and nothing at its other columns. Main statement: `Query.read_bare_columns`.
-/
namespace QueryFilters

open Invocation

/-! ### The scan -/

/-- The functions the function column lists: none when its value is not an array of strings, and
no function when it is not a column of the query. -/
def Query.listing? (q : Query) (column : String) : Option (List String) :=
  match Keyed.get? column q with
  | some raw => (listedNames raw).toOption
  | none => some []

/-- The group of a column, once the listed functions are known. -/
def Query.bareGroup (q : Query) (r : Registry) (column : String) (names : List String) (c : String) : Part :=
  if c = column ∨ ∃ e ∈ r.entries, e.name ∈ names ∧ c ∈ e.parameters then .listing
  else
    match r.entries.find? fun e => c ∈ e.parameters ∧ e.name ∉ names ∧ ∀ p ∈ e.parameters, p ∈ q.map Prod.fst with
    | some e => .parameters e.name
    | none => .single c

/-- The filters a group gives at its first column. The listing gives the block of each listed
function in order, its invocation followed by one argument per parameter, and fails on a function
listed twice, unregistered or missing a parameter; a complete function gives its block; a column
alone gives its ordinary filters. -/
def Query.groupFilters (q : Query) (r : Registry) (names : List String) : Part → Option (List Filter)
  | .listing => if names.Nodup then (names.mapM (listedBlock r q)).map blockFilters else none
  | .parameters f => (listedBlock r q f).map fun b => b.1.invocation :: argumentFilters b.2
  | .single c => (Shape.reading c ((Keyed.get? c q).getD .null)).toOption

/-- The scan of the columns `cs` after the columns `earlier`: a column gives the filters of its
group when no earlier column is in the group, and nothing otherwise. -/
def Query.bareScan (q : Query) (r : Registry) (column : String) (names : List String) :
    List String → List String → Option (List Filter)
  | _, [] => some []
  | earlier, c :: cs =>
    (if ∃ c' ∈ earlier, q.bareGroup r column names c' = q.bareGroup r column names c then some []
      else q.groupFilters r names (q.bareGroup r column names c)).bind fun here =>
        (q.bareScan r column names (earlier ++ [c]) cs).map (here ++ ·)

/-- How a query whose columns are bare reads: its columns scanned in order, once the listed
functions are known. -/
def Query.bareReading (q : Query) (r : Registry) (column : String) : Option (List Filter) :=
  (q.listing? column).bind fun names => q.bareScan r column names [] (q.map Prod.fst)

/-- The functions a group fires. -/
def Part.fires (names : List String) : Part → List String
  | .listing => names
  | .parameters f => [f]
  | .single _ => []

/-- A part reads, from the start of a pass, as its group: into the same filters or into a
failure alike, firing the functions of the group. -/
def Query.ReadsAsGroup (q : Query) (r : Registry) (column : String) (names : List String) (g : Part) : Prop :=
  (q.partEffect r column g).map (fun res => (res.1,res.2.firedNames)) = (q.groupFilters r names g).map (·,g.fires names)

/-! ### The scan runs the parts -/

section Scan
variable {q : Query} {r : Registry} {column : String} {names : List String}

/-- The scan gives, in order, the filters of each group at its first column. The induction is on
the entries, with the columns met and the parts read so far generalised: they name the same
groups. -/
theorem Query.bareScan_eq (agree : ∀ c ∈ q.map Prod.fst, q.partOf r column c = q.bareGroup r column names c) :
    ∀ (l : Query) {earlier : List String} {T : List Part}, (∀ e ∈ l, e ∈ q) →
      (∀ g, g ∈ T ↔ ∃ c ∈ earlier, q.bareGroup r column names c = g) →
      q.bareScan r column names earlier (l.map Prod.fst) =
        ((q.newParts r column T l).mapM (q.groupFilters r names)).map List.flatten
  | [], _, _, _, _ => rfl
  | (c,v) :: rest, earlier, T, sub, met => by
    have key : c ∈ q.map Prod.fst := List.mem_map_of_mem (f := Prod.fst) (sub (c,v) (by simp))
    have subRest : ∀ e ∈ rest, e ∈ q := fun e named => sub e (by simp [named])
    have grouped := agree c key
    have met' : ∀ g, g ∈ T ++ [q.partOf r column c] ↔ ∃ c' ∈ earlier ++ [c], q.bareGroup r column names c' = g := by
      intro g
      rw [List.mem_append,List.mem_singleton,met,grouped]
      constructor
      · rintro (⟨c',named,same⟩ | rfl)
        · exact ⟨c',List.mem_append_left _ named,same⟩
        · exact ⟨c,List.mem_append_right _ (List.mem_singleton_self c),rfl⟩
      · rintro ⟨c',named,same⟩
        rcases List.mem_append.mp named with early | last
        · exact .inl ⟨c',early,same⟩
        · obtain rfl := List.mem_singleton.mp last
          exact .inr same.symm
    by_cases seen : q.partOf r column c ∈ T
    · have seen' : ∃ c' ∈ earlier, q.bareGroup r column names c' = q.bareGroup r column names c := by
        rw [← grouped]
        exact (met _).mp seen
      have sameT : ∀ g, g ∈ T ↔ ∃ c' ∈ earlier ++ [c], q.bareGroup r column names c' = g := by
        intro g
        rw [← met' g,List.mem_append,List.mem_singleton]
        constructor
        · exact .inl
        · rintro (inT | rfl)
          · exact inT
          · exact seen
      simp only [List.map_cons,Query.bareScan,if_pos seen',Option.bind_some,Query.newParts,if_pos seen]
      rw [Query.bareScan_eq agree rest subRest sameT]
      simp [Function.comp_def]
    · have unseen : ¬∃ c' ∈ earlier, q.bareGroup r column names c' = q.bareGroup r column names c := by
        rw [← grouped]
        exact fun found => seen ((met _).mpr found)
      simp only [List.map_cons,Query.bareScan,if_neg unseen,Query.newParts,if_neg seen,List.mapM_cons]
      rw [Query.bareScan_eq agree rest subRest met',grouped]
      cases q.groupFilters r names (q.bareGroup r column names c) <;>
        cases (q.newParts r column (T ++ [q.bareGroup r column names c]) rest).mapM (q.groupFilters r names) <;> simp

end Scan

/-! ### The groups are the parts -/

section Groups
variable {q : Query} {r : Registry} {column : String} {names : List String}

/-- The functions recognition takes as listed are those of the listing. -/
theorem Query.listed_of_listing? (listing : q.listing? column = some names) :
    (q.scope r column).listed q = names := by
  cases found : Keyed.get? column q with
  | none =>
    have empty : names = [] := by simpa [Query.listing?,found] using listing.symm
    have absent : column ∉ q.map Prod.fst := fun key => by
      simpa [found] using Keyed.isSome_get?_iff.mpr key
    rw [Scope.listed_eq_nil absent,empty]
  | some raw =>
    have listed : listedNames raw = .ok names := by simpa [Query.listing?,found] using listing
    exact Scope.listed_of_listedNames (by rw [found]; exact listed)

/-- A column that reads as no tuple belongs to the part its group names. -/
theorem Query.partOf_eq_bareGroup (wf : r.WellFormed) (listed : (q.scope r column).listed q = names) {c : String}
    (plain : Tuple.isTupleText c = false) : q.partOf r column c = q.bareGroup r column names c := by
  have lists : (q.scope r column).listsParameter q c = true ↔ ∃ e ∈ r.entries, e.name ∈ names ∧ c ∈ e.parameters := by
    rw [Scope.listsParameter_iff wf,listed]
  unfold Query.partOf Query.bareGroup
  by_cases listing : c = column ∨ (q.scope r column).listsParameter q c = true
  · rw [if_pos listing,if_pos (by rwa [lists] at listing)]
  · have unlisting : ¬(c = column ∨ ∃ e ∈ r.entries, e.name ∈ names ∧ c ∈ e.parameters) := by rwa [lists] at listing
    rw [if_neg listing,if_neg unlisting]
    simp only [plain,Bool.false_eq_true,if_false]
    cases found : r.entries.find? fun e => c ∈ e.parameters ∧ e.name ∉ names ∧ ∀ p ∈ e.parameters, p ∈ q.map Prod.fst with
    | some e =>
      have member := List.mem_of_find?_eq_some found
      have holds := List.find?_some found
      simp only [decide_eq_true_eq] at holds
      obtain ⟨owned,unlisted,given⟩ := holds
      have completes : e.name ∈ completed (q.scope r column) q c :=
        (mem_completed wf).mpr ⟨e,member,rfl,owned,listed ▸ unlisted,fun p named => Keyed.isSome_get?_iff.mpr (given p named)⟩
      rw [List.eq_singleton_of_length_le_one completes (length_completed_le wf c)]
    | none =>
      have empty : completed (q.scope r column) q c = [] := by
        apply List.eq_nil_iff_forall_not_mem.mpr
        intro f completes
        obtain ⟨e,member,rfl,owned,unlisted,given⟩ := (mem_completed wf).mp completes
        have refused := List.find?_eq_none.mp found e member
        simp only [decide_eq_true_eq] at refused
        exact refused ⟨owned,listed ▸ unlisted,fun p named => Keyed.isSome_get?_iff.mp (given p named)⟩
      rw [empty]

end Groups

/-! ### What each part reads -/

section Effects
variable {q : Query} {r : Registry} {column : String} (wf : r.WellFormed)
  (sep : r.SeparatedOn column (q.map Prod.fst)) (distinct : (q.map Prod.fst).Nodup)
include wf sep distinct

/-- The listing reads, from the start of a pass, the blocks of the listed functions and fires
them; it fails when the function column holds no array of strings. -/
theorem Query.partEffect_listing (key : column ∈ q.map Prod.fst) :
    (q.partEffect r column .listing).map (fun res => (res.1,res.2.firedNames)) =
      (q.listing? column).bind fun names => (q.groupFilters r names .listing).map (·,names) := by
  obtain ⟨raw,found⟩ := Option.isSome_iff_exists.mp (Keyed.isSome_get?_iff.mpr key)
  have own : q.partOf r column column = .listing := partOf_eq_listing.mpr (.inl rfl)
  have effect := Query.partEffect_of_mem wf sep distinct (Keyed.mem_of_get? found)
  rw [own] at effect
  rw [effect,readEntry_of_listing own (by simp),
    parse_explicitByList_ends wf (PassState.sound_empty r column) sep.columnNotParameter]
  simp only [found,Option.getD_some,Query.listing?]
  cases (listedNames raw).toOption with
  | none => simp
  | some names =>
    simp only [Option.bind_some,Query.groupFilters]
    cases made : names.mapM (listedBlock r q) with
    | none => simp
    | some blocks =>
      have named := Invocation.names_of_listedBlocks made
      by_cases nodup : names.Nodup <;> simp [FreshBlocks,named,nodup]

/-- The parameters of a complete function that is not listed read, from the start of a pass, its
block, firing it. -/
theorem Query.partEffect_parameters {c f : String} {v : Json} (member : (c,v) ∈ q)
    (params : q.partOf r column c = .parameters f) (names : List String) :
    q.ReadsAsGroup r column names (.parameters f) := by
  obtain ⟨-,-,completes⟩ := partOf_eq_parameters.mp params
  obtain ⟨e,entry,rfl,-,-,given⟩ := (mem_completed wf).mp (completes ▸ List.mem_singleton_self _)
  obtain ⟨pairs,arguments⟩ := Query.argumentsOf_of_given given
  have effect := Query.partEffect_of_mem wf sep distinct member
  rw [params] at effect
  rw [Query.ReadsAsGroup,effect,readEntry_of_parameters wf sep params,
    parse_implicitByValue_ends wf (PassState.sound_empty r column) sep.columnNotParameter entry completes arguments]
  simp [Part.fires,Query.groupFilters,listedBlock,Registry.find?_of_mem wf entry,arguments]

/-- A bare column alone reads, from the start of a pass, its ordinary filters, firing nothing. -/
theorem Query.partEffect_single {c : String} {v : Json} (member : (c,v) ∈ q) (single : q.partOf r column c = .single c)
    (plain : Tuple.isTupleText c = false) (unregistered : r.isRegistered c = false) (names : List String) :
    q.ReadsAsGroup r column names (.single c) := by
  have notListing : ¬(c = column ∨ (q.scope r column).listsParameter q c = true) := fun listing => by
    simp [partOf_eq_listing.mpr listing] at single
  -- no function is complete at the column, or the column would be read by parameters
  have incomplete : completed (q.scope r column) q c = [] := by
    cases completes : completed (q.scope r column) q c with
    | nil => rfl
    | cons f rest =>
      have short := @length_completed_le q r column wf c
      rw [completes] at short
      obtain rfl : rest = [] := by simpa using short
      simp [partOf_eq_parameters.mpr ⟨notListing,plain,completes⟩] at single
  simp only [not_or,Bool.not_eq_true] at notListing
  have unrecognised : Recognition.find? (q.scope r column) {} c v = .ok none := by
    rw [Recognition.find?_of_plain {} plain unregistered notListing.1 v]
    simp [notListing.2,incomplete]
  have effect := Query.partEffect_of_mem wf sep distinct member
  rw [single] at effect
  rw [Query.ReadsAsGroup,effect,readEntry_ends]
  simp only [Part.fires,Invocation.supports,PassState.isConsumed,unrecognised,Except.map,Option.isSome_none]
  simp only [Query.groupFilters,Keyed.get?_of_mem distinct member,Option.getD_some]
  cases Shape.reading c v <;> simp

variable {names : List String} (listing : q.listing? column = some names)
  (untupled : ∀ c ∈ q.map Prod.fst, Tuple.isTupleText c = false)
  (unnamed : ∀ e ∈ r.entries, e.name ∉ q.map Prod.fst)
include listing untupled unnamed

/-- Every part of a query with bare columns reads, from the start of a pass, the filters of its
group and fires the functions of its group. -/
theorem Query.partEffect_bare {g : Part} (part : g ∈ q.newParts r column [] q) :
    q.ReadsAsGroup r column names g := by
  obtain ⟨-,c,key,rfl⟩ := Query.mem_newParts.mp part
  obtain ⟨⟨c,v⟩,member,rfl⟩ := List.mem_map.mp key
  generalize grouped : q.partOf r column c = g
  cases g with
  | listing =>
    -- the listing is a part only when the function column is a column of the query
    have columnKey : column ∈ q.map Prod.fst := by
      rcases partOf_eq_listing.mp grouped with same | lists
      · exact same ▸ key
      · obtain ⟨e,-,named,-⟩ := (Scope.listsParameter_iff wf).mp lists
        exact Scope.mem_keys_of_listed named
    rw [Query.ReadsAsGroup,Query.partEffect_listing wf sep distinct columnKey,listing,Option.bind_some]
    rfl
  | parameters f => exact Query.partEffect_parameters wf sep distinct member grouped names
  | single c' =>
    have same := partOf_eq_single grouped
    rw [same] at grouped ⊢
    have unregistered : r.isRegistered c = false := by
      by_contra registered
      obtain ⟨e,entry,rfl⟩ := Registry.isRegistered_iff.mp (Bool.not_eq_false _ ▸ registered)
      exact unnamed e entry key
    exact Query.partEffect_single wf sep distinct member grouped (untupled c key) unregistered names

end Effects

/-! ### The run of the parts -/

section Run
variable {q : Query} {r : Registry} {column : String} {names : List String}

/-- A group that reads fires each of its functions once. -/
theorem Part.fires_nodup {g : Part} {out : List Filter} (given : q.groupFilters r names g = some out) :
    (g.fires names).Nodup := by
  cases g with
  | listing =>
    by_cases nodup : names.Nodup
    · exact nodup
    · simp [Query.groupFilters,nodup] at given
  | parameters f => simp [Part.fires]
  | single c => simp [Part.fires]

/-- Two groups fire no function in common when the function of a complete group is not listed. -/
theorem Part.fires_disjoint {g g' : Part} (other : g ≠ g')
    (unlisted : ∀ f, (g = .parameters f ∨ g' = .parameters f) → f ∉ names) :
    ∀ f ∈ g.fires names, f ∉ g'.fires names := by
  intro f fired fired'
  cases g with
  | listing =>
    cases g' with
    | listing => exact other rfl
    | parameters f' =>
      simp only [Part.fires,List.mem_singleton] at fired'
      exact unlisted f' (.inr rfl) (fired' ▸ fired)
    | single c => simp [Part.fires] at fired'
  | parameters f₀ =>
    simp only [Part.fires,List.mem_singleton] at fired
    subst fired
    cases g' with
    | listing => exact unlisted f (.inl rfl) fired'
    | parameters f' =>
      simp only [Part.fires,List.mem_singleton] at fired'
      exact other (congrArg Part.parameters fired')
    | single c => simp [Part.fires] at fired'
  | single c => simp [Part.fires] at fired

/-- Running parts that read as their groups gives the filters of the groups in order, and fails
when a group fails. The induction is on the parts, with the state generalised: the functions it
fired are apart from those of the parts still to run. -/
theorem Query.runParts_groups :
    ∀ (G : List Part) {s : PassState}, G.Nodup → (∀ g ∈ G, q.ReadsAsGroup r column names g) →
      (∀ f, Part.parameters f ∈ G → f ∉ names) → s.firedNames.Nodup →
      (∀ g ∈ G, ∀ f ∈ g.fires names, f ∉ s.firedNames) →
      (q.runParts r column G s).map Prod.fst = (G.mapM (q.groupFilters r names)).map List.flatten
  | [], _, _, _, _, _, _ => rfl
  | g :: rest, s, nodup, effects, unlisted, fresh, apart => by
    have effect : q.ReadsAsGroup r column names g := effects g (by simp)
    rw [Query.ReadsAsGroup] at effect
    rw [List.nodup_cons] at nodup
    simp only [Query.runParts,List.mapM_cons]
    cases given : q.groupFilters r names g with
    | none =>
      rw [given,Option.map_none,Option.map_eq_none_iff] at effect
      simp [effect]
    | some out =>
      rw [given,Option.map_some] at effect
      obtain ⟨⟨out',d⟩,read,same⟩ := Option.map_eq_some_iff.mp effect
      obtain ⟨rfl,fired⟩ := Prod.mk.inj same
      have together : (s.firedNames ++ d.firedNames).Nodup := by
        refine List.nodup_append.mpr ⟨fresh,fired ▸ Part.fires_nodup given,?_⟩
        intro x old y new same
        subst same
        exact apart g (by simp) x (fired ▸ new) old
      have apart' : ∀ g' ∈ rest, ∀ f ∈ g'.fires names, f ∉ (s.extend d).firedNames := by
        intro g' later f fired'
        rw [PassState.firedNames_extend,List.mem_append,fired]
        rintro (old | new)
        · exact apart g' (by simp [later]) f fired' old
        · refine Part.fires_disjoint (fun same => nodup.1 (by rw [same]; exact later)) ?_ f new fired'
          rintro f' (rfl | rfl)
          · exact unlisted f' (by simp)
          · exact unlisted f' (by simp [later])
      have ih := Query.runParts_groups rest nodup.2 (fun g' later => effects g' (by simp [later]))
        (fun f later => unlisted f (by simp [later])) (by simpa using together) apart'
      rw [read,PassState.after_some,if_pos together,Option.bind_some,Option.map_map]
      cases ran : q.runParts r column rest (s.extend d) <;>
        cases made : rest.mapM (q.groupFilters r names) <;> simp_all

end Run

/-! ### Reading a query with bare columns -/

/-- A query reads into the filters its run of parts ends with, and fails when the run fails. -/
theorem Registry.SeparatedOn.read_toOption {q : Query} {r : Registry} {column : String} (wf : r.WellFormed)
    (sep : r.SeparatedOn column (q.map Prod.fst)) (distinct : (q.map Prod.fst).Nodup) :
    (Query.read r column q).toOption = (q.runParts r column (q.newParts r column [] q) {}).map Prod.fst := by
  cases read : Query.read r column q with
  | ok fs =>
    obtain ⟨s,ran⟩ := (sep.read_eq_ok_iff_runParts wf distinct).mp read
    simp [ran]
  | error err =>
    cases ran : q.runParts r column (q.newParts r column [] q) {} with
    | none => rfl
    | some res =>
      have reads := (sep.read_eq_ok_iff_runParts wf distinct).mpr ⟨res.2,ran⟩
      rw [read] at reads
      cases reads

/-- A query whose columns are bare, none reading as a tuple and none naming a function, reads as
the scan of its columns: the listing gives the blocks of the listed functions at the first of its
columns, a complete function that is not listed gives its block at the first of its parameters,
and every other column gives its ordinary filters; the read fails exactly when the scan does.
Of the query's columns the separation asks only that none reads as a tuple, which they are
given here. -/
theorem Query.read_bare_columns {r : Registry} {column : String} (reachable : r.Reachable) {q : Query}
    (sep : r.SeparatedOn column (q.map Prod.fst)) (distinct : (q.map Prod.fst).Nodup)
    (untupled : ∀ c ∈ q.map Prod.fst, Tuple.isTupleText c = false)
    (unnamed : ∀ e ∈ r.entries, e.name ∉ q.map Prod.fst) :
    (Query.read r column q).toOption = q.bareReading r column := by
  have wf := reachable.wellFormed
  rw [sep.read_toOption wf distinct]
  cases listing : q.listing? column with
  | none =>
    -- the function column holds something other than an array of strings: the listing fails
    have key : column ∈ q.map Prod.fst := by
      by_contra absent
      simp [Query.listing?,Keyed.get?_eq_none absent] at listing
    have part : Part.listing ∈ q.newParts r column [] q :=
      Query.mem_newParts.mpr ⟨List.not_mem_nil,column,key,partOf_eq_listing.mpr (.inl rfl)⟩
    have fails := Query.partEffect_listing wf sep distinct key
    rw [listing,Option.bind_none,Option.map_eq_none_iff] at fails
    rw [Query.runParts_eq _ (by simp),if_neg (fun holds => by simpa [fails] using holds.1 _ part)]
    simp [Query.bareReading,listing]
  | some names =>
    have listed := Query.listed_of_listing? (r := r) listing
    have unlisted : ∀ f, Part.parameters f ∈ q.newParts r column [] q → f ∉ names := by
      intro f part
      obtain ⟨-,c,-,params⟩ := Query.mem_newParts.mp part
      obtain ⟨-,-,completes⟩ := partOf_eq_parameters.mp params
      obtain ⟨e,-,rfl,-,unlisted,-⟩ := (mem_completed wf).mp (completes ▸ List.mem_singleton_self _)
      exact listed ▸ unlisted
    simp only [Query.bareReading,listing,Option.bind_some]
    rw [Query.bareScan_eq (fun c key => Query.partOf_eq_bareGroup wf listed (untupled c key)) q (T := [])
      (fun _ member => member) (by simp),
      Query.runParts_groups _ (Query.nodup_newParts [] q)
        (fun g part => Query.partEffect_bare wf sep distinct listing untupled unnamed part) unlisted (by simp) (by simp)]

/-- Two functions, one listed and one complete, their parameters interleaved with an ordinary
column: the complete function's block comes at its first parameter, before the function column. -/
theorem Query.read_bare_columns_interleaved :
    (Query.read ⟨[⟨"f",["a","b"],.host 0,[]⟩,⟨"g",["c","d"],.host 0,[]⟩]⟩ "F"
        [("c",.int 3),("F",.arr [.str "f"]),("x",.int 5),("b",.int 2),("d",.int 4),("a",.int 1)]).toOption =
      Query.bareReading [("c",.int 3),("F",.arr [.str "f"]),("x",.int 5),("b",.int 2),("d",.int 4),("a",.int 1)]
        ⟨[⟨"f",["a","b"],.host 0,[]⟩,⟨"g",["c","d"],.host 0,[]⟩]⟩ "F" :=
  Query.read_bare_columns
    (@Registry.Reachable.register ⟨[⟨"f",["a","b"],.host 0,[]⟩]⟩ ⟨[⟨"f",["a","b"],.host 0,[]⟩,⟨"g",["c","d"],.host 0,[]⟩]⟩
      "g" ["c","d"] (.host 0) []
      (@Registry.Reachable.register {} ⟨[⟨"f",["a","b"],.host 0,[]⟩]⟩ "f" ["a","b"] (.host 0) [] .empty rfl) rfl)
    ⟨by simp,by simp,by simp,by decide⟩ (by decide) (by decide) (by decide)

end QueryFilters
