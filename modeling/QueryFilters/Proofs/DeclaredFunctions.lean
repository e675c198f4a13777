import QueryFilters.Proofs.PreparedValues

/-!
# Declared functions

A function is declared from parameter descriptors. Normalizing them keeps one definition per
name, in the order the names first come, each the one the last descriptor of that name gives
(`Parameter.normalize_eq`). The function's parameters are the definitions without a default, and
its body builds one filter per definition: from the default, under the placeholder `name_fun`, or
from the caller's value.

Applying a declared function to a query that invokes it with one value for each parameter is
applying the filters its definitions build, with their prepared values
(`Engine.declared_function_applies`).
-/

namespace QueryFilters

namespace Parameter

/-! ### Normalizing descriptors -/

/-- One definition per name, in the order the names first come, each the last one given under
its name. -/
def normalized (ps : List Parameter) : List Parameter :=
  (ps.map (·.name)).eraseDups.filterMap fun n => (ps.filter (·.name == n)).getLast?

/-- One step of normalizing: a parameter whose name came before replaces it in its place, a new
one goes last. -/
def replaceOrAppend (acc : List Parameter) (p : Parameter) : List Parameter :=
  if acc.any (·.name == p.name) then acc.map (fun q => if q.name == p.name then p else q) else acc ++ [p]

theorem foldlM_replaceOrAppend : ∀ (ds : List Descriptor) (acc : List Parameter),
    ds.foldlM (fun acc d => (ofDescriptor d).bind fun p => .ok (replaceOrAppend acc p)) acc =
      (ofDescriptors ds).map (·.foldl replaceOrAppend acc)
  | [], acc => rfl
  | d :: rest, acc => by
    simp only [List.foldlM_cons, ofDescriptors, List.mapM_cons]
    cases ofDescriptor d with
    | error e => rfl
    | ok p =>
      have later := foldlM_replaceOrAppend rest (replaceOrAppend acc p)
      simp only [ofDescriptors] at later
      cases mapped : rest.mapM ofDescriptor with
      | error e => simp_all [Except.bind, bind, Except.map]
      | ok ps => simp_all [Except.bind, bind, pure, Except.pure, Except.map]

/-- A name among the parameters has a last parameter of that name. -/
theorem getLast?_named {ps : List Parameter} {n : String} (named : n ∈ ps.map (·.name)) :
    ∃ q, (ps.filter (·.name == n)).getLast? = some q ∧ q.name = n := by
  cases last : (ps.filter (·.name == n)).getLast? with
  | none =>
    obtain ⟨p, member, rfl⟩ := List.mem_map.mp named
    have empty := List.getLast?_eq_none_iff.mp last
    have kept : p ∈ ps.filter (·.name == p.name) := List.mem_filter.mpr ⟨member, by simp⟩
    simp [empty] at kept
  | some q =>
    have kept := List.mem_filter.mp (List.mem_of_getLast? last)
    exact ⟨q, rfl, by simpa using kept.2⟩

theorem map_name_normalized (ps : List Parameter) :
    (normalized ps).map (·.name) = (ps.map (·.name)).eraseDups := by
  rw [normalized, List.map_filterMap]
  have named : ∀ n ∈ (ps.map (·.name)).eraseDups,
      ((ps.filter (·.name == n)).getLast?).map (·.name) = some n := by
    intro n member
    obtain ⟨q, last, rfl⟩ := getLast?_named (List.mem_eraseDups.mp member)
    rw [last, Option.map_some]
  rw [List.filterMap_congr named, List.filterMap_some]

/-- Normalizing one more parameter replaces the definition of its name in its place, or adds it
last. -/
theorem replaceOrAppend_normalized (ps : List Parameter) (p : Parameter) :
    replaceOrAppend (normalized ps) p = normalized (ps ++ [p]) := by
  have last : ∀ n, ((ps ++ [p]).filter (·.name == n)).getLast? =
      if p.name = n then some p else (ps.filter (·.name == n)).getLast? := by
    intro n
    by_cases same : p.name = n <;> simp [List.filter_append, List.getLast?_append, same]
  have names : (ps ++ [p]).map (·.name) = ps.map (·.name) ++ [p.name] := by simp
  unfold replaceOrAppend
  by_cases old : p.name ∈ ps.map (·.name)
  · -- the name came before: its definition is replaced where it stands
    have seen : (normalized ps).any (·.name == p.name) = true := by
      have listed : p.name ∈ (normalized ps).map (·.name) := by
        rw [map_name_normalized]
        exact List.mem_eraseDups.mpr old
      obtain ⟨q, member, named⟩ := List.mem_map.mp listed
      exact List.any_eq_true.mpr ⟨q, member, by simp [named]⟩
    have dropped : [p.name].removeAll (ps.map (·.name)) = [] := by
      simp only [List.removeAll, List.filter_cons, List.filter_nil, List.elem_eq_mem, decide_eq_true old,
        Bool.not_true, Bool.false_eq_true, if_false]
    rw [if_pos seen, normalized, normalized, names, List.eraseDups_append, dropped, List.eraseDups_nil,
      List.append_nil, List.map_filterMap]
    apply List.filterMap_congr
    intro n member
    obtain ⟨q, found, named⟩ := getLast?_named (List.mem_eraseDups.mp member)
    rw [last n, found]
    by_cases same : p.name = n
    · simp [same, named]
    · have other : q.name ≠ p.name := by
        rw [named]
        exact Ne.symm same
      simp [same, other]
  · -- a new name: its definition goes last
    have unseen : (normalized ps).any (·.name == p.name) = false := by
      rw [Bool.eq_false_iff]
      intro seen
      obtain ⟨q, member, named⟩ := List.any_eq_true.mp seen
      have listed : q.name ∈ (normalized ps).map (·.name) := List.mem_map_of_mem member
      rw [map_name_normalized, List.mem_eraseDups, show q.name = p.name by simpa using named] at listed
      exact old listed
    have kept : [p.name].removeAll (ps.map (·.name)) = [p.name] := by
      simp only [List.removeAll, List.filter_cons, List.filter_nil, List.elem_eq_mem, decide_eq_false old,
        Bool.not_false, if_true]
    rw [if_neg (Bool.eq_false_iff.mp unseen), normalized, normalized, names, List.eraseDups_append, kept,
      List.filterMap_append]
    congr 1
    · apply List.filterMap_congr
      intro n member
      have other : p.name ≠ n := fun same => old (same ▸ List.mem_eraseDups.mp member)
      rw [last n, if_neg other]
    · have single : [p.name].eraseDups = [p.name] := by simp [List.eraseDups_cons]
      simp only [single, List.filterMap_cons, last p.name, ↓reduceIte, List.filterMap_nil]

theorem foldl_replaceOrAppend (pre : List Parameter) :
    ∀ rest : List Parameter, rest.foldl replaceOrAppend (normalized pre) = normalized (pre ++ rest)
  | [] => by simp
  | p :: rest => by
    rw [List.foldl_cons, replaceOrAppend_normalized, foldl_replaceOrAppend (pre ++ [p]) rest,
      List.append_assoc, List.singleton_append]

/-- Normalizing reads the descriptors, failing with the first that is refused, and keeps one
definition per name, in the order the names first come, each the last one given under its name. -/
theorem normalize_eq (ds : List Descriptor) : normalize ds = (ofDescriptors ds).map normalized := by
  have folded := foldlM_replaceOrAppend ds []
  have start : normalized [] = [] := rfl
  have whole : ∀ ps : List Parameter, ps.foldl replaceOrAppend [] = normalized ps := by
    intro ps
    rw [← start, foldl_replaceOrAppend [] ps, List.nil_append]
  simp only [whole] at folded
  exact folded

/-! ### The filters a declared function builds -/

/-- The filter a definition builds for the caller's value: from its default, under the
placeholder `name_fun`, when it has one, else from the value under the filter's own
placeholder. -/
def filterFor (d : Parameter) (v : Json) : Outcome Filter :=
  match d.default with
  | some dv => (Filter.create d.column d.filter (.raw dv)).map (·.setFullTitle d.titleForDefault)
  | none => Filter.create d.column d.filter (.raw v)

/-- A definition builds no invocation: its values are JSON. -/
theorem filterFor_invoked? {d : Parameter} {v : Json} {f : Filter} (made : d.filterFor v = .ok f) :
    f.invoked? = none := by
  unfold filterFor at made
  split at made
  · next dv _ =>
    cases created : Filter.create d.column d.filter (.raw dv) with
    | error e => simp [created, Except.map] at made
    | ok g =>
      simp only [created, Except.map, Except.ok.injEq] at made
      subst made
      have plain := Filter.create_raw_invoked? created
      cases g <;> simp_all [Filter.setFullTitle, Filter.invoked?]
  · exact Filter.create_raw_invoked? made

theorem find?_required {ns : List String} {n : String} (named : n ∈ ns) (vals : String → Json) :
    (ns.map fun p => (p, Value.raw (vals p))).find? (·.1 == n) = some (n, .raw (vals n)) := by
  rw [List.find?_map]
  cases found : ns.find? ((fun pv : String × Value => pv.1 == n) ∘ fun p => (p, Value.raw (vals p))) with
  | none =>
    have missed := List.find?_eq_none.mp found n named
    simp at missed
  | some m =>
    have same : m = n := by simpa using List.find?_some found
    rw [same]
    rfl

/-- With one value for each parameter, the definitions build their filters in order: each from
its default, or from the value of its name. -/
theorem filtersFromParameters_required (ds : List Parameter) (vals : String → Json) :
    filtersFromParameters ((requiredNames ds).map fun p => (p, .raw (vals p))) ds =
      ds.mapM fun d => d.filterFor (vals d.name) := by
  unfold filtersFromParameters
  apply List.mapM_congr_of_mem
  intro d member
  cases given : d.default with
  | some dv =>
    simp only [given, filterFor]
    cases Filter.create d.column d.filter (.raw dv) <;> rfl
  | none =>
    have required : d.name ∈ requiredNames ds :=
      List.mem_map.mpr ⟨d, List.mem_filter.mpr ⟨member, by simp [hasDefault, given]⟩, rfl⟩
    simp only [given, find?_required required vals, filterFor]

end Parameter

/-! ### Applying a declared function -/

section Applying
variable {bodies : List HostBody} {backends : Ranked} {r : Registry} {fs : List Filter}

/-- Filters without invocations are applied as conditions, memberships and arguments. -/
theorem applyEach_eq_applyLeaves : ∀ {built : List Filter}, (∀ f ∈ built, f.invoked? = none) →
    ∀ t, applyEach bodies backends r fs built t = applyLeaves backends built t
  | [], _, t => rfl
  | f :: rest, plain, t => by
    have one : applyOne bodies backends r fs f t = (backends.find t).bind fun b => b.applyLeaf f t := by
      cases f with
      | invocation c h => simp [Filter.invoked?] at plain
      | comparison | membership | argument => rfl
    have later := applyEach_eq_applyLeaves (fun g member => plain g (List.mem_cons_of_mem f member))
    simp only [applyEach, applyLeaves, one]
    cases backends.find t with
    | error e => rfl
    | ok b => simp only [later]; rfl

/-- The prepared values of filters without invocations, for a target a backend accepts, merge
their own. -/
theorem foldlM_prepared_of_plain {t : Target} {b : Backend} (selected : backends.find t = .ok b) :
    ∀ {built : List Filter}, (∀ f ∈ built, f.invoked? = none) → ∀ acc : Prepared,
      built.foldlM (fun acc f => do
          let p ← preparedOne backends r fs f t
          pure (Keyed.merge acc p)) acc =
        .ok (built.foldl (fun acc f => Keyed.merge acc f.prepared) acc)
  | [], _, acc => rfl
  | f :: rest, plain, acc => by
    have one : preparedOne backends r fs f t = .ok f.prepared := by
      cases f with
      | invocation c h => simp [Filter.invoked?] at plain
      | comparison | membership | argument => simp [preparedOne, selected, bind, Except.bind, pure, Except.pure]
    rw [List.foldlM_cons, List.foldl_cons]
    simp only [one, bind, Except.bind, pure, Except.pure]
    exact foldlM_prepared_of_plain selected (fun g member => plain g (List.mem_cons_of_mem f member)) _

end Applying

/-- The one argument on a parameter's column is the argument found for it. -/
theorem Filter.findArgument_of_single {fs : List Filter} {p : String} {v : Value}
    (single : fs.filter (·.column = p) = [.argument p v]) : Filter.findArgument fs p = .ok v := by
  have on : Filter.onColumns fs [p] = [.argument p v] := by
    rw [← single, Filter.onColumns]
    congr 1
    funext f
    simp
  rw [← Filter.findArgument_onColumns (List.mem_singleton_self p), on]
  simp [Filter.findArgument]

theorem argumentsFor_of_single {r : Registry} {fs : List Filter} {c : String} {ps : List String}
    (params : r.parametersFor c = .ok ps) {vals : String → Json}
    (single : ∀ p ∈ ps, fs.filter (·.column = p) = [.argument p (.raw (vals p))]) :
    argumentsFor r fs c = .ok (ps.map fun p => (p, .raw (vals p))) := by
  have each : ∀ p ∈ ps, (do let v ← Filter.findArgument fs p; pure (p, v) : Outcome (String × Value)) =
      pure (p, .raw (vals p)) := by
    intro p given
    rw [Filter.findArgument_of_single (single p given)]
    rfl
  unfold argumentsFor
  rw [params]
  show (ps.mapM fun p => do let v ← Filter.findArgument fs p; pure (p, v)) = _
  rw [List.mapM_congr_of_mem each, List.mapM_pure]
  rfl

/-- Applying a declared function to a read that invokes it, with one argument and nothing else on
each parameter column, for a target a backend accepts: the definitions build their filters, which
are applied to the target and give their prepared values. -/
theorem Engine.applyFunction_of_declared {en : Engine} {name : String} {ds : List Parameter}
    (found : en.registry.find? name = some ⟨name, Parameter.requiredNames ds, .declared ds, ds⟩)
    (distinct : (Parameter.requiredNames ds).Nodup) (nonempty : ds ≠ [])
    {q : Query} {fs : List Filter} {h : Handle} {vals : String → Json} {t : Target} {b : Backend}
    (parsed : en.parse q = .ok fs) (member : Filter.invocation name h ∈ fs)
    (single : ∀ p ∈ Parameter.requiredNames ds, fs.filter (·.column = p) = [.argument p (.raw (vals p))])
    (selected : en.backends.find t = .ok b) :
    en.applyFunction name q t = (do
      let built ← ds.mapM fun d => d.filterFor (vals d.name)
      let applied ← en.applyFilters built t
      let prepared ← en.preparedValues built t
      pure (applied, prepared)) := by
  have handles := Query.read_handles parsed
  -- the invocation carries the declared function's handle
  obtain ⟨e, found', rfl⟩ := Registry.handle_eq_ok (handles name h member)
  obtain rfl : e = ⟨name, Parameter.requiredNames ds, .declared ds, ds⟩ := Option.some.inj (found'.symm.trans found)
  have one : Filter.OneArgumentEach fs (Parameter.requiredNames ds) := fun p given => ⟨_, single p given⟩
  have run : en.registry.execute en.bodies en.backends name fs t =
      (applyOne en.bodies en.backends en.registry fs (.invocation name ⟨name, .declared ds⟩) t).map (·.getD t) :=
    Registry.execute_eq_applyOne found distinct one selected
  have params : en.registry.parametersFor name = .ok (Parameter.requiredNames ds) := by
    simp [Registry.parametersFor, Registry.get, found, Except.map]
  have defined : en.registry.definitionsFor name = .ok ds := by
    simp [Registry.definitionsFor, Registry.get, found, Except.map]
  have args := argumentsFor_of_single params single
  have some : ds.isEmpty = false := by simpa using nonempty
  -- running the body and computing the prepared values build the same filters
  have invoked : applyOne en.bodies en.backends en.registry fs (.invocation name ⟨name, .declared ds⟩) t =
      (ds.mapM fun d : Parameter => d.filterFor (vals d.name)).bind fun built => applyLeaves en.backends built t := by
    simp only [applyOne, selected, args, Body.run, Parameter.filtersFromParameters_required, bind, Except.bind]
  have prepared : en.preparedValue (.invocation name ⟨name, .declared ds⟩) t fs =
      (ds.mapM fun d : Parameter => d.filterFor (vals d.name)).map
        fun built => built.foldl (fun acc f => Keyed.merge acc f.prepared) [] := by
    simp only [Engine.preparedValue, preparedOne, selected, args, defined, preparedForFunction, some,
      Parameter.filtersFromParameters_required, bind, Except.bind, pure, Except.pure, Bool.false_eq_true, if_false]
    cases ds.mapM fun d => d.filterFor (vals d.name) <;> rfl
  unfold Engine.applyFunction
  simp only [parsed, bind, Except.bind]
  rw [run, handles.find?_invocation (by intro x; cases x <;> simp) (by simp) member, invoked]
  simp only [prepared]
  cases made : ds.mapM fun d => d.filterFor (vals d.name) with
  | error e => rfl
  | ok built =>
    have plain : ∀ f ∈ built, f.invoked? = none := by
      intro f kept
      obtain ⟨d, -, madeOne⟩ := List.mem_of_mapM_except made f kept
      exact Parameter.filterFor_invoked? madeOne
    have applied : en.applyFilters built t = (applyLeaves en.backends built t).map (·.getD t) := by
      rw [Engine.applyFilters, applyEach_eq_applyLeaves plain]
    have values : en.preparedValues built t = .ok (built.foldl (fun acc f => Keyed.merge acc f.prepared) []) :=
      foldlM_prepared_of_plain selected plain []
    simp only [applied, values, Except.bind, Except.map]

/-- Declared functions apply exactly their normalized definitions. Declaring a function from
descriptors, on functions that registrations built, reads every descriptor; the definitions are
the normalized ones (one per name, in the order the names first come, each the last one given),
and the function's parameters are the names of those without a default, in order. Applied to a
query read into filters that invoke it, with one argument and nothing else on each parameter
column, and to a target a backend accepts, the function builds one filter per definition, in
order: from its default under the placeholder `name_fun`, or from the argument of its name under
its own placeholder. The result is those filters applied to the target, with their prepared
values; the first filter that cannot be built fails the call. -/
theorem Engine.declared_function_applies {en en' : Engine} (reachable : en.functions.Reachable) {name : String}
    {descriptors : List Descriptor} (accepted : (Engine.declare name descriptors).run en = .ok () en') :
    ∃ ps, Parameter.ofDescriptors descriptors = .ok ps ∧
      Parameter.normalize descriptors = .ok (Parameter.normalized ps) ∧
      en'.registry.parametersFor name = .ok (Parameter.requiredNames (Parameter.normalized ps)) ∧
      ∀ (q : Query) (fs : List Filter) (h : Handle) (vals : String → Json) (t : Target) (b : Backend),
        en'.parse q = .ok fs → Filter.invocation name h ∈ fs →
        (∀ p ∈ Parameter.requiredNames (Parameter.normalized ps),
          fs.filter (·.column = p) = [.argument p (.raw (vals p))]) →
        en'.backends.find t = .ok b →
        en'.applyFunction name q t = (do
          let built ← (Parameter.normalized ps).mapM fun d => d.filterFor (vals d.name)
          let applied ← en'.applyFilters built t
          let prepared ← en'.preparedValues built t
          pure (applied, prepared)) := by
  obtain ⟨defs, normalized, run, -, -⟩ := Engine.declare_accepted accepted
  rw [Parameter.normalize_eq] at normalized
  -- the descriptors were all read, and the definitions are their normalization
  obtain ⟨ps, read, rfl⟩ : ∃ ps, Parameter.ofDescriptors descriptors = .ok ps ∧ Parameter.normalized ps = defs := by
    cases given : Parameter.ofDescriptors descriptors with
    | error e => simp [given, Except.map] at normalized
    | ok ps =>
      simp only [given, Except.map, Except.ok.injEq] at normalized
      exact ⟨ps, rfl, normalized⟩
  have found := reachable.find?_register run
  have entry := (Registry.find?_eq_some found).1
  have wf := (Functions.Reachable.register reachable run).wellFormed
  obtain ⟨-, required, -, -, -⟩ := Functions.register_run_ok run
  have nonempty : Parameter.normalized ps ≠ [] := by
    intro empty
    exact required (by simp [empty, Parameter.requiredNames])
  refine ⟨ps, read, by rw [Parameter.normalize_eq, read]; rfl,
    by simp [Engine.registry, Registry.parametersFor, Registry.get, found, Except.map], ?_⟩
  intro q fs h vals t b parsed member single selected
  exact Engine.applyFunction_of_declared found (wf.parametersNodup _ entry) nonempty parsed member single selected

set_option maxRecDepth 2000 in
/-- A parameter described twice, the second time with a filter, and a parameter with a default:
the second description of `age` replaces the first, `active` needs no argument, and applying the
function writes both conditions with their prepared values. -/
theorem Engine.declared_function_applies_adult :
    ((Registration.declared "adult" [.bare "age", .record "age" (some "gte") none none,
        .record "active" none none (some (.bool true))]).after ⟨"fun", {}, ({} : Ranked).add .sql 100, []⟩).applyFunction
        "adult" [("fun", .arr [.str "adult"]), ("age", .int 18)] (.sql "t") =
      .ok (.sql "t WHERE 1 AND age >= :age_gte AND active = :active_fun",
        [("age_gte", .int 18), ("active_fun", .bool true)]) := by
  have accepted : (Engine.declare "adult" [.bare "age", .record "age" (some "gte") none none,
      .record "active" none none (some (.bool true))]).run ⟨"fun", {}, ({} : Ranked).add .sql 100, []⟩ =
      .ok () ((Registration.declared "adult" [.bare "age", .record "age" (some "gte") none none,
        .record "active" none none (some (.bool true))]).after ⟨"fun", {}, ({} : Ranked).add .sql 100, []⟩) := by
    with_unfolding_all rfl
  obtain ⟨ps, read, -, -, applies⟩ := Engine.declared_function_applies .empty accepted
  obtain rfl : ps = [⟨"age", "eq", "age", none⟩, ⟨"age", "gte", "age", none⟩, ⟨"active", "eq", "active", some (.bool true)⟩] :=
    Except.ok.inj (read.symm.trans (by with_unfolding_all rfl))
  have required : Parameter.requiredNames (Parameter.normalized [⟨"age", "eq", "age", none⟩,
      ⟨"age", "gte", "age", none⟩, ⟨"active", "eq", "active", some (.bool true)⟩]) = ["age"] := by
    with_unfolding_all rfl
  rw [applies _ [.invocation "adult" ⟨"adult", .declared [⟨"age", "gte", "age", none⟩,
      ⟨"active", "eq", "active", some (.bool true)⟩]⟩, .argument "age" (.raw (.int 18))]
    ⟨"adult", .declared [⟨"age", "gte", "age", none⟩, ⟨"active", "eq", "active", some (.bool true)⟩]⟩
    (fun _ => .int 18) _ .sql
    (by with_unfolding_all rfl) (by simp) (by rw [required]; intro p named; rw [List.mem_singleton.mp named]; rfl)
    (by with_unfolding_all rfl)]
  with_unfolding_all rfl

end QueryFilters
