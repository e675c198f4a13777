import QueryFilters.Proofs.Registration
import QueryFilters.Proofs.Execution

/-!
# What backends write

Applying filters folds them left to right, each through the backend that accepts the target as
it stands. Both backends write one entry per condition or membership (`Filter.isLeaf`), after
those already written: the SQL backend a condition after ` AND ` with its placeholders after
colons, on text made ready for conditions (`Backend.withWhere`); the list backend an entry
`[column, op, value]` or `[column, "in", items]`. Arguments write nothing, and an invocation of a
declared function writes the conditions and memberships that its definitions build from the
arguments (`Filter.leaves`). The SQL backend refuses a membership without members; the list
backend refuses nothing.

So applying the filters of a read succeeds exactly when their conditions and memberships can be
computed and each is one the backend writes, and the result is the target followed by their
entries, in order (`Engine.apply_filters_write_leaves`).
-/

namespace QueryFilters

/-! ### Conditions and memberships -/

namespace Filter

/-- A condition or a membership: a filter that a backend writes. -/
def isLeaf : Filter → Bool
  | .comparison .. | .membership .. => true
  | .invocation .. | .argument .. => false

/-- The placeholders a condition or membership binds: its own, or one per member. -/
def marks (f : Filter) : List String :=
  match f with
  | .comparison .. => [f.placeholder]
  | .membership _ items _ => (List.range items.length).map f.memberPlaceholder
  | .invocation .. | .argument .. => []

/-- The SQL condition of a condition or membership: the column, the operator and the
placeholders, each after a colon. -/
def sqlCondition (f : Filter) : String :=
  match f with
  | .comparison c op _ _ => " AND " ++ c ++ " " ++ op.symbol ++ " :" ++ f.placeholder
  | .membership c _ _ => " AND " ++ c ++ " IN (" ++ ", ".intercalate (f.marks.map (":" ++ ·)) ++ ")"
  | .invocation .. | .argument .. => ""

/-- The entry the list backend appends for a condition or membership. -/
def entry : Filter → Json
  | .comparison c op v _ => .arr [.str c, .str op.symbol, v.rawOrNull]
  | .membership c items _ => .arr [.str c, .str "in", .arr items]
  | .invocation .. | .argument .. => .null

/-- The conditions and memberships that applying a filter of a list writes: a condition or
membership itself, for an invocation those that its function's definitions build from the
arguments in the list, and none for an argument. -/
def leavesOf (r : Registry) (fs : List Filter) (f : Filter) : Outcome (List Filter) :=
  match f with
  | .invocation c _ => do
    let args ← argumentsFor r fs c
    let defs ← r.definitionsFor c
    let built ← filtersFromParameters args defs
    pure (built.filter isLeaf)
  | f => pure ([f].filter isLeaf)

/-- The conditions and memberships that applying a list of filters writes, in order. -/
def leaves (r : Registry) (fs : List Filter) : Outcome (List Filter) :=
  List.flatten <$> fs.mapM (leavesOf r fs)

theorem isLeaf_of_mem_leavesOf {r : Registry} {fs : List Filter} {f : Filter} {ls : List Filter}
    (leaves : f.leavesOf r fs = .ok ls) : ∀ g ∈ ls, g.isLeaf = true := by
  cases f with
  | invocation c h =>
    obtain ⟨args, -, leaves⟩ := Except.bind_eq_ok.mp leaves
    obtain ⟨defs, -, leaves⟩ := Except.bind_eq_ok.mp leaves
    obtain ⟨built, -, leaves⟩ := Except.bind_eq_ok.mp leaves
    simp only [pure, Except.pure, Except.ok.injEq] at leaves
    subst leaves
    exact fun g mem => (List.mem_filter.mp mem).2
  | comparison | membership | argument =>
    simp only [leavesOf, pure, Except.pure, Except.ok.injEq] at leaves
    subst leaves
    exact fun g mem => (List.mem_filter.mp mem).2

theorem leaves_eq_ok_iff {r : Registry} {fs ls : List Filter} :
    leaves r fs = .ok ls ↔ ∃ lss, fs.mapM (leavesOf r fs) = .ok lss ∧ ls = lss.flatten := by
  unfold leaves
  cases fs.mapM (leavesOf r fs) <;> simp [Functor.map, Except.map, eq_comm]

/-- Applying filters writes only conditions and memberships. -/
theorem isLeaf_of_mem_leaves {r : Registry} {fs ls : List Filter} (computed : leaves r fs = .ok ls) :
    ∀ f ∈ ls, f.isLeaf = true := by
  obtain ⟨lss, mapped, rfl⟩ := leaves_eq_ok_iff.mp computed
  intro f member
  obtain ⟨l, inLss, inL⟩ := List.mem_flatten.mp member
  obtain ⟨g, -, written⟩ := List.mem_of_mapM_except mapped l inLss
  exact isLeaf_of_mem_leavesOf written f inL

end Filter

namespace Backend

/-! ### Text made ready for conditions -/

theorem occursIn_append_left (needle : List Char) :
    ∀ {xs : List Char} (ys : List Char), occursIn needle xs = true → occursIn needle (xs ++ ys) = true
  | [], ys, found => by
    -- only the empty needle occurs in the empty text, and it occurs everywhere
    have empty : needle = [] := by simpa [occursIn] using found
    subst empty
    cases ys <;> simp [occursIn]
  | x :: xs, ys, found => by
    simp only [occursIn, Bool.or_eq_true, List.cons_append] at found ⊢
    rcases found with pre | later
    · exact .inl (List.isPrefixOf_iff_prefix.mpr ((List.isPrefixOf_iff_prefix.mp pre).trans (List.prefix_append _ _)))
    · exact .inr (occursIn_append_left needle ys later)

theorem occursIn_append_right (needle : List Char) :
    ∀ (xs : List Char) {ys : List Char}, occursIn needle ys = true → occursIn needle (xs ++ ys) = true
  | [], _, found => found
  | x :: xs, ys, found => by simp [occursIn, occursIn_append_right needle xs found]

theorem toLower_append_toList (s x : String) : (s ++ x).toLower.toList = s.toLower.toList ++ x.toLower.toList := by
  -- through `String.map`, whose characters are those of the text mapped one by one
  show (String.map Char.toLower (s ++ x)).toList =
    (String.map Char.toLower s).toList ++ (String.map Char.toLower x).toList
  simp [String.toList_map]

/-- Text made ready for a condition mentions `where`. -/
theorem withWhere_mentions (s : String) : occursIn "where".toList (withWhere s).toLower.toList = true := by
  unfold withWhere
  split
  · assumption
  · rw [toLower_append_toList]
    exact occursIn_append_right _ _ (by decide +kernel)

/-- Text that is ready for conditions stays ready after more text. -/
theorem withWhere_append (s x : String) : withWhere (withWhere s ++ x) = withWhere s ++ x := by
  have mentions : occursIn "where".toList (withWhere s ++ x).toLower.toList = true := by
    rw [toLower_append_toList]
    exact occursIn_append_left _ _ (withWhere_mentions s)
  rw [withWhere.eq_1 (withWhere s ++ x), if_pos mentions]


/-- SQL text after conditions and memberships are written on it: as it was for none, else made
ready for conditions and followed by theirs. -/
def textAfter (s : String) (leaves : List Filter) : String :=
  if leaves = [] then s else withWhere s ++ String.join (leaves.map Filter.sqlCondition)

/-- The target that writing conditions and memberships on SQL text builds: none for none. -/
def builtSql (s : String) (leaves : List Filter) : Option Target :=
  if leaves = [] then none else some (.sql (textAfter s leaves))

theorem textAfter_append (s : String) (first more : List Filter) :
    textAfter (textAfter s first) more = textAfter s (first ++ more) := by
  by_cases none : first = []
  · simp [textAfter, none]
  by_cases noMore : more = []
  · simp [textAfter, noMore]
  simp [textAfter, none, noMore, withWhere_append, String.append_assoc]

theorem supports_of_sqlText {t : Target} {s : String} (text : t.sqlText? = some s) (b : Backend) :
    b.supports t = (b == .sql) := by
  cases t <;> cases b <;> simp_all [Target.sqlText?, supports]

/-! ### What a backend writes -/

/-- The backend writes the condition or membership: the SQL backend refuses a membership
without members. -/
def writes : Backend → Filter → Bool
  | .sql, .membership _ items _ => !items.isEmpty
  | _, _ => true

/-- The target a backend makes by writing conditions and memberships on a target it accepts:
the SQL text made ready for conditions and followed by theirs, or the list followed by their
entries. -/
def written (b : Backend) (t : Target) (leaves : List Filter) : Target :=
  match b with
  | .sql => .sql (textAfter (t.sqlText?.getD "") leaves)
  | .conditions => .conditions (t.conditions?.getD [] ++ leaves.map Filter.entry)

/-- What writing builds: nothing for no conditions or memberships. -/
def build (b : Backend) (t : Target) (leaves : List Filter) : Option Target :=
  if leaves = [] then none else some (b.written t leaves)

@[simp] theorem build_nil (b : Backend) (t : Target) : b.build t [] = none := rfl

/-- On SQL text, writing builds what `builtSql` says. -/
theorem build_sql {t : Target} {s : String} (text : t.sqlText? = some s) (leaves : List Filter) :
    Backend.sql.build t leaves = builtSql s leaves := by
  simp [build, written, builtSql, text]

theorem supports_written (b : Backend) (t : Target) (leaves : List Filter) :
    b.supports (b.written t leaves) = true := by
  cases b <;> rfl

/-- The target after writing is one the backend accepts. -/
theorem supports_build {b : Backend} {t : Target} (accepts : b.supports t = true) (leaves : List Filter) :
    b.supports ((b.build t leaves).getD t) = true := by
  unfold build
  split
  · exact accepts
  · exact supports_written b t leaves

theorem written_written (b : Backend) (t : Target) (first more : List Filter) :
    b.written (b.written t first) more = b.written t (first ++ more) := by
  cases b
  · simp [written, Target.sqlText?, Backend.textAfter_append]
  · simp [written, Target.conditions?]

/-- Writing more on what the first writing built is writing both. -/
theorem build_append (b : Backend) (t : Target) (first more : List Filter) :
    (b.build ((b.build t first).getD t) more <|> b.build t first) = b.build t (first ++ more) := by
  by_cases noFirst : first = []
  · subst noFirst
    simp only [build_nil, Option.getD_none, List.nil_append]
    cases b.build t more <;> rfl
  by_cases noMore : more = []
  · subst noMore
    simp [build]
  have both : first ++ more ≠ [] := by simp [noMore]
  simp only [build, if_neg noFirst, if_neg noMore, if_neg both, Option.getD_some, written_written]
  rfl

theorem written_single_sql {t : Target} {s : String} (text : t.sqlText? = some s) (f : Filter) :
    Backend.sql.written t [f] = .sql (withWhere s ++ f.sqlCondition) := by
  simp [written, text, textAfter]

/-- A backend writes a condition or membership on a target it accepts, unless it refuses it. -/
theorem applyLeaf_eq {b : Backend} {t : Target} (accepts : b.supports t = true) {f : Filter}
    (leaf : f.isLeaf = true) :
    b.applyLeaf f t = if b.writes f then .ok (some (b.written t [f])) else .error (.emptyMembership f.column) := by
  cases b with
  | sql =>
    obtain ⟨s, text⟩ : ∃ s, t.sqlText? = some s := by
      cases t <;> simp_all [supports, Target.sqlText?]
    have sqlText : Backend.sqlText t = .ok s := by simp [Backend.sqlText, text]
    rw [written_single_sql text]
    cases f with
    | comparison c op v title =>
      simp [applyLeaf, applyComparison, sqlText, writes, Filter.sqlCondition, bind, Except.bind, Functor.map,
        Except.map, pure, Except.pure, String.append_assoc]
    | membership c items title =>
      by_cases empty : items = []
      · simp [applyLeaf, applyMembership, empty, writes, Filter.column, throw, throwThe, MonadExceptOf.throw, bind,
          Except.bind, Functor.map, Except.map]
      · simp [applyLeaf, applyMembership, empty, sqlText, writes, Filter.sqlCondition, Filter.marks,
          Filter.memberPlaceholder, bind, Except.bind, Functor.map, Except.map, pure, Except.pure, String.append_assoc,
          Function.comp_def]
    | invocation | argument => simp [Filter.isLeaf] at leaf
  | conditions =>
    obtain ⟨xs, rfl⟩ : ∃ xs, t = .conditions xs := by
      cases t <;> simp_all [supports]
    cases f with
    | comparison =>
      simp [applyLeaf, applyComparison, conditionList, Target.conditions?, writes, written, Filter.entry, bind,
        Except.bind, Functor.map, Except.map, pure, Except.pure]
    | membership =>
      simp [applyLeaf, applyMembership, conditionList, Target.conditions?, writes, written, Filter.entry, bind,
        Except.bind, Functor.map, Except.map, pure, Except.pure]
    | invocation | argument => simp [Filter.isLeaf] at leaf

/-- A backend writes a condition or membership on a target it accepts when it can, and leaves
the target to the caller for other filters. -/
theorem applyLeaf_eq_ok_iff {b : Backend} {t : Target} (accepts : b.supports t = true) (f : Filter)
    (r : Option Target) :
    b.applyLeaf f t = .ok r ↔
      (∀ g ∈ [f].filter Filter.isLeaf, b.writes g) ∧ r = b.build t ([f].filter Filter.isLeaf) := by
  cases leaf : f.isLeaf
  · have quiet : b.applyLeaf f t = .ok none := by
      cases f <;> simp_all [applyLeaf, Filter.isLeaf, pure, Except.pure]
    have none_ : [f].filter Filter.isLeaf = [] := by simp [leaf]
    rw [quiet, none_, build_nil]
    simp only [Except.ok.injEq, List.not_mem_nil, false_implies, implies_true, true_and]
    exact eq_comm
  · have self : [f].filter Filter.isLeaf = [f] := by simp [leaf]
    rw [applyLeaf_eq accepts leaf, self]
    by_cases can : b.writes f
    · simp only [can, if_true, Except.ok.injEq, List.mem_singleton, forall_eq, true_and, build,
        List.cons_ne_nil, if_false]
      exact eq_comm
    · simp [can]

end Backend

/-! ### Choosing the backend -/

/-- Two targets that one backend accepts are accepted by the same backends. -/
theorem Backend.supports_congr {b : Backend} {t t' : Target} (accepts : b.supports t = true)
    (accepts' : b.supports t' = true) (b' : Backend) : b'.supports t' = b'.supports t := by
  cases b <;> cases b' <;> cases t <;> cases t' <;> simp_all [Backend.supports]

theorem Ranked.supports_of_find {backends : Ranked} {t : Target} {b : Backend} (selected : backends.find t = .ok b) :
    b.supports t = true := by
  unfold Ranked.find at selected
  split at selected
  · next found =>
    cases selected
    simpa using List.find?_some found
  · cases selected

/-- A ranking sends every target the backend it selects accepts to that backend. -/
theorem Ranked.find_of_supports {backends : Ranked} {t t' : Target} {b : Backend}
    (selected : backends.find t = .ok b) (accepts' : b.supports t' = true) : backends.find t' = .ok b := by
  have same : (fun b' : Backend => b'.supports t') = (fun b' => b'.supports t) :=
    funext (Backend.supports_congr (Ranked.supports_of_find selected) accepts')
  unfold Ranked.find at selected ⊢
  rw [same]
  split at selected
  · exact selected
  · cases selected

/-- A target of SQL text goes to the backend that every target of SQL text goes to. -/
theorem Ranked.find_of_sqlText {backends : Ranked} {t t' : Target} {s' : String}
    (selected : backends.find t = .ok .sql) (text' : t'.sqlText? = some s') : backends.find t' = .ok .sql :=
  Ranked.find_of_supports selected (by rw [Backend.supports_of_sqlText text']; rfl)

/-! ### Invocations of declared functions -/

/-- Each function has the body of its definitions, and some definitions. -/
def Registry.Declared (r : Registry) : Prop :=
  ∀ e ∈ r.entries, e.body = .declared e.definitions ∧ e.definitions ≠ []

/-- An invocation that carries its function's handle runs the function's definitions, which are
some. -/
theorem Registry.Declared.invocation {r : Registry} (declared : r.Declared) {c : String} {h : Handle}
    (handled : r.handle c = .ok h) : ∃ defs, h.body = .declared defs ∧ r.definitionsFor c = .ok defs ∧ defs ≠ [] := by
  obtain ⟨e, found, rfl⟩ := Registry.handle_eq_ok handled
  obtain ⟨body, nonempty⟩ := declared e (Registry.find?_eq_some found).1
  exact ⟨e.definitions, body, by simp [Registry.definitionsFor, Registry.get, found, Except.map], nonempty⟩

/-- The functions that declarations register, from none: each declaration registers a function
under its definitions, with the parameters that have no default. -/
inductive Functions.Declared : Functions → Prop
  | empty : Functions.Declared {}
  | declare {fs fs' : Functions} {name : String} {defs : List Parameter} :
      Functions.Declared fs →
      (Functions.register name (Parameter.requiredNames defs) (.declared defs) defs).run fs = .ok () fs' →
      Functions.Declared fs'

/-- Declared functions run their definitions, which are some: a function needs a parameter without
a default. -/
theorem Functions.Declared.registry {fs : Functions} (declared : fs.Declared) : fs.registry.Declared := by
  induction declared with
  | empty => intro e member; simp at member
  | @declare fs₀ fs₁ name defs _ accepted ih =>
    obtain ⟨-, some, -, registry, -⟩ := Functions.register_run_ok accepted
    intro e member
    rw [registry, Registry.mem_place] at member
    rcases member with rfl | ⟨old, -⟩
    · refine ⟨rfl, fun empty => some ?_⟩
      have none : defs = [] := empty
      simp [none, Parameter.requiredNames]
    · exact ih e old

/-- A declaration keeps the functions declared, whether it is accepted or refused. -/
theorem Functions.Declared.after_declaration {en : Engine} (declared : en.functions.Declared) (name : String)
    (descriptors : List Descriptor) : ((Registration.declared name descriptors).after en).functions.Declared := by
  unfold Registration.after Registration.run
  cases ran : (Engine.declare name descriptors).run en with
  | ok u en' =>
    obtain ⟨defs, -, accepted, -, -⟩ := Engine.declare_accepted ran
    exact .declare declared accepted
  | error err en' =>
    obtain ⟨rfl, -⟩ := Engine.declare_refused ran
    exact declared

/-- Each invocation of the list belongs to a function that runs its definitions. -/
def Registry.DeclaredFor (r : Registry) (fs : List Filter) : Prop :=
  ∀ c h, Filter.invocation c h ∈ fs → ∃ e, r.find? c = some e ∧ e.body = .declared e.definitions

/-- Each invocation of the list runs the definitions its function has in the registry. -/
def Registry.RunsDefinitions (r : Registry) (fs : List Filter) : Prop :=
  ∀ c h, Filter.invocation c h ∈ fs → ∃ defs, h.body = .declared defs ∧ r.definitionsFor c = .ok defs

/-- When every function was declared, so was every function an invocation carrying its handle
invokes. -/
theorem Registry.Declared.declaredFor {r : Registry} (declared : r.Declared) {fs : List Filter}
    (handles : r.Handles fs) : r.DeclaredFor fs := by
  intro c h member
  obtain ⟨e, found, -⟩ := Registry.handle_eq_ok (handles c h member)
  exact ⟨e, found, (declared e (Registry.find?_eq_some found).1).1⟩

/-- Invocations that carry their handles, of declared functions, run the definitions. -/
theorem Registry.DeclaredFor.runsDefinitions {r : Registry} {fs : List Filter} (declared : r.DeclaredFor fs)
    (handles : r.Handles fs) : r.RunsDefinitions fs := by
  intro c h member
  obtain ⟨e, found, rfl⟩ := Registry.handle_eq_ok (handles c h member)
  obtain ⟨e', found', body⟩ := declared c _ member
  obtain rfl : e' = e := Option.some.inj (found'.symm.trans found)
  exact ⟨e'.definitions, body, by simp [Registry.definitionsFor, Registry.get, found, Except.map]⟩

theorem Registry.RunsDefinitions.of_subset {r : Registry} {fs fs' : List Filter} (runs : r.RunsDefinitions fs)
    (sub : ∀ f ∈ fs', f ∈ fs) : r.RunsDefinitions fs' :=
  fun c h member => runs c h (sub _ member)

/-! ### Folding filters through one backend -/

theorem filter_cons_split (f : Filter) (rest : List Filter) :
    (f :: rest).filter Filter.isLeaf = [f].filter Filter.isLeaf ++ rest.filter Filter.isLeaf := by
  rw [← List.filter_append, List.singleton_append]

section Folding
variable {bodies : List HostBody} {backends : Ranked} {b : Backend}
  (selected : ∀ {t : Target}, b.supports t = true → backends.find t = .ok b)
include selected

/-- Applying conditions, memberships and arguments through the backend writes the conditions and
memberships in order; it succeeds when the backend writes each. -/
theorem applyLeaves_eq_ok_iff : ∀ (bs : List Filter) {t : Target}, b.supports t = true → ∀ res : Option Target,
    applyLeaves backends bs t = .ok res ↔
      (∀ g ∈ bs.filter Filter.isLeaf, b.writes g) ∧ res = b.build t (bs.filter Filter.isLeaf)
  | [], t, _, res => by
    simp only [applyLeaves, pure, Except.pure, Except.ok.injEq, List.filter_nil, List.not_mem_nil, false_implies,
      implies_true, true_and, Backend.build_nil]
    exact eq_comm
  | f :: rest, t, accepts, res => by
    -- the first filter is written on `t`, the others on what it built
    have split := filter_cons_split f rest
    have first := Backend.applyLeaf_eq_ok_iff accepts f
    have next := Backend.supports_build accepts ([f].filter Filter.isLeaf)
    constructor
    · intro applied
      obtain ⟨b', found, applied⟩ := Except.bind_eq_ok.mp applied
      obtain rfl : b = b' := Except.ok.inj ((selected accepts).symm.trans found)
      obtain ⟨r₁, leaf, applied⟩ := Except.bind_eq_ok.mp applied
      obtain ⟨more, rested, applied⟩ := Except.bind_eq_ok.mp applied
      obtain ⟨writes₁, rfl⟩ := (first r₁).mp leaf
      obtain ⟨writes₂, rfl⟩ := (applyLeaves_eq_ok_iff rest next more).mp rested
      simp only [pure, Except.pure, Except.ok.injEq] at applied
      subst applied
      refine ⟨fun g member => ?_, by rw [split, Backend.build_append]⟩
      rcases List.mem_append.mp (split ▸ member) with inFirst | inRest
      · exact writes₁ g inFirst
      · exact writes₂ g inRest
    · rintro ⟨writes, rfl⟩
      have leaf := (first _).mpr ⟨fun g member => writes g (split ▸ List.mem_append_left _ member), rfl⟩
      have rested := (applyLeaves_eq_ok_iff rest next _).mpr
        ⟨fun g member => writes g (split ▸ List.mem_append_right _ member), rfl⟩
      simp only [applyLeaves, selected accepts, leaf, rested, bind, Except.bind, pure, Except.pure, Except.ok.injEq]
      rw [Backend.build_append, split]

variable {r : Registry} {fs : List Filter}

/-- Applying a filter of a list through the backend writes the filter's conditions and
memberships, those its definitions build for an invocation; it succeeds when they can be built
and the backend writes each. -/
theorem applyOne_eq_ok_iff {f : Filter} (runs : r.RunsDefinitions [f]) {t : Target} (accepts : b.supports t = true)
    (res : Option Target) :
    applyOne bodies backends r fs f t = .ok res ↔
      ∃ ls, f.leavesOf r fs = .ok ls ∧ (∀ g ∈ ls, b.writes g) ∧ res = b.build t ls := by
  cases f with
  | invocation c h =>
    obtain ⟨defs, body, defined⟩ := runs c h (List.mem_singleton_self _)
    -- running the body and computing the leaves find the same arguments and build the same filters
    cases argued : argumentsFor r fs c with
    | error e => simp [applyOne, selected accepts, argued, Filter.leavesOf, bind, Except.bind]
    | ok args =>
      cases made : filtersFromParameters args defs with
      | error e =>
        simp [applyOne, selected accepts, argued, body, Body.run, made, Filter.leavesOf, defined, bind, Except.bind]
      | ok built =>
        simp only [applyOne, selected accepts, argued, body, Body.run, made, Filter.leavesOf, defined, bind,
          Except.bind, pure, Except.pure, Except.ok.injEq, exists_eq_left']
        exact applyLeaves_eq_ok_iff selected built accepts res
  | comparison | membership | argument =>
    simp only [applyOne, selected accepts, Filter.leavesOf, bind, Except.bind, pure, Except.pure, Except.ok.injEq,
      exists_eq_left']
    exact Backend.applyLeaf_eq_ok_iff accepts _ res

/-- Applying the filters of a list through the backend writes their conditions and memberships
in order; it succeeds when they can be built and the backend writes each. -/
theorem applyEach_eq_ok_iff : ∀ (l : List Filter), r.RunsDefinitions l → ∀ {t : Target}, b.supports t = true →
    ∀ res : Option Target, applyEach bodies backends r fs l t = .ok res ↔
      ∃ lss, l.mapM (Filter.leavesOf r fs) = .ok lss ∧ (∀ g ∈ lss.flatten, b.writes g) ∧
        res = b.build t lss.flatten
  | [], _, t, _, res => by
    simp only [applyEach, List.mapM_nil, pure, Except.pure, Except.ok.injEq, exists_eq_left', List.flatten_nil,
      List.not_mem_nil, false_implies, implies_true, true_and, Backend.build_nil]
    exact eq_comm
  | f :: rest, runs, t, accepts, res => by
    have head : r.RunsDefinitions [f] := runs.of_subset fun g member => by simp_all
    have later : r.RunsDefinitions rest := runs.of_subset fun g member => List.mem_cons_of_mem f member
    constructor
    · intro applied
      obtain ⟨r₁, one, applied⟩ := Except.bind_eq_ok.mp applied
      obtain ⟨more, rested, applied⟩ := Except.bind_eq_ok.mp applied
      obtain ⟨ls, leaves, writes₁, rfl⟩ := (applyOne_eq_ok_iff selected head accepts r₁).mp one
      obtain ⟨lss, mapped, writes₂, rfl⟩ :=
        (applyEach_eq_ok_iff rest later (Backend.supports_build accepts ls) more).mp rested
      simp only [pure, Except.pure, Except.ok.injEq] at applied
      subst applied
      refine ⟨ls :: lss, by simp [List.mapM_cons, leaves, mapped, bind, Except.bind, pure, Except.pure],
        fun g member => ?_, by rw [Backend.build_append, List.flatten_cons]⟩
      rcases List.mem_append.mp (List.flatten_cons ▸ member) with inFirst | inRest
      · exact writes₁ g inFirst
      · exact writes₂ g inRest
    · rintro ⟨lss', mapped, writes, rfl⟩
      rw [List.mapM_cons] at mapped
      obtain ⟨ls, leaves, mapped⟩ := Except.bind_eq_ok.mp mapped
      obtain ⟨lss, rested, mapped⟩ := Except.bind_eq_ok.mp mapped
      simp only [pure, Except.pure, Except.ok.injEq] at mapped
      subst mapped
      have one : applyOne bodies backends r fs f t = .ok (b.build t ls) :=
        (applyOne_eq_ok_iff selected head accepts _).mpr ⟨ls, leaves, fun g member => writes g (by simp [member]), rfl⟩
      have more := (applyEach_eq_ok_iff rest later (Backend.supports_build accepts ls) _).mpr
        ⟨lss, rested, fun g member => writes g (by simp_all), rfl⟩
      simp only [applyEach, one, more, bind, Except.bind, pure, Except.pure, Except.ok.injEq]
      rw [Backend.build_append, List.flatten_cons]

end Folding

/-! ### Applying the filters of a read -/

/-- Applying the filters of a read, whose invocations are all of declared functions, through the
backend the target goes to succeeds exactly when their conditions and memberships can be built
and the backend writes each; it then writes them in order. -/
theorem Engine.applyFilters_eq_ok_iff {en : Engine} {q : Query} {fs : List Filter} (parsed : en.parse q = .ok fs)
    (declared : en.registry.DeclaredFor fs) {t : Target} {b : Backend} (selected : en.backends.find t = .ok b)
    (t' : Target) :
    en.applyFilters fs t = .ok t' ↔
      ∃ ls, Filter.leaves en.registry fs = .ok ls ∧ (∀ g ∈ ls, b.writes g) ∧ t' = (b.build t ls).getD t := by
  have accepts := Ranked.supports_of_find selected
  have runs := declared.runsDefinitions (Query.read_handles parsed)
  have each : ∀ res, applyEach en.bodies en.backends en.registry fs fs t = .ok res ↔ _ :=
    applyEach_eq_ok_iff (fun accepts' => Ranked.find_of_supports selected accepts') fs runs accepts
  unfold Engine.applyFilters
  simp only [Filter.leaves_eq_ok_iff]
  cases ran : applyEach en.bodies en.backends en.registry fs fs t with
  | error e =>
    -- leaves the backend writes all of would have made the application succeed
    simp only [Except.map, reduceCtorEq, false_iff, not_exists, not_and]
    rintro ls ⟨lss, mapped, rfl⟩ writes
    have applied := (each _).mpr ⟨lss, mapped, writes, rfl⟩
    rw [ran] at applied
    cases applied
  | ok res =>
    obtain ⟨lss, mapped, writes, rfl⟩ := (each res).mp ran
    simp only [Except.map, Except.ok.injEq]
    constructor
    · rintro rfl
      exact ⟨lss.flatten, ⟨lss, mapped, rfl⟩, writes, rfl⟩
    · rintro ⟨ls, ⟨lss', mapped', rfl⟩, -, rfl⟩
      obtain rfl : lss = lss' := Except.ok.inj (mapped.symm.trans mapped')
      rfl

/-- The SQL backend writes the conditions and memberships, unless a membership has no members. -/
theorem Backend.sql_writes_iff (ls : List Filter) :
    (∀ g ∈ ls, Backend.sql.writes g) ↔ ∀ c items title, Filter.membership c items title ∈ ls → items ≠ [] := by
  constructor
  · intro writes c items title member
    simpa [Backend.writes] using writes _ member
  · intro nonempty g member
    cases g with
    | membership c items title => simpa [Backend.writes] using nonempty c items title member
    | comparison | invocation | argument => rfl

theorem Backend.conditions_writes (g : Filter) : Backend.conditions.writes g = true := by
  cases g <;> rfl

theorem Backend.build_sql_getD {t : Target} {s : String} (text : t.sqlText? = some s) (ls : List Filter) :
    (Backend.sql.build t ls).getD t =
      if ls = [] then t else .sql (withWhere s ++ String.join (ls.map Filter.sqlCondition)) := by
  rw [build_sql text]
  by_cases none_ : ls = [] <;> simp [builtSql, textAfter, none_]

theorem Backend.build_conditions_getD (xs : List Json) (ls : List Filter) :
    (Backend.conditions.build (.conditions xs) ls).getD (.conditions xs) = .conditions (xs ++ ls.map Filter.entry) := by
  by_cases none_ : ls = [] <;> simp [build, written, Target.conditions?, none_]

/-- Backends fold the filters of a read left to right and write one entry per condition or
membership. Take a read whose invocations are all of declared functions. Applied to SQL text that
goes to the SQL backend, the filters succeed exactly when their conditions and memberships
(`Filter.leaves`) can be built and none is a membership without members; the text is then
unchanged for none, and otherwise made ready for conditions once (` WHERE 1` is added unless the
text mentions `where` in any case) and followed by the condition of each, in order. Applied to a
list of conditions that goes to the list backend, they succeed exactly when the conditions and
memberships can be built, and the list is followed by one entry for each, in order. -/
theorem Engine.apply_filters_write_leaves {en : Engine} {q : Query} {fs : List Filter} (parsed : en.parse q = .ok fs)
    (declared : en.registry.DeclaredFor fs) :
    (∀ {t : Target} {s : String}, t.sqlText? = some s → en.backends.find t = .ok .sql → ∀ t',
      en.applyFilters fs t = .ok t' ↔ ∃ ls, Filter.leaves en.registry fs = .ok ls ∧
        (∀ c items title, Filter.membership c items title ∈ ls → items ≠ []) ∧
        t' = if ls = [] then t else .sql (Backend.withWhere s ++ String.join (ls.map Filter.sqlCondition))) ∧
    (∀ {xs : List Json}, en.backends.find (.conditions xs) = .ok .conditions → ∀ t',
      en.applyFilters fs (.conditions xs) = .ok t' ↔
        ∃ ls, Filter.leaves en.registry fs = .ok ls ∧ t' = .conditions (xs ++ ls.map Filter.entry)) := by
  refine ⟨fun text selected t' => ?_, fun selected t' => ?_⟩
  · rw [Engine.applyFilters_eq_ok_iff parsed declared selected]
    simp only [Backend.build_sql_getD text, Backend.sql_writes_iff]
  · rw [Engine.applyFilters_eq_ok_iff parsed declared selected]
    simp only [Backend.build_conditions_getD, Backend.conditions_writes, implies_true, true_and]

set_option maxRecDepth 2000 in
/-- A function declared with a condition and a defaulted condition, listed in the function column
beside a membership: applied to SQL text and to an empty list of conditions. -/
theorem Engine.apply_filters_write_leaves_adult :
    ((Registration.declared "adult" [.record "age" (some "gte") none none,
        .record "active" none none (some (.bool true))]).after
          ⟨"fun", {}, (({} : Ranked).add .sql 100).add .conditions 50, []⟩).applyFilters
        [.invocation "adult" ⟨"adult", .declared [⟨"age", "gte", "age", none⟩, ⟨"active", "eq", "active", some (.bool true)⟩]⟩,
          .argument "age" (.raw (.int 18)), .membership "name" [.str "a", .str "b"] none] (.sql "t") =
      .ok (.sql "t WHERE 1 AND age >= :age_gte AND active = :active_fun AND name IN (:name_in_0, :name_in_1)") ∧
    ((Registration.declared "adult" [.record "age" (some "gte") none none,
        .record "active" none none (some (.bool true))]).after
          ⟨"fun", {}, (({} : Ranked).add .sql 100).add .conditions 50, []⟩).applyFilters
        [.invocation "adult" ⟨"adult", .declared [⟨"age", "gte", "age", none⟩, ⟨"active", "eq", "active", some (.bool true)⟩]⟩,
          .argument "age" (.raw (.int 18)), .membership "name" [.str "a", .str "b"] none] (.conditions []) =
      .ok (.conditions [.arr [.str "age", .str ">=", .int 18], .arr [.str "active", .str "=", .bool true],
        .arr [.str "name", .str "in", .arr [.str "a", .str "b"]]]) := by
  have declared := @Functions.Declared.after_declaration ⟨"fun", {}, (({} : Ranked).add .sql 100).add .conditions 50, []⟩
    .empty "adult" [.record "age" (some "gte") none none, .record "active" none none (some (.bool true))]
  have parsed : ((Registration.declared "adult" [.record "age" (some "gte") none none,
      .record "active" none none (some (.bool true))]).after
        ⟨"fun", {}, (({} : Ranked).add .sql 100).add .conditions 50, []⟩).parse
        [("fun", .arr [.str "adult"]), ("age", .int 18), ("name[in]", .arr [.str "a", .str "b"])] =
      .ok [.invocation "adult" ⟨"adult", .declared [⟨"age", "gte", "age", none⟩, ⟨"active", "eq", "active", some (.bool true)⟩]⟩,
        .argument "age" (.raw (.int 18)), .membership "name" [.str "a", .str "b"] none] := by
    with_unfolding_all rfl
  have writes := Engine.apply_filters_write_leaves parsed (declared.registry.declaredFor (Query.read_handles parsed))
  have leaves : Filter.leaves ((Registration.declared "adult" [.record "age" (some "gte") none none,
      .record "active" none none (some (.bool true))]).after
        ⟨"fun", {}, (({} : Ranked).add .sql 100).add .conditions 50, []⟩).registry
        [.invocation "adult" ⟨"adult", .declared [⟨"age", "gte", "age", none⟩, ⟨"active", "eq", "active", some (.bool true)⟩]⟩,
          .argument "age" (.raw (.int 18)), .membership "name" [.str "a", .str "b"] none] =
      .ok [.comparison "age" .gte (.raw (.int 18)) none, .comparison "active" .eq (.raw (.bool true)) (some "active_fun"),
        .membership "name" [.str "a", .str "b"] none] := by
    with_unfolding_all rfl
  refine ⟨(writes.1 rfl (by with_unfolding_all rfl) _).mpr ⟨_, leaves, ?_, by with_unfolding_all rfl⟩,
    (writes.2 (by with_unfolding_all rfl) _).mpr ⟨_, leaves, rfl⟩⟩
  intro c items title member
  simp only [List.mem_cons, reduceCtorEq, Filter.membership.injEq, false_or] at member
  rcases member with ⟨-, rfl, -⟩ | absent
  · exact List.cons_ne_nil _ _
  · cases absent

end QueryFilters
