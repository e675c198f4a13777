import QueryFilters.Engine
import QueryFilters.Proofs.Blocks

/-!
Running a function against applying its invocation. Running a function reads the query, keeps
the filters standing on the function's parameter columns, requires exactly as many as there are
parameters, and takes each parameter's argument among them; applying an invocation filter first
finds the backend for the target and then takes, for each parameter, the first argument among
all the filters. Every invocation a read makes carries the function's registered handle, so the
two run the same body; they agree exactly when each parameter is the column of one filter only,
an argument, and some backend accepts the target.
-/
namespace QueryFilters

/-! ### Results a step of a pass ends with -/

namespace PassM

/-- Every result a step ends with, from any state, satisfies the condition. -/
def Ensures {α : Type} (m : PassM α) (P : α → Prop) : Prop :=
  ∀ s a s', m.ends s = some (a,s') → P a

variable {α β : Type} {P : α → Prop} {Q : β → Prop}

theorem ensures_pure {a : α} (holds : P a) : (pure a : PassM α).Ensures P := by
  intro s b s' ended
  simp only [ends_pure,Option.some.injEq,Prod.mk.injEq] at ended
  exact ended.1 ▸ holds

theorem Ensures.bind {x : PassM α} {f : α → PassM β} (first : x.Ensures P)
    (rest : ∀ a, P a → (f a).Ensures Q) : (x >>= f).Ensures Q := by
  intro s b s' ended
  simp only [ends_bind,Option.bind_eq_some_iff] at ended
  obtain ⟨⟨a,s₁⟩,ranFirst,ranRest⟩ := ended
  exact rest a (first s a s₁ ranFirst) s₁ b s' ranRest

theorem ensures_any (m : PassM α) : m.Ensures fun _ => True :=
  fun _ _ _ _ => trivial

theorem ensures_fail (err : FilterError) : (PassM.fail err : PassM α).Ensures P := by
  intro s a s' ended
  simp at ended

theorem ensures_lift (o : Outcome α) : (PassM.lift o).Ensures fun a => o = .ok a := by
  intro s a s' ended
  cases o <;> simp_all

end PassM

open PassM

/-! ### Invocations carry their handles -/

/-- Every invocation filter of the list carries the handle the registry gives its function. -/
def Registry.Handles (r : Registry) (fs : List Filter) : Prop :=
  ∀ c h, Filter.invocation c h ∈ fs → r.handle c = .ok h

namespace Registry.Handles
variable {r : Registry}

theorem nil : r.Handles [] := by
  simp [Registry.Handles]

theorem append {a b : List Filter} (left : r.Handles a) (right : r.Handles b) : r.Handles (a ++ b) := by
  intro c h member
  rcases List.mem_append.mp member with inLeft | inRight
  · exact left c h inLeft
  · exact right c h inRight

theorem cons {f : Filter} {l : List Filter} (head : r.Handles [f]) (rest : r.Handles l) :
    r.Handles (f :: l) :=
  head.append rest

/-- A list without invocations carries every handle it has. -/
theorem of_invoked? {fs : List Filter} (none : fs.filterMap Filter.invoked? = []) : r.Handles fs := by
  intro c h member
  have absent := List.filterMap_eq_nil_iff.mp none _ member
  simp [Filter.invoked?] at absent

theorem argumentFilters (pairs : List (String × Json)) : r.Handles (argumentFilters pairs) :=
  of_invoked? (argumentFilters_invoked? pairs)

/-- A search that only stops at invocations of one function finds the invocation given: the
function has one handle, so all its invocations are the same filter. -/
theorem find?_invocation {p : Filter → Bool} {f : String} {h : Handle}
    (picks : ∀ x, p x = true → ∃ h', x = .invocation f h') (takes : p (.invocation f h) = true)
    {fs : List Filter} (handles : r.Handles fs) (member : Filter.invocation f h ∈ fs) :
    fs.find? p = some (.invocation f h) := by
  cases picked : fs.find? p with
  | none =>
    have skipped := List.find?_eq_none.mp picked _ member
    simp [takes] at skipped
  | some x =>
    obtain ⟨h',rfl⟩ := picks x (List.find?_some picked)
    have same := (handles f h' (List.mem_of_find?_eq_some picked)).symm.trans (handles f h member)
    simp only [Except.ok.injEq] at same
    rw [same]

end Registry.Handles

namespace Invocation

variable {r : Registry}

theorem emitArgument_handles (p : String) (v : Json) : (emitArgument p v).Ensures r.Handles := by
  intro s out s' ended
  rw [emitArgument_ends] at ended
  split at ended <;> simp only [Option.some.injEq,Prod.mk.injEq] at ended <;> rw [← ended.1]
  · exact Registry.Handles.nil
  · exact Registry.Handles.argumentFilters [(p,v)]

/-- A function fires with the handle the registry gives it. -/
theorem fire_handles (sc : Scope) (f : String) (how : Recognition) :
    (fire sc f how).Ensures fun φ => sc.registry.Handles [φ] := by
  intro s φ s' ended
  rw [fire_ends] at ended
  split at ended
  · cases ended
  · split at ended
    · next h found =>
      simp only [Option.some.injEq,Prod.mk.injEq] at ended
      rw [← ended.1]
      intro c h' member
      simp only [List.mem_singleton,Filter.invocation.injEq] at member
      obtain ⟨rfl,rfl⟩ := member
      exact found
    · cases ended

theorem listedArguments_handles (q : Query) (function : String) :
    ∀ ps, (listedArguments q function ps).Ensures r.Handles
  | [] => ensures_pure .nil
  | p :: rest => by
    unfold listedArguments
    split
    · exact ensures_fail _
    · exact (ensures_any _).bind fun _ _ => (emitArgument_handles _ _).bind fun _ arg =>
        (listedArguments_handles q function rest).bind fun _ more => ensures_pure (arg.append more)

theorem emitPairs_handles : ∀ pairs : List (String × Json), (emitPairs pairs).Ensures r.Handles
  | [] => ensures_pure .nil
  | (p,v) :: rest => (emitArgument_handles p v).bind fun _ arg =>
      (emitPairs_handles rest).bind fun _ more => ensures_pure (arg.append more)

theorem tupleArguments_handles (function : String) :
    ∀ (ps : List String) (vs : List Json), (tupleArguments function ps vs).Ensures r.Handles
  | [], _ => ensures_pure .nil
  | _ :: _, [] => ensures_fail _
  | p :: ps, v :: vs => (emitArgument_handles p v).bind fun _ arg =>
      (tupleArguments_handles function ps vs).bind fun _ more => ensures_pure (arg.append more)

theorem presentArguments_handles (q : Query) :
    ∀ ps, (presentArguments q ps).Ensures r.Handles
  | [] => ensures_pure .nil
  | p :: rest => by
    unfold presentArguments
    split
    · exact presentArguments_handles q rest
    · exact (ensures_any _).bind fun _ _ => (emitArgument_handles _ _).bind fun _ arg =>
        (presentArguments_handles q rest).bind fun _ more => ensures_pure (arg.append more)

theorem fireListed_handles (sc : Scope) (q : Query) :
    ∀ names, (fireListed sc q names).Ensures sc.registry.Handles
  | [] => ensures_pure .nil
  | name :: rest => (fire_handles sc name _).bind fun _ fired =>
      (ensures_any _).bind fun _ _ => (listedArguments_handles q name _).bind fun _ args =>
        (fireListed_handles sc q rest).bind fun _ more => ensures_pure (fired.cons (args.append more))

theorem fireTuple_handles (sc : Scope) (n : Nat) (v : Json) :
    (fireTuple sc n v).Ensures sc.registry.Handles :=
  (ensures_any _).bind fun _ _ => (ensures_any _).bind fun _ _ => (ensures_any _).bind fun _ _ =>
    (fire_handles sc _ _).bind fun _ fired => (ensures_any _).bind fun _ _ =>
      (tupleArguments_handles _ _ _).bind fun _ args => ensures_pure (fired.cons args)

theorem fireTuples_handles (sc : Scope) (n : Nat) :
    ∀ items, (fireTuples sc n items).Ensures sc.registry.Handles
  | [] => ensures_pure .nil
  | v :: rest => (fireTuple_handles sc n v).bind fun _ first =>
      (fireTuples_handles sc n rest).bind fun _ more => ensures_pure (first.append more)

theorem fireAll_handles (sc : Scope) (how : Recognition) :
    ∀ names, (fireAll sc how names).Ensures sc.registry.Handles
  | [] => ensures_pure .nil
  | name :: rest => (fire_handles sc name how).bind fun _ fired =>
      (fireAll_handles sc how rest).bind fun _ more => ensures_pure (fired.cons more)

end Invocation

open Invocation

/-- Whichever way recognises an entry, the invocations it makes carry their handles. -/
theorem Recognition.parse_handles (how : Recognition) (sc : Scope) (c : String) (v : Json) :
    (how.parse sc c v).Ensures sc.registry.Handles := by
  cases how with
  | explicitByList =>
    refine (ensures_any _).bind fun q _ => (ensures_any _).bind fun s _ => ?_
    split
    · exact ensures_pure .nil
    · exact (ensures_any _).bind fun _ _ => (ensures_any _).bind fun names _ =>
        fireListed_handles sc q names
  | explicitByName =>
    refine (ensures_any _).bind fun ps _ => (fire_handles sc c _).bind fun φ fired => ?_
    split
    · split
      · exact ensures_fail _
      · exact (emitArgument_handles _ _).bind fun _ arg => ensures_pure (fired.cons arg)
    · split
      · split
        · exact (ensures_any _).bind fun _ _ => (ensures_any _).bind fun _ _ =>
            (emitPairs_handles _).bind fun _ args => ensures_pure (fired.cons args)
        · exact ensures_fail _
      · exact ensures_fail _
  | explicitByTuple =>
    refine (ensures_any _).bind fun t _ => ?_
    split
    · exact fireTuples_handles sc _ _
    · exact fireTuple_handles sc _ _
  | implicitByTuple =>
    exact (ensures_any _).bind fun _ _ => (ensures_any _).bind fun _ _ =>
      (ensures_any _).bind fun _ _ => (ensures_any _).bind fun _ _ =>
        (fireAll_handles sc _ _).bind fun _ fired => (emitPairs_handles _).bind fun _ args =>
          ensures_pure (fired.append args)
  | implicitByValue =>
    refine (ensures_any _).bind fun q _ => ?_
    split
    · exact ensures_pure .nil
    · refine (ensures_any _).bind fun s _ => ?_
      split
      · exact ensures_pure .nil
      · exact ensures_fail _
      · exact (fire_handles sc _ _).bind fun _ fired => (ensures_any _).bind fun _ _ =>
          (presentArguments_handles q _).bind fun _ args => ensures_pure (fired.cons args)
    · exact ensures_fail _

theorem readEntry_handles (sc : Scope) (c : String) (v : Json) :
    (readEntry sc c v).Ensures sc.registry.Handles := by
  intro s out s' ended
  rw [readEntry_ends] at ended
  split at ended
  · cases ended
  · rw [Invocation.parse_ends] at ended
    split at ended
    · cases ended
    · exact Recognition.parse_handles _ sc c v s out s' ended
    · simp only [Option.some.injEq,Prod.mk.injEq] at ended
      rw [← ended.1]
      exact .nil
  · cases read : Shape.reading c v with
    | error err => simp [read] at ended
    | ok fs =>
      simp only [read,ends_lift,Option.some.injEq,Prod.mk.injEq] at ended
      rw [← ended.1]
      exact .of_invoked? (Shape.reading_invoked? read)

theorem readEntries_handles (sc : Scope) : ∀ l : Query, (readEntries sc l).Ensures sc.registry.Handles
  | [] => ensures_pure .nil
  | (c,v) :: rest => (readEntry_handles sc c v).bind fun _ first =>
      (readEntries_handles sc rest).bind fun _ more => ensures_pure (first.append more)

/-- Every invocation a read makes carries the handle the registry gives its function. -/
theorem Query.read_handles {r : Registry} {column : String} {q : Query} {fs : List Filter}
    (read : Query.read r column q = .ok fs) : r.Handles fs := by
  obtain ⟨s,ran⟩ := Query.read_eq_ok_iff.mp read
  exact readEntries_handles (q.scope r column) q {} fs s ran

/-! ### One argument on each parameter column -/

/-- Each name is the column of exactly one filter of the list, and that filter is an argument. -/
def Filter.OneArgumentEach (fs : List Filter) (ps : List String) : Prop :=
  ∀ p ∈ ps, ∃ v, fs.filter (fun f => f.column = p) = [.argument p v]

namespace Filter

theorem length_onColumns_nil (fs : List Filter) : (onColumns fs []).length = 0 := by
  simp [onColumns]

/-- The filters on the columns of a list of distinct names are those on its first name and those
on the others. -/
theorem length_onColumns_cons {p : String} {rest : List String} (fresh : p ∉ rest) :
    ∀ fs : List Filter, (onColumns fs (p :: rest)).length =
      (fs.filter (fun f => f.column = p)).length + (onColumns fs rest).length
  | [] => by simp [onColumns]
  | f :: more => by
    have split := length_onColumns_cons fresh more
    simp only [onColumns,List.filter_cons,List.contains_cons] at split ⊢
    by_cases first : f.column = p
    · simp [first,fresh] at split ⊢
      omega
    · by_cases later : f.column ∈ rest <;> simp [first,later] at split ⊢ <;> omega

theorem argument_mem_of_findArgument {fs : List Filter} {p : String} {v : Value}
    (found : findArgument fs p = .ok v) : Filter.argument p v ∈ fs := by
  unfold findArgument at found
  split at found
  · next v' some =>
    obtain ⟨f,member,chosen⟩ := List.exists_of_findSome?_eq_some some
    cases f with
    | argument c w =>
      by_cases same : c = p
      · simp only [same,if_true,Option.some.injEq] at chosen
        simp only [Except.ok.injEq] at found
        rw [← found,← chosen,← same]
        exact member
      · simp [same] at chosen
    | _ => cases chosen
  · cases found

/-- Keeping the filters on some columns keeps the arguments of each of them. -/
theorem findArgument_onColumns {fs : List Filter} {ps : List String} {p : String} (given : p ∈ ps) :
    findArgument (onColumns fs ps) p = findArgument fs p := by
  unfold findArgument onColumns
  congr 1
  induction fs with
  | nil => rfl
  | cons f more ih =>
    by_cases kept : ps.contains f.column = true
    · simp only [List.filter_cons,kept,if_true,List.findSome?_cons,ih]
    · -- a filter off the columns is no argument of the parameter
      rw [List.filter_cons,if_neg kept,ih,List.findSome?_cons]
      cases f with
      | argument c v =>
        have other : c ≠ p := fun same => kept (by simp [column,same,given])
        simp [other]
      | _ => rfl

/-- Names each on one argument and no other filter: as many filters stand on their columns as
there are names. -/
theorem OneArgumentEach.length_onColumns {fs : List Filter} :
    ∀ {ps : List String}, ps.Nodup → OneArgumentEach fs ps → (onColumns fs ps).length = ps.length
  | [], _, _ => length_onColumns_nil fs
  | p :: rest, distinct, one => by
    rw [List.nodup_cons] at distinct
    obtain ⟨v,single⟩ := one p (by simp)
    have more := OneArgumentEach.length_onColumns distinct.2 fun x named => one x (by simp [named])
    rw [length_onColumns_cons distinct.1,single,more]
    simp [Nat.add_comm]

/-- Names each on an argument stand on at least as many filters as there are names. -/
theorem length_le_onColumns {fs : List Filter} :
    ∀ {ps : List String}, ps.Nodup → (∀ p ∈ ps, ∃ v, Filter.argument p v ∈ fs) →
      ps.length ≤ (onColumns fs ps).length
  | [], _, _ => by simp
  | p :: rest, distinct, given => by
    rw [List.nodup_cons] at distinct
    obtain ⟨v,present⟩ := given p (by simp)
    have first : 0 < (fs.filter (fun f => f.column = p)).length :=
      List.length_pos_of_mem (List.mem_filter.mpr ⟨present,by simp [column]⟩)
    have more := length_le_onColumns distinct.2 fun x named => given x (by simp [named])
    rw [length_onColumns_cons distinct.1]
    simp only [List.length_cons]
    omega

/-- Distinct names each on an argument, standing on exactly as many filters as there are names,
stand each on one argument and nothing else. -/
theorem oneArgumentEach_of_length {fs : List Filter} :
    ∀ {ps : List String}, ps.Nodup → (∀ p ∈ ps, ∃ v, Filter.argument p v ∈ fs) →
      (onColumns fs ps).length = ps.length → OneArgumentEach fs ps
  | [], _, _, _ => by simp [OneArgumentEach]
  | p :: rest, distinct, given, exact => by
    rw [List.nodup_cons] at distinct
    have restGiven : ∀ x ∈ rest, ∃ v, Filter.argument x v ∈ fs := fun x named => given x (by simp [named])
    obtain ⟨v,present⟩ := given p (by simp)
    have inFilter : Filter.argument p v ∈ fs.filter (fun f => f.column = p) :=
      List.mem_filter.mpr ⟨present,by simp [column]⟩
    have atLeast := length_le_onColumns distinct.2 restGiven
    rw [length_onColumns_cons distinct.1,List.length_cons] at exact
    have first := List.length_pos_of_mem inFilter
    -- the first name takes one filter and the others exactly theirs
    have one : (fs.filter (fun f => f.column = p)).length = 1 := by omega
    have others := oneArgumentEach_of_length distinct.2 restGiven (by omega)
    intro x named
    rcases List.mem_cons.mp named with rfl | later
    · obtain ⟨f,single⟩ := List.length_eq_one_iff.mp one
      rw [single,List.mem_singleton] at inFilter
      exact ⟨v,by rw [single,← inFilter]⟩
    · exact others x later

end Filter

theorem List.mapM_congr_of_mem {α β ε : Type} {f g : α → Except ε β} :
    ∀ {l : List α}, (∀ x ∈ l, f x = g x) → l.mapM f = l.mapM g
  | [], _ => rfl
  | a :: l, same => by
    simp only [List.mapM_cons,same a (by simp),
      List.mapM_congr_of_mem fun x member => same x (List.mem_cons_of_mem a member)]

theorem List.forall_ok_of_mapM {α β ε : Type} {f : α → Except ε β} :
    ∀ {l : List α} {ys : List β}, l.mapM f = .ok ys → ∀ x ∈ l, ∃ y, f x = .ok y
  | [], _, _, x, member => by simp at member
  | a :: l, ys, mapped, x, member => by
    simp only [List.mapM_cons,Except.bind_eq_ok,pure,Except.pure] at mapped
    obtain ⟨b,first,bs,rest,-⟩ := mapped
    rcases List.mem_cons.mp member with rfl | later
    · exact ⟨b,first⟩
    · exact List.forall_ok_of_mapM rest x later

/-! ### Running a function and applying its invocation -/

namespace Registry

variable {r : Registry} {bodies : List HostBody} {backends : Ranked} {f : String} {fs : List Filter} {t : Target}

/-- A run that succeeds found the function, as many filters on its parameter columns as it has
parameters, and an argument of each parameter among them. -/
theorem execute_eq_ok {t' : Target} (ran : r.execute bodies backends f fs t = .ok t') :
    ∃ e, r.find? f = some e ∧ (Filter.onColumns fs e.parameters).length = e.parameters.length ∧
      ∀ p ∈ e.parameters, ∃ v, Filter.argument p v ∈ fs := by
  unfold Registry.execute at ran
  obtain ⟨e,got,ran⟩ := Except.bind_eq_ok.mp ran
  have found : r.find? f = some e := by
    unfold Registry.get at got
    split at got <;> simp_all
  by_cases count : (Filter.onColumns fs e.parameters).length = e.parameters.length
  · simp only [count,ne_eq,not_true_eq_false,if_false] at ran
    obtain ⟨args,mapped,-⟩ := Except.bind_eq_ok.mp ran
    refine ⟨e,found,count,fun p given => ?_⟩
    obtain ⟨y,taken⟩ := List.forall_ok_of_mapM mapped p given
    obtain ⟨v,argument,-⟩ := Except.bind_eq_ok.mp taken
    exact ⟨v,(List.mem_filter.mp (Filter.argument_mem_of_findArgument argument)).1⟩
  · simp [count,throw,throwThe,MonadExceptOf.throw,bind,Except.bind] at ran

/-- With one argument on each parameter column and nothing else there, and a backend for the
target, running a function is applying its invocation: both take each parameter's first
argument and run the body. -/
theorem execute_eq_applyOne {e : Entry} (found : r.find? f = some e) (distinct : e.parameters.Nodup)
    (one : Filter.OneArgumentEach fs e.parameters) {b : Backend} (accepted : backends.find t = .ok b) :
    r.execute bodies backends f fs t = (applyOne bodies backends r fs (.invocation f ⟨f,e.body⟩) t).map (·.getD t) := by
  have count := one.length_onColumns distinct
  have same : ∀ p ∈ e.parameters,
      (do let v ← Filter.findArgument (Filter.onColumns fs e.parameters) p; pure (p,v)) =
        (do let v ← Filter.findArgument fs p; pure (p,v) : Outcome (String × Value)) :=
    fun p given => by rw [Filter.findArgument_onColumns given]
  unfold Registry.execute applyOne argumentsFor
  have args := List.mapM_congr_of_mem same
  simp only [Registry.get,Registry.parametersFor,found,accepted,bind,Except.bind,Except.map,count,
    ne_eq,not_true_eq_false,if_false] at args ⊢
  rw [args]
  split
  · next err failed => simp [failed]
  · next args taken =>
    simp only [taken]
    cases e.body.run bodies ⟨backends,r,fs⟩ args t <;> rfl

/-- A handle the registry gives is that of the registered function of its name. -/
theorem handle_eq_ok {c : String} {h : Handle} (handled : r.handle c = .ok h) :
    ∃ e, r.find? c = some e ∧ h = ⟨c,e.body⟩ := by
  unfold Registry.handle Registry.get at handled
  split at handled
  · next e found =>
    simp only [Except.map,Except.ok.injEq] at handled
    exact ⟨e,found,by rw [← handled,(find?_eq_some found).2]⟩
  · cases handled

end Registry

/-- Running a function agrees with applying its invocation filter only in part. Running succeeds
only when the query reads into filters on which each parameter of the function is the column of
exactly one filter, an argument, whether or not the filters invoke the function. When the read
filters invoke the function, stand with one argument and nothing else on each parameter column,
and a backend accepts the target, running the function is applying its invocation filter, and
applying the function gives that application with the invocation's prepared values. -/
theorem Engine.execute_agrees_with_apply {en : Engine} (reachable : en.registry.Reachable)
    (f : String) (q : Query) (t : Target) :
    (∀ t', en.execute f q t = .ok t' → ∃ fs e, en.parse q = .ok fs ∧ en.registry.find? f = some e ∧
        Filter.OneArgumentEach fs e.parameters) ∧
    ∀ fs h e, en.parse q = .ok fs → Filter.invocation f h ∈ fs → en.registry.find? f = some e →
      Filter.OneArgumentEach fs e.parameters → (∃ b, en.backends.find t = .ok b) →
      en.execute f q t = en.applyFilter (.invocation f h) t fs ∧
      en.applyFunction f q t = (do
        let applied ← en.applyFilter (.invocation f h) t fs
        let prepared ← en.preparedValue (.invocation f h) t fs
        pure (applied,prepared)) := by
  have wf := reachable.wellFormed
  refine ⟨fun t' ran => ?_,fun fs h e read member found one accepted => ?_⟩
  · obtain ⟨fs,read,ran⟩ := Except.bind_eq_ok.mp ran
    obtain ⟨e,found,count,given⟩ := Registry.execute_eq_ok ran
    have entry := (Registry.find?_eq_some found).1
    exact ⟨fs,e,read,found,Filter.oneArgumentEach_of_length (wf.parametersNodup e entry) given count⟩
  · obtain ⟨b,accepted⟩ := accepted
    have handles := Query.read_handles read
    -- the invocation carries the registered function's handle
    obtain ⟨e',found',rfl⟩ := Registry.handle_eq_ok (handles f h member)
    obtain rfl : e = e' := Option.some.inj (found.symm.trans found')
    have entry := (Registry.find?_eq_some found).1
    have run : en.registry.execute en.bodies en.backends f fs t = en.applyFilter (.invocation f ⟨f,e.body⟩) t fs :=
      Registry.execute_eq_applyOne found (wf.parametersNodup e entry) one accepted
    have executes : en.execute f q t = en.applyFilter (.invocation f ⟨f,e.body⟩) t fs := by
      simp only [Engine.execute,read,bind,Except.bind]
      exact run
    refine ⟨executes,?_⟩
    unfold Engine.applyFunction
    simp only [read,bind,Except.bind,run]
    -- the search for the function's invocation stops at the one in the filters
    rw [handles.find?_invocation (by intro x; cases x <;> simp) (by simp) member]

/-- A function listed in the function column with both its parameters as columns: running it
is applying its invocation. -/
theorem Engine.execute_agrees_with_apply_listed :
    let en : Engine := ⟨"F",⟨⟨[⟨"f",["a","b"],.host 0,[]⟩]⟩,[("a","f"),("b","f")]⟩,({} : Ranked).add .sql 100,
      [HostBody.keep]⟩
    let q : Query := [("F",.arr [.str "f"]),("a",.int 1),("b",.int 2)]
    let t : Target := .sql "SELECT * FROM t"
    let φ : Filter := .invocation "f" ⟨"f",.host 0⟩
    let fs : List Filter := [φ,.argument "a" (.raw (.int 1)),.argument "b" (.raw (.int 2))]
    en.execute "f" q t = en.applyFilter φ t fs ∧
      en.applyFunction "f" q t = (do
        let applied ← en.applyFilter φ t fs
        let prepared ← en.preparedValue φ t fs
        pure (applied,prepared)) :=
  (Engine.execute_agrees_with_apply (@Registry.Reachable.register {} _ "f" ["a","b"] (.host 0) [] .empty rfl) "f"
    [("F",.arr [.str "f"]),("a",.int 1),("b",.int 2)] (.sql "SELECT * FROM t")).2
    [.invocation "f" ⟨"f",.host 0⟩,.argument "a" (.raw (.int 1)),.argument "b" (.raw (.int 2))]
    ⟨"f",.host 0⟩ ⟨"f",["a","b"],.host 0,[]⟩ (by with_unfolding_all rfl) (by simp) rfl
    (by
      intro p named
      simp only [List.mem_cons,List.not_mem_nil,or_false] at named
      rcases named with rfl | rfl
      · exact ⟨.raw (.int 1),by with_unfolding_all rfl⟩
      · exact ⟨.raw (.int 2),by with_unfolding_all rfl⟩)
    ⟨.sql,rfl⟩

/-- Where running a function and applying its invocation part: an ordinary filter on a parameter
column makes running fail while applying succeeds; an argument made by its filter word lets
running succeed with no invocation read, so that applying the function finds none; and a target
no backend accepts is run on but cannot be applied to. -/
theorem Engine.execute_apply_divergences :
    let t : Target := .sql "SELECT * FROM t"
    let sql : Ranked := ({} : Ranked).add .sql 100
    let named : Engine := ⟨"F",⟨⟨[⟨"fullName",["firstName","surname"],.host 0,[]⟩]⟩,
      [("firstName","fullName"),("surname","fullName")]⟩,sql,[HostBody.keep]⟩
    let single : Engine := ⟨"F",⟨⟨[⟨"f",["p"],.host 0,[]⟩]⟩,[("p","f")]⟩,sql,[HostBody.keep]⟩
    let bare : Engine := { single with backends := {} }
    let read : List Filter := [.invocation "fullName" ⟨"fullName",.host 0⟩,
      .argument "firstName" (.raw (.str "Jon")),.argument "surname" (.raw (.str "Snow")),
      .comparison "firstName" .eq (.raw (.str "Arya")) none]
    (named.parse [("fullName",.str "(Jon, Snow)"),("firstName",.str "Arya")] = .ok read ∧
      named.execute "fullName" [("fullName",.str "(Jon, Snow)"),("firstName",.str "Arya")] t =
        .error (.argumentCount 3 2) ∧
      named.applyFilter (.invocation "fullName" ⟨"fullName",.host 0⟩) t read = .ok t) ∧
    (single.parse [("p[function_parameter]",.int 1)] = .ok [.argument "p" (.raw (.int 1))] ∧
      single.execute "f" [("p[function_parameter]",.int 1)] t = .ok t ∧
      single.applyFunction "f" [("p[function_parameter]",.int 1)] t = .error (.notInQuery "f")) ∧
    (bare.parse [("f",.int 1)] = .ok [.invocation "f" ⟨"f",.host 0⟩,.argument "p" (.raw (.int 1))] ∧
      bare.execute "f" [("f",.int 1)] t = .ok t ∧
      bare.applyFilter (.invocation "f" ⟨"f",.host 0⟩) t
        [.invocation "f" ⟨"f",.host 0⟩,.argument "p" (.raw (.int 1))] =
          .error (.unsupportedTarget "alloc::string::String")) :=
  ⟨⟨by with_unfolding_all rfl,by with_unfolding_all rfl,by with_unfolding_all rfl⟩,
    ⟨by with_unfolding_all rfl,by with_unfolding_all rfl,by with_unfolding_all rfl⟩,
    ⟨by with_unfolding_all rfl,by with_unfolding_all rfl,by with_unfolding_all rfl⟩⟩

end QueryFilters
