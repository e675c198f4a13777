import QueryFilters.Engine
import QueryFilters.Proofs.Dispatch

/-!
Registration with the index of parameter owners. A registration checks everything before its
first change, so a refused one leaves the functions exactly as they were. The index and the
parameter lists stay in step: the index gives a parameter name to a function exactly when the
function has that parameter. Under that invariant the index answers the ownership question the
way the parameter lists do, so a registration on the functions does to the registry what
`Registry.register` does, and every registry the engine's calls build is well formed.
-/
namespace QueryFilters

namespace Keyed

theorem get?_foldl_put {α : Type} (v : α) (k : String) :
    ∀ (ks : List String) (m : List (String × α)),
      get? k (ks.foldl (fun m j => put j v m) m) = if k ∈ ks then some v else get? k m
  | [], m => by simp
  | j :: rest, m => by
    rw [List.foldl_cons,get?_foldl_put v k rest]
    by_cases same : k = j
    · subst same
      simp
    · simp [same,get?_put_ne same]

theorem nodup_keys_put {α : Type} (k : String) (v : α) {m : List (String × α)}
    (distinct : (m.map Prod.fst).Nodup) : ((put k v m).map Prod.fst).Nodup := by
  have keys := keys_put k v m
  simp only [Keyed.keys] at keys
  rw [keys]
  by_cases present : k ∈ m.map Prod.fst
  · simpa [present] using distinct
  · simp only [present,if_false]
    refine List.nodup_append.mpr ⟨distinct,List.nodup_singleton k,?_⟩
    intro a named b same
    simp only [List.mem_singleton] at same
    subst same
    exact fun equal => present (equal ▸ named)

theorem nodup_keys_foldl_put {α : Type} (v : α) :
    ∀ (ks : List String) {m : List (String × α)}, (m.map Prod.fst).Nodup →
      ((ks.foldl (fun m j => put j v m) m).map Prod.fst).Nodup
  | [], _, distinct => distinct
  | j :: rest, _, distinct => nodup_keys_foldl_put v rest (nodup_keys_put j v distinct)

/-- With distinct keys, dropping the pairs of one value drops exactly the lookups that gave it. -/
theorem get?_filter_value {k n : String} :
    ∀ {m : List (String × String)}, (m.map Prod.fst).Nodup →
      get? k (m.filter (·.2 != n)) = (get? k m).filter (· != n)
  | [], _ => rfl
  | (k',v) :: rest, distinct => by
    simp only [List.map_cons,List.nodup_cons] at distinct
    have more := get?_filter_value (k := k) (n := n) distinct.2
    by_cases same : k' = k
    · subst same
      -- the key is not in the rest, so what the filter keeps of the rest cannot answer
      have absent : k' ∉ (rest.filter (·.2 != n)).map Prod.fst := fun named =>
        distinct.1 (((List.filter_sublist).map Prod.fst).subset named)
      by_cases kept : v = n
      · simp [kept,get?,get?_eq_none absent,Option.filter_some]
      · simp [kept,get?,Option.filter_some]
    · by_cases kept : v = n <;> simp [kept,get?,same,more]

end Keyed

namespace Registry

/-- What placing a function leaves: the function, and the functions of other names. -/
theorem mem_place {r : Registry} {e x : Entry} :
    x ∈ (r.place e).entries ↔ x = e ∨ x ∈ r.entries ∧ x.name ≠ e.name := by
  unfold place
  split
  · next registered =>
    obtain ⟨old,oldMember,oldName⟩ := isRegistered_iff.mp registered
    simp only [List.mem_map]
    constructor
    · rintro ⟨y,member,rfl⟩
      by_cases named : y.name = e.name <;> simp [named,member]
    · rintro (rfl | ⟨member,other⟩)
      · exact ⟨old,oldMember,by simp [oldName]⟩
      · exact ⟨x,member,by simp [other]⟩
  · next unregistered =>
    have fresh : ∀ y ∈ r.entries, y.name ≠ e.name := fun y member same =>
      unregistered (isRegistered_iff.mpr ⟨y,member,same⟩)
    simp only [List.mem_append,List.mem_singleton]
    constructor
    · rintro (member | rfl)
      · exact .inr ⟨member,fresh x member⟩
      · exact .inl rfl
    · rintro (rfl | ⟨member,-⟩)
      · exact .inr rfl
      · exact .inl member

/-- Placing a function changes no position: the function of its name is replaced where it
stands, every other function keeps its place. -/
theorem getElem?_place {r : Registry} {e x : Entry} {i : Nat} (at_i : r.entries[i]? = some x) :
    (r.place e).entries[i]? = some (if x.name = e.name then e else x) := by
  unfold place
  split
  · simp [at_i]
  · next unregistered =>
    have fresh : x.name ≠ e.name := fun same =>
      unregistered (isRegistered_iff.mpr ⟨x,List.mem_of_getElem? at_i,same⟩)
    have inside : i < r.entries.length := (List.getElem?_eq_some_iff.mp at_i).1
    simp [List.getElem?_append_left inside,at_i,fresh]

/-- A function new to the registry goes last. -/
theorem place_of_unregistered {r : Registry} {e : Entry} (fresh : r.isRegistered e.name = false) :
    (r.place e).entries = r.entries ++ [e] := by
  simp [place,fresh]

/-- A registered function is replaced in place: the number of functions stays. -/
theorem length_place_of_registered {r : Registry} {e : Entry} (registered : r.isRegistered e.name = true) :
    (r.place e).entries.length = r.entries.length := by
  simp [place,registered]

theorem owner?_eq_some {r : Registry} {p o : String} (owned : r.owner? p = some o) :
    ∃ e ∈ r.entries, e.name = o ∧ p ∈ e.parameters := by
  simp only [owner?,Option.map_eq_some_iff] at owned
  obtain ⟨e,found,rfl⟩ := owned
  exact ⟨e,List.mem_of_find?_eq_some found,rfl,by simpa using List.find?_some found⟩

/-- A registration finds no conflict exactly when its parameters are distinct and each belongs
to no function or to the function itself. -/
theorem conflict?_eq_none_iff_free {r : Registry} (wf : r.WellFormed) {name : String}
    {ps : List String} :
    r.conflict? name ps [] = none ↔
      ps.Nodup ∧ ¬ ∃ p ∈ ps, ∃ e ∈ r.entries, e.name ≠ name ∧ p ∈ e.parameters := by
  rw [conflict?_eq_none_iff]
  constructor
  · rintro ⟨owners,nodup,-⟩
    refine ⟨nodup,?_⟩
    rintro ⟨p,given,e,member,other,owned⟩
    exact other (owners p given e.name (owner?_of_mem wf member owned))
  · rintro ⟨nodup,free⟩
    refine ⟨fun p given o owned => ?_,nodup,by simp⟩
    obtain ⟨e,member,rfl,has⟩ := owner?_eq_some owned
    by_contra other
    exact free ⟨p,given,e,member,other,has⟩

end Registry

namespace Functions

/-! ### Runs of a registration -/

section Run
variable (name : String) (ps : List String) (body : Body) (defs : List Parameter) (fs : Functions)

/-- A registration checks the name, the parameters and their owners, and only then forgets the
function's former parameters in the index, gives it the new ones and places the function. -/
theorem register_run :
    (register name ps body defs).run fs =
      if name = "" then .error .unnamedFunction fs
      else if ps = [] then .error (.noParameters name) fs
      else match fs.conflict? name ps [] with
        | some (p,o) => .error (.parameterTaken p o) fs
        | none => .ok () ⟨fs.registry.place ⟨name,ps,body,defs⟩,
            ps.foldl (fun m p => Keyed.put p name m) (fs.owners.filter (·.2 != name))⟩ := by
  by_cases unnamed : name = ""
  · subst unnamed
    rfl
  by_cases empty : ps = []
  · subst empty
    simp only [register,unnamed,if_false,if_true,String.isEmpty_iff,List.isEmpty_nil]
    rfl
  simp only [register,unnamed,empty,if_false,String.isEmpty_iff,List.isEmpty_iff,EStateM.run_bind,
    EStateM.run_get]
  cases fs.conflict? name ps [] with
  | some po => rfl
  | none => rfl

variable {name ps body defs fs}

/-- A refused registration leaves the functions as they were, and one of its checks failed. -/
theorem register_run_error {err : FilterError} {fs' : Functions}
    (refused : (register name ps body defs).run fs = .error err fs') :
    fs' = fs ∧ (name = "" ∨ ps = [] ∨ fs.conflict? name ps [] ≠ none) := by
  rw [register_run] at refused
  by_cases unnamed : name = ""
  · simp only [unnamed,if_true,EStateM.Result.error.injEq] at refused
    exact ⟨refused.2.symm,.inl unnamed⟩
  by_cases empty : ps = []
  · simp only [unnamed,empty,if_true,if_false,EStateM.Result.error.injEq] at refused
    exact ⟨refused.2.symm,.inr (.inl empty)⟩
  simp only [unnamed,empty,if_false] at refused
  cases found : fs.conflict? name ps [] with
  | none => simp [found] at refused
  | some po =>
    simp only [found,EStateM.Result.error.injEq] at refused
    exact ⟨refused.2.symm,.inr (.inr (by simp))⟩

/-- An accepted registration passed its checks and made its three changes. -/
theorem register_run_ok {u : Unit} {fs' : Functions}
    (accepted : (register name ps body defs).run fs = .ok u fs') :
    name ≠ "" ∧ ps ≠ [] ∧ fs.conflict? name ps [] = none ∧
      fs'.registry = fs.registry.place ⟨name,ps,body,defs⟩ ∧
      fs'.owners = ps.foldl (fun m p => Keyed.put p name m) (fs.owners.filter (·.2 != name)) := by
  rw [register_run] at accepted
  by_cases unnamed : name = ""
  · simp [unnamed] at accepted
  by_cases empty : ps = []
  · simp [unnamed,empty] at accepted
  simp only [unnamed,empty,if_false] at accepted
  cases found : fs.conflict? name ps [] with
  | some po => simp [found] at accepted
  | none =>
    simp only [found,EStateM.Result.ok.injEq] at accepted
    obtain ⟨-,rfl⟩ := accepted
    exact ⟨unnamed,empty,rfl,rfl,rfl⟩

/-- A registration is accepted exactly when all of its checks pass. -/
theorem register_accepted_iff :
    (∃ fs', (register name ps body defs).run fs = .ok () fs') ↔
      name ≠ "" ∧ ps ≠ [] ∧ fs.conflict? name ps [] = none := by
  constructor
  · rintro ⟨fs',accepted⟩
    obtain ⟨named,some,free,-,-⟩ := register_run_ok accepted
    exact ⟨named,some,free⟩
  · rintro ⟨named,some,free⟩
    rw [register_run]
    simp [named,some,free]

/-- A registration is refused exactly when one of its checks fails. -/
theorem register_refused_iff :
    (∃ err fs', (register name ps body defs).run fs = .error err fs') ↔
      name = "" ∨ ps = [] ∨ fs.conflict? name ps [] ≠ none := by
  -- a run that is not accepted is refused
  have refused_iff : (∃ err fs', (register name ps body defs).run fs = .error err fs') ↔
      ¬ ∃ fs', (register name ps body defs).run fs = .ok () fs' := by
    cases (register name ps body defs).run fs <;> simp
  rw [refused_iff,register_accepted_iff,not_and_or,not_and_or,not_not,not_not]

end Run

/-! ### The index invariant -/

/-- The index agrees with the parameter lists: its keys are distinct, and it gives a parameter
name to a function exactly when that function has the parameter. -/
structure Indexed (fs : Functions) : Prop where
  keysNodup : (fs.owners.map Prod.fst).Nodup
  owner_iff : ∀ p n, Keyed.get? p fs.owners = some n ↔
    ∃ e ∈ fs.registry.entries, e.name = n ∧ p ∈ e.parameters

theorem indexed_empty : ({} : Functions).Indexed :=
  ⟨by simp,by simp [Keyed.get?]⟩

section Invariant
variable {fs : Functions} (wf : fs.registry.WellFormed) (indexed : fs.Indexed)
include wf indexed

/-- The index names the owner the parameter lists name. -/
theorem Indexed.get?_eq_owner? (p : String) : Keyed.get? p fs.owners = fs.registry.owner? p := by
  cases found : Keyed.get? p fs.owners with
  | some n =>
    obtain ⟨e,member,rfl,owned⟩ := (indexed.owner_iff p n).mp found
    exact (Registry.owner?_of_mem wf member owned).symm
  | none =>
    refine (Registry.owner?_eq_none fun e member owned => ?_).symm
    have named := (indexed.owner_iff p e.name).mpr ⟨e,member,rfl,owned⟩
    simp [found] at named

/-- The check against the index finds the conflict the check against the registry finds. -/
theorem Indexed.conflict?_eq (name : String) :
    ∀ ps seen, fs.conflict? name ps seen = fs.registry.conflict? name ps seen
  | [], _ => rfl
  | p :: rest, seen => by
    have more := Indexed.conflict?_eq name rest (p :: seen)
    simp only [conflict?,Registry.conflict?,indexed.get?_eq_owner? wf p]
    cases fs.registry.owner? p with
    | none => simp [more]
    | some o => by_cases same : o = name <;> simp [same,more,Option.filter_some]

variable {name : String} {ps : List String} {body : Body} {defs : List Parameter} {u : Unit}
  {fs' : Functions} (accepted : (register name ps body defs).run fs = .ok u fs')
include accepted

/-- A registration on the functions does to the registry what `Registry.register` does. -/
theorem Indexed.register_registry : fs.registry.register name ps body defs = .ok fs'.registry := by
  obtain ⟨named,some,free,registry,-⟩ := register_run_ok accepted
  rw [indexed.conflict?_eq wf] at free
  rw [registry]
  unfold Registry.register Registry.place
  simp only [named,some,free,String.isEmpty_iff,List.isEmpty_iff,if_false]
  split <;> rfl

/-- A registration keeps the index in step with the parameter lists: it gives the new parameters
to the function and keeps the others' owners. -/
theorem Indexed.register : fs'.Indexed := by
  obtain ⟨named,some,free,registry,owners⟩ := register_run_ok accepted
  rw [indexed.conflict?_eq wf] at free
  obtain ⟨ownersFree,-,-⟩ := Registry.conflict?_eq_none_iff.mp free
  have distinct : ((fs.owners.filter (·.2 != name)).map Prod.fst).Nodup :=
    (List.filter_sublist.map Prod.fst).nodup indexed.keysNodup
  refine ⟨owners ▸ Keyed.nodup_keys_foldl_put name ps distinct,fun p n => ?_⟩
  rw [owners,registry,Keyed.get?_foldl_put,Keyed.get?_filter_value indexed.keysNodup]
  simp only [Registry.mem_place]
  by_cases given : p ∈ ps
  · -- a new parameter was free or the function's own, so only the new entry has it now
    simp only [given,if_true,Option.some.injEq]
    constructor
    · rintro rfl
      exact ⟨⟨name,ps,body,defs⟩,.inl rfl,rfl,given⟩
    · rintro ⟨e,(rfl | ⟨member,other⟩),rfl,owned⟩
      · rfl
      · exact absurd (ownersFree p given e.name (Registry.owner?_of_mem wf member owned)) other
  · simp only [given,if_false,Option.filter_eq_some_iff,indexed.owner_iff,bne_iff_ne]
    constructor
    · rintro ⟨⟨e,member,rfl,owned⟩,other⟩
      exact ⟨e,.inr ⟨member,other⟩,rfl,owned⟩
    · rintro ⟨e,(rfl | ⟨member,other⟩),rfl,owned⟩
      · exact absurd owned given
      · exact ⟨⟨e,member,rfl,owned⟩,other⟩

end Invariant

/-! ### Reachable functions -/

/-- The functions built from none by registrations. A refused registration leaves the functions
as they were, so counting only accepted ones loses nothing. -/
inductive Reachable : Functions → Prop
  | empty : Reachable {}
  | register {fs fs' : Functions} {name : String} {parameters : List String} {body : Body}
      {definitions : List Parameter} :
      Reachable fs → (Functions.register name parameters body definitions).run fs = .ok () fs' →
        Reachable fs'

/-- Reachable functions have a reachable registry and an index in step with it. -/
theorem Reachable.invariant {fs : Functions} (reachable : fs.Reachable) :
    fs.registry.Reachable ∧ fs.Indexed := by
  induction reachable with
  | empty => exact ⟨.empty,indexed_empty⟩
  | register _ accepted ih =>
    obtain ⟨registry,indexed⟩ := ih
    have wf := registry.wellFormed
    exact ⟨.register registry (indexed.register_registry wf accepted),indexed.register wf accepted⟩

theorem Reachable.wellFormed {fs : Functions} (reachable : fs.Reachable) : fs.registry.WellFormed :=
  reachable.invariant.1.wellFormed

/-- Whatever a registration answers, the functions it leaves are reachable. -/
theorem Reachable.run_register {fs : Functions} (reachable : fs.Reachable) (name : String)
    (ps : List String) (body : Body) (defs : List Parameter) :
    match (Functions.register name ps body defs).run fs with
    | .ok _ fs' => fs'.Reachable
    | .error _ fs' => fs'.Reachable := by
  cases run : (Functions.register name ps body defs).run fs with
  | ok u fs' => exact .register reachable run
  | error err fs' => exact (register_run_error run).1 ▸ reachable

section Accepted
variable {fs fs' : Functions} (reachable : fs.Reachable) {name : String} {ps : List String}
  {body : Body} {defs : List Parameter}
  (accepted : (Functions.register name ps body defs).run fs = .ok () fs')
include reachable accepted

/-- After a registration, the function's name finds exactly the registered function. -/
theorem Reachable.find?_register : fs'.registry.find? name = some ⟨name,ps,body,defs⟩ := by
  have wf := (Reachable.register reachable accepted).wellFormed
  obtain ⟨-,-,-,registry,-⟩ := register_run_ok accepted
  have member : (⟨name,ps,body,defs⟩ : Entry) ∈ fs'.registry.entries := by
    rw [registry]
    exact Registry.mem_place.mpr (.inl rfl)
  exact Registry.find?_of_mem wf member

/-- A parameter the function had and no longer has belongs to nobody after the registration, so
any function may take it. -/
theorem Reachable.register_released {p : String}
    (owned : ∃ e ∈ fs.registry.entries, e.name = name ∧ p ∈ e.parameters) (dropped : p ∉ ps)
    {other : String} (named : other ≠ "") (body' : Body) (defs' : List Parameter) :
    ∃ fs'', (Functions.register other [p] body' defs').run fs' = .ok () fs'' := by
  obtain ⟨registry',indexed'⟩ := (Reachable.register reachable accepted).invariant
  have wf := reachable.wellFormed
  obtain ⟨-,-,-,registry,-⟩ := register_run_ok accepted
  obtain ⟨e,member,rfl,owns⟩ := owned
  -- the former owner is the only function that had the parameter, and it has it no more
  have free : ∀ x ∈ fs'.registry.entries, p ∉ x.parameters := by
    intro x member' has
    rw [registry,Registry.mem_place] at member'
    rcases member' with rfl | ⟨old,renamed⟩
    · exact dropped has
    · have same := wf.ownerUnique x old e member p has owns
      exact renamed (by rw [same])
  have none : fs'.conflict? other [p] [] = none := by
    rw [indexed'.conflict?_eq registry'.wellFormed]
    simp [Registry.conflict?,Registry.owner?_eq_none free]
  exact register_accepted_iff.mpr ⟨named,List.cons_ne_nil p [],none⟩

end Accepted

end Functions


/-! ### The engine's registrations -/

theorem Engine.onFunctions_run {α : Type} (m : FunctionsM α) (e : Engine) :
    (Engine.onFunctions m).run e = match m.run e.functions with
      | .ok a fs => .ok a { e with functions := fs }
      | .error err fs => .error err { e with functions := fs } := rfl

/-- Registering a body the host wrote registers the function under the next key; the engine
keeps the body only when the function is registered. -/
theorem Engine.registerBody_run (name : String) (ps : List String) (body : HostBody) (e : Engine) :
    (Engine.registerBody name ps body).run e =
      match (Functions.register name ps (.host e.bodies.length) []).run e.functions with
      | .ok _ fs => .ok () { e with functions := fs, bodies := e.bodies ++ [body] }
      | .error err fs => .error err { e with functions := fs } := by
  unfold Engine.registerBody
  simp only [EStateM.run_bind,EStateM.run_get,Engine.onFunctions_run]
  cases (Functions.register name ps (.host e.bodies.length) []).run e.functions <;> rfl

/-- Declaring reads the descriptors, and only with their definitions registers the function. -/
theorem Engine.declare_run (name : String) (descriptors : List Descriptor) (e : Engine) :
    (Engine.declare name descriptors).run e = match Parameter.normalize descriptors with
      | .ok defs => (Engine.onFunctions
          (Functions.register name (Parameter.requiredNames defs) (.declared defs) defs)).run e
      | .error err => .error err e := by
  unfold Engine.declare
  cases Parameter.normalize descriptors <;> rfl

section Declare
variable {name : String} {descriptors : List Descriptor} {e e' : Engine}

/-- A refused declaration leaves the engine as it was: its descriptors or its registration were
refused. -/
theorem Engine.declare_refused {err : FilterError}
    (refused : (Engine.declare name descriptors).run e = .error err e') :
    e' = e ∧ (Parameter.normalize descriptors = .error err ∨
      ∃ defs, Parameter.normalize descriptors = .ok defs ∧ ∃ fs',
        (Functions.register name (Parameter.requiredNames defs) (.declared defs) defs).run e.functions =
          .error err fs') := by
  rw [Engine.declare_run] at refused
  cases normalized : Parameter.normalize descriptors with
  | error failure =>
    simp only [normalized,EStateM.Result.error.injEq] at refused
    obtain ⟨rfl,rfl⟩ := refused
    exact ⟨rfl,.inl rfl⟩
  | ok defs =>
    simp only [normalized,Engine.onFunctions_run] at refused
    cases run : (Functions.register name (Parameter.requiredNames defs) (.declared defs) defs).run
        e.functions with
    | ok u fs => simp [run] at refused
    | error failure fs =>
      simp only [run,EStateM.Result.error.injEq] at refused
      obtain ⟨rfl,rfl⟩ := refused
      obtain ⟨rfl,-⟩ := Functions.register_run_error run
      exact ⟨rfl,.inr ⟨defs,rfl,_,run⟩⟩

/-- An accepted declaration is the registration of the function under its normalized
definitions, with the parameters that have no default; nothing else of the engine changes. -/
theorem Engine.declare_accepted {u : Unit} (accepted : (Engine.declare name descriptors).run e = .ok u e') :
    ∃ defs, Parameter.normalize descriptors = .ok defs ∧
      (Functions.register name (Parameter.requiredNames defs) (.declared defs) defs).run e.functions =
        .ok () e'.functions ∧ e'.functionColumn = e.functionColumn ∧ e'.backends = e.backends := by
  rw [Engine.declare_run] at accepted
  cases normalized : Parameter.normalize descriptors with
  | error failure => simp [normalized] at accepted
  | ok defs =>
    simp only [normalized,Engine.onFunctions_run] at accepted
    cases run : (Functions.register name (Parameter.requiredNames defs) (.declared defs) defs).run
        e.functions with
    | error failure fs => simp [run] at accepted
    | ok v fs =>
      simp only [run,EStateM.Result.ok.injEq] at accepted
      obtain ⟨-,rfl⟩ := accepted
      exact ⟨defs,rfl,run,rfl,rfl⟩

end Declare

/-- A call that registers a function: on the functions themselves, on an engine with a body the
host wrote, or on an engine from parameter descriptors. -/
inductive Registration where
  | functions (name : String) (parameters : List String) (body : Body) (definitions : List Parameter)
  | withBody (name : String) (parameters : List String) (body : HostBody)
  | declared (name : String) (descriptors : List Descriptor)

namespace Registration

/-- The call as a change of an engine. -/
def run : Registration → EngineM Unit
  | .functions name ps body defs => Engine.onFunctions (Functions.register name ps body defs)
  | .withBody name ps body => Engine.registerBody name ps body
  | .declared name descriptors => Engine.declare name descriptors

/-- The engine a call leaves, whether it succeeds or fails. -/
def after (c : Registration) (e : Engine) : Engine :=
  match c.run.run e with
  | .ok _ e' => e'
  | .error _ e' => e'

/-- The engine after calls in order. -/
def runAll (e : Engine) (calls : List Registration) : Engine :=
  calls.foldl (fun e c => c.after e) e

/-- Each call registers on the engine's functions or is refused before any change, so it
leaves reachable functions. -/
theorem reachable_after (c : Registration) {e : Engine} (reachable : e.functions.Reachable) :
    (c.after e).functions.Reachable := by
  have registered : ∀ name ps body defs, ((functions name ps body defs).after e).functions.Reachable := by
    intro name ps body defs
    have leaves := reachable.run_register name ps body defs
    unfold after run
    rw [Engine.onFunctions_run]
    cases run : (Functions.register name ps body defs).run e.functions <;> simpa [run] using leaves
  cases c with
  | functions name ps body defs => exact registered name ps body defs
  | withBody name ps body =>
    -- the body registers under the next key; only the functions matter here
    have same : ((withBody name ps body).after e).functions =
        ((functions name ps (.host e.bodies.length) []).after e).functions := by
      simp only [after,run,Engine.registerBody_run,Engine.onFunctions_run]
      cases (Functions.register name ps (.host e.bodies.length) []).run e.functions <;> rfl
    exact same ▸ registered name ps _ []
  | declared name descriptors =>
    cases normalized : Parameter.normalize descriptors with
    | ok defs =>
      have same : (declared name descriptors).after e =
          (functions name (Parameter.requiredNames defs) (.declared defs) defs).after e := by
        simp [after,run,Engine.declare,normalized]
      exact same ▸ registered name _ _ defs
    | error err =>
      have same : (declared name descriptors).after e = e := by
        simp only [after,run,Engine.declare_run,normalized]
      rw [same]
      exact reachable

theorem reachable_runAll (calls : List Registration) :
    ∀ {e : Engine}, e.functions.Reachable → (runAll e calls).functions.Reachable := by
  induction calls with
  | nil => exact id
  | cons c rest ih => exact fun reachable => ih (c.reachable_after reachable)

end Registration

/-! ### Lookups on reachable functions -/

@[simp] theorem PassM.run_fail {α : Type} (err : FilterError) (s : PassState) :
    (PassM.fail err : PassM α).run s = .error err s := rfl

theorem presentArguments_ends_isSome (q : Query) :
    ∀ (ps : List String) (s : PassState), ((Invocation.presentArguments q ps).ends s).isSome
  | [], s => by simp [Invocation.presentArguments]
  | p :: rest, s => by
    have more := presentArguments_ends_isSome q rest
    cases given : Keyed.get? p q with
    | none => simpa [Invocation.presentArguments,given] using more s
    | some v =>
      simp only [Invocation.presentArguments,given,PassM.ends_bind,consume_ends,Option.bind_some,
        emitArgument_ends]
      split <;> split <;> simp [Option.isSome_bind,more]

/-- On a well-formed registry, reading an entry as an invocation by its parameters fails only
when the function its columns complete fired already: they complete one function at most, so
the reading never has two functions to choose from. -/
theorem Recognition.implicitByValue_fails {r : Registry} (wf : r.WellFormed) {q : Query}
    {column c : String} {v : Json} {s s' : PassState} {err : FilterError}
    (failed : (Recognition.implicitByValue.parse (q.scope r column) c v).run s = .error err s') :
    err = .multipleCall := by
  have atMost := @Invocation.length_completed_le q r column wf c
  have ended : (Recognition.implicitByValue.parse (q.scope r column) c v).ends s = none := by
    simp [PassM.ends,failed]
  simp only [Recognition.parse,Query.scope_query,PassM.lift,EStateM.run_bind,EStateM.run_pure] at failed
  simp only [Recognition.parse,Query.scope_query,PassM.ends_bind,PassM.ends_lift,Option.bind_some]
    at ended
  generalize completes : Invocation.completed (q.scope r column) q c = names at failed ended atMost
  rcases names with _ | ⟨name,_ | ⟨second,rest⟩⟩
  · simp at failed
  · obtain ⟨e,member,rfl,-,-,-⟩ := (Invocation.mem_completed wf).mp (completes ▸ List.mem_singleton_self _)
    cases fired : s.firedBy e.name with
    | some how => cases how <;> simp_all
    | none =>
      -- a function not fired yet fires, and its present arguments are always read
      exfalso
      have wfScope : (q.scope r column).registry.WellFormed := wf
      have reads := presentArguments_ends_isSome q e.parameters
        (s.extend ⟨[(e.name,.implicitByValue)],[],[]⟩)
      simp only [PassM.ends_bind,PassM.ends_get,Option.bind_some,fired,
        fire_ends_of_mem wfScope member (PassState.firedBy_eq_none.mp fired),Query.scope_registry,
        Registry.parametersFor_of_mem wf member,PassM.ends_lift] at ended
      simp only [Option.bind_eq_none_iff,PassM.ends_pure,reduceCtorEq,imp_false,Prod.forall] at ended
      obtain ⟨⟨out,s''⟩,read⟩ := Option.isSome_iff_exists.mp reads
      exact ended out s'' read
  · simp at atMost

/-- Every sequence of registration calls on a new engine, each accepted or refused, leaves
well-formed functions: names distinct and not empty, parameters some and none twice, no
parameter shared by two functions, and an index that gives a parameter name to exactly the
function having it. A parameter name, or a list of parameter names in any order, then points to
one function at most, and reading an entry as an invocation by its parameters fails only when the
function fired already, never for having two functions to choose from. -/
theorem Registration.runAll_registry_invariant (column : String) (calls : List Registration) :
    let fs := (Registration.runAll (Engine.withFunctionColumn column) calls).functions
    fs.registry.WellFormed ∧ fs.Indexed ∧
      (∀ p, (fs.registry.namesByParameter p).length ≤ 1) ∧
      (∀ ps, (fs.registry.namesByAllParameters ps).length ≤ 1) ∧
      ∀ (q : Query) (functionColumn c : String) (v : Json) (s s' : PassState) (err : FilterError),
        (Recognition.implicitByValue.parse (q.scope fs.registry functionColumn) c v).run s =
          .error err s' → err = .multipleCall := by
  intro fs
  have reachable : fs.Reachable := Registration.reachable_runAll calls Functions.Reachable.empty
  have wf := reachable.wellFormed
  exact ⟨wf,reachable.invariant.2,Registry.length_namesByParameter_le wf,
    Registry.length_namesByAllParameters_le wf,
    fun q functionColumn c v s s' err failed => Recognition.implicitByValue_fails wf failed⟩

/-- A host registers `f(a, b)`, is refused `g(a)` since `a` is taken, and declares `h(c)`. A
query that names `a` and `b` completes `f`, and once `f` has been fired another way the column
`b` with its value is refused as a second call. -/
theorem Registration.runAll_registry_invariant_refired :
    let fs := (Registration.runAll (Engine.withFunctionColumn "fun")
      [.withBody "f" ["a", "b"] HostBody.keep, .functions "g" ["a"] (.host 1) [],
        .declared "h" [.bare "c"]]).functions
    let q : Query := [("a", .int 1), ("b", .int 2)]
    let s : PassState := { fired := [("f", .explicitByName)] }
    fs.registry.namesByParameter "a" = ["f"] ∧ fs.registry.namesByParameter "c" = ["h"] ∧
      ∃ err s', (Recognition.implicitByValue.parse (q.scope fs.registry "fun") "b" (.int 2)).run s =
        .error err s' ∧ err = .multipleCall := by
  intro fs q s
  have refused : (Recognition.implicitByValue.parse (q.scope fs.registry "fun") "b" (.int 2)).run s =
      .error .multipleCall s := by
    with_unfolding_all rfl
  exact ⟨by with_unfolding_all rfl, by with_unfolding_all rfl, _, _, refused,
    (Registration.runAll_registry_invariant "fun" _).2.2.2.2 q "fun" "b" (.int 2) s s _ refused⟩

/-- What a registration does on reachable functions. It is refused exactly when the name is
empty, there are no parameters, a parameter repeats, or a parameter belongs to a function of
another name, and refused it leaves the functions as they were. Accepted, the name finds the new
function, every function keeps its position (the function of that name is replaced in its place,
a new one goes last), and a parameter the function gave up is free for any function. A
declaration is refused with the engine unchanged, for its descriptors or for its registration,
or registers the function with the normalized definitions that have no default as parameters. -/
theorem Functions.Reachable.registration_contract {fs : Functions} (reachable : fs.Reachable) :
    (∀ (name : String) (ps : List String) (body : Body) (defs : List Parameter),
      ((∃ err fs', (Functions.register name ps body defs).run fs = .error err fs') ↔
          name = "" ∨ ps = [] ∨ ¬ ps.Nodup ∨
            ∃ p ∈ ps, ∃ e ∈ fs.registry.entries, e.name ≠ name ∧ p ∈ e.parameters) ∧
      (∀ err fs', (Functions.register name ps body defs).run fs = .error err fs' → fs' = fs) ∧
      ∀ fs', (Functions.register name ps body defs).run fs = .ok () fs' →
        fs'.registry.find? name = some ⟨name,ps,body,defs⟩ ∧
        (∀ (i : Nat) (x : Entry), fs.registry.entries[i]? = some x →
          fs'.registry.entries[i]? = some (if x.name = name then ⟨name,ps,body,defs⟩ else x)) ∧
        (fs.registry.isRegistered name = false →
          fs'.registry.entries = fs.registry.entries ++ [⟨name,ps,body,defs⟩]) ∧
        (fs.registry.isRegistered name = true →
          fs'.registry.entries.length = fs.registry.entries.length) ∧
        ∀ p, (∃ e ∈ fs.registry.entries, e.name = name ∧ p ∈ e.parameters) → p ∉ ps →
          ∀ (other : String) (body' : Body) (defs' : List Parameter), other ≠ "" →
            ∃ fs'', (Functions.register other [p] body' defs').run fs' = .ok () fs'') ∧
    ∀ (en : Engine), en.functions = fs → ∀ (name : String) (descriptors : List Descriptor),
      (∀ err en', (Engine.declare name descriptors).run en = .error err en' → en' = en ∧
        (Parameter.normalize descriptors = .error err ∨
          ∃ defs, Parameter.normalize descriptors = .ok defs ∧ ∃ fs',
            (Functions.register name (Parameter.requiredNames defs) (.declared defs) defs).run fs =
              .error err fs')) ∧
      ∀ en', (Engine.declare name descriptors).run en = .ok () en' →
        ∃ defs, Parameter.normalize descriptors = .ok defs ∧
          (Functions.register name (Parameter.requiredNames defs) (.declared defs) defs).run fs =
            .ok () en'.functions ∧
          en'.registry.parametersFor name = .ok (Parameter.requiredNames defs) := by
  obtain ⟨registry,indexed⟩ := reachable.invariant
  have wf := registry.wellFormed
  refine ⟨fun name ps body defs => ⟨?_,?_,?_⟩,fun en same name descriptors => ⟨?_,?_⟩⟩
  · rw [Functions.register_refused_iff,indexed.conflict?_eq wf,Ne,Registry.conflict?_eq_none_iff_free wf,
      not_and_or,not_not]
  · intro err fs' refused
    exact (Functions.register_run_error refused).1
  · intro fs' accepted
    obtain ⟨-,-,-,placed,-⟩ := Functions.register_run_ok accepted
    refine ⟨reachable.find?_register accepted,fun i x at_i => ?_,fun fresh => ?_,fun registered => ?_,
      fun p owned dropped other body' defs' named => reachable.register_released accepted owned dropped named body' defs'⟩
    · rw [placed]
      exact Registry.getElem?_place at_i
    · rw [placed]
      exact Registry.place_of_unregistered fresh
    · rw [placed]
      exact Registry.length_place_of_registered registered
  · intro err en' refused
    obtain ⟨rfl,reason⟩ := Engine.declare_refused refused
    exact ⟨rfl,same ▸ reason⟩
  · intro en' accepted
    obtain ⟨defs,normalized,run,-,-⟩ := Engine.declare_accepted accepted
    rw [same] at run
    have found := reachable.find?_register run
    refine ⟨defs,normalized,run,?_⟩
    simp [Engine.registry,Registry.parametersFor,Registry.get,found,Except.map]

/-- Narrowing a function registered with two parameters to one of them keeps it first and
frees the other. -/
theorem Functions.Reachable.registration_contract_narrowed :
    let fs : Functions := ⟨⟨[⟨"spot",["zone","bucket"],.host 0,[]⟩]⟩,[("zone","spot"),("bucket","spot")]⟩
    ((∃ err fs', (Functions.register "spot" ["zone"] (.host 0) []).run fs = .error err fs') ↔
        "spot" = "" ∨ ["zone"] = [] ∨ ¬ ["zone"].Nodup ∨
          ∃ p ∈ ["zone"], ∃ e ∈ fs.registry.entries, e.name ≠ "spot" ∧ p ∈ e.parameters) ∧
      (∀ err fs', (Functions.register "spot" ["zone"] (.host 0) []).run fs = .error err fs' → fs' = fs) ∧
      ∀ fs', (Functions.register "spot" ["zone"] (.host 0) []).run fs = .ok () fs' →
        fs'.registry.find? "spot" = some ⟨"spot",["zone"],.host 0,[]⟩ ∧
        (∀ (i : Nat) (x : Entry), fs.registry.entries[i]? = some x →
          fs'.registry.entries[i]? = some (if x.name = "spot" then ⟨"spot",["zone"],.host 0,[]⟩ else x)) ∧
        (fs.registry.isRegistered "spot" = false →
          fs'.registry.entries = fs.registry.entries ++ [⟨"spot",["zone"],.host 0,[]⟩]) ∧
        (fs.registry.isRegistered "spot" = true →
          fs'.registry.entries.length = fs.registry.entries.length) ∧
        ∀ p, (∃ e ∈ fs.registry.entries, e.name = "spot" ∧ p ∈ e.parameters) → p ∉ ["zone"] →
          ∀ (other : String) (body' : Body) (defs' : List Parameter), other ≠ "" →
            ∃ fs'', (Functions.register other [p] body' defs').run fs' = .ok () fs'' :=
  (Functions.Reachable.registration_contract
    (@Functions.Reachable.register {} _ "spot" ["zone","bucket"] (.host 0) [] .empty rfl)).1 "spot" ["zone"] (.host 0) []

end QueryFilters
