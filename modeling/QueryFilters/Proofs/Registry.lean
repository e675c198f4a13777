import Mathlib.Data.List.Nodup
import QueryFilters.Function.Registry
import QueryFilters.Tuple.Basic

/-!
The registries that registrations build, and what every one of them satisfies: function names
are distinct and not empty, every function has some parameters, none twice, and a parameter name
belongs to at most one function. A failed registration leaves the registry as it was, so the
registries reachable from the empty one are those of a sequence of successful registrations.
Lookups by name and by parameter then give at most one function.
-/
namespace QueryFilters.Registry

/-- The registries built from the empty one by registrations; declaring a function registers
it too. -/
inductive Reachable : Registry → Prop
  | empty : Reachable {}
  | register {r r' : Registry} {name : String} {parameters : List String} {body : Body}
      {definitions : List Parameter} :
      Reachable r → r.register name parameters body definitions = .ok r' → Reachable r'

/-- What registration keeps true of a registry. -/
structure WellFormed (r : Registry) : Prop where
  namesNodup : (r.entries.map (·.name)).Nodup
  nameNonempty : ∀ e ∈ r.entries, e.name ≠ ""
  parametersNonempty : ∀ e ∈ r.entries, e.parameters ≠ []
  parametersNodup : ∀ e ∈ r.entries, e.parameters.Nodup
  ownerUnique : ∀ x ∈ r.entries, ∀ y ∈ r.entries, ∀ p, p ∈ x.parameters → p ∈ y.parameters → x = y

/-- The function column, the function names and the parameter names are pairwise distinct, and
no parameter name reads as a tuple. -/
structure Separated (r : Registry) (column : String) : Prop where
  columnNotFunction : ∀ e ∈ r.entries, e.name ≠ column
  columnNotParameter : ∀ e ∈ r.entries, column ∉ e.parameters
  functionNotParameter : ∀ e ∈ r.entries, ∀ x ∈ r.entries, e.name ∉ x.parameters
  parameterPlain : ∀ e ∈ r.entries, ∀ p ∈ e.parameters, Tuple.isTupleText p = false

/-- What reading a query with the columns `keys` asks of the registry: the function column, the
function names and the parameter names are pairwise distinct, and no parameter among the columns
reads as a tuple. -/
structure SeparatedOn (r : Registry) (column : String) (keys : List String) : Prop where
  columnNotFunction : ∀ e ∈ r.entries, e.name ≠ column
  columnNotParameter : ∀ e ∈ r.entries, column ∉ e.parameters
  functionNotParameter : ∀ e ∈ r.entries, ∀ x ∈ r.entries, e.name ∉ x.parameters
  parameterPlain : ∀ e ∈ r.entries, ∀ p ∈ e.parameters, p ∈ keys → Tuple.isTupleText p = false

/-- A registry separated from the function column is so for any columns. -/
theorem Separated.on {r : Registry} {column : String} (sep : r.Separated column) (keys : List String) :
    r.SeparatedOn column keys :=
  ⟨sep.columnNotFunction,sep.columnNotParameter,sep.functionNotParameter,
    fun e member p owned _ => sep.parameterPlain e member p owned⟩

/-! ### Lookups -/

theorem find?_eq_some {r : Registry} {name : String} {e : Entry} :
    r.find? name = some e → e ∈ r.entries ∧ e.name = name := by
  intro found
  have member := List.mem_of_find?_eq_some found
  have named := List.find?_some found
  exact ⟨member,by simpa using named⟩

theorem find?_of_mem {r : Registry} (wf : r.WellFormed) {e : Entry} (member : e ∈ r.entries) :
    r.find? e.name = some e := by
  obtain ⟨x,found⟩ : ∃ x, r.find? e.name = some x := by
    cases h : r.find? e.name with
    | some x => exact ⟨x,rfl⟩
    | none =>
      have := List.find?_eq_none.mp h e member
      simp at this
  obtain ⟨xMember,xName⟩ := find?_eq_some found
  have same : x = e := by
    have names := wf.namesNodup
    exact List.inj_on_of_nodup_map names xMember member xName
  rw [found,same]

theorem find?_eq_none_iff {r : Registry} {name : String} :
    r.find? name = none ↔ ∀ e ∈ r.entries, e.name ≠ name := by
  simp [find?,List.find?_eq_none]

theorem isRegistered_iff {r : Registry} {name : String} :
    r.isRegistered name = true ↔ ∃ e ∈ r.entries, e.name = name := by
  simp [isRegistered]

theorem isRegistered_iff_find? {r : Registry} {name : String} :
    r.isRegistered name = true ↔ ∃ e, r.find? name = some e := by
  rw [isRegistered_iff]
  constructor
  · rintro ⟨e,member,rfl⟩
    have some : (r.find? e.name).isSome := List.find?_isSome.mpr ⟨e,member,by simp⟩
    exact Option.isSome_iff_exists.mp some
  · rintro ⟨e,found⟩
    exact ⟨e,find?_eq_some found⟩

theorem owner?_of_mem {r : Registry} (wf : r.WellFormed) {e : Entry} (member : e ∈ r.entries)
    {p : String} (owned : p ∈ e.parameters) : r.owner? p = some e.name := by
  have some : (r.entries.find? (·.parameters.contains p)).isSome :=
    List.find?_isSome.mpr ⟨e,member,by simpa using owned⟩
  obtain ⟨x,found⟩ := Option.isSome_iff_exists.mp some
  have xOwns : p ∈ x.parameters := by simpa using List.find?_some found
  have same := wf.ownerUnique x (List.mem_of_find?_eq_some found) e member p xOwns owned
  simp only [owner?,found,Option.map_some,same]

theorem owner?_eq_none {r : Registry} {p : String} (free : ∀ e ∈ r.entries, p ∉ e.parameters) :
    r.owner? p = none := by
  simp only [owner?,Option.map_eq_none_iff,List.find?_eq_none]
  intro e member
  simpa using free e member

section
variable {r : Registry} (wf : r.WellFormed) {e : Entry} (member : e ∈ r.entries)
include wf member

theorem get_of_mem : r.get e.name = .ok e := by
  simp [get,find?_of_mem wf member]

theorem parametersFor_of_mem : r.parametersFor e.name = .ok e.parameters := by
  simp [parametersFor,get_of_mem wf member,Except.map]

theorem handle_of_mem : r.handle e.name = .ok ⟨e.name,e.body⟩ := by
  simp [handle,get_of_mem wf member,Except.map]

theorem definitionsFor_of_mem : r.definitionsFor e.name = .ok e.definitions := by
  simp [definitionsFor,get_of_mem wf member,Except.map]

private theorem filter_eq_singleton {P : Entry → Bool} (holds : P e = true)
    (only : ∀ x ∈ r.entries, P x = true → x = e) : r.entries.filter P = [e] := by
  have nodup : (r.entries.filter P).Nodup := (wf.namesNodup.of_map _).filter _
  have same : ∀ x, x ∈ r.entries.filter P ↔ x ∈ [e] := by
    intro x
    simp only [List.mem_filter,List.mem_singleton]
    exact ⟨fun ⟨xMember,xHolds⟩ => only x xMember xHolds,by rintro rfl; exact ⟨member,holds⟩⟩
  exact ((List.perm_ext_iff_of_nodup nodup (List.nodup_singleton e)).mpr same).eq_singleton

/-- A parameter of a registered function points to that function alone. -/
theorem namesByParameter_of_mem {p : String} (owned : p ∈ e.parameters) :
    r.namesByParameter p = [e.name] := by
  have only := filter_eq_singleton wf member (P := (·.parameters.contains p)) (by simpa using owned)
    (fun x xMember xOwns => wf.ownerUnique x xMember e member p (by simpa using xOwns) owned)
  simp only [namesByParameter,only,List.map_cons,List.map_nil]

/-- A tuple of exactly the parameters of a registered function, in any order, points to that
function alone. -/
theorem namesByAllParameters_of_perm {columns : List String} (perm : columns.Perm e.parameters) :
    r.namesByAllParameters columns = [e.name] := by
  obtain ⟨p,first⟩ := List.exists_mem_of_ne_nil _ (wf.parametersNonempty e member)
  have only := filter_eq_singleton wf member (P := (·.parameters.isPerm columns))
    (List.isPerm_iff.mpr perm.symm)
    (fun x xMember xPerm => by
      have xOwns : p ∈ x.parameters := ((List.isPerm_iff.mp xPerm).trans perm).mem_iff.mpr first
      exact wf.ownerUnique x xMember e member p xOwns first)
  simp only [namesByAllParameters,only,List.map_cons,List.map_nil]

end

theorem namesByParameter_eq_nil {r : Registry} {p : String}
    (free : ∀ e ∈ r.entries, p ∉ e.parameters) : r.namesByParameter p = [] := by
  simp only [namesByParameter,List.map_eq_nil_iff,List.filter_eq_nil_iff]
  intro e member
  simpa using free e member

theorem namesByAllParameters_eq_nil {r : Registry} {columns : List String}
    (none : ∀ e ∈ r.entries, ¬ columns.Perm e.parameters) : r.namesByAllParameters columns = [] := by
  simp only [namesByAllParameters,List.map_eq_nil_iff,List.filter_eq_nil_iff]
  intro e member
  simpa [List.isPerm_iff] using fun perm => none e member perm.symm

/-- A parameter name points to one function at most. -/
theorem length_namesByParameter_le {r : Registry} (wf : r.WellFormed) (p : String) :
    (r.namesByParameter p).length ≤ 1 := by
  by_cases owned : ∃ e ∈ r.entries, p ∈ e.parameters
  · obtain ⟨e,member,owns⟩ := owned
    simp [namesByParameter_of_mem wf member owns]
  · simp only [not_exists,not_and] at owned
    simp [namesByParameter_eq_nil owned]

/-- A list of parameter names, in any order, points to one function at most. -/
theorem length_namesByAllParameters_le {r : Registry} (wf : r.WellFormed) (columns : List String) :
    (r.namesByAllParameters columns).length ≤ 1 := by
  by_cases some : ∃ e ∈ r.entries, columns.Perm e.parameters
  · obtain ⟨e,member,perm⟩ := some
    simp [namesByAllParameters_of_perm wf member perm]
  · simp only [not_exists,not_and] at some
    simp [namesByAllParameters_eq_nil some]

/-! ### Registration keeps the registry well formed -/

/-- No conflict means: every parameter is free or already the function's own, none is named
twice, and none was seen before. -/
theorem conflict?_eq_none_iff {r : Registry} {name : String} :
    ∀ {ps seen : List String}, r.conflict? name ps seen = none ↔
      (∀ p ∈ ps, ∀ o, r.owner? p = some o → o = name) ∧ ps.Nodup ∧ ∀ p ∈ ps, p ∉ seen := by
  intro ps
  induction ps with
  | nil => simp [conflict?]
  | cons p rest ih =>
    intro seen
    have step : r.conflict? name rest (p :: seen) = none ↔
        (∀ x ∈ rest, ∀ o, r.owner? x = some o → o = name) ∧ rest.Nodup ∧ p ∉ rest ∧
          ∀ x ∈ rest, x ∉ seen := by
      rw [ih]
      constructor
      · rintro ⟨owners,nodup,unseen⟩
        exact ⟨owners,nodup,fun mem => unseen p mem (List.mem_cons_self ..),
          fun x mem => fun seenX => unseen x mem (List.mem_cons_of_mem _ seenX)⟩
      · rintro ⟨owners,nodup,fresh,unseen⟩
        refine ⟨owners,nodup,fun x mem => ?_⟩
        simp only [List.mem_cons,not_or]
        exact ⟨fun same => fresh (same ▸ mem),unseen x mem⟩
    cases owner : r.owner? p with
    | some o =>
      by_cases other : o = name
      · subst other
        by_cases seenP : p ∈ seen
        · simp [conflict?,owner,seenP]
        · simp only [conflict?,owner,ne_eq,not_true_eq_false,if_false,List.contains_iff_mem,
            seenP,step,List.mem_cons,forall_eq_or_imp,List.nodup_cons]
          simp only [Option.some.injEq,forall_eq',true_and,not_false_eq_true]
          tauto
      · simp [conflict?,owner,other]
    | none =>
      by_cases seenP : p ∈ seen
      · simp [conflict?,owner,seenP]
      · simp only [conflict?,owner,List.contains_iff_mem,seenP,List.mem_cons,forall_eq_or_imp,
          List.nodup_cons]
        simp only [reduceCtorEq,false_implies,implies_true,true_and,not_false_eq_true]
        tauto

/-- A successful registration checked its name, its parameters and their owners, and then
replaced the function of that name in place or put the new one last. -/
theorem register_eq_ok {r r' : Registry} {name : String} {ps : List String} {body : Body}
    {defs : List Parameter} (h : r.register name ps body defs = .ok r') :
    name ≠ "" ∧ ps ≠ [] ∧ r.conflict? name ps [] = none ∧
      r' = if r.isRegistered name then
        ⟨r.entries.map fun x => if x.name == name then ⟨name,ps,body,defs⟩ else x⟩
      else ⟨r.entries ++ [⟨name,ps,body,defs⟩]⟩ := by
  unfold register at h
  by_cases unnamed : name.isEmpty
  · simp [unnamed] at h
  by_cases empty : ps.isEmpty
  · simp [unnamed,empty] at h
  cases free : r.conflict? name ps [] with
  | some c => simp [unnamed,empty,free] at h
  | none =>
    simp only [unnamed,empty,free,Bool.false_eq_true,if_false] at h
    refine ⟨by simpa using unnamed,by simpa using empty,rfl,?_⟩
    split at h <;> (cases h; simp [*])

private theorem replaced_mem {entries : List Entry} {name : String} {e y : Entry}
    (member : y ∈ entries.map fun x => if x.name == name then e else x) :
    (y = e) ∨ (y ∈ entries ∧ y.name ≠ name) := by
  obtain ⟨x,xMember,rfl⟩ := List.mem_map.mp member
  by_cases named : x.name = name
  · simp [named]
  · simp [named,xMember]

theorem wellFormed_empty : (({} : Registry)).WellFormed :=
  ⟨by simp,by simp,by simp,by simp,by simp⟩

theorem wellFormed_register {r r' : Registry} {name : String} {ps : List String} {body : Body}
    {defs : List Parameter} (wf : r.WellFormed) (h : r.register name ps body defs = .ok r') :
    r'.WellFormed := by
  obtain ⟨named,some,free,rfl⟩ := register_eq_ok h
  obtain ⟨owners,nodup,-⟩ := conflict?_eq_none_iff.mp free
  -- a parameter of the new entry belongs to no function of another name
  have foreign : ∀ x ∈ r.entries, ∀ p ∈ ps, p ∈ x.parameters → x.name = name :=
    fun x member p new old => owners p new x.name (owner?_of_mem wf member old)
  let e : Entry := ⟨name,ps,body,defs⟩
  split
  · have sameNames : ((r.entries.map fun x => if x.name == name then e else x).map (·.name)) =
        r.entries.map (·.name) := by
      simp only [List.map_map]
      congr 1
      funext x
      by_cases n : x.name = name <;> simp [n,e]
    refine ⟨?_,?_,?_,?_,?_⟩
    · change ((r.entries.map fun x => if x.name == name then e else x).map (·.name)).Nodup
      rw [sameNames]
      exact wf.namesNodup
    · intro y member
      rcases replaced_mem member with rfl | ⟨old,-⟩
      · exact named
      · exact wf.nameNonempty y old
    · intro y member
      rcases replaced_mem member with rfl | ⟨old,-⟩
      · exact some
      · exact wf.parametersNonempty y old
    · intro y member
      rcases replaced_mem member with rfl | ⟨old,-⟩
      · exact nodup
      · exact wf.parametersNodup y old
    · intro x xMember y yMember p inX inY
      rcases replaced_mem xMember with rfl | ⟨xOld,xName⟩ <;>
        rcases replaced_mem yMember with rfl | ⟨yOld,yName⟩
      · rfl
      · exact absurd (foreign y yOld p inX inY) yName
      · exact absurd (foreign x xOld p inY inX) xName
      · exact wf.ownerUnique x xOld y yOld p inX inY
  · rename_i unregistered
    have fresh : ∀ x ∈ r.entries, x.name ≠ name := fun x member same =>
      unregistered (isRegistered_iff.mpr ⟨x,member,same⟩)
    have mem_append : ∀ y, y ∈ r.entries ++ [e] ↔ y ∈ r.entries ∨ y = e := by simp
    refine ⟨?_,?_,?_,?_,?_⟩
    · simp only [List.map_append,List.map_cons,List.map_nil]
      exact List.nodup_append.mpr ⟨wf.namesNodup,List.nodup_singleton _,
        by simpa using fresh⟩
    · intro y member
      rcases (mem_append y).mp member with old | rfl
      · exact wf.nameNonempty y old
      · exact named
    · intro y member
      rcases (mem_append y).mp member with old | rfl
      · exact wf.parametersNonempty y old
      · exact some
    · intro y member
      rcases (mem_append y).mp member with old | rfl
      · exact wf.parametersNodup y old
      · exact nodup
    · intro x xMember y yMember p inX inY
      rcases (mem_append x).mp xMember with xOld | rfl <;>
        rcases (mem_append y).mp yMember with yOld | rfl
      · exact wf.ownerUnique x xOld y yOld p inX inY
      · exact absurd (foreign x xOld p inY inX) (fresh x xOld)
      · exact absurd (foreign y yOld p inX inY) (fresh y yOld)
      · rfl

theorem Reachable.wellFormed {r : Registry} (reachable : r.Reachable) : r.WellFormed := by
  induction reachable with
  | empty => exact wellFormed_empty
  | register _ registered ih => exact wellFormed_register ih registered

end QueryFilters.Registry
