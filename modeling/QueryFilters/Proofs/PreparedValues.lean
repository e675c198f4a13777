import QueryFilters.Proofs.Writing

/-!
# Prepared values and the placeholders of SQL conditions

Applying filters to SQL text and computing their prepared values are two separate traversals of
a filter list. Applying writes the conditions and memberships of `Filter.leaves`, each with its
placeholders after colons (`Engine.applyFilters_eq_ok_iff`). The prepared values merge, filter
after filter, the binding of each condition's placeholder to its value and of each member's
placeholder to the member; an invocation's bindings are rebuilt from its function's definitions.

When the functions were all declared (`Functions.Declared`) and applying the filters of a read
to SQL text succeeds, the prepared values bind exactly the placeholders of the conditions
written, each to the value of its last binding (`Engine.prepared_values_bind_sql_marks`). A map
that merging builds is described by the bindings it stands for (`Keyed.Binds`).
-/

namespace QueryFilters

/-! ### Maps built by merging -/

namespace Keyed
variable {α : Type}

theorem merge_cons (acc : List (String × α)) (e : String × α) (m : List (String × α)) :
    merge acc (e :: m) = merge (put e.1 e.2 acc) m := rfl

theorem get?_put (k j : String) (v : α) (m : List (String × α)) :
    get? j (put k v m) = (get? j [(k, v)]).or (get? j m) := by
  by_cases same : k = j
  · subst same
    simp [get?]
  · simp [get?, same, get?_put_ne (Ne.symm same)]

/-- Merging takes, under each key of the merged list, its last value there, and keeps the base's
value under the other keys. -/
theorem get?_merge (k : String) : ∀ (acc m : List (String × α)),
    get? k (merge acc m) = (get? k m.reverse).or (get? k acc)
  | acc, [] => rfl
  | acc, e :: m => by
    rw [merge_cons, get?_merge k _ m, get?_put, List.reverse_cons, get?_append, Option.or_assoc]

theorem mem_keys_merge (k : String) : ∀ (acc m : List (String × α)),
    k ∈ keys (merge acc m) ↔ k ∈ keys acc ∨ k ∈ m.map Prod.fst
  | acc, [] => by simp [merge]
  | acc, e :: m => by
    rw [merge_cons, mem_keys_merge k _ m, keys_put, List.map_cons, List.mem_cons]
    by_cases present : e.1 ∈ keys acc
    · rw [if_pos present]
      constructor
      · rintro (inAcc | inRest)
        · exact .inl inAcc
        · exact .inr (.inr inRest)
      · rintro (inAcc | rfl | inRest)
        · exact .inl inAcc
        · exact .inl present
        · exact .inr inRest
    · rw [if_neg present, List.mem_append, List.mem_singleton]
      tauto

theorem nodup_keys_merge : ∀ {acc : List (String × α)} (m : List (String × α)),
    (keys acc).Nodup → (keys (merge acc m)).Nodup
  | acc, [], distinct => distinct
  | acc, e :: m, distinct => by
    rw [merge_cons]
    exact nodup_keys_merge m (nodup_keys_put e.1 e.2 distinct)

/-- In a list with distinct keys the last value under a key is the first. -/
theorem get?_reverse_of_nodup (k : String) : ∀ {m : List (String × α)}, (keys m).Nodup →
    get? k m.reverse = get? k m
  | [], _ => rfl
  | (k', v) :: rest, distinct => by
    simp only [keys, List.map_cons, List.nodup_cons] at distinct
    rw [List.reverse_cons, get?_append, get?_reverse_of_nodup k distinct.2]
    by_cases same : k' = k
    · subst same
      simp [get?, get?_eq_none distinct.1]
    · simp [get?, same]

/-- A map binds each name of a list of bindings, and only those, to its last value there. -/
def Binds (m bindings : List (String × α)) : Prop :=
  (∀ k, k ∈ keys m ↔ k ∈ bindings.map Prod.fst) ∧ ∀ k, get? k m = get? k bindings.reverse

theorem Binds.nil : Binds ([] : List (String × α)) [] :=
  ⟨fun _ => by simp [keys], fun _ => rfl⟩

theorem Binds.merge {acc bindings : List (String × α)} (binds : Binds acc bindings) (more : List (String × α)) :
    Binds (Keyed.merge acc more) (bindings ++ more) := by
  refine ⟨fun k => ?_, fun k => ?_⟩
  · rw [mem_keys_merge, binds.1]
    simp
  · rw [get?_merge, binds.2, List.reverse_append, get?_append]

theorem Binds.merge_ofList {acc bindings : List (String × α)} (binds : Binds acc bindings) (more : List (String × α)) :
    Binds (Keyed.merge acc (ofList more)) (bindings ++ more) := by
  have built := (Binds.nil.merge more)
  simp only [List.nil_append] at built
  have distinct : (keys (ofList more)).Nodup := nodup_keys_merge more List.nodup_nil
  refine ⟨fun k => ?_, fun k => ?_⟩
  · have named : k ∈ (ofList more).map Prod.fst ↔ k ∈ more.map Prod.fst := built.1 k
    rw [mem_keys_merge, binds.1, named]
    simp
  · rw [get?_merge, binds.2, List.reverse_append, get?_append, get?_reverse_of_nodup k distinct, ofList, built.2]


end Keyed

/-! ### The bindings of conditions and memberships -/

namespace Filter

/-- A filter binds its placeholders, in order. -/
theorem prepared_map_fst (f : Filter) : f.prepared.map Prod.fst = f.marks := by
  cases f with
  | comparison => rfl
  | membership c items t =>
    simp only [prepared, marks, List.map_map, Function.comp_def, List.range_eq_range']
    rw [← List.zipIdx_map_snd 0 items, List.map_map]
    rfl
  | invocation => rfl
  | argument => rfl

theorem prepared_of_not_isLeaf {f : Filter} (other : f.isLeaf = false) : f.prepared = [] := by
  cases f <;> simp_all [isLeaf, prepared]

theorem flatMap_prepared_filter : ∀ l : List Filter, (l.filter isLeaf).flatMap prepared = l.flatMap prepared
  | [] => rfl
  | f :: rest => by
    cases leaf : f.isLeaf
    · simp [leaf, prepared_of_not_isLeaf leaf, flatMap_prepared_filter rest]
    · simp [leaf, flatMap_prepared_filter rest]

theorem foldl_merge_prepared : ∀ (l : List Filter) (acc : Prepared),
    l.foldl (fun acc f => Keyed.merge acc f.prepared) acc = Keyed.merge acc (l.flatMap prepared)
  | [], acc => rfl
  | f :: rest, acc => by
    rw [List.foldl_cons, foldl_merge_prepared rest, List.flatMap_cons, Keyed.merge, Keyed.merge, Keyed.merge,
      List.foldl_append]

end Filter

/-! ### Prepared values of filters applied to SQL text -/

section Preparing
variable {backends : Ranked} {r : Registry} {fs : List Filter}
  (sql : ∀ {t : Target} {s : String}, t.sqlText? = some s → backends.find t = .ok .sql)
  (declared : r.Declared)
include sql declared

/-- The prepared values of a filter of a list bind, after any earlier bindings, the placeholders
of the conditions and memberships that applying it writes. -/
theorem preparedOne_binds {f : Filter} (handled : r.Handles [f]) {t : Target} {s : String} (text : t.sqlText? = some s)
    {ls : List Filter} (leaves : f.leavesOf r fs = .ok ls) :
    ∃ p, preparedOne backends r fs f t = .ok p ∧
      ∀ {acc bindings : Prepared}, Keyed.Binds acc bindings →
        Keyed.Binds (Keyed.merge acc p) (bindings ++ ls.flatMap Filter.prepared) := by
  have found : backends.find t = .ok .sql := sql text
  cases f with
  | invocation c h =>
    obtain ⟨defs, -, defined, nonempty⟩ := declared.invocation (handled c h (by simp))
    obtain ⟨args, argued, leaves⟩ := Except.bind_eq_ok.mp leaves
    obtain ⟨defs', defined', leaves⟩ := Except.bind_eq_ok.mp leaves
    obtain rfl : defs = defs' := Except.ok.inj (defined.symm.trans defined')
    obtain ⟨built, made, leaves⟩ := Except.bind_eq_ok.mp leaves
    simp only [pure, Except.pure, Except.ok.injEq] at leaves
    subst leaves
    refine ⟨Keyed.ofList (built.flatMap Filter.prepared), ?_, fun binds => ?_⟩
    · have some : defs.isEmpty = false := by simpa using nonempty
      simp [preparedOne, preparedForFunction, found, argued, defined, some, made, Filter.foldl_merge_prepared,
        Keyed.ofList, bind, Except.bind, pure, Except.pure]
    · rw [Filter.flatMap_prepared_filter]
      exact binds.merge_ofList _
  | comparison | membership =>
    simp only [Filter.leavesOf, pure, Except.pure, Except.ok.injEq] at leaves
    subst leaves
    refine ⟨_, by simp only [preparedOne, found, bind, Except.bind, pure, Except.pure]; rfl, fun binds => ?_⟩
    simpa [Filter.isLeaf, List.filter_cons] using binds.merge _
  | argument =>
    simp only [Filter.leavesOf, pure, Except.pure, Except.ok.injEq] at leaves
    subst leaves
    refine ⟨[], by simp only [preparedOne, found, bind, Except.bind, pure, Except.pure]; rfl, fun binds => ?_⟩
    simpa [Filter.isLeaf, Keyed.merge] using binds

theorem foldlM_prepared_binds {t : Target} {s : String} (text : t.sqlText? = some s) :
    ∀ (l : List Filter) {lss : List (List Filter)}, r.Handles l → l.mapM (Filter.leavesOf r fs) = .ok lss →
      ∀ {acc bindings : Prepared}, Keyed.Binds acc bindings →
        ∃ p, l.foldlM (fun acc f => do
            let p ← preparedOne backends r fs f t
            pure (Keyed.merge acc p)) acc = .ok p ∧
          Keyed.Binds p (bindings ++ lss.flatten.flatMap Filter.prepared)
  | [], lss, _, mapped, acc, bindings, binds => by
    simp only [List.mapM_nil, pure, Except.pure, Except.ok.injEq] at mapped
    subst mapped
    exact ⟨acc, rfl, by simpa using binds⟩
  | f :: rest, lss, handles, mapped, acc, bindings, binds => by
    rw [List.mapM_cons] at mapped
    obtain ⟨ls, leaves, mapped⟩ := Except.bind_eq_ok.mp mapped
    obtain ⟨lss', rested, mapped⟩ := Except.bind_eq_ok.mp mapped
    simp only [pure, Except.pure, Except.ok.injEq] at mapped
    subst mapped
    obtain ⟨p, prepared, extended⟩ := preparedOne_binds sql declared (fun c h mem => handles c h (by simp_all)) text leaves
    obtain ⟨p', folded, binds'⟩ := foldlM_prepared_binds text rest (fun c h mem => handles c h (List.mem_cons_of_mem f mem))
      rested (extended binds)
    refine ⟨p', ?_, by simpa [List.flatMap_append] using binds'⟩
    simpa [List.foldlM_cons, prepared, bind, Except.bind, pure, Except.pure] using folded

end Preparing

/-- Prepared values bind exactly the placeholders that SQL conditions use. Take functions that
were all declared, filters that a read gave, and SQL text that goes to the SQL backend. If
applying the filters succeeds, it writes the conditions and memberships of `Filter.leaves`, the
declared functions' among them, each after the text made ready for conditions; each binds its
placeholders, one per condition and one per member. The prepared values bind exactly those
placeholders, each to the value of the last binding of it. -/
theorem Engine.prepared_values_bind_sql_marks {en : Engine} (declared : en.functions.Declared) {q : Query}
    {fs : List Filter} (parsed : en.parse q = .ok fs) {t : Target} {s : String} (text : t.sqlText? = some s)
    (selected : en.backends.find t = .ok .sql) {t' : Target} (applied : en.applyFilters fs t = .ok t') :
    ∃ leaves p, Filter.leaves en.registry fs = .ok leaves ∧ (∀ f ∈ leaves, f.isLeaf = true) ∧
      t' = (if leaves = [] then t else .sql (Backend.withWhere s ++ String.join (leaves.map Filter.sqlCondition))) ∧
      en.preparedValues fs t = .ok p ∧
      (leaves.flatMap Filter.prepared).map Prod.fst = leaves.flatMap Filter.marks ∧
      (∀ k, k ∈ Keyed.keys p ↔ k ∈ leaves.flatMap Filter.marks) ∧
      ∀ k, Keyed.get? k p = Keyed.get? k (leaves.flatMap Filter.prepared).reverse := by
  have sql : ∀ {t' : Target} {s' : String}, t'.sqlText? = some s' → en.backends.find t' = .ok .sql :=
    fun text' => Ranked.find_of_sqlText selected text'
  have handles := Query.read_handles parsed
  -- applying writes the leaves in order, and the prepared values bind theirs filter after filter
  obtain ⟨leaves, computed, -, rfl⟩ :=
    (Engine.applyFilters_eq_ok_iff parsed (declared.registry.declaredFor handles) selected t').mp applied
  obtain ⟨lss, mapped, rfl⟩ := Filter.leaves_eq_ok_iff.mp computed
  obtain ⟨p, folded, binds⟩ := foldlM_prepared_binds sql declared.registry text fs handles mapped Keyed.Binds.nil
  -- the bindings of the written filters are their placeholders
  have marks : (lss.flatten.flatMap Filter.prepared).map Prod.fst = lss.flatten.flatMap Filter.marks := by
    simp [List.map_flatMap, Filter.prepared_map_fst]
  refine ⟨lss.flatten, p, computed, Filter.isLeaf_of_mem_leaves computed, Backend.build_sql_getD text _, folded, marks,
    fun k => ?_, fun k => ?_⟩
  · rw [binds.1, ← marks]
    simp
  · rw [binds.2]
    simp

set_option maxRecDepth 2000 in
/-- A function declared with a condition and a defaulted condition, listed in the function column
beside a membership, applied to SQL text. -/
theorem Engine.prepared_values_bind_sql_marks_adult :
    ∃ (en : Engine) (fs : List Filter) (t' : Target),
      en = (Registration.declared "adult" [.record "age" (some "gte") none none,
        .record "active" none none (some (.bool true))]).after ⟨"fun", {}, ({} : Ranked).add .sql 100, []⟩ ∧
      en.functions.Declared ∧
      en.parse [("fun", .arr [.str "adult"]), ("age", .int 18), ("name[in]", .arr [.str "a", .str "b"])] = .ok fs ∧
      en.backends.find (.sql "t") = .ok .sql ∧ en.applyFilters fs (.sql "t") = .ok t' ∧
      ∃ leaves p, Filter.leaves en.registry fs = .ok leaves ∧ (∀ f ∈ leaves, f.isLeaf = true) ∧
        t' = (if leaves = [] then .sql "t" else .sql (Backend.withWhere "t" ++ String.join (leaves.map Filter.sqlCondition))) ∧
        en.preparedValues fs (.sql "t") = .ok p ∧
        (leaves.flatMap Filter.prepared).map Prod.fst = leaves.flatMap Filter.marks ∧
        (∀ k, k ∈ Keyed.keys p ↔ k ∈ leaves.flatMap Filter.marks) ∧
        ∀ k, Keyed.get? k p = Keyed.get? k (leaves.flatMap Filter.prepared).reverse := by
  have declared := @Functions.Declared.after_declaration ⟨"fun", {}, ({} : Ranked).add .sql 100, []⟩ .empty "adult"
    [.record "age" (some "gte") none none, .record "active" none none (some (.bool true))]
  have parsed : ((Registration.declared "adult" [.record "age" (some "gte") none none,
      .record "active" none none (some (.bool true))]).after ⟨"fun", {}, ({} : Ranked).add .sql 100, []⟩).parse
        [("fun", .arr [.str "adult"]), ("age", .int 18), ("name[in]", .arr [.str "a", .str "b"])] =
      .ok [.invocation "adult" ⟨"adult", .declared [⟨"age", "gte", "age", none⟩, ⟨"active", "eq", "active", some (.bool true)⟩]⟩,
        .argument "age" (.raw (.int 18)), .membership "name" [.str "a", .str "b"] none] := by
    with_unfolding_all rfl
  have found : (({} : Ranked).add .sql 100).find (.sql "t") = .ok .sql := by with_unfolding_all rfl
  have applied : ((Registration.declared "adult" [.record "age" (some "gte") none none,
      .record "active" none none (some (.bool true))]).after ⟨"fun", {}, ({} : Ranked).add .sql 100, []⟩).applyFilters
        [.invocation "adult" ⟨"adult", .declared [⟨"age", "gte", "age", none⟩, ⟨"active", "eq", "active", some (.bool true)⟩]⟩,
          .argument "age" (.raw (.int 18)), .membership "name" [.str "a", .str "b"] none] (.sql "t") =
        .ok (.sql "t WHERE 1 AND age >= :age_gte AND active = :active_fun AND name IN (:name_in_0, :name_in_1)") := by
    with_unfolding_all rfl
  exact ⟨_, _, _, rfl, declared, parsed, found, applied,
    Engine.prepared_values_bind_sql_marks declared parsed rfl found applied⟩

end QueryFilters
