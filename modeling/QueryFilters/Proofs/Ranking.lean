import QueryFilters.Backend
import QueryFilters.Query.Read

/-!
Rankings by priority. Adding an item puts it after every item of the same or a higher priority,
so a ranking built by additions in any order is a stable sort of the additions by descending
priority: sorted by priority, and the items of one priority in the order they were added
(`Ranked.Ranks`). These two facts fix a list, so the ranking is the standard stable merge sort of
the additions (`Ranked.ofList_entries`). Main statement: `Ranked.ofList_stable_sort`, with its
consequences for the search of a backend and for the order in which the readers of a query entry
are tried.
-/

namespace QueryFilters

namespace Ranked
variable {α : Type}

/-- The ranking that adding each item with its priority builds, one after another, from the empty
ranking. -/
def ofList (adds : List (Int × α)) : Ranked α :=
  adds.foldl (fun r e => r.add e.2 e.1) {}

/-- The order of a sort by descending priority: an entry may come before another of no higher
priority. -/
def precedes (a b : Int × α) : Bool := decide (b.1 ≤ a.1)

/-- Entries ranked like others: sorted by descending priority, with the entries of each priority in
the order the others have them. -/
structure Ranks (l m : List (Int × α)) : Prop where
  sorted : l.Pairwise fun a b => b.1 ≤ a.1
  classes : ∀ q, l.filter (·.1 == q) = m.filter (·.1 == q)

theorem entries_add (r : Ranked α) (a : α) (p : Int) :
    (r.add a p).entries = r.entries.takeWhile (fun e => decide (p ≤ e.1)) ++
      (p, a) :: r.entries.dropWhile (fun e => decide (p ≤ e.1)) := rfl

/-! ### One addition -/

/-- In a sorted list, what is left after the entries of priority at least `p` has lower
priorities. -/
theorem lt_of_mem_dropWhile {p : Int} : ∀ {l : List (Int × α)}, l.Pairwise (fun a b => b.1 ≤ a.1) →
    ∀ e ∈ l.dropWhile (fun e => decide (p ≤ e.1)), e.1 < p
  | [], _, e, dropped => by simp at dropped
  | x :: xs, sorted, e, dropped => by
    rw [List.pairwise_cons] at sorted
    by_cases higher : p ≤ x.1
    · rw [List.dropWhile_cons_of_pos (by simpa using higher)] at dropped
      exact lt_of_mem_dropWhile sorted.2 e dropped
    · rw [List.dropWhile_cons_of_neg (by simpa using higher)] at dropped
      rcases List.mem_cons.mp dropped with rfl | later
      · omega
      · have below := sorted.1 e later
        omega

theorem le_of_mem_takeWhile {p : Int} {l : List (Int × α)} {e : Int × α}
    (taken : e ∈ l.takeWhile (fun e => decide (p ≤ e.1))) : p ≤ e.1 := by
  have all := List.all_eq_true.mp (List.all_takeWhile (p := fun e : Int × α => decide (p ≤ e.1)) (l := l)) e taken
  simpa using all

/-- Adding an item keeps a ranking sorted by priority. -/
theorem sorted_add {r : Ranked α} (sorted : r.entries.Pairwise fun a b => b.1 ≤ a.1) (a : α) (p : Int) :
    (r.add a p).entries.Pairwise fun a b => b.1 ≤ a.1 := by
  have whole := sorted
  rw [← List.takeWhile_append_dropWhile (p := fun e => decide (p ≤ e.1)) (l := r.entries),
    List.pairwise_append] at whole
  obtain ⟨higher, lower, across⟩ := whole
  rw [entries_add, List.pairwise_append, List.pairwise_cons]
  refine ⟨higher, ⟨fun e dropped => Int.le_of_lt (lt_of_mem_dropWhile sorted e dropped), lower⟩, ?_⟩
  intro x taken y later
  rcases List.mem_cons.mp later with rfl | dropped
  · exact le_of_mem_takeWhile taken
  · exact across x taken y dropped

/-- Adding an item puts it last among the entries of its priority and changes no other priority's
entries. -/
theorem filter_add {r : Ranked α} (sorted : r.entries.Pairwise fun a b => b.1 ≤ a.1) (a : α) (p q : Int) :
    (r.add a p).entries.filter (·.1 == q) = r.entries.filter (·.1 == q) ++ [(p, a)].filter (·.1 == q) := by
  have lower := lt_of_mem_dropWhile (p := p) sorted
  rw [entries_add]
  conv => rhs; rw [← List.takeWhile_append_dropWhile (p := fun e => decide (p ≤ e.1)) (l := r.entries)]
  simp only [List.filter_append, List.filter_cons, List.filter_nil]
  by_cases same : p = q
  · -- nothing of priority `p` is left after the entries of priority at least `p`
    subst same
    have none : (r.entries.dropWhile fun e => decide (p ≤ e.1)).filter (·.1 == p) = [] :=
      List.filter_eq_nil_iff.mpr fun e dropped => by
        have below := lower e dropped
        simp only [beq_iff_eq]
        omega
    simp [none]
  · simp [same]

/-- A ranking built by additions from a sorted one ranks its entries followed by the additions. -/
theorem foldl_add_ranks : ∀ (adds : List (Int × α)) {r : Ranked α}, (r.entries.Pairwise fun a b => b.1 ≤ a.1) →
    Ranks (adds.foldl (fun r e => r.add e.2 e.1) r).entries (r.entries ++ adds)
  | [], r, sorted => ⟨by simpa using sorted, fun q => by simp⟩
  | (p, a) :: rest, r, sorted => by
    have more := foldl_add_ranks rest (sorted_add sorted a p)
    refine ⟨more.sorted, fun q => ?_⟩
    rw [List.foldl_cons, more.classes q]
    simp only [List.filter_append, filter_add sorted, List.append_assoc]
    by_cases kept : (p == q) = true <;> simp [kept]

/-- A ranking built by additions ranks the additions. -/
theorem ranks_ofList (adds : List (Int × α)) : Ranks (ofList adds).entries adds := by
  simpa [ofList] using foldl_add_ranks adds (r := {}) List.Pairwise.nil

/-! ### Lists ranked like others -/

namespace Ranks
variable {l l' m : List (Int × α)}

theorem mem_iff (ranks : Ranks l m) {e : Int × α} : e ∈ l ↔ e ∈ m := by
  have same := congrArg (e ∈ ·) (ranks.classes e.1)
  simpa using same

/-- Two sorted lists with the same entries of each priority are the same list. -/
theorem eq_of_sorted : ∀ {l l' : List (Int × α)}, (l.Pairwise fun a b => b.1 ≤ a.1) →
    (l'.Pairwise fun a b => b.1 ≤ a.1) → (∀ q, l.filter (·.1 == q) = l'.filter (·.1 == q)) → l = l'
  | [], [], _, _, _ => rfl
  | [], y :: _, _, _, classes => by simpa using classes y.1
  | x :: _, [], _, _, classes => by simpa using classes x.1
  | x :: xs, y :: ys, sorted, sorted', classes => by
    rw [List.pairwise_cons] at sorted sorted'
    -- each head is in the other list, where the head has the highest priority
    have xMember : x ∈ y :: ys := by simpa using congrArg (x ∈ ·) (classes x.1)
    have yMember : y ∈ x :: xs := by simpa using congrArg (y ∈ ·) (classes y.1)
    have xBelow : x.1 ≤ y.1 := by
      rcases List.mem_cons.mp xMember with rfl | later
      · exact Int.le_refl _
      · exact sorted'.1 x later
    have yBelow : y.1 ≤ x.1 := by
      rcases List.mem_cons.mp yMember with rfl | later
      · exact Int.le_refl _
      · exact sorted.1 y later
    have heads := classes x.1
    simp only [List.filter_cons, beq_self_eq_true, if_true, show (y.1 == x.1) = true by simp; omega,
      List.cons.injEq] at heads
    obtain ⟨rfl, -⟩ := heads
    -- the tails keep the entries of every priority
    have tails : ∀ q, xs.filter (·.1 == q) = ys.filter (·.1 == q) := by
      intro q
      have both := classes q
      by_cases same : x.1 = q
      · simpa [List.filter_cons, same] using both
      · simpa [List.filter_cons, same] using both
    rw [eq_of_sorted sorted.2 sorted'.2 tails]

/-- A list ranked like another is fixed by it. -/
theorem eq (ranks : Ranks l m) (ranks' : Ranks l' m) : l = l' :=
  eq_of_sorted ranks.sorted ranks'.sorted fun q => (ranks.classes q).trans (ranks'.classes q).symm

/-- Keeping the entries that pass a test keeps the ranking. -/
theorem filter (ranks : Ranks l m) (keep : Int × α → Bool) : Ranks (l.filter keep) (m.filter keep) := by
  refine ⟨ranks.sorted.filter keep, fun q => ?_⟩
  have swap : ∀ n : List (Int × α), (n.filter keep).filter (·.1 == q) = (n.filter (·.1 == q)).filter keep := by
    intro n
    rw [List.filter_filter, List.filter_filter]
    congr 1
    funext e
    exact Bool.and_comm _ _
  rw [swap, swap, ranks.classes q]

/-- The first entry of a ranking is the first addition of the highest priority: every addition
before it has a lower priority and none after it a higher one. -/
theorem head?_eq_some (ranks : Ranks l m) {x : Int × α} :
    l.head? = some x ↔ ∃ m₁ m₂, m = m₁ ++ x :: m₂ ∧ (∀ e ∈ m₁, e.1 < x.1) ∧ ∀ e ∈ m₂, e.1 ≤ x.1 := by
  constructor
  · intro first
    obtain ⟨rest, rfl⟩ : ∃ rest, l = x :: rest := by
      cases l with
      | nil => cases first
      | cons y rest => exact ⟨rest, by simpa using first⟩
    have below : ∀ e ∈ m, e.1 ≤ x.1 := by
      intro e member
      rcases List.mem_cons.mp (ranks.mem_iff.mpr member) with rfl | later
      · exact Int.le_refl _
      · exact (List.pairwise_cons.mp ranks.sorted).1 e later
    -- the entries of `x`'s priority begin with `x` in both lists
    have first : m.filter (·.1 == x.1) = x :: rest.filter (·.1 == x.1) := by
      rw [← ranks.classes x.1]
      simp
    obtain ⟨m₁, m₂, rfl, other, -, -⟩ := List.filter_eq_cons_iff.mp first
    refine ⟨m₁, m₂, rfl, fun e early => ?_, fun e late => below e (by simp [late])⟩
    have lower := below e (by simp [early])
    have differs := other e early
    simp only [beq_iff_eq] at differs
    omega
  · rintro ⟨m₁, m₂, rfl, lower, atMost⟩
    have first : (m₁ ++ x :: m₂).filter (·.1 == x.1) = x :: m₂.filter (·.1 == x.1) := by
      have none : m₁.filter (·.1 == x.1) = [] := List.filter_eq_nil_iff.mpr fun e early => by
        have below := lower e early
        simp only [beq_iff_eq]
        omega
      simp [List.filter_append, none]
    cases l with
    | nil => simpa using ranks.mem_iff (e := x)
    | cons y rest =>
      have yBelow : y.1 ≤ x.1 := by
        rcases List.mem_append.mp (ranks.mem_iff.mp (by simp : y ∈ y :: rest)) with early | late
        · exact Int.le_of_lt (lower y early)
        · rcases List.mem_cons.mp late with rfl | later
          · exact Int.le_refl _
          · exact atMost y later
      have xBelow : x.1 ≤ y.1 := by
        rcases List.mem_cons.mp ((ranks.mem_iff (e := x)).mpr (by simp)) with rfl | later
        · exact Int.le_refl _
        · exact (List.pairwise_cons.mp ranks.sorted).1 x later
      have heads := (ranks.classes x.1).trans first
      simp only [List.filter_cons, show (y.1 == x.1) = true by simp; omega, if_true, List.cons.injEq] at heads
      simp [heads.1]

end Ranks

/-- The stable merge sort by descending priority ranks what it sorts. -/
theorem ranks_mergeSort (m : List (Int × α)) : Ranks (m.mergeSort precedes) m := by
  have trans : ∀ a b c : Int × α, precedes a b = true → precedes b c = true → precedes a c = true := by
    intro a b c first second
    simp only [precedes, decide_eq_true_eq] at first second ⊢
    omega
  have total : ∀ a b : Int × α, (precedes a b || precedes b a) = true := by
    intro a b
    simp only [precedes, Bool.or_eq_true, decide_eq_true_eq]
    omega
  refine ⟨(List.pairwise_mergeSort trans total m).imp fun {a b} ordered => by simpa [precedes] using ordered,
    fun q => ?_⟩
  -- the entries of one priority are sorted already, so they stay a sublist of the sorted list
  have classSorted : (m.filter (·.1 == q)).Pairwise fun a b => precedes a b = true :=
    List.pairwise_of_forall_mem_list fun a aMember b bMember => by
      have aq := (List.mem_filter.mp aMember).2
      have bq := (List.mem_filter.mp bMember).2
      simp only [beq_iff_eq] at aq bq
      simp [precedes, aq, bq]
  have kept := List.sublist_mergeSort trans total classSorted (List.filter_sublist)
  have within : List.Sublist (m.filter (·.1 == q)) ((m.mergeSort precedes).filter (·.1 == q)) := by
    simpa [List.filter_filter] using kept.filter (·.1 == q)
  have sameLength : ((m.mergeSort precedes).filter (·.1 == q)).length = (m.filter (·.1 == q)).length :=
    ((List.mergeSort_perm m precedes).filter _).length_eq
  exact (within.eq_of_length sameLength.symm).symm

/-- Additions rank as the stable merge sort of the additions by descending priority. -/
theorem ofList_entries (adds : List (Int × α)) : (ofList adds).entries = adds.mergeSort precedes :=
  (ranks_ofList adds).eq (ranks_mergeSort adds)

/-- Additions made in order of non-increasing priority keep their order. -/
theorem items_ofList_of_sorted {adds : List (Int × α)} (sorted : adds.Pairwise fun a b => b.1 ≤ a.1) :
    (ofList adds).items = adds.map (·.2) := by
  have ordered : adds.Pairwise fun a b => precedes a b = true :=
    sorted.imp fun {a b} below => by simpa [precedes] using below
  rw [items, ofList_entries, List.mergeSort_of_pairwise ordered]

/-! ### Finding a backend -/

/-- The backend found for a target is that of the first entry of the ranking that accepts it. -/
theorem find_eq (r : Ranked) (t : Target) :
    r.find t = match (r.entries.filter (·.2.supports t)).head? with
      | some e => .ok e.2
      | none => .error (.unsupportedTarget t.typeName) := by
  rw [find, items, List.find?_map, List.head?_filter, Function.comp_def]
  cases r.entries.find? (fun e => e.2.supports t) <;> rfl

/-- A backend is found for a target exactly when it is, among the added backends that accept the
target, the first added of the highest priority. -/
theorem find_ofList_eq_ok (adds : List (Int × Backend)) (t : Target) (b : Backend) :
    (ofList adds).find t = .ok b ↔ ∃ p l₁ l₂, adds.filter (·.2.supports t) = l₁ ++ (p, b) :: l₂ ∧
      (∀ e ∈ l₁, e.1 < p) ∧ ∀ e ∈ l₂, e.1 ≤ p := by
  have ranks := (ranks_ofList adds).filter (·.2.supports t)
  rw [find_eq]
  constructor
  · intro found
    cases first : ((ofList adds).entries.filter (·.2.supports t)).head? with
    | none => rw [first] at found; cases found
    | some e =>
      obtain ⟨p, b'⟩ := e
      rw [first] at found
      obtain rfl : b' = b := Except.ok.inj found
      obtain ⟨l₁, l₂, split, lower, atMost⟩ := ranks.head?_eq_some.mp first
      exact ⟨p, l₁, l₂, split, lower, atMost⟩
  · rintro ⟨p, l₁, l₂, split, lower, atMost⟩
    rw [ranks.head?_eq_some.mpr ⟨l₁, l₂, split, lower, atMost⟩]

/-- No backend is found for a target exactly when no added backend accepts it. -/
theorem find_ofList_eq_error (adds : List (Int × Backend)) (t : Target) :
    (ofList adds).find t = .error (.unsupportedTarget t.typeName) ↔ ∀ e ∈ adds, e.2.supports t = false := by
  have ranked := ranks_ofList adds
  have noneIff : ((ofList adds).entries.filter (·.2.supports t)).head? = none ↔
      ∀ e ∈ adds, e.2.supports t = false := by
    rw [List.head?_eq_none_iff, List.filter_eq_nil_iff]
    constructor
    · intro refused e added
      simpa using refused e (ranked.mem_iff.mpr added)
    · intro refused e kept
      simpa using refused e (ranked.mem_iff.mp kept)
  rw [find_eq]
  constructor
  · intro refused
    apply noneIff.mp
    cases first : ((ofList adds).entries.filter (·.2.supports t)).head? with
    | none => rfl
    | some e => rw [first] at refused; cases refused
  · intro refused
    rw [noneIff.mpr refused]

end Ranked

/-- Adding items one after another, each with its priority, ranks them as the stable sort of the
additions by descending priority: higher priorities first, equal priorities in the order added. So
the backend found for a target is, among the added backends that accept it, the first added of the
highest priority, and none is found only when none accepts it; and the ways of recognising an
invocation and the readers of a query entry, added with the priorities they are given, are tried in
their documented order. -/
theorem Ranked.ofList_stable_sort :
    (∀ {α : Type} (adds : List (Int × α)),
      (Ranked.ofList adds).items = (adds.mergeSort Ranked.precedes).map (·.2) ∧
      (Ranked.ofList adds).entries.Pairwise (fun a b => b.1 ≤ a.1) ∧
      ∀ q, (Ranked.ofList adds).entries.filter (·.1 == q) = adds.filter (·.1 == q)) ∧
    (∀ (adds : List (Int × Backend)) (t : Target) (b : Backend),
      (Ranked.ofList adds).find t = .ok b ↔ ∃ p l₁ l₂, adds.filter (·.2.supports t) = l₁ ++ (p, b) :: l₂ ∧
        (∀ e ∈ l₁, e.1 < p) ∧ ∀ e ∈ l₂, e.1 ≤ p) ∧
    (∀ (adds : List (Int × Backend)) (t : Target),
      (Ranked.ofList adds).find t = .error (.unsupportedTarget t.typeName) ↔
        ∀ e ∈ adds, e.2.supports t = false) ∧
    (Ranked.ofList [(100, Recognition.explicitByList), (80, .explicitByName), (60, .explicitByTuple),
      (40, .implicitByTuple), (0, .implicitByValue)]).items = Recognition.order ∧
    (Ranked.ofList [(100, Reader.invocation), (80, .shape .tupleColumnTupleValue),
      (60, .shape .tupleColumnObjectValue), (50, .shape .tupleMismatch), (40, .shape .columnObjectValue),
      (0, .shape .columnValue)]).items = Reader.order := by
  refine ⟨fun adds => ⟨?_, (Ranked.ranks_ofList adds).sorted, (Ranked.ranks_ofList adds).classes⟩,
    Ranked.find_ofList_eq_ok, Ranked.find_ofList_eq_error,
    Ranked.items_ofList_of_sorted (by decide), Ranked.items_ofList_of_sorted (by decide)⟩
  rw [Ranked.items, Ranked.ofList_entries]

/-- Items added with priorities 0, 5, 5 and -1 are ranked by priority, the two of priority 5 in
the order they were added, as the stable sort has them; and a list of conditions, offered a
conditions backend of priority 50 and then one of priority 100, finds the one of priority 100. -/
theorem Ranked.ofList_stable_sort_ties :
    (Ranked.ofList [((0 : Int), "a"), (5, "b"), (5, "c"), (-1, "d")]).items = ["b", "c", "a", "d"] ∧
      ([((0 : Int), "a"), (5, "b"), (5, "c"), (-1, "d")].mergeSort Ranked.precedes).map (·.2) =
        ["b", "c", "a", "d"] ∧
      (Ranked.ofList [(50, Backend.conditions), (100, .sql), (100, .conditions)]).find (.conditions []) =
        .ok .conditions := by
  have ranked : (Ranked.ofList [((0 : Int), "a"), (5, "b"), (5, "c"), (-1, "d")]).items =
      ["b", "c", "a", "d"] := by
    decide
  refine ⟨ranked, (Ranked.ofList_stable_sort.1 _).1.symm.trans ranked, ?_⟩
  exact (Ranked.ofList_stable_sort.2.1 _ _ _).mpr ⟨100, [(50, .conditions)], [], by decide, by simp, by simp⟩

end QueryFilters
