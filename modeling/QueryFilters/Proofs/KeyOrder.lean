import QueryFilters.Proofs.Parts

/-!
The order of a query's entries does not matter: a query reads into filters exactly when a
reordering of it does, and then into the same filters, in some order. A pass reads the query
only through its lookups (`readEntries_congr`), so the reordering is read as a run of the parts
of the first query, in the order of their first entries in the reordering; and a run of the same
parts in another order succeeds alike and gives the same filters (`Query.runParts_perm`).
-/
namespace QueryFilters

section KeyOrder
variable {r : Registry} {column : String} (wf : r.WellFormed) (sep : r.Separated column)
  {q q' : Query} (distinct : (q.map Prod.fst).Nodup) (perm : q.Perm q')
include wf sep distinct perm

/-- A reordering of a query reads as the run of the first query's parts in the order of their
first entries in the reordering. -/
theorem Query.read_reordered_eq_ok_iff {fs : List Filter} :
    Query.read r column q' = .ok fs ↔ ∃ s, q.runParts r column (q.newParts r column [] q') {} = some (fs,s) := by
  have lookups := Keyed.get?_perm distinct perm
  rw [Query.read_eq_ok_iff,← readEntries_congr lookups q',
    Query.readEntries_ends_runParts wf (sep.on _) distinct q' (fun e named => perm.mem_iff.mpr named)
      ((perm.map Prod.fst).nodup_iff.mp distinct) Query.tracks_empty (by simp)]

omit wf sep distinct in
theorem Query.newParts_reordered : (q.newParts r column [] q).Perm (q.newParts r column [] q') :=
  Query.newParts_perm (fun _ => (perm.map Prod.fst).mem_iff) []

end KeyOrder

/-- Reordering the entries of a query keeps whether it reads into filters, and the filters up to
their order. -/
theorem Query.read_perm {r : Registry} {column : String} (reachable : r.Reachable) (sep : r.Separated column)
    {q q' : Query} (distinct : (q.map Prod.fst).Nodup) (perm : q.Perm q') :
    ((∃ fs, Query.read r column q = .ok fs) ↔ ∃ fs', Query.read r column q' = .ok fs') ∧
      ∀ fs fs', Query.read r column q = .ok fs → Query.read r column q' = .ok fs' → fs.Perm fs' := by
  have wf := reachable.wellFormed
  have parts : (q.newParts r column [] q).Perm (q.newParts r column [] q') := Query.newParts_reordered perm
  have fresh : ({} : PassState).firedNames.Nodup := by simp
  refine ⟨⟨?_,?_⟩,?_⟩
  · rintro ⟨fs,read⟩
    obtain ⟨s,ran⟩ := (Query.read_eq_ok_iff_runParts wf sep distinct).mp read
    obtain ⟨fs',s',ran',-⟩ := Query.runParts_perm parts fresh ran
    exact ⟨fs',(Query.read_reordered_eq_ok_iff wf sep distinct perm).mpr ⟨s',ran'⟩⟩
  · rintro ⟨fs',read'⟩
    obtain ⟨s',ran'⟩ := (Query.read_reordered_eq_ok_iff wf sep distinct perm).mp read'
    obtain ⟨fs,s,ran,-⟩ := Query.runParts_perm parts.symm fresh ran'
    exact ⟨fs,(Query.read_eq_ok_iff_runParts wf sep distinct).mpr ⟨s,ran⟩⟩
  · intro fs fs' read read'
    obtain ⟨s,ran⟩ := (Query.read_eq_ok_iff_runParts wf sep distinct).mp read
    obtain ⟨s',ran'⟩ := (Query.read_reordered_eq_ok_iff wf sep distinct perm).mp read'
    obtain ⟨fs'',s'',ran'',permuted⟩ := Query.runParts_perm parts fresh ran
    rw [ran'] at ran''
    obtain ⟨rfl,-⟩ := Prod.mk.inj (Option.some.inj ran'')
    exact permuted

/-- A parameter column before the function column, or after it: the same reading. -/
theorem Query.read_perm_listing_moved :
    ((∃ fs, Query.read ⟨[⟨"f",["a","b"],.host 0,[]⟩]⟩ "F"
        [("b",.int 2),("F",.arr [.str "f"]),("a",.int 1)] = .ok fs) ↔
      ∃ fs', Query.read ⟨[⟨"f",["a","b"],.host 0,[]⟩]⟩ "F"
        [("F",.arr [.str "f"]),("a",.int 1),("b",.int 2)] = .ok fs') ∧
    ∀ fs fs', Query.read ⟨[⟨"f",["a","b"],.host 0,[]⟩]⟩ "F"
        [("b",.int 2),("F",.arr [.str "f"]),("a",.int 1)] = .ok fs →
      Query.read ⟨[⟨"f",["a","b"],.host 0,[]⟩]⟩ "F"
        [("F",.arr [.str "f"]),("a",.int 1),("b",.int 2)] = .ok fs' → fs.Perm fs' :=
  Query.read_perm (@Registry.Reachable.register {} ⟨[⟨"f",["a","b"],.host 0,[]⟩]⟩ "f" ["a","b"] (.host 0) []
      .empty rfl) ⟨by simp,by simp,by simp,by decide⟩ (by decide)
    ((List.Perm.swap _ _ _).trans (List.Perm.cons _ (List.Perm.swap _ _ _)))

end QueryFilters
