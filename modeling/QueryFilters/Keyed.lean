/-!
# Keyed lists

A list of key–value pairs used as a map that keeps the order in which keys first arrived.
Putting a value under a key that is already there replaces the value in place, so the key
keeps its position; a new key goes last. Query objects, prepared values and every other map
of the library are such lists.
-/

namespace QueryFilters.Keyed

variable {α : Type}

/-- The value under a key, from its first entry. -/
def get? (k : String) : List (String × α) → Option α
  | [] => none
  | (k', v) :: rest => if k' = k then some v else get? k rest

/-- Puts a value under a key: a key already present keeps its position and takes the new
value, a new key goes last. -/
def put (k : String) (v : α) : List (String × α) → List (String × α)
  | [] => [(k, v)]
  | (k', v') :: rest => if k' = k then (k, v) :: rest else (k', v') :: put k v rest

/-- Puts every entry of the second list into the first, in order. -/
def merge (base more : List (String × α)) : List (String × α) :=
  more.foldl (fun acc e => put e.1 e.2 acc) base

/-- Builds a map from entries, later entries replacing earlier ones in place. -/
def ofList (entries : List (String × α)) : List (String × α) :=
  merge [] entries

/-- The keys in order. -/
def keys (m : List (String × α)) : List String :=
  m.map Prod.fst

@[simp] theorem get?_put_self (k : String) (v : α) (m : List (String × α)) :
    get? k (put k v m) = some v := by
  induction m with
  | nil => simp [put, get?]
  | cons e rest ih =>
    obtain ⟨k', v'⟩ := e
    by_cases h : k' = k
    · simp [put, get?, h]
    · simp [put, get?, h, ih]

theorem get?_put_ne {k j : String} (h : j ≠ k) (v : α) (m : List (String × α)) :
    get? j (put k v m) = get? j m := by
  induction m with
  | nil => simp [put, get?, Ne.symm h]
  | cons e rest ih =>
    obtain ⟨k', v'⟩ := e
    by_cases hk : k' = k
    · subst hk; simp [put, get?, Ne.symm h]
    · simp only [put, hk, if_false, get?]
      split <;> simp_all

/-- Putting keeps the keys already present in their order, and adds a new key last. -/
theorem keys_put (k : String) (v : α) (m : List (String × α)) :
    keys (put k v m) = if k ∈ keys m then keys m else keys m ++ [k] := by
  induction m with
  | nil => simp [put, keys]
  | cons e rest ih =>
    obtain ⟨k', v'⟩ := e
    simp only [keys] at ih
    by_cases h : k' = k
    · subst h; simp [put, keys]
    · simp only [put, h, if_false, keys, List.map_cons, List.mem_cons, ih]
      by_cases hm : k ∈ rest.map Prod.fst
      · simp [hm]
      · simp [hm, Ne.symm h]

end QueryFilters.Keyed
