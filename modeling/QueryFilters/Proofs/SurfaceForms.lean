import QueryFilters.Proofs.TupleValues
import QueryFilters.Proofs.Syntaxes
import QueryFilters.Proofs.Execution
import QueryFilters.Proofs.Firing

/-!
# Surface forms of ordinary filters

A filter on a column that no function claims can be written in several ways: an object of filter
words to values under the column (the map form); a value under the column carrying its filter
word (`age[gt]`), or carrying none, when the word is IN for an array and equality for anything
else; a tuple of columns with a tuple of values; and a tuple of columns with an object of tuples
of values, one per filter word. Each shorter form reads as the map forms it stands for
(`Query.read_surface_forms`), for column names that a tuple can carry: no comma, quote or
bracket, and, for a column carrying its word, no line break. Otherwise the forms part
(`Query.read_surface_form_exceptions`).
-/

namespace QueryFilters

/-! ### A query of one entry that no function claims -/

theorem PassM.run_lift {α : Type} (o : Outcome α) (s : PassState) :
    (PassM.lift o).run s = match o with | .ok a => .ok a s | .error e => .error e s := by
  cases o <;> rfl

theorem readEntry_run_of_refused {sc : Scope} {s : PassState} {c : String} {v : Json}
    (refused : Invocation.supports sc s c v = .ok false) :
    (readEntry sc c v).run s = (PassM.lift (Shape.reading c v)).run s := by
  unfold readEntry
  have found : (Reader.order.findM? fun reader => reader.supports sc s c v) =
      .ok ((Shape.order.find? (·.supports c v)).map .shape) := by
    rw [Reader.order, List.findM?, Reader.findM?_shapes]
    simp [Reader.supports, refused, bind, Except.bind]
  simp only [EStateM.run_bind, EStateM.run_get, found, PassM.run_lift]
  unfold Shape.reading
  cases Shape.order.find? (·.supports c v) with
  | none => rfl
  | some sh => simp only [Option.map_some, Reader.parse, PassM.run_lift]

/-- A query of one entry that no way of recognition accepts reads as the entry's shape reads it,
failures included. -/
theorem Query.read_of_unrecognised {r : Registry} {column c : String} {v : Json}
    (unrecognised : Recognition.find? (Query.scope [(c, v)] r column) {} c v = .ok none) :
    Query.read r column [(c, v)] = Shape.reading c v := by
  have refused : Invocation.supports (Query.scope [(c, v)] r column) {} c v = .ok false := by
    simp [Invocation.supports, PassState.isConsumed, unrecognised, Except.map]
  unfold Query.read readEntries readEntries
  simp only [Query.scope] at refused
  simp only [EStateM.run_bind, readEntry_run_of_refused refused, PassM.run_lift]
  cases Shape.reading c v with
  | error e => rfl
  | ok fs => simp [EStateM.run_pure]

/-- A name that the registry leaves to ordinary filters: not the function column, and neither a
function's name nor a parameter. -/
def Registry.FreeName (r : Registry) (column k : String) : Prop :=
  k ≠ column ∧ ∀ e ∈ r.entries, e.name ≠ k ∧ k ∉ e.parameters

section Free
variable {r : Registry} {column : String}

theorem Registry.FreeName.unregistered {k : String} (free : r.FreeName column k) : r.isRegistered k = false := by
  simpa [Registry.isRegistered] using fun e member => (free.2 e member).1

theorem Recognition.find?_of_free {c : String} (free : r.FreeName column c) (plain : Tuple.isTupleText c = false)
    (v : Json) : Recognition.find? (Query.scope [(c, v)] r column) {} c v = .ok none := by
  have unlisted := Scope.listsParameter_of_absent (q := [(c, v)]) (r := r) (by simpa using free.1.symm) c
  have uncompleted : Invocation.completed (Query.scope [(c, v)] r column) [(c, v)] c = [] := by
    simp [Invocation.completed, Query.scope, Registry.namesByParameter_eq_nil fun e member => (free.2 e member).2]
  rw [Recognition.find?_of_plain {} plain free.unregistered free.1 v, unlisted, uncompleted]
  simp

/-- A tuple led by a free name is recognised by no way, unless it is the function column: no
function is led by it, and no function has all its columns as parameters. -/
theorem Recognition.find?_of_free_tuple {k : String} (tuple : Tuple.isTupleText k = true) (other : k ≠ column)
    {t : Tuple} (parsed : Tuple.parse k = .ok t) {d : String} {ds : List String}
    (columns : t.columns = d :: ds) (free : r.FreeName column d) (v : Json) :
    Recognition.find? (Query.scope [(k, v)] r column) {} k v = .ok none := by
  have unlisted := Scope.listsParameter_of_absent (q := [(k, v)]) (r := r) (by simpa using other.symm) k
  have unnamed : r.namesByAllParameters t.columns = [] :=
    Registry.namesByAllParameters_eq_nil fun e member perm =>
      (free.2 e member).2 (perm.subset (by simp [columns]))
  rw [Recognition.find?_of_tuple {} tuple other unlisted parsed v, unnamed]
  simp [Tuple.firstColumn?, columns, free.1]

end Free

/-! ### The shapes of an entry -/

namespace Shape

theorem reading_object {c : String} (plain : Tuple.isTupleText c = false) (entries : List (String × Json)) :
    reading c (.obj entries) = entries.mapM fun e => Filter.create c e.1 (.raw e.2) := by
  simp [reading, order, supports, plain, Json.isObject, Tuple.isTupleValue, parse]

theorem reading_scalar {c : String} {v : Json} (plain : Tuple.isTupleText c = false)
    (object : v.isObject = false) (scalar : Tuple.isTupleValue v = false) :
    reading c v = (fun f => [f]) <$> columnFilter c v := by
  simp [reading, order, supports, plain, object, scalar, parse]

theorem reading_tuple_tuple {k raw : String} (tuple : Tuple.isTupleText k = true)
    (tupleValue : Tuple.isTupleText raw = true) :
    reading k (.str raw) = tupleColumnTupleValue.parse k (.str raw) := by
  simp [reading, order, supports, tuple, tupleValue, Tuple.isTupleValue]

theorem reading_tuple_object {k : String} (tuple : Tuple.isTupleText k = true) (entries : List (String × Json)) :
    reading k (.obj entries) = tupleColumnObjectValue.parse k (.obj entries) := by
  simp [reading, order, supports, tuple, Tuple.isTupleValue, Json.isObject]

end Shape

/-! ### Column names and filter words -/

namespace Tuple

/-- A column name that the surface forms carry: not empty, with no blank at either end, no tuple,
and free of the characters that quote or split tuples and mark filter words. -/
structure ColumnName (c : String) : Prop where
  nonempty : c ≠ ""
  trimmed : Text.trimChars c.toList = c.toList
  notTuple : isTupleText c = false
  ordinary : ∀ x ∈ c.toList, x ≠ '"' ∧ x ≠ '[' ∧ x ≠ ']' ∧ x ≠ ','

/-- A filter word that a column carries: some ASCII letters and underscores. -/
structure FilterWord (f : String) : Prop where
  nonempty : f ≠ ""
  letters : ∀ x ∈ f.toList, isFilterChar x = true

/-- A column of a tuple of columns: a well-formed token with a name, not between quotes, and no
tuple. -/
structure ColumnToken (d : String) : Prop where
  token : WellFormedToken d
  named : d ≠ ""
  unquoted : isQuoted d.toList = false
  notTuple : isTupleText d = false

theorem FilterWord.ordinary {f : String} (word : FilterWord f) :
    ∀ x ∈ f.toList, x ≠ '"' ∧ x ≠ '[' ∧ x ≠ ']' ∧ x ≠ ',' := by
  intro x mem
  have letter := word.letters x mem
  refine ⟨?_, ?_, ?_, ?_⟩ <;> (rintro rfl; simp [isFilterChar] at letter)

theorem withFilter_toList (c f : String) :
    (c ++ "[" ++ f ++ "]").toList = (c.toList ++ '[' :: f.toList) ++ [']'] := by
  simp

namespace ColumnName
variable {c : String} (name : ColumnName c)
include name

theorem passes (depth : Nat) : Passes ',' depth c.toList :=
  Passes.ordinary name.ordinary

theorem head_ne_quote : ∀ x ∈ c.toList.head?, x ≠ '"' :=
  fun x mem => (name.ordinary x (List.mem_of_mem_head? mem)).1

theorem columnToken : ColumnToken c :=
  ⟨WellFormedToken.of_passes (name.passes 0) name.trimmed, name.nonempty,
    isQuoted_of_head name.head_ne_quote, name.notTuple⟩

/-- A column name carries no filter word: it does not end in a bracket. -/
theorem splitColumn : splitColumn c = (c, none) := by
  have unsplit : filterSuffix? c.toList = none := by
    unfold filterSuffix?
    split
    · next body reversed =>
      have closing : ']' ∈ c.toList := List.mem_reverse.mp (by rw [reversed]; simp)
      exact absurd rfl (name.ordinary ']' closing).2.2.1
    · rfl
  simp [Tuple.splitColumn, name.trimmed, unsplit]

variable {f : String}

theorem withFilter_head : (c ++ "[" ++ f ++ "]").toList.head? = c.toList.head? := by
  have named : c.toList ≠ [] := fun empty => name.nonempty (String.toList_eq_nil_iff.mp empty)
  obtain ⟨x, rest, split⟩ := List.exists_cons_of_ne_nil named
  simp [split]

theorem withFilter_trimmed : Text.trimChars (c ++ "[" ++ f ++ "]").toList = (c ++ "[" ++ f ++ "]").toList := by
  apply Text.trimChars_eq_self
  · rw [name.withFilter_head]
    exact Text.head_of_trimmed name.trimmed
  · rw [withFilter_toList, List.getLast?_concat]
    simp [Text.isBlank]

variable (word : FilterWord f)
include word

theorem withFilter_columnToken : ColumnToken (c ++ "[" ++ f ++ "]") := by
  have passes : Passes ',' 0 (c ++ "[" ++ f ++ "]").toList := by
    rw [withFilter_toList, List.append_assoc, List.cons_append]
    exact (name.passes 0).append (Passes.bracketed (Passes.ordinary word.ordinary))
  refine ⟨WellFormedToken.of_passes passes name.withFilter_trimmed, by simp, ?_, ?_⟩
  · rw [isQuoted_of_head]
    rw [name.withFilter_head]
    exact name.head_ne_quote
  · rw [isTupleText, name.withFilter_trimmed, isParenthesized, withFilter_toList, List.getLast?_concat]
    simp

/-- A column name on one line, followed by a filter word between brackets, splits into the two.
The word is read from the end: its letters are taken back to the opening bracket. -/
theorem splitColumn_withFilter (line : '\n' ∉ c.toList) :
    Tuple.splitColumn (c ++ "[" ++ f ++ "]") = (c, some f) := by
  have letters : ∀ x ∈ f.toList.reverse, isFilterChar x = true :=
    fun x mem => word.letters x (List.mem_reverse.mp mem)
  have taken : (f.toList.reverse ++ '[' :: c.toList.reverse).takeWhile isFilterChar = f.toList.reverse := by
    rw [List.takeWhile_append_of_pos letters]
    simp [isFilterChar]
  have dropped : (f.toList.reverse ++ '[' :: c.toList.reverse).dropWhile isFilterChar = '[' :: c.toList.reverse := by
    rw [List.dropWhile_append_of_pos letters]
    simp [isFilterChar]
  have suffix : filterSuffix? (c ++ "[" ++ f ++ "]").toList = some (c.toList, f.toList) := by
    simp [filterSuffix?, taken, dropped, word.nonempty, name.nonempty, line]
  rw [Tuple.splitColumn, name.withFilter_trimmed, suffix]
  simp [name.trimmed]

end ColumnName

theorem columns_of_unquoted {ds : List String} (unquoted : ∀ d ∈ ds, isQuoted d.toList = false) :
    (⟨ds⟩ : Tuple).columns = ds :=
  columns_of_unquote fun d mem => by simp [unquote, unquoted d mem]

/-- A tuple of columns reads as its columns. -/
theorem parse_columnTokens {ds : List String} (nonempty : ds ≠ []) (tokens : ∀ d ∈ ds, ColumnToken d) :
    Tuple.parse (text ds) = .ok ⟨ds⟩ ∧ (⟨ds⟩ : Tuple).columns = ds := by
  have notEmpty : ds ≠ [""] := fun single => (tokens "" (by simp [single])).named rfl
  exact ⟨parse_text_wellFormed nonempty notEmpty fun d mem => (tokens d mem).token,
    columns_of_unquoted fun d mem => (tokens d mem).unquoted⟩

end Tuple

/-! ### Each form read -/

theorem List.mapM_singleton_except {α β ε : Type} (g : α → Except ε β) (a : α) :
    [a].mapM g = (fun b => [b]) <$> g a := by
  cases h : g a <;> simp [List.mapM_cons, h]

theorem List.flatten_mapM_singleton {α β ε : Type} (g : α → Except ε β) :
    ∀ l : List α, List.flatten <$> l.mapM (fun a => (fun b => [b]) <$> g a) = l.mapM g
  | [] => rfl
  | a :: l => by
    rw [List.mapM_cons, List.mapM_cons, ← List.flatten_mapM_singleton g l]
    cases g a <;> cases l.mapM (fun a => (fun b => [b]) <$> g a) <;> rfl

/-- The filters of one filter word over a tuple of columns, for a tuple of well-formed tokens of
the right count: the word's filter of each column's value. -/
theorem Shape.wordFilters_of_tokens (k : String) {cs ts : List String} {w : String} (notIn : w.toLower ≠ "in")
    (tokens : ∀ t ∈ ts, Tuple.WellFormedToken t) (notEmpty : ts ≠ [""]) (count : ts.length = cs.length)
    (nonempty : cs ≠ []) :
    Shape.wordFilters k cs w (.str (Tuple.text ts)) =
      (⟨ts⟩ : Tuple).values >>= fun vs => (cs.zip vs).mapM fun p => Filter.create p.1 w (.raw p.2) := by
  have some : ts ≠ [] := fun none => nonempty (List.length_eq_zero_iff.mp (by simp [← count, none]))
  simp [wordFilters, notIn, Tuple.isTupleText_text, Tuple.parseCount,
    Tuple.parse_text_wellFormed some notEmpty tokens, count, Json.asString?, bind, Except.bind, pure, Except.pure]

section Forms
variable {r : Registry} {column : String}

theorem Query.read_map_form {c : String} (plain : Tuple.isTupleText c = false) (free : r.FreeName column c)
    (entries : List (String × Json)) :
    Query.read r column [(c, .obj entries)] = entries.mapM fun e => Filter.create c e.1 (.raw e.2) := by
  rw [Query.read_of_unrecognised (Recognition.find?_of_free free plain _), Shape.reading_object plain]

theorem Query.read_single_word {c : String} (plain : Tuple.isTupleText c = false) (free : r.FreeName column c)
    (w : String) (v : Json) :
    Query.read r column [(c, .obj [(w, v)])] = (fun f => [f]) <$> Filter.create c w (.raw v) := by
  rw [Query.read_map_form plain free, List.mapM_singleton_except]

theorem Query.read_column_value {c : String} {v : Json} (plain : Tuple.isTupleText c = false)
    (free : r.FreeName column c) (object : v.isObject = false) (scalar : Tuple.isTupleValue v = false) :
    Query.read r column [(c, v)] = (fun f => [f]) <$> Shape.columnFilter c v := by
  rw [Query.read_of_unrecognised (Recognition.find?_of_free free plain _), Shape.reading_scalar plain object scalar]

theorem Query.read_carried_word {c f : String} {v : Json} (name : Tuple.ColumnName c) (line : '\n' ∉ c.toList)
    (word : Tuple.FilterWord f) (free : r.FreeName column c) (freeCarrying : r.FreeName column (c ++ "[" ++ f ++ "]"))
    (object : v.isObject = false) (scalar : Tuple.isTupleValue v = false) :
    Query.read r column [(c ++ "[" ++ f ++ "]", v)] = Query.read r column [(c, .obj [(f, v)])] := by
  rw [Query.read_column_value (name.withFilter_columnToken word).notTuple freeCarrying object scalar,
    Query.read_single_word name.notTuple free]
  simp [Shape.columnFilter, name.splitColumn_withFilter word line]

theorem Query.read_default_word {c : String} {v : Json} (name : Tuple.ColumnName c) (free : r.FreeName column c)
    (object : v.isObject = false) (scalar : Tuple.isTupleValue v = false) :
    Query.read r column [(c, v)] = Query.read r column [(c, .obj [(if v.isArray then "in" else "eq", v)])] := by
  rw [Query.read_column_value name.notTuple free object scalar, Query.read_single_word name.notTuple free]
  simp [Shape.columnFilter, name.splitColumn]

/-- A tuple of columns with a tuple of values reads as each column with its value, in order. -/
theorem Query.read_tupleColumn_tupleValue {ds ts : List String} {vs : List Json} (nonempty : ds ≠ [])
    (columns : ∀ d ∈ ds, Tuple.ColumnToken d ∧ r.FreeName column d) (key : Tuple.text ds ≠ column)
    (tokens : ∀ t ∈ ts, Tuple.WellFormedToken t) (notEmpty : ts ≠ [""]) (count : ts.length = ds.length)
    (read : (⟨ts⟩ : Tuple).values = .ok vs) (scalar : ∀ v ∈ vs, Tuple.isTupleValue v = false) :
    Query.read r column [(Tuple.text ds, .str (Tuple.text ts))] =
      List.flatten <$> (ds.zip vs).mapM fun p => Query.read r column [p] := by
  obtain ⟨parsedKey, named⟩ := Tuple.parse_columnTokens nonempty fun d mem => (columns d mem).1
  have some : ts ≠ [] := fun none => nonempty (List.length_eq_zero_iff.mp (by simp [← count, none]))
  have parsedValue := Tuple.parse_text_wellFormed some notEmpty tokens
  obtain ⟨d, rest, rfl⟩ := List.exists_cons_of_ne_nil nonempty
  -- a value read from a token is no object, so each column with its value reads as its filter
  have each : ∀ p ∈ (d :: rest).zip vs, Query.read r column [p] = (fun f => [f]) <$> Shape.columnFilter p.1 p.2 := by
    rintro ⟨c, v⟩ mem
    obtain ⟨token, free⟩ := columns c (List.of_mem_zip mem).1
    obtain ⟨t, -, valued⟩ := List.mem_of_mapM_except read v (List.of_mem_zip mem).2
    exact Query.read_column_value token.notTuple free (Tuple.valueOf_isObject valued) (scalar v (List.of_mem_zip mem).2)
  rw [Query.read_of_unrecognised (Recognition.find?_of_free_tuple (Tuple.isTupleText_text _) key parsedKey named
      (columns d (by simp)).2 _),
    Shape.reading_tuple_tuple (Tuple.isTupleText_text _) (Tuple.isTupleText_text _),
    List.mapM_congr_of_mem each, List.flatten_mapM_singleton]
  simp [Shape.parse, parsedKey, named, Tuple.parseCount, parsedValue, count, read, Json.asString?, bind, Except.bind,
    pure, Except.pure]

/-- A tuple of columns with an object of tuples of values reads, word after word, as each column
with that word and its value, in order; a value that does not read fails the whole. -/
theorem Query.read_tupleColumn_objectValue {cs : List String} {groups : List (String × List String)}
    (nonempty : cs ≠ []) (columns : ∀ c ∈ cs, Tuple.ColumnToken c ∧ r.FreeName column c ∧ (Tuple.splitColumn c).2 = none)
    (key : Tuple.text cs ≠ column)
    (written : ∀ g ∈ groups, g.1.toLower ≠ "in" ∧ (∀ t ∈ g.2, Tuple.WellFormedToken t) ∧ g.2 ≠ [""] ∧
      g.2.length = cs.length) :
    Query.read r column [(Tuple.text cs, .obj (groups.map fun g => (g.1, .str (Tuple.text g.2))))] =
      List.flatten <$> groups.mapM fun g => (⟨g.2⟩ : Tuple).values >>= fun vs =>
        List.flatten <$> (cs.zip vs).mapM fun p => Query.read r column [(p.1, .obj [(g.1, p.2)])] := by
  obtain ⟨parsedKey, named⟩ := Tuple.parse_columnTokens nonempty fun c mem => (columns c mem).1
  have each : ∀ g ∈ groups, (⟨g.2⟩ : Tuple).values >>= (fun vs =>
      List.flatten <$> (cs.zip vs).mapM fun p => Query.read r column [(p.1, .obj [(g.1, p.2)])]) =
        Shape.wordFilters (Tuple.text cs) cs g.1 (.str (Tuple.text g.2)) := by
    intro g member
    obtain ⟨notIn, tokens, notEmpty, count⟩ := written g member
    rw [Shape.wordFilters_of_tokens _ notIn tokens notEmpty count nonempty]
    cases (⟨g.2⟩ : Tuple).values with
    | error e => rfl
    | ok vs =>
      have single : ∀ p ∈ cs.zip vs, Query.read r column [(p.1, .obj [(g.1, p.2)])] =
          (fun f => [f]) <$> Filter.create p.1 g.1 (.raw p.2) := fun p mem => by
        obtain ⟨token, free, -⟩ := columns p.1 (List.of_mem_zip mem).1
        exact Query.read_single_word token.notTuple free g.1 p.2
      simp only [bind, Except.bind]
      rw [List.mapM_congr_of_mem single, List.flatten_mapM_singleton]
  obtain ⟨c, rest, rfl⟩ := List.exists_cons_of_ne_nil nonempty
  rw [Query.read_of_unrecognised (Recognition.find?_of_free_tuple (Tuple.isTupleText_text _) key parsedKey named
      (columns c (by simp)).2.1 _),
    Shape.reading_tuple_object (Tuple.isTupleText_text _), List.mapM_congr_of_mem each]
  -- no column carries a word, which the object's words would contradict
  have unfiltered : ((c :: rest).any fun c => (Tuple.splitColumn c).2.isSome) = false := by
    simpa using fun c mem => (columns c mem).2.2
  have parsed : Tuple.parse (Tuple.text (c :: rest)) = pure ⟨c :: rest⟩ := parsedKey
  simp only [Shape.parse, parsed, named, pure_bind, unfiltered, Bool.false_eq_true, if_false]
  simp [List.mapM_map, Function.comp_def]

end Forms

/-! ### The surface forms -/

/-- The surface forms of ordinary filters, on column names that a tuple can carry and that the
registry leaves free, read as the map forms they stand for. The map form reads as the filter of
each of its words, in order, failing with the first that fails. A column carrying a filter word
reads as the map form of that word, and a column carrying none as that of IN for an array and of
equality for any other value. A tuple of columns, each of which may carry its word, with a tuple of
values reads as each column with its value; with an object of tuples of values, as each column
with each word and its value, word after word. -/
theorem Query.read_surface_forms (r : Registry) (column : String) :
    (∀ (c : String) (entries : List (String × Json)), Tuple.ColumnName c → r.FreeName column c →
      Query.read r column [(c, .obj entries)] = entries.mapM fun e => Filter.create c e.1 (.raw e.2)) ∧
    (∀ (c f : String) (v : Json), Tuple.ColumnName c → '\n' ∉ c.toList → Tuple.FilterWord f →
      r.FreeName column c → r.FreeName column (c ++ "[" ++ f ++ "]") →
      v.isObject = false → Tuple.isTupleValue v = false →
      Query.read r column [(c ++ "[" ++ f ++ "]", v)] = Query.read r column [(c, .obj [(f, v)])]) ∧
    (∀ (c : String) (v : Json), Tuple.ColumnName c → r.FreeName column c →
      v.isObject = false → Tuple.isTupleValue v = false →
      Query.read r column [(c, v)] = Query.read r column [(c, .obj [(if v.isArray then "in" else "eq", v)])]) ∧
    (∀ (ds ts : List String) (vs : List Json), ds ≠ [] →
      (∀ d ∈ ds, (Tuple.ColumnName d ∨ ∃ c f, Tuple.ColumnName c ∧ Tuple.FilterWord f ∧ d = c ++ "[" ++ f ++ "]") ∧
        r.FreeName column d) →
      Tuple.text ds ≠ column →
      (∀ t ∈ ts, Tuple.WellFormedToken t) → ts ≠ [""] → ts.length = ds.length →
      (⟨ts⟩ : Tuple).values = .ok vs → (∀ v ∈ vs, Tuple.isTupleValue v = false) →
      Query.read r column [(Tuple.text ds, .str (Tuple.text ts))] =
        List.flatten <$> (ds.zip vs).mapM fun p => Query.read r column [p]) ∧
    (∀ (cs : List String) (groups : List (String × List String)), cs ≠ [] →
      (∀ c ∈ cs, Tuple.ColumnName c ∧ r.FreeName column c) → Tuple.text cs ≠ column →
      (∀ g ∈ groups, g.1.toLower ≠ "in" ∧ (∀ t ∈ g.2, Tuple.WellFormedToken t) ∧ g.2 ≠ [""] ∧
        g.2.length = cs.length) →
      Query.read r column [(Tuple.text cs, .obj (groups.map fun g => (g.1, .str (Tuple.text g.2))))] =
        List.flatten <$> groups.mapM fun g => (⟨g.2⟩ : Tuple).values >>= fun vs =>
          List.flatten <$> (cs.zip vs).mapM fun p => Query.read r column [(p.1, .obj [(g.1, p.2)])]) := by
  refine ⟨fun c entries name free => Query.read_map_form name.notTuple free entries,
    fun c f v name line word free freeCarrying object scalar =>
      Query.read_carried_word name line word free freeCarrying object scalar,
    fun c v name free object scalar => Query.read_default_word name free object scalar, ?_, ?_⟩
  · intro ds ts vs nonempty columns key tokens notEmpty count read scalar
    refine Query.read_tupleColumn_tupleValue nonempty (fun d mem => ⟨?_, (columns d mem).2⟩) key tokens notEmpty
      count read scalar
    rcases (columns d mem).1 with name | ⟨c, f, name, word, rfl⟩
    · exact name.columnToken
    · exact name.withFilter_columnToken word
  · intro cs groups nonempty columns key written
    refine Query.read_tupleColumn_objectValue nonempty (fun c mem => ?_) key written
    obtain ⟨name, free⟩ := columns c mem
    exact ⟨name.columnToken, free, by rw [name.splitColumn]⟩

theorem Query.read_surface_forms_examples :
    Query.read {} "fun" [("age", .obj [("gte", .int 18), ("lt", .int 65)])] =
        [("gte", .int 18), ("lt", .int 65)].mapM (fun e => Filter.create "age" e.1 (.raw e.2)) ∧
      Query.read {} "fun" [("age" ++ "[" ++ "gt" ++ "]", .int 18)] = Query.read {} "fun" [("age", .obj [("gt", .int 18)])] ∧
      Query.read {} "fun" [("tags", .arr [.str "a"])] =
        Query.read {} "fun" [("tags", .obj [(if (Json.arr [.str "a"]).isArray then "in" else "eq", .arr [.str "a"])])] ∧
      Query.read {} "fun" [(Tuple.text ["age" ++ "[" ++ "gt" ++ "]", "name"], .str (Tuple.text ["18", "Jon"]))] =
        List.flatten <$> (["age" ++ "[" ++ "gt" ++ "]", "name"].zip [.int 18, .str "Jon"]).mapM
          (fun p => Query.read {} "fun" [p]) ∧
      Query.read {} "fun" [(Tuple.text ["age", "name"],
          .obj ([("eq", ["18", "Jon"])].map fun g => (g.1, .str (Tuple.text g.2))))] =
        List.flatten <$> [("eq", ["18", "Jon"])].mapM (fun g => (⟨g.2⟩ : Tuple).values >>= fun vs =>
          List.flatten <$> (["age", "name"].zip vs).mapM fun p => Query.read {} "fun" [(p.1, .obj [(g.1, p.2)])]) := by
  have age : Tuple.ColumnName "age" := ⟨by decide, by decide, by decide, by simp⟩
  have name : Tuple.ColumnName "name" := ⟨by decide, by decide, by decide, by simp⟩
  have tags : Tuple.ColumnName "tags" := ⟨by decide, by decide, by decide, by simp⟩
  have eighteen : Tuple.ColumnName "18" := ⟨by decide, by decide, by decide, by simp⟩
  have jon : Tuple.ColumnName "Jon" := ⟨by decide, by decide, by decide, by simp⟩
  have gt : Tuple.FilterWord "gt" := ⟨by decide, by simp [Tuple.isFilterChar]⟩
  have free : ∀ k, k ≠ "fun" → (({} : Registry)).FreeName "fun" k := fun k other => ⟨other, by simp⟩
  have tokens : ∀ t ∈ ["18", "Jon"], Tuple.WellFormedToken t := by
    simpa using ⟨eighteen.columnToken.token, jon.columnToken.token⟩
  have read : (⟨["18", "Jon"]⟩ : Tuple).values = .ok [.int 18, .str "Jon"] := by with_unfolding_all rfl
  have forms := Query.read_surface_forms {} "fun"
  refine ⟨forms.1 "age" _ age (free _ (by decide)),
    forms.2.1 "age" "gt" (.int 18) age (by decide) gt (free _ (by decide)) (free _ (by decide)) rfl rfl,
    forms.2.2.1 "tags" (.arr [.str "a"]) tags (free _ (by decide)) rfl rfl,
    forms.2.2.2.1 _ ["18", "Jon"] _ (by simp) ?_ (by decide) tokens (by decide) rfl read ?_,
    forms.2.2.2.2 ["age", "name"] [("eq", ["18", "Jon"])] (by simp) ?_ (by decide) ?_⟩
  · simp only [List.mem_cons, List.not_mem_nil, or_false]
    rintro d (rfl | rfl)
    · exact ⟨.inr ⟨"age", "gt", age, gt, rfl⟩, free _ (by decide)⟩
    · exact ⟨.inl name, free _ (by decide)⟩
  · simp [Tuple.isTupleValue]
    decide
  · simp only [List.mem_cons, List.not_mem_nil, or_false]
    rintro c (rfl | rfl)
    · exact ⟨age, free _ (by decide)⟩
    · exact ⟨name, free _ (by decide)⟩
  · simp only [List.mem_cons, List.not_mem_nil, or_false]
    rintro g rfl
    exact ⟨by decide +kernel, tokens, by decide, rfl⟩

/-- Where a surface form and the map form it would stand for part: a comma in a column splits the
tuple of columns, a quote in a column leaves it open, the single empty token is an empty tuple, a
filter word after a line break stays in the column, and a tuple of columns that is the function
column lists functions. -/
theorem Query.read_surface_form_exceptions :
    (Query.read {} "fun" [("(a,b)", .str "(1)")] = .error (.tupleCount 2 1) ∧
      Query.read {} "fun" [("a,b", .int 1)] = .ok [.comparison "a,b" .eq (.raw (.int 1)) none]) ∧
    (Query.read {} "fun" [("(a\"b)", .str "(1)")] = .error (.malformedTuple "(a\"b)" .unterminatedQuote) ∧
      Query.read {} "fun" [("a\"b", .int 1)] = .ok [.comparison "a\"b" .eq (.raw (.int 1)) none]) ∧
    (Query.read {} "fun" [("(a)", .str "()")] = .error (.malformedTuple "()" .empty) ∧
      Query.read {} "fun" [("a", .str "")] = .ok [.comparison "a" .eq (.raw (.str "")) none]) ∧
    (Query.read {} "fun" [("a\nb[gt]", .int 1)] = .ok [.comparison "a\nb[gt]" .eq (.raw (.int 1)) none] ∧
      Query.read {} "fun" [("a\nb", .obj [("gt", .int 1)])] = .ok [.comparison "a\nb" .gt (.raw (.int 1)) none]) ∧
    (Query.read {} "(a, b)" [("(a, b)", .str "(1, 2)")] = .error (.listNotFunctions "(1, 2)") ∧
      Query.read {} "(a, b)" [("a", .int 1)] = .ok [.comparison "a" .eq (.raw (.int 1)) none] ∧
      Query.read {} "(a, b)" [("b", .int 2)] = .ok [.comparison "b" .eq (.raw (.int 2)) none]) := by
  refine ⟨⟨by rfl, by with_unfolding_all rfl⟩, ⟨by rfl, by with_unfolding_all rfl⟩, ⟨by rfl, by with_unfolding_all rfl⟩,
    ⟨by with_unfolding_all rfl, by with_unfolding_all rfl⟩,
    ⟨by with_unfolding_all rfl, by with_unfolding_all rfl, by with_unfolding_all rfl⟩⟩

end QueryFilters
