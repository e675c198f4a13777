import QueryFilters.Proofs.Syntaxes

/-!
Invocations written out: a column named after a function, and a tuple column led by the function
column. Read in a pass in which the function has not fired, the first gives the invocation followed
by the argument of its one parameter, or by the values of a tuple of exactly as many tokens as it
has parameters, and fails otherwise. The second gives the invocation of the function its first
value token names, followed by the values after that token, one per parameter in order: the other
column tokens are labels only and values left over are dropped. It fails when a token does not read
as a value, when no function has that name, or when the function has more parameters than there are
values after its name. A tuple column that is also the parameter of a function the function column
lists is the one exception: while the function column is unread, the listing takes it. Main
statement: `Query.explicit_invocation_shapes`.
-/

namespace QueryFilters

/-! ### A tuple column is shorter than its tuple -/

namespace Tuple

theorem length_unquote_le (cs : List Char) : (unquote cs).length ≤ cs.length := by
  unfold unquote inner
  split
  · simp only [List.length_dropLast, List.length_drop]
    omega
  · exact Nat.le_refl _

theorem isTupleText_of_parse {raw : String} {t : Tuple} (parsed : parse raw = .ok t) : isTupleText raw = true := by
  unfold parse at parsed
  unfold isTupleText
  by_cases paren : isParenthesized (Text.trimChars raw.toList) = true
  · exact paren
  · simp [paren] at parsed

/-- Each column of a tuple is shorter than the tuple's text. -/
theorem length_column_lt {raw : String} {t : Tuple} (parsed : parse raw = .ok t) :
    ∀ c ∈ t.columns, c.length < raw.length := by
  have paren := isTupleText_of_parse parsed
  unfold isTupleText isParenthesized at paren
  have two : 2 ≤ (Text.trimChars raw.toList).length := by
    simp only [Bool.and_eq_true, decide_eq_true_eq] at paren
    exact paren.1.1
  unfold parse at parsed
  simp only at parsed
  split at parsed
  · cases parsed
  split at parsed
  · cases parsed
  split at parsed
  · next tokens splitted =>
    cases parsed
    intro c member
    simp only [columns, List.map_map, List.mem_map, Function.comp_def] at member
    obtain ⟨token, tokenMember, rfl⟩ := member
    calc (String.ofList (unquote (String.ofList token).toList)).length = (unquote token).length := by
          rw [String.length_ofList, String.toList_ofList]
      _ ≤ token.length := length_unquote_le token
      _ ≤ (inner (Text.trimChars raw.toList)).length := length_le_of_split splitted token tokenMember
      _ < (Text.trimChars raw.toList).length := length_inner_lt _ two
      _ ≤ raw.toList.length := length_trimChars_le _
      _ = raw.length := String.length_toList
  · cases parsed

/-- A tuple text is never its own first column. -/
theorem firstColumn?_ne_self {raw : String} {t : Tuple} (parsed : parse raw = .ok t) :
    t.firstColumn? ≠ some raw := by
  intro first
  have shorter := length_column_lt parsed raw (List.mem_of_mem_head? first)
  omega

end Tuple

/-! ### The values an invocation by name gives -/

namespace Invocation

theorem byNameArguments_one (p : String) (v : Json) :
    byNameArguments [p] v = if Tuple.isTupleValue v || v.isArray || v.isObject then none else some [(p, v)] :=
  rfl

/-- A function of several parameters takes its arguments from a tuple text of exactly as many
tokens, all of which read as values. -/
theorem byNameArguments_several {ps : List String} (several : 2 ≤ ps.length) {v : Json}
    {pairs : List (String × Json)} :
    byNameArguments ps v = some pairs ↔ ∃ raw t vals, v = .str raw ∧ Tuple.isTupleText raw = true ∧
      Tuple.parse raw = .ok t ∧ t.size = ps.length ∧ t.values = .ok vals ∧ pairs = ps.zip vals := by
  constructor
  · intro given
    rcases ps with _ | ⟨p, _ | ⟨p₂, rest⟩⟩
    · simp at several
    · simp at several
    · cases v with
      | str raw =>
        by_cases tuple : Tuple.isTupleText raw = true
        · simp only [byNameArguments, tuple, if_true, Option.map_eq_some_iff, Option.bind_eq_some_iff,
            Except.toOption_eq_some] at given
          obtain ⟨vals, ⟨t, counted, valued⟩, rfl⟩ := given
          obtain ⟨parsed, count⟩ := Tuple.parseCount_eq_ok.mp counted
          exact ⟨raw, t, vals, rfl, tuple, parsed, count, valued, rfl⟩
        · simp [byNameArguments, tuple] at given
      | _ => simp [byNameArguments] at given
  · rintro ⟨raw, t, vals, rfl, tuple, parsed, count, valued, rfl⟩
    exact byNameArguments_tuple several tuple (Tuple.parseCount_eq_ok.mpr ⟨parsed, count⟩) valued

/-! ### The invocation a tuple value makes -/

section TupleValue
variable {r : Registry} {raw : String} {t : Tuple} (parsed : Tuple.parse raw = .ok t)
include parsed

theorem tupleBlock_str_eq {n : Nat} (count : t.size = n) :
    tupleBlock r n (.str raw) = (t.values.toOption.bind fun vals => (r.find? ((vals.head?.map tokenName).getD "")).bind
      fun e => if e.parameters.length ≤ vals.tail.length then some (e, e.parameters.zip vals.tail) else none) := by
  have texted : tupleText (.str raw) = .ok raw := by
    simp [tupleText, Tuple.isTupleText_of_parse parsed]
  have counted : Tuple.parseCount raw n = .ok t := Tuple.parseCount_eq_ok.mpr ⟨parsed, count⟩
  simp only [tupleBlock, texted, counted, Except.toOption_ok, Option.bind_eq_bind, Option.bind_some]

/-- A tuple value whose first value names a function invokes it with the values after that one,
one per parameter; it fails when there are fewer values than parameters. -/
theorem tupleBlock_of_named {n : Nat} (count : t.size = n) {head : Json} {rest : List Json}
    (valued : t.values = .ok (head :: rest)) {g : Entry} (named : r.find? (tokenName head) = some g) :
    tupleBlock r n (.str raw) = if g.parameters.length ≤ rest.length then some (g, g.parameters.zip rest) else none := by
  simp [tupleBlock_str_eq parsed count, valued, named]

theorem tupleBlock_of_undecoded {n : Nat} (count : t.size = n) (undecoded : t.values.toOption = none) :
    tupleBlock r n (.str raw) = none := by
  simp [tupleBlock_str_eq parsed count, undecoded]

theorem tupleBlock_of_unregistered {n : Nat} (count : t.size = n) {head : Json} {rest : List Json}
    (valued : t.values = .ok (head :: rest)) (unregistered : ∀ e ∈ r.entries, e.name ≠ tokenName head) :
    tupleBlock r n (.str raw) = none := by
  simp [tupleBlock_str_eq parsed count, valued, Registry.find?_eq_none_iff.mpr unregistered]

end TupleValue

end Invocation

/-! ### Which way reads an explicit invocation -/

section Explicit
variable {q : Query} {r : Registry} {column : String}

/-- A tuple column led by the function column is recognised by tuple, unless it is the parameter of
a function the function column lists while that column is unread. -/
theorem Recognition.find?_of_led (s : PassState) {c : String} {t : Tuple} (parsed : Tuple.parse c = .ok t)
    (led : t.firstColumn? = some column)
    (unlisted : column ∈ s.consumed ∨ (q.scope r column).listsParameter q c = false) (v : Json) :
    Recognition.find? (q.scope r column) s c v = .ok (some .explicitByTuple) := by
  have other : c ≠ column := fun same => Tuple.firstColumn?_ne_self parsed (same ▸ led)
  have tuple := Tuple.isTupleText_of_parse parsed
  have refused : (decide (c = column) || (!decide (column ∈ s.consumed) &&
      (q.scope r column).listsParameter q c)) = false := by
    rcases unlisted with consumed | unlisted
    · simp [other, consumed]
    · simp [other, unlisted]
  simp [Recognition.find?, Recognition.order, List.findM?, Recognition.supports_explicitByList, refused,
    Recognition.supports_explicitByName, Recognition.supports_explicitByTuple, tuple, parsed, led, bind,
    Except.bind, pure, Except.pure, Except.map]

variable (wf : r.WellFormed) {s : PassState} (sound : s.Sound r column)
include wf sound

/-- A column named after a function that is neither the function column nor a parameter is read by
name. -/
theorem readEntry_byName (columnNotFunction : ∀ e ∈ r.entries, e.name ≠ column)
    (functionNotParameter : ∀ e ∈ r.entries, ∀ x ∈ r.entries, e.name ∉ x.parameters) {e : Entry}
    (member : e ∈ r.entries) (plain : Tuple.isTupleText e.name = false) (v : Json) :
    (readEntry (q.scope r column) e.name v).ends s =
      (Invocation.byNameArguments e.parameters v).bind fun pairs =>
        if e.name ∈ s.firedNames then none
        else some (e.invocation :: argumentFilters pairs, s.extend ⟨[(e.name, .explicitByName)], e.parameters, []⟩) := by
  have unlisted : (q.scope r column).listsParameter q e.name = false := by
    by_contra listed
    obtain ⟨x, xMember, -, owned⟩ := (Scope.listsParameter_iff wf).mp (Bool.not_eq_false _ ▸ listed)
    exact functionNotParameter e member x xMember owned
  have found := Recognition.find?_of_name s plain (Registry.isRegistered_iff.mpr ⟨e, member, rfl⟩)
    (columnNotFunction e member) unlisted v
  rw [readEntry_of_find? found]
  exact Invocation.parse_explicitByName_ends wf sound member v

/-- A tuple column led by the function column, and taken by no listing, is read by tuple: each tuple
of its value invokes the function its first value names. -/
theorem readEntry_byTuple {c : String} {ct : Tuple} (parsed : Tuple.parse c = .ok ct)
    (led : ct.firstColumn? = some column)
    (unlisted : column ∈ s.consumed ∨ (q.scope r column).listsParameter q c = false) (v : Json) :
    (readEntry (q.scope r column) c v).ends s =
      (Invocation.tupleBlocks r ct.size v).bind fun blocks =>
        if Invocation.FreshBlocks s blocks then
          some (Invocation.blockFilters blocks, s.extend (Invocation.blocksDelta .explicitByTuple false blocks))
        else none := by
  rw [readEntry_of_find? (Recognition.find?_of_led s parsed led unlisted v),
    Invocation.parse_explicitByTuple_ends wf sound c v, parsed]
  rfl

/-! ### The shapes an explicit invocation takes -/

section Shapes
variable (columnNotFunction : ∀ e ∈ r.entries, e.name ≠ column)
  (functionNotParameter : ∀ e ∈ r.entries, ∀ x ∈ r.entries, e.name ∉ x.parameters)
  {e : Entry} (member : e ∈ r.entries) (plain : Tuple.isTupleText e.name = false) (fresh : e.name ∉ s.firedNames)
include columnNotFunction functionNotParameter member plain fresh

/-- A function of one parameter called by name takes the value itself as its argument, unless the
value is a tuple text, an array or an object. -/
theorem readEntry_byName_one {p : String} (one : e.parameters = [p]) (v : Json) :
    (readEntry (q.scope r column) e.name v).ends s =
      if Tuple.isTupleValue v || v.isArray || v.isObject then none
      else some ([e.invocation, .argument p (.raw v)], s.extend ⟨[(e.name, .explicitByName)], [p], []⟩) := by
  rw [readEntry_byName wf sound columnNotFunction functionNotParameter member plain v, one,
    Invocation.byNameArguments_one]
  split
  · rfl
  · simp

/-- A function of several parameters called by name takes one argument from each token of a tuple
text with as many tokens, and fails on any other value. -/
theorem readEntry_byName_several (several : 2 ≤ e.parameters.length) (v : Json) {fs : List Filter}
    {s' : PassState} :
    (readEntry (q.scope r column) e.name v).ends s = some (fs, s') ↔
      ∃ raw t vals, v = .str raw ∧ Tuple.isTupleText raw = true ∧ Tuple.parse raw = .ok t ∧
        t.size = e.parameters.length ∧ t.values = .ok vals ∧
        fs = e.invocation :: argumentFilters (e.parameters.zip vals) ∧
        s' = s.extend ⟨[(e.name, .explicitByName)], e.parameters, []⟩ := by
  rw [readEntry_byName wf sound columnNotFunction functionNotParameter member plain v]
  simp only [fresh, if_false, Option.bind_eq_some_iff, Option.some.injEq, Prod.mk.injEq,
    Invocation.byNameArguments_several several]
  constructor
  · rintro ⟨pairs, ⟨raw, t, vals, rfl, tuple, parsed, count, valued, rfl⟩, rfl, rfl⟩
    exact ⟨raw, t, vals, rfl, tuple, parsed, count, valued, rfl, rfl⟩
  · rintro ⟨raw, t, vals, rfl, tuple, parsed, count, valued, rfl, rfl⟩
    exact ⟨_, ⟨raw, t, vals, rfl, tuple, parsed, count, valued, rfl⟩, rfl, rfl⟩

end Shapes

section TupleShapes
variable {c : String} {ct : Tuple} (parsedColumn : Tuple.parse c = .ok ct) (led : ct.firstColumn? = some column)
  (unlisted : column ∈ s.consumed ∨ (q.scope r column).listsParameter q c = false)
include parsedColumn led unlisted

/-- A tuple value whose first value names a function that has not fired invokes it with the
values after that one, one per parameter, whatever the other column tokens are; values beyond
the parameters are dropped, and fewer values than parameters fail. -/
theorem readEntry_byTuple_named {g : Entry} (member : g ∈ r.entries) (fresh : g.name ∉ s.firedNames)
    {raw : String} {t : Tuple} (parsed : Tuple.parse raw = .ok t) (count : t.size = ct.size) {head : Json}
    {rest : List Json} (valued : t.values = .ok (head :: rest)) (named : Invocation.tokenName head = g.name) :
    (readEntry (q.scope r column) c (.str raw)).ends s =
      if g.parameters.length ≤ rest.length then
        some (g.invocation :: argumentFilters (g.parameters.zip rest),
          s.extend ⟨[(g.name, .explicitByTuple)], g.parameters, []⟩)
      else none := by
  have found : r.find? (Invocation.tokenName head) = some g := named ▸ Registry.find?_of_mem wf member
  rw [readEntry_byTuple wf sound parsedColumn led unlisted]
  show ((Invocation.tupleBlock r ct.size (.str raw)).map ([·])).bind _ = _
  rw [Invocation.tupleBlock_of_named parsed count valued found]
  split <;> simp [Invocation.FreshBlocks, fresh, Invocation.blockFilters, Invocation.blocksDelta]

/-- A tuple value with a token that does not read as a value, or whose first value names no
function, fails. -/
theorem readEntry_byTuple_refused {raw : String} {t : Tuple} (parsed : Tuple.parse raw = .ok t)
    (count : t.size = ct.size)
    (refused : t.values.toOption = none ∨
      ∃ head rest, t.values = .ok (head :: rest) ∧ ∀ e ∈ r.entries, e.name ≠ Invocation.tokenName head) :
    (readEntry (q.scope r column) c (.str raw)).ends s = none := by
  have none_ : Invocation.tupleBlock r ct.size (.str raw) = none := by
    rcases refused with undecoded | ⟨head, rest, valued, unregistered⟩
    · exact Invocation.tupleBlock_of_undecoded parsed count undecoded
    · exact Invocation.tupleBlock_of_unregistered parsed count valued unregistered
  rw [readEntry_byTuple wf sound parsedColumn led unlisted]
  show ((Invocation.tupleBlock r ct.size (.str raw)).map ([·])).bind _ = _
  rw [none_]
  rfl

/-- A list of tuple values invokes each in turn: the invocations in order, failing when a function
comes twice or has fired already. -/
theorem readEntry_byTuple_list {items : List Json} {blocks : List (Entry × List (String × Json))}
    (made : items.mapM (Invocation.tupleBlock r ct.size) = some blocks) :
    (readEntry (q.scope r column) c (.arr items)).ends s =
      if Invocation.FreshBlocks s blocks then
        some (Invocation.blockFilters blocks, s.extend (Invocation.blocksDelta .explicitByTuple false blocks))
      else none := by
  rw [readEntry_byTuple wf sound parsedColumn led unlisted]
  show (items.mapM (Invocation.tupleBlock r ct.size)).bind _ = _
  rw [made]
  rfl

end TupleShapes

end Explicit

theorem Scope.listsParameter_eq_false_iff {q : Query} {r : Registry} {column c : String} (wf : r.WellFormed) :
    (q.scope r column).listsParameter q c = false ↔
      ∀ x ∈ r.entries, x.name ∈ (q.scope r column).listed q → c ∉ x.parameters := by
  rw [Bool.eq_false_iff, ne_eq, Scope.listsParameter_iff wf]
  simp only [not_exists, not_and]

/-- The shapes of the invocations written out for a function `g` that has not fired, in a pass over
a registry built by registrations in which the function column, the function names and the
parameter names are distinct. By name, a function of one parameter takes the value as it is, unless
it is a tuple text, an array or an object, and a function of several parameters takes one value
from each token of a tuple text of exactly as many tokens. By tuple, under a tuple column led by the
function column, a tuple value of as many tokens whose first value names `g` gives `g` the values
after it, one per parameter, failing only when there are fewer of them than parameters; a token that
is no value, or a first value naming no function, fails, and a list of tuple values makes each
invocation in turn. The tuple column must be taken by no listing: while the function column is
unread, a function it lists takes its parameters first. -/
theorem Query.explicit_invocation_shapes {q : Query} {r : Registry} {column : String} (reachable : r.Reachable)
    (columnNotFunction : ∀ e ∈ r.entries, e.name ≠ column)
    (functionNotParameter : ∀ e ∈ r.entries, ∀ x ∈ r.entries, e.name ∉ x.parameters)
    {s : PassState} (sound : s.Sound r column) {g : Entry} (member : g ∈ r.entries)
    (fresh : g.name ∉ s.firedNames) :
    (Tuple.isTupleText g.name = false →
      (∀ p v, g.parameters = [p] →
        (readEntry (q.scope r column) g.name v).ends s =
          if Tuple.isTupleValue v || v.isArray || v.isObject then none
          else some ([g.invocation, .argument p (.raw v)], s.extend ⟨[(g.name, .explicitByName)], [p], []⟩)) ∧
      (2 ≤ g.parameters.length → ∀ v fs s',
        (readEntry (q.scope r column) g.name v).ends s = some (fs, s') ↔
          ∃ raw t vals, v = .str raw ∧ Tuple.isTupleText raw = true ∧ Tuple.parse raw = .ok t ∧
            t.size = g.parameters.length ∧ t.values = .ok vals ∧
            fs = g.invocation :: argumentFilters (g.parameters.zip vals) ∧
            s' = s.extend ⟨[(g.name, .explicitByName)], g.parameters, []⟩)) ∧
    (∀ c ct, Tuple.parse c = .ok ct → ct.firstColumn? = some column →
      (column ∈ s.consumed ∨ ∀ x ∈ r.entries, x.name ∈ (q.scope r column).listed q → c ∉ x.parameters) →
      (∀ raw t head rest, Tuple.parse raw = .ok t → t.size = ct.size → t.values = .ok (head :: rest) →
        Invocation.tokenName head = g.name →
        (readEntry (q.scope r column) c (.str raw)).ends s =
          if g.parameters.length ≤ rest.length then
            some (g.invocation :: argumentFilters (g.parameters.zip rest),
              s.extend ⟨[(g.name, .explicitByTuple)], g.parameters, []⟩)
          else none) ∧
      (∀ raw t, Tuple.parse raw = .ok t → t.size = ct.size →
        (t.values.toOption = none ∨
          ∃ head rest, t.values = .ok (head :: rest) ∧ ∀ e ∈ r.entries, e.name ≠ Invocation.tokenName head) →
        (readEntry (q.scope r column) c (.str raw)).ends s = none) ∧
      (∀ items blocks, items.mapM (Invocation.tupleBlock r ct.size) = some blocks →
        (readEntry (q.scope r column) c (.arr items)).ends s =
          if Invocation.FreshBlocks s blocks then
            some (Invocation.blockFilters blocks, s.extend (Invocation.blocksDelta .explicitByTuple false blocks))
          else none)) := by
  have wf := reachable.wellFormed
  refine ⟨fun plain => ⟨?_, ?_⟩, fun c ct parsedColumn led untaken => ?_⟩
  · intro p v one
    exact readEntry_byName_one wf sound columnNotFunction functionNotParameter member plain fresh one v
  · intro several v fs s'
    exact readEntry_byName_several wf sound columnNotFunction functionNotParameter member plain fresh several v
  -- the listing condition, in terms of the listed functions, is the test dispatch makes
  have unlisted : column ∈ s.consumed ∨ (q.scope r column).listsParameter q c = false :=
    untaken.imp_right (Scope.listsParameter_eq_false_iff wf).mpr
  refine ⟨?_, ?_, ?_⟩
  · intro raw t head rest parsed count valued named
    exact readEntry_byTuple_named wf sound parsedColumn led unlisted member fresh parsed count valued named
  · intro raw t parsed count refused
    exact readEntry_byTuple_refused wf sound parsedColumn led unlisted parsed count refused
  · intro items blocks made
    exact readEntry_byTuple_list wf sound parsedColumn led unlisted made


/-- A tuple column with a label of its own and a value with one value too many: the label is
ignored and so is the last value. -/
theorem Query.explicit_invocation_shapes_labelled :
    (readEntry (Query.scope [] ⟨[⟨"g",["p"],.host 0,[]⟩]⟩ "fun") "(fun, label, x)" (.str "(g, 5, 6)")).ends {} =
      some ([Entry.invocation ⟨"g",["p"],.host 0,[]⟩, .argument "p" (.raw (.int 5))],
        ({} : PassState).extend ⟨[("g", .explicitByTuple)], ["p"], []⟩) := by
  have shapes := Query.explicit_invocation_shapes (q := [])
    (@Registry.Reachable.register {} ⟨[⟨"g",["p"],.host 0,[]⟩]⟩ "g" ["p"] (.host 0) [] .empty rfl)
    (by simp) (by simp) (PassState.sound_empty _ "fun") (g := ⟨"g",["p"],.host 0,[]⟩) (by simp)
    (by simp [PassState.firedNames])
  have byTuple := (shapes.2 "(fun, label, x)" ⟨["fun","label","x"]⟩ (by with_unfolding_all rfl) rfl
    (Or.inr (by simp [Scope.listed, Keyed.get?]))).1
  rw [byTuple "(g, 5, 6)" ⟨["g","5","6"]⟩ (.str "g") [.int 5, .int 6] (by with_unfolding_all rfl) rfl
    (by with_unfolding_all rfl) rfl]
  rfl

/-- A tuple column that is also the parameter of a function the function column lists: read
before the function column, it is that function's argument, not an invocation by tuple, which it
is when nothing lists it. -/
theorem Query.read_listing_takes_tuple_parameter :
    Query.read ⟨[⟨"h",["(fun, x)"],.host 0,[]⟩,⟨"g",["p"],.host 0,[]⟩]⟩ "fun"
        [("(fun, x)",.str "(g, 1)"),("fun",.arr [.str "h"])] =
      .ok [Entry.invocation ⟨"h",["(fun, x)"],.host 0,[]⟩,.argument "(fun, x)" (.raw (.str "(g, 1)"))] ∧
    Query.read ⟨[⟨"h",["(fun, x)"],.host 0,[]⟩,⟨"g",["p"],.host 0,[]⟩]⟩ "fun" [("(fun, x)",.str "(g, 1)")] =
      .ok [Entry.invocation ⟨"g",["p"],.host 0,[]⟩,.argument "p" (.raw (.int 1))] :=
  ⟨by with_unfolding_all rfl,by with_unfolding_all rfl⟩

end QueryFilters
