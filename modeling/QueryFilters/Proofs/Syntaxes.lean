import QueryFilters.Engine
import QueryFilters.Proofs.Blocks
import QueryFilters.Proofs.TupleValues

/-!
The ways of writing one invocation agree. A function `f` with parameters `p1, ..., pn`, whose
arguments are written as well-formed tuple tokens `t1, ..., tn` reading as values `v1, ..., vn`,
is invoked by a query written in any of five ways (`Entry.Written`): by name, `{f: "(t1, ..., tn)"}`
or, for one parameter, `{f: v1}`; by a tuple of its parameters in any order; by a tuple led by the
function column, `{"(F, p1, ..., pn)": "(f, t1, ..., tn)"}`; by its parameters, in any order; or
by listing it in the function column beside its parameters. Where the names involved are plain and
belong to no other function (`Entry.Plain`), every one of them reads into the invocation of `f`
followed by its arguments, in some order (`Entry.Written.read_eq`). The one exception is a tuple
of one parameter whose token is empty: its value `()` is no tuple, and the query is refused
(`Entry.Written.read_empty_parameterTuple`).

Running the function, or applying it, looks its arguments up by parameter; a body the host wrote
also sees the filters of the pass, in the order they were read. For bodies that do not depend on
that order (`HostBody.OrderFree`), running or applying gives the same result whichever way the
query is written (`Entry.Written.invocations_agree`).
-/

namespace QueryFilters

/-- One argument written out: the parameter, the tuple token that writes its value, and the value
the token reads as. -/
structure WrittenArgument where
  parameter : String
  token : String
  value : Json
  wellFormed : Tuple.WellFormedToken token
  reads : Tuple.valueOf token.toList = .ok value

/-- The parameter of an argument with its value. -/
def WrittenArgument.pair (a : WrittenArgument) : String × Json := (a.parameter,a.value)

/-- The ways of writing one invocation of `e` as a query, with the function column `column`; the
arguments `args` are in parameter order. -/
inductive Entry.Written (e : Entry) (column : String) (args : List WrittenArgument) : Query → Prop
  /-- `{f: "(t1, ..., tn)"}`, for two parameters or more. -/
  | byName : 2 ≤ args.length → e.Written column args [(e.name,.str (Tuple.text (args.map (·.token))))]
  /-- `{f: v}`, for one parameter, with a value that is neither a list nor a tuple text. -/
  | byValue {a : WrittenArgument} : args = [a] → a.value.isArray = false →
      Tuple.isTupleValue a.value = false → e.Written column args [(e.name,a.value)]
  /-- `{"(p_s1, ..., p_sn)": "(t_s1, ..., t_sn)"}`, the parameters in any order, unless the
  tokens are the one empty token. -/
  | byParameterTuple {σ : List WrittenArgument} : σ.Perm args → σ.map (·.token) ≠ [""] →
      e.Written column args [(Tuple.text (σ.map (·.parameter)),.str (Tuple.text (σ.map (·.token))))]
  /-- `{"(F, p1, ..., pn)": "(f, t1, ..., tn)"}`. -/
  | byTuple : e.Written column args
      [(Tuple.text (column :: args.map (·.parameter)),.str (Tuple.text (e.name :: args.map (·.token))))]
  /-- `{p1: v1, ..., pn: vn}`, in any order. -/
  | byParameters {q : Query} : q.Perm (args.map (·.pair)) → e.Written column args q
  /-- `{F: [f], p1: v1, ..., pn: vn}`, in any order. -/
  | byList {q : Query} : q.Perm ((column,.arr [.str e.name]) :: args.map (·.pair)) → e.Written column args q

/-- What the ways of writing an invocation of `e` ask of the names involved: the function column,
the function and its parameters are plain names, and the function's name reads as text in a
tuple; the function is not the function column, the function column is no function's parameter,
and no parameter of `e` names a function. -/
structure Entry.Plain (r : Registry) (column : String) (e : Entry) : Prop where
  member : e ∈ r.entries
  columnPlain : Tuple.IsPlainName column
  namePlain : Tuple.IsPlainName e.name
  nameText : Tuple.coerce e.name = .str e.name
  parametersPlain : ∀ p ∈ e.parameters, Tuple.IsPlainName p
  nameNotColumn : e.name ≠ column
  columnNotParameter : ∀ x ∈ r.entries, column ∉ x.parameters
  parameterNotName : ∀ x ∈ r.entries, x.name ∉ e.parameters

/-! ### Written arguments -/

namespace WrittenArgument

theorem values_tokens : ∀ args : List WrittenArgument,
    (⟨args.map (·.token)⟩ : Tuple).values = .ok (args.map (·.value))
  | [] => rfl
  | a :: rest => by
    have more := values_tokens rest
    simp only [Tuple.values,List.map_cons,List.mapM_cons] at more ⊢
    rw [a.reads,more]
    rfl

theorem parse_tokens {args : List WrittenArgument} (nonempty : args ≠ []) (notEmpty : args.map (·.token) ≠ [""]) :
    Tuple.parse (Tuple.text (args.map (·.token))) = .ok ⟨args.map (·.token)⟩ :=
  Tuple.parse_text_wellFormed (by simpa using nonempty) notEmpty (by simpa using fun a _ => a.wellFormed)

theorem zip_values (args : List WrittenArgument) :
    (args.map (·.parameter)).zip (args.map (·.value)) = args.map (·.pair) := by
  rw [List.zip_map']
  rfl

theorem map_pair_fst (args : List WrittenArgument) :
    (args.map (·.pair)).map Prod.fst = args.map (·.parameter) := by
  simp [List.map_map,Function.comp_def,pair]

end WrittenArgument

/-- A plain name is a well-formed token of a tuple. -/
theorem Tuple.IsPlainName.wellFormedToken {s : String} (plain : Tuple.IsPlainName s) : Tuple.WellFormedToken s :=
  Tuple.WellFormedToken.of_passes (Tuple.Passes.ordinary plain.ordinary) plain.2.1

/-- The tuple of the one empty token is `()`, whose inside is blank. -/
theorem Tuple.parse_empty_token :
    Tuple.parse (Tuple.text [""]) = .error (.malformedTuple (Tuple.text [""]) .empty) := by
  decide

theorem Tuple.coerce_isObject (token : String) : (Tuple.coerce token).isObject = false := by
  unfold Tuple.coerce
  split
  · rfl
  · split
    · split
      · split <;> rfl
      · rfl
    · rfl

/-- A value read from a token is never an object. -/
theorem Tuple.valueOf_isObject {cs : List Char} {v : Json} (read : Tuple.valueOf cs = .ok v) :
    v.isObject = false := by
  rw [Tuple.valueOf] at read
  split_ifs at read
  · cases read; rfl
  · cases read; rfl
  · split at read
    · cases read
    · -- a list of items: the values of the items, as an array
      simp only [Except.map] at read
      split at read
      · cases read
      · cases read; rfl
  · cases read
    exact Tuple.coerce_isObject _

/-! ### Recognising the columns of each way -/

section Recognise
variable {q : Query} {r : Registry} {column : String}

/-- A plain column that names no function is recognised by list when it is a parameter of a
listed function and the function column is not consumed, else by parameters when it completes a
function, else not at all. -/
theorem Recognition.find?_of_plain (s : PassState) {c : String} (plain : Tuple.isTupleText c = false)
    (unregistered : r.isRegistered c = false) (other : c ≠ column) (v : Json) :
    Recognition.find? (q.scope r column) s c v =
      .ok (if column ∉ s.consumed ∧ (q.scope r column).listsParameter q c = true then some .explicitByList
        else if (Invocation.completed (q.scope r column) q c).isEmpty then none else some .implicitByValue) := by
  by_cases listing : column ∉ s.consumed ∧ (q.scope r column).listsParameter q c = true
  · simp [Recognition.find?,Recognition.order,List.findM?,Recognition.supports_explicitByList,listing,
      bind,Except.bind,pure,Except.pure]
  · have refuses : (!decide (column ∈ s.consumed) && (q.scope r column).listsParameter q c) = false := by
      simpa using listing
    by_cases complete : (Invocation.completed (q.scope r column) q c).isEmpty = true <;>
      simp [Recognition.find?,Recognition.order,List.findM?,Recognition.supports_explicitByList,
        Recognition.supports_explicitByName,Recognition.supports_of_plain (.inl rfl) s plain,
        Recognition.supports_of_plain (.inr rfl) s plain,Recognition.supports_implicitByValue,
        listing,refuses,complete,plain,unregistered,other,bind,Except.bind,pure,Except.pure]

/-- A registered plain column that is no parameter of a listed function is recognised by name. -/
theorem Recognition.find?_of_name (s : PassState) {c : String} (plain : Tuple.isTupleText c = false)
    (registered : r.isRegistered c = true) (other : c ≠ column)
    (unlisted : (q.scope r column).listsParameter q c = false) (v : Json) :
    Recognition.find? (q.scope r column) s c v = .ok (some .explicitByName) := by
  simp [Recognition.find?,Recognition.order,List.findM?,Recognition.supports_explicitByList,
    Recognition.supports_explicitByName,plain,registered,other,unlisted,bind,Except.bind,pure,Except.pure]

/-- A tuple column that is no parameter of a listed function is recognised by tuple when the
function column leads it, else by parameter tuple when its columns are a function's parameters. -/
theorem Recognition.find?_of_tuple (s : PassState) {c : String} (tuple : Tuple.isTupleText c = true)
    (other : c ≠ column) (unlisted : (q.scope r column).listsParameter q c = false) {t : Tuple}
    (parsed : Tuple.parse c = .ok t) (v : Json) :
    Recognition.find? (q.scope r column) s c v =
      .ok (if t.firstColumn? = some column then some .explicitByTuple
        else if (r.namesByAllParameters t.columns).isEmpty then none else some .implicitByTuple) := by
  by_cases led : t.firstColumn? = some column
  · simp [Recognition.find?,Recognition.order,List.findM?,Recognition.supports_explicitByList,
      Recognition.supports_explicitByName,Recognition.supports_explicitByTuple,tuple,parsed,led,other,
      unlisted,bind,Except.bind,pure,Except.pure,Except.map]
  · have unled : (t.firstColumn? == some column) = false := by simpa using led
    by_cases named : (r.namesByAllParameters t.columns).isEmpty = true <;>
      simp [Recognition.find?,Recognition.order,List.findM?,Recognition.supports_explicitByList,
        Recognition.supports_explicitByName,Recognition.supports_explicitByTuple,
        Recognition.supports_implicitByTuple,Recognition.supports_implicitByValue,tuple,parsed,led,unled,
        named,other,unlisted,bind,Except.bind,pure,Except.pure,Except.map]

end Recognise

/-! ### Reading entry by entry -/

/-- An entry is read by the way of recognition that accepts it, whether or not its column was
consumed. -/
theorem readEntry_of_find? {sc : Scope} {s : PassState} {c : String} {v : Json} {how : Recognition}
    (found : Recognition.find? sc s c v = .ok (some how)) :
    (readEntry sc c v).ends s = (how.parse sc c v).ends s := by
  have accepts : Invocation.supports sc s c v = .ok true := by
    unfold Invocation.supports
    split <;> simp [found,Except.map]
  rw [readEntry_ends,accepts]
  simp only
  rw [Invocation.parse_ends,found]

/-- An entry whose column was consumed, and that no way of recognition accepts, reads as
nothing. -/
theorem readEntry_of_consumed {sc : Scope} {s : PassState} {c : String} {v : Json}
    (consumed : c ∈ s.consumed) (found : Recognition.find? sc s c v = .ok none) :
    (readEntry sc c v).ends s = some ([],s) := by
  have accepts : Invocation.supports sc s c v = .ok true := by
    simp [Invocation.supports,consumed]
  rw [readEntry_ends,accepts]
  simp only
  rw [Invocation.parse_ends,found]

/-- Entries that each read as nothing leave the state as it is. -/
theorem readEntries_quiet {sc : Scope} {s : PassState} :
    ∀ l : Query, (∀ cv ∈ l, (readEntry sc cv.1 cv.2).ends s = some ([],s)) →
      (readEntries sc l).ends s = some ([],s)
  | [], _ => rfl
  | (c,v) :: rest, quiet => by
    have more := readEntries_quiet rest (fun cv named => quiet cv (List.mem_cons_of_mem _ named))
    simp [readEntries,quiet (c,v) (by simp),more]

theorem Query.read_single {r : Registry} {column c : String} {v : Json} {fs : List Filter}
    (first : ((readEntry (Query.scope [(c,v)] r column) c v).ends {}).map Prod.fst = some fs) :
    Query.read r column [(c,v)] = .ok fs := by
  obtain ⟨⟨fs',s⟩,ran,rfl⟩ := Option.map_eq_some_iff.mp first
  exact Query.read_eq_ok_iff.mpr ⟨s,by simp [readEntries,ran]⟩

/-- A query whose first entry reads into some filters, and whose later entries then read as
nothing, reads into those filters. -/
theorem Query.read_of_first {r : Registry} {column c : String} {v : Json} {rest : Query}
    {fs : List Filter} {s : PassState}
    (first : (readEntry (Query.scope ((c,v) :: rest) r column) c v).ends {} = some (fs,s))
    (quiet : ∀ cv ∈ rest, (readEntry (Query.scope ((c,v) :: rest) r column) cv.1 cv.2).ends s = some ([],s)) :
    Query.read r column ((c,v) :: rest) = .ok fs := by
  apply Query.read_eq_ok_iff.mpr
  refine ⟨s,?_⟩
  simp [readEntries,first,readEntries_quiet rest quiet]

/-! ### Where the arguments come from -/

theorem Scope.listsParameter_of_absent {q : Query} {r : Registry} {column : String}
    (absent : column ∉ q.map Prod.fst) (c : String) : (q.scope r column).listsParameter q c = false := by
  simp [Scope.listsParameter,Scope.listed_eq_nil absent]

theorem Invocation.byNameArguments_single {p : String} {v : Json} (array : v.isArray = false)
    (tuple : Tuple.isTupleValue v = false) (object : v.isObject = false) :
    byNameArguments [p] v = some [(p,v)] := by
  simp [byNameArguments,array,tuple,object]

theorem Invocation.byNameArguments_tuple {ps : List String} (several : 2 ≤ ps.length) {raw : String}
    (tuple : Tuple.isTupleText raw = true) {t : Tuple} (counted : Tuple.parseCount raw ps.length = .ok t)
    {vals : List Json} (valued : t.values = .ok vals) :
    byNameArguments ps (.str raw) = some (ps.zip vals) := by
  rcases ps with _ | ⟨p,_ | ⟨p₂,rest⟩⟩
  · simp at several
  · simp at several
  · simp only [List.length_cons] at counted
    simp [byNameArguments,tuple,counted,valued]

theorem Query.argumentsOf_of_get? {q : Query} :
    ∀ {pairs : List (String × Json)}, (∀ pv ∈ pairs, Keyed.get? pv.1 q = some pv.2) →
      Query.argumentsOf q (pairs.map Prod.fst) = some pairs
  | [], _ => rfl
  | pv :: rest, found => by
    have more := @Query.argumentsOf_of_get? q rest (fun pv' named => found pv' (List.mem_cons_of_mem _ named))
    simp [found pv (by simp),more]

namespace Entry.Plain
variable {r : Registry} {column : String} {e : Entry} (plain : e.Plain r column)
include plain

theorem registered : r.isRegistered e.name = true :=
  Registry.isRegistered_iff.mpr ⟨e,plain.member,rfl⟩

theorem parameter_unregistered {p : String} (owned : p ∈ e.parameters) : r.isRegistered p = false := by
  by_contra registered
  obtain ⟨x,xMember,rfl⟩ := Registry.isRegistered_iff.mp (Bool.not_eq_false _ ▸ registered)
  exact plain.parameterNotName x xMember owned

theorem parameter_ne_column {p : String} (owned : p ∈ e.parameters) : p ≠ column := by
  rintro rfl
  exact plain.columnNotParameter e plain.member owned

/-- A tuple text is never the function column, which is a plain name. -/
theorem text_ne_column (ts : List String) : Tuple.text ts ≠ column := by
  intro same
  have tuple := Tuple.isTupleText_text ts
  rw [same,plain.columnPlain.isTupleText] at tuple
  cases tuple

end Entry.Plain

/-- A function written by name reads into its invocation followed by the arguments its value
gives. -/
theorem Entry.Plain.read_of_byNameArguments {r : Registry} {column : String} {e : Entry} (wf : r.WellFormed)
    (plain : e.Plain r column) {v : Json} {pairs : List (String × Json)}
    (arguments : Invocation.byNameArguments e.parameters v = some pairs) :
    Query.read r column [(e.name,v)] = .ok (e.invocation :: argumentFilters pairs) := by
  have absent : column ∉ ([(e.name,v)] : Query).map Prod.fst := by
    simpa using plain.nameNotColumn.symm
  have found := Recognition.find?_of_name {} plain.namePlain.isTupleText plain.registered
    plain.nameNotColumn (Scope.listsParameter_of_absent absent e.name) v
  have wfScope : (Query.scope [(e.name,v)] r column).registry.WellFormed := wf
  apply Query.read_single
  rw [readEntry_of_find? found,Invocation.parse_explicitByName_ends wfScope (PassState.sound_empty r column)
    plain.member,arguments]
  simp

/-- In a query that gives each column once, the columns of written arguments hold their
values. -/
theorem WrittenArgument.argumentsOf {q : Query} (distinct : (q.map Prod.fst).Nodup)
    {args : List WrittenArgument} (given : ∀ a ∈ args, a.pair ∈ q) :
    Query.argumentsOf q (args.map (·.parameter)) = some (args.map (·.pair)) := by
  have found := @Query.argumentsOf_of_get? q (args.map (·.pair)) fun pv named => by
    obtain ⟨a,member,rfl⟩ := List.mem_map.mp named
    exact Keyed.get?_of_mem distinct (given a member)
  rwa [WrittenArgument.map_pair_fst] at found

/-! ### Each way reads into the invocation and its arguments -/

section Written
variable {r : Registry} {column : String} {e : Entry} (wf : r.WellFormed) (plain : e.Plain r column)
  {args : List WrittenArgument} (params : args.map (·.parameter) = e.parameters)
include wf plain params

theorem Entry.Plain.args_ne_nil : args ≠ [] := by
  rintro rfl
  exact wf.parametersNonempty e plain.member params.symm

theorem Entry.Plain.perm_ne_nil {σ : List WrittenArgument} (perm : σ.Perm args) : σ ≠ [] :=
  fun empty => plain.args_ne_nil wf params (List.Perm.eq_nil (empty ▸ perm).symm)

theorem Entry.Written.read_byName (several : 2 ≤ args.length) :
    Query.read r column [(e.name,.str (Tuple.text (args.map (·.token))))] =
      .ok (e.invocation :: argumentFilters (args.map (·.pair))) := by
  have length : (args.map (·.token)).length = e.parameters.length := by simp [← params]
  have counted : Tuple.parseCount (Tuple.text (args.map (·.token))) e.parameters.length =
      .ok ⟨args.map (·.token)⟩ :=
    Tuple.parseCount_eq_ok.mpr ⟨WrittenArgument.parse_tokens (plain.args_ne_nil wf params) fun single => by
      have one := congrArg List.length single
      simp only [List.length_map,List.length_singleton] at one
      omega,length⟩
  apply plain.read_of_byNameArguments wf
  rw [Invocation.byNameArguments_tuple (by simpa [← params] using several) (Tuple.isTupleText_text _)
    counted (WrittenArgument.values_tokens args),← params,WrittenArgument.zip_values]

theorem Entry.Written.read_byValue {a : WrittenArgument} (single : args = [a]) (array : a.value.isArray = false)
    (tuple : Tuple.isTupleValue a.value = false) :
    Query.read r column [(e.name,a.value)] = .ok (e.invocation :: argumentFilters (args.map (·.pair))) := by
  subst single
  apply plain.read_of_byNameArguments wf
  rw [← params,List.map_singleton,List.map_singleton]
  exact Invocation.byNameArguments_single array tuple (Tuple.valueOf_isObject a.reads)

/-- A tuple of some of the arguments' parameters, in any order, is read by parameter tuple: it
fires `e` with the arguments its value gives, if it gives some. -/
theorem Entry.Written.readEntry_parameterTuple {σ : List WrittenArgument} (perm : σ.Perm args) (v : Json) :
    (readEntry (Query.scope [(Tuple.text (σ.map (·.parameter)),v)] r column) (Tuple.text (σ.map (·.parameter)))
        v).ends {} =
      (Invocation.parameterTupleArguments (σ.map (·.parameter)) v).bind fun pairs =>
        some (e.invocation :: argumentFilters pairs,
          ({} : PassState).extend ⟨[(e.name,.implicitByTuple)],σ.map (·.parameter),[]⟩) := by
  have columns : (σ.map (·.parameter)).Perm e.parameters := params ▸ perm.map _
  have namesPlain : ∀ p ∈ σ.map (·.parameter), Tuple.IsPlainName p :=
    fun p named => plain.parametersPlain p (columns.subset named)
  have parsed : Tuple.parse (Tuple.text (σ.map (·.parameter))) = .ok ⟨σ.map (·.parameter)⟩ :=
    Tuple.parse_text (by simpa using plain.perm_ne_nil wf params perm) fun p named => (namesPlain p named).isToken
  have same : (⟨σ.map (·.parameter)⟩ : Tuple).columns = σ.map (·.parameter) :=
    Tuple.columns_of_plain namesPlain
  -- the tuple of parameters is not led by the function column, and names exactly `e`
  have unled : (⟨σ.map (·.parameter)⟩ : Tuple).firstColumn? ≠ some column := by
    rw [Tuple.firstColumn?,same]
    intro head
    exact plain.parameter_ne_column (columns.subset (List.mem_of_mem_head? head)) rfl
  have named : r.namesByAllParameters (σ.map (·.parameter)) = [e.name] :=
    Registry.namesByAllParameters_of_perm wf plain.member columns
  have absent : column ∉ ([(Tuple.text (σ.map (·.parameter)),v)] : Query).map Prod.fst := by
    simpa using (plain.text_ne_column _).symm
  have found := Recognition.find?_of_tuple (r := r) {} (Tuple.isTupleText_text _) (plain.text_ne_column _)
    (Scope.listsParameter_of_absent absent _) parsed v
  rw [if_neg unled,same,named] at found
  simp only [List.isEmpty_cons,Bool.false_eq_true,↓reduceIte] at found
  have wfScope : (Query.scope [(Tuple.text (σ.map (·.parameter)),v)] r column).registry.WellFormed := wf
  rw [readEntry_of_find? found,Invocation.parse_implicitByTuple_ends wfScope (PassState.sound_empty r column)
    parsed plain.member (by rw [same]; exact columns),same]
  simp

theorem Entry.Written.read_byParameterTuple {σ : List WrittenArgument} (perm : σ.Perm args)
    (notEmpty : σ.map (·.token) ≠ [""]) :
    Query.read r column [(Tuple.text (σ.map (·.parameter)),.str (Tuple.text (σ.map (·.token))))] =
      .ok (e.invocation :: argumentFilters (σ.map (·.pair))) := by
  have counted : Tuple.parseCount (Tuple.text (σ.map (·.token))) σ.length = .ok ⟨σ.map (·.token)⟩ :=
    Tuple.parseCount_eq_ok.mpr ⟨WrittenArgument.parse_tokens (plain.perm_ne_nil wf params perm) notEmpty,by simp⟩
  have arguments : Invocation.parameterTupleArguments (σ.map (·.parameter)) (.str (Tuple.text (σ.map (·.token)))) =
      some (σ.map (·.pair)) := by
    simp [Invocation.parameterTupleArguments,Invocation.tupleText,Tuple.isTupleText_text,counted,
      WrittenArgument.values_tokens σ,WrittenArgument.zip_values σ]
  apply Query.read_single
  rw [readEntry_parameterTuple wf plain params perm,arguments]
  simp

/-- A tuple of one parameter whose token is empty is refused: its value `()` is no tuple. -/
theorem Entry.Written.read_empty_parameterTuple {σ : List WrittenArgument} (perm : σ.Perm args)
    (empty : σ.map (·.token) = [""]) :
    (Query.read r column [(Tuple.text (σ.map (·.parameter)),.str (Tuple.text (σ.map (·.token))))]).toOption =
      none := by
  have refused : Invocation.parameterTupleArguments (σ.map (·.parameter)) (.str (Tuple.text (σ.map (·.token)))) =
      none := by
    rw [empty]
    simp [Invocation.parameterTupleArguments,Invocation.tupleText,Tuple.isTupleText_text,Tuple.parseCount,
      Tuple.parse_empty_token,bind,Except.bind,Except.toOption]
  have ended := readEntry_parameterTuple wf plain params perm (.str (Tuple.text (σ.map (·.token))))
  rw [refused,Option.bind_none] at ended
  cases read : Query.read r column [(Tuple.text (σ.map (·.parameter)),.str (Tuple.text (σ.map (·.token))))] with
  | error err => rfl
  | ok fs =>
    -- a reading that succeeds ends, and the only entry does not
    obtain ⟨s,ran⟩ := Query.read_eq_ok_iff.mp read
    simp [readEntries,ended] at ran

theorem Entry.Written.read_byTuple :
    Query.read r column
        [(Tuple.text (column :: args.map (·.parameter)),.str (Tuple.text (e.name :: args.map (·.token))))] =
      .ok (e.invocation :: argumentFilters (args.map (·.pair))) := by
  have namesPlain : ∀ c ∈ column :: args.map (·.parameter), Tuple.IsPlainName c := by
    rw [params]
    intro c named
    rcases List.mem_cons.mp named with rfl | owned
    · exact plain.columnPlain
    · exact plain.parametersPlain c owned
  have parsed : Tuple.parse (Tuple.text (column :: args.map (·.parameter))) =
      .ok ⟨column :: args.map (·.parameter)⟩ :=
    Tuple.parse_text (List.cons_ne_nil _ _) fun c named => (namesPlain c named).isToken
  have led : (⟨column :: args.map (·.parameter)⟩ : Tuple).firstColumn? = some column := by
    simp [Tuple.firstColumn?,Tuple.columns_of_plain namesPlain]
  have absent : column ∉ ([(Tuple.text (column :: args.map (·.parameter)),
      .str (Tuple.text (e.name :: args.map (·.token))))] : Query).map Prod.fst := by
    simpa using (plain.text_ne_column _).symm
  have found := Recognition.find?_of_tuple (r := r) {} (Tuple.isTupleText_text _) (plain.text_ne_column _)
    (Scope.listsParameter_of_absent absent _) parsed (.str (Tuple.text (e.name :: args.map (·.token))))
  rw [if_pos led] at found
  -- the value tuple: the function's name, read as text, then the arguments' tokens
  have tokens : ∀ t ∈ e.name :: args.map (·.token), Tuple.WellFormedToken t := by
    intro t named
    rcases List.mem_cons.mp named with rfl | written
    · exact plain.namePlain.wellFormedToken
    · obtain ⟨a,-,rfl⟩ := List.mem_map.mp written
      exact a.wellFormed
  have counted : Tuple.parseCount (Tuple.text (e.name :: args.map (·.token)))
      (⟨column :: args.map (·.parameter)⟩ : Tuple).size = .ok ⟨e.name :: args.map (·.token)⟩ :=
    Tuple.parseCount_eq_ok.mpr ⟨Tuple.parse_text_wellFormed (List.cons_ne_nil _ _)
      (fun single => plain.namePlain.1 (List.cons.inj single).1) tokens,by simp [Tuple.size]⟩
  have valued : (⟨e.name :: args.map (·.token)⟩ : Tuple).values = .ok (.str e.name :: args.map (·.value)) := by
    have more := WrittenArgument.values_tokens args
    simp only [Tuple.values] at more ⊢
    rw [List.mapM_cons,plain.namePlain.valueOf,plain.nameText,more]
    rfl
  have block : Invocation.tupleBlock r (⟨column :: args.map (·.parameter)⟩ : Tuple).size
      (.str (Tuple.text (e.name :: args.map (·.token)))) = some (e,args.map (·.pair)) := by
    simp [Invocation.tupleBlock,Invocation.tupleText,Tuple.isTupleText_text,counted,valued,
      Invocation.tokenName,Registry.find?_of_mem wf plain.member,← params,WrittenArgument.zip_values]
  have wfScope : (Query.scope [(Tuple.text (column :: args.map (·.parameter)),
      .str (Tuple.text (e.name :: args.map (·.token))))] r column).registry.WellFormed := wf
  apply Query.read_single
  rw [readEntry_of_find? found,Invocation.parse_explicitByTuple_ends wfScope (PassState.sound_empty r column),
    parsed]
  simp [Invocation.tupleBlocks,block,Invocation.FreshBlocks,Invocation.blockFilters]

theorem Entry.Written.read_byParameters {q : Query} (perm : q.Perm (args.map (·.pair))) :
    Query.read r column q = .ok (e.invocation :: argumentFilters (args.map (·.pair))) := by
  have keys : (q.map Prod.fst).Perm e.parameters := by
    rw [← params,← WrittenArgument.map_pair_fst]
    exact perm.map Prod.fst
  have distinct : (q.map Prod.fst).Nodup := keys.nodup_iff.mpr (wf.parametersNodup e plain.member)
  have absent : column ∉ q.map Prod.fst := fun named => plain.columnNotParameter e plain.member (keys.subset named)
  have given : Query.argumentsOf q e.parameters = some (args.map (·.pair)) :=
    params ▸ WrittenArgument.argumentsOf distinct fun a member => perm.mem_iff.mpr (List.mem_map_of_mem member)
  have present : ∀ p ∈ e.parameters, (Keyed.get? p q).isSome = true :=
    fun p owned => Keyed.isSome_get?_iff.mpr (keys.mem_iff.mpr owned)
  -- every parameter completes `e`, which is not listed: each is read by parameters
  have completes : ∀ c ∈ e.parameters, Invocation.completed (q.scope r column) q c = [e.name] := by
    intro c owned
    simpa [Invocation.completed,Registry.namesByParameter_of_mem wf plain.member owned,
      Scope.listed_eq_nil absent,Registry.parametersFor_of_mem wf plain.member] using present
  have found : ∀ s c v, c ∈ e.parameters →
      Recognition.find? (q.scope r column) s c v = .ok (some .implicitByValue) := by
    intro s c v owned
    rw [Recognition.find?_of_plain s (plain.parametersPlain c owned).isTupleText (plain.parameter_unregistered owned)
      (plain.parameter_ne_column owned),Scope.listsParameter_of_absent absent,completes c owned]
    simp
  obtain ⟨⟨c,v⟩,rest,rfl⟩ := List.exists_cons_of_ne_nil fun empty : q = [] =>
    wf.parametersNonempty e plain.member (List.Perm.eq_nil (empty ▸ keys).symm)
  have owned : ∀ cv ∈ (c,v) :: rest, cv.1 ∈ e.parameters :=
    fun cv named => keys.subset (List.mem_map_of_mem named)
  -- the first entry fires `e` with every argument; the later ones find it fired the same way
  have sound₁ :
      (({} : PassState).extend ⟨[(e.name,.implicitByValue)],e.parameters,e.parameters⟩).Sound r column :=
    (PassState.sound_empty r column).record plain.member (by simp) (fun _ owns => owns) (fun _ owns => owns)
  apply Query.read_of_first (s := ({} : PassState).extend ⟨[(e.name,.implicitByValue)],e.parameters,e.parameters⟩)
  · rw [readEntry_of_find? (found {} c v (owned (c,v) (by simp))),Invocation.parse_implicitByValue_ends wf
      (PassState.sound_empty r column) plain.columnNotParameter plain.member (completes c (owned (c,v) (by simp)))
      given]
    simp
  · rintro ⟨c',v'⟩ named
    have owns := owned (c',v') (List.mem_cons_of_mem _ named)
    rw [readEntry_of_find? (found _ c' v' owns),Invocation.parse_implicitByValue_ends wf sound₁
      plain.columnNotParameter plain.member (completes c' owns) given]
    simp [PassState.firedBy,Keyed.get?]

theorem Entry.Written.read_byList {q : Query}
    (perm : q.Perm ((column,.arr [.str e.name]) :: args.map (·.pair))) :
    Query.read r column q = .ok (e.invocation :: argumentFilters (args.map (·.pair))) := by
  have keys : (q.map Prod.fst).Perm (column :: e.parameters) := by
    rw [← params,← WrittenArgument.map_pair_fst]
    exact perm.map Prod.fst
  have distinct : (q.map Prod.fst).Nodup := keys.nodup_iff.mpr
    (List.nodup_cons.mpr ⟨plain.columnNotParameter e plain.member,wf.parametersNodup e plain.member⟩)
  have listing : Keyed.get? column q = some (.arr [.str e.name]) :=
    Keyed.get?_of_mem distinct (perm.mem_iff.mpr (by simp))
  have listed : (q.scope r column).listed q = [e.name] := by
    simp [Scope.listed,listing,Json.asString?]
  have given : Query.argumentsOf q e.parameters = some (args.map (·.pair)) :=
    params ▸ WrittenArgument.argumentsOf distinct fun a member =>
      perm.mem_iff.mpr (List.mem_cons_of_mem _ (List.mem_map_of_mem member))
  have block : Invocation.listedBlock r q e.name = some (e,args.map (·.pair)) := by
    simp [Invocation.listedBlock,Registry.find?_of_mem wf plain.member,given]
  -- from the start, every entry is read by list: the function column, or a parameter of `e`
  have found₀ : ∀ c v, c ∈ q.map Prod.fst →
      Recognition.find? (q.scope r column) {} c v = .ok (some .explicitByList) := by
    intro c v named
    rcases List.mem_cons.mp (keys.subset named) with rfl | owned
    · exact Recognition.find?_of_column {} v
    · have lists : (q.scope r column).listsParameter q c = true :=
        (Scope.listsParameter_iff wf).mpr ⟨e,plain.member,by simp [listed],owned⟩
      rw [Recognition.find?_of_plain {} (plain.parametersPlain c owned).isTupleText
        (plain.parameter_unregistered owned) (plain.parameter_ne_column owned),lists]
      simp
  obtain ⟨⟨c,v⟩,rest,rfl⟩ := List.exists_cons_of_ne_nil fun empty : q = [] => by
    simp [empty,Keyed.get?] at listing
  let s₁ := (({} : PassState).extend ⟨[],[],[column]⟩).extend
    (Invocation.blocksDelta .explicitByList true [(e,args.map (·.pair))])
  have first : (Recognition.explicitByList.parse (Query.scope ((c,v) :: rest) r column) c v).ends {} =
      some (Invocation.blockFilters [(e,args.map (·.pair))],s₁) := by
    rw [Invocation.parse_explicitByList_ends wf (PassState.sound_empty r column) plain.columnNotParameter]
    simp [listing,Invocation.listedNames,block,Invocation.FreshBlocks,s₁]
  have sound₁ : s₁.Sound r column :=
    (Recognition.explicitByList_pieces wf plain.columnNotParameter (PassState.sound_empty r column) first).2
  have consumed : ∀ c' ∈ column :: e.parameters, c' ∈ s₁.consumed := by
    simp [s₁,PassState.extend,Invocation.blocksDelta]
  -- afterwards the function column is consumed, and `e` is listed: nothing completes it
  have read := Query.read_of_first (s := s₁)
    (by rw [readEntry_of_find? (found₀ c v (by simp))]; exact first)
    fun (cv : String × Json) (named : cv ∈ rest) => by
      obtain ⟨c',v'⟩ := cv
      rcases List.mem_cons.mp (keys.subset (List.mem_map_of_mem (List.mem_cons_of_mem _ named))) with same | owned
      · simp only at same
        subst same
        rw [readEntry_of_find? (Recognition.find?_of_column s₁ v'),
          Invocation.parse_explicitByList_ends wf sound₁ plain.columnNotParameter]
        simp [consumed c' (by simp)]
      · have incomplete : Invocation.completed (Query.scope ((c,v) :: rest) r column) ((c,v) :: rest) c' = [] := by
          simp [Invocation.completed,Registry.namesByParameter_of_mem wf plain.member owned,listed]
        apply readEntry_of_consumed (consumed c' (by simp [owned]))
        rw [Recognition.find?_of_plain s₁ (plain.parametersPlain c' owned).isTupleText
          (plain.parameter_unregistered owned) (plain.parameter_ne_column owned),incomplete]
        simp [consumed column (by simp)]
  simpa [Invocation.blockFilters] using read

/-- Every way reads into the invocation of `e` followed by its arguments, in some order. -/
theorem Entry.Written.read_eq {q : Query} (written : e.Written column args q) :
    ∃ pairs, pairs.Perm (args.map (·.pair)) ∧
      Query.read r column q = .ok (e.invocation :: argumentFilters pairs) := by
  cases written with
  | byName several => exact ⟨_,.refl _,read_byName wf plain params several⟩
  | byValue single array tuple => exact ⟨_,.refl _,read_byValue wf plain params single array tuple⟩
  | byParameterTuple perm notEmpty => exact ⟨_,perm.map _,read_byParameterTuple wf plain params perm notEmpty⟩
  | byTuple => exact ⟨_,.refl _,read_byTuple wf plain params⟩
  | byParameters perm => exact ⟨_,.refl _,read_byParameters wf plain params perm⟩
  | byList perm => exact ⟨_,.refl _,read_byList wf plain params perm⟩

end Written

/-! ### Running an invocation looks its arguments up -/

theorem Filter.findArgument_argumentFilters (p : String) : ∀ pairs : List (String × Json),
    Filter.findArgument (argumentFilters pairs) p =
      match Keyed.get? p pairs with
      | some v => .ok (.raw v)
      | none => .error (.noArgument p)
  | [] => rfl
  | (k,v) :: rest => by
    have more := Filter.findArgument_argumentFilters p rest
    by_cases same : k = p
    · simp [Filter.findArgument,Keyed.get?,same]
    · simp only [Filter.findArgument] at more
      simp [Filter.findArgument,Keyed.get?,same,more]

theorem Filter.findArgument_invocation_cons (c : String) (h : Handle) (fs : List Filter) :
    Filter.findArgument (.invocation c h :: fs) = Filter.findArgument fs := by
  funext p
  simp [Filter.findArgument]

/-- Arguments with distinct parameters are found whatever their order. -/
theorem Filter.findArgument_argumentFilters_perm {pairs pairs' : List (String × Json)}
    (distinct : (pairs.map Prod.fst).Nodup) (perm : pairs.Perm pairs') :
    Filter.findArgument (argumentFilters pairs) = Filter.findArgument (argumentFilters pairs') := by
  funext p
  rw [Filter.findArgument_argumentFilters,Filter.findArgument_argumentFilters,Keyed.get?_perm distinct perm]

/-- The prepared values of a filter read the arguments of the list by parameter. -/
theorem Engine.preparedValue_perm {pairs pairs' : List (String × Json)} (distinct : (pairs.map Prod.fst).Nodup)
    (perm : pairs.Perm pairs') (en : Engine) (f : Filter) (t : Target) (c : String) (h : Handle) :
    en.preparedValue f t (.invocation c h :: argumentFilters pairs) =
      en.preparedValue f t (.invocation c h :: argumentFilters pairs') := by
  simp only [Engine.preparedValue,preparedOne,argumentsFor,Filter.findArgument_invocation_cons,
    Filter.findArgument_argumentFilters_perm distinct perm]

theorem Filter.onColumns_block {e : Entry} {ps : List String} (unnamed : e.name ∉ ps)
    {pairs : List (String × Json)} (owned : ∀ pv ∈ pairs, pv.1 ∈ ps) :
    Filter.onColumns (e.invocation :: argumentFilters pairs) ps = argumentFilters pairs := by
  simp only [Filter.onColumns,List.filter_cons,Entry.invocation,Filter.column,List.contains_iff_mem,unnamed,
    if_false]
  apply List.filter_eq_self.mpr
  intro f named
  obtain ⟨pv,member,rfl⟩ := List.mem_map.mp named
  simpa [Filter.column] using owned pv member

/-- A body the host wrote that does not depend on the order of the filters of the pass. -/
def HostBody.OrderFree (b : HostBody) : Prop :=
  ∀ (context : FunctionContext) (fs : List Filter), fs.Perm context.filters →
    ∀ t args, b { context with filters := fs } t args = b context t args

/-- When the host's bodies do not depend on the order of the pass's filters, no function body
does: a declared body reads the backends alone, and a key the engine never gave hands the
target back. -/
theorem Body.run_perm {bodies : List HostBody} (free : ∀ b ∈ bodies, b.OrderFree) (body : Body)
    (context : FunctionContext) {fs : List Filter} (perm : fs.Perm context.filters)
    (args : List (String × Value)) (t : Target) :
    body.run bodies { context with filters := fs } args t = body.run bodies context args t := by
  cases body with
  | declared defs => rfl
  | host key =>
    simp only [Body.run]
    rw [List.getD_eq_getElem?_getD]
    by_cases held : key < bodies.length
    · rw [List.getElem?_eq_getElem held,Option.getD_some]
      exact free _ (List.getElem_mem held) context fs perm t args
    · rw [List.getElem?_eq_none (by omega),Option.getD_none]
      rfl

section Arguments
variable {r : Registry} (wf : r.WellFormed) {e : Entry} (member : e ∈ r.entries)
  (unnamed : e.name ∉ e.parameters) {pairs pairs' : List (String × Json)}
  (keys : (pairs.map Prod.fst).Perm e.parameters) (perm : pairs.Perm pairs')
include wf member unnamed keys perm

/-- Running a function on its invocation followed by its arguments finds the arguments by
parameter: their order does not matter. -/
theorem Registry.execute_block_perm {bodies : List HostBody} (free : ∀ body ∈ bodies, body.OrderFree)
    (b : Ranked) (t : Target) :
    r.execute bodies b e.name (e.invocation :: argumentFilters pairs) t =
      r.execute bodies b e.name (e.invocation :: argumentFilters pairs') t := by
  have distinct : (pairs.map Prod.fst).Nodup := keys.nodup_iff.mpr (wf.parametersNodup e member)
  have owned : ∀ pv ∈ pairs, pv.1 ∈ e.parameters := fun pv named => keys.subset (List.mem_map_of_mem named)
  have owned' : ∀ pv ∈ pairs', pv.1 ∈ e.parameters := fun pv named => owned pv (perm.mem_iff.mpr named)
  have length : (argumentFilters pairs).length = (argumentFilters pairs').length := by
    simp [argumentFilters,perm.length_eq]
  -- the body sees the filters of the pass, here in another order
  have ran : ∀ args, e.body.run bodies ⟨b,r,e.invocation :: argumentFilters pairs'⟩ args t =
      e.body.run bodies ⟨b,r,e.invocation :: argumentFilters pairs⟩ args t :=
    fun args => Body.run_perm free e.body ⟨b,r,_⟩ ((perm.map _).symm.cons _) args t
  simp only [Registry.execute,Registry.get_of_mem wf member,bind,Except.bind,Filter.onColumns_block unnamed owned,
    Filter.onColumns_block unnamed owned',Filter.findArgument_argumentFilters_perm distinct perm,length,ran]

/-- Applying a function read from a query as its invocation followed by its arguments: the
result does not depend on the order of the arguments. -/
theorem Engine.applyFunction_block_perm {en : Engine} (registry : en.registry = r)
    (free : ∀ body ∈ en.bodies, body.OrderFree) {q q' : Query}
    (parsed : en.parse q = .ok (e.invocation :: argumentFilters pairs))
    (parsed' : en.parse q' = .ok (e.invocation :: argumentFilters pairs')) (t : Target) :
    en.applyFunction e.name q t = en.applyFunction e.name q' t := by
  subst registry
  have distinct : (pairs.map Prod.fst).Nodup := keys.nodup_iff.mpr (wf.parametersNodup e member)
  simp only [Engine.applyFunction,parsed,parsed',bind,Except.bind]
  rw [Registry.execute_block_perm wf member unnamed keys perm free]
  simp only [Entry.invocation,Engine.preparedValue_perm distinct perm,List.find?_cons,beq_self_eq_true]

end Arguments

/-! ### The ways agree -/

/-- The ways of writing one invocation agree: each reads into the invocation of `e` and its
arguments, in some order, but for a tuple of one parameter with the one empty token, which is
refused. Running or applying `e` on the same target, with bodies that do not depend on the order
of the pass's filters, gives the same result whichever way the query is written. -/
theorem Entry.Written.invocations_agree {r : Registry} {column : String} {e : Entry} (reachable : r.Reachable)
    (plain : e.Plain r column) {args : List WrittenArgument} (params : args.map (·.parameter) = e.parameters) :
    (∀ q, e.Written column args q →
      ∃ fs, Query.read r column q = .ok fs ∧ fs.Perm (e.invocation :: argumentFilters (args.map (·.pair)))) ∧
    (∀ σ : List WrittenArgument, σ.Perm args → σ.map (·.token) = [""] →
      (Query.read r column [(Tuple.text (σ.map (·.parameter)),.str (Tuple.text (σ.map (·.token))))]).toOption =
        none) ∧
    ∀ en : Engine, en.registry = r → en.functionColumn = column → (∀ b ∈ en.bodies, b.OrderFree) → ∀ q q' t,
      e.Written column args q → e.Written column args q' →
        en.execute e.name q t = en.execute e.name q' t ∧
          en.applyFunction e.name q t = en.applyFunction e.name q' t := by
  have wf := reachable.wellFormed
  have unnamed : e.name ∉ e.parameters := plain.parameterNotName e plain.member
  refine ⟨fun q written => ?_,fun σ perm empty => Entry.Written.read_empty_parameterTuple wf plain params perm empty,
    fun en registry functionColumn free q q' t written written' => ?_⟩
  · obtain ⟨pairs,perm,read⟩ := written.read_eq wf plain params
    exact ⟨_,read,(perm.map _).cons _⟩
  · obtain ⟨pairs,perm,read⟩ := written.read_eq wf plain params
    obtain ⟨pairs',perm',read'⟩ := written'.read_eq wf plain params
    have parsed : en.parse q = .ok (e.invocation :: argumentFilters pairs) := by
      rw [Engine.parse,registry,functionColumn,read]
    have parsed' : en.parse q' = .ok (e.invocation :: argumentFilters pairs') := by
      rw [Engine.parse,registry,functionColumn,read']
    -- both readings give the same arguments, keyed by `e`'s parameters
    have keys : (pairs.map Prod.fst).Perm e.parameters := by
      rw [← params,← WrittenArgument.map_pair_fst]
      exact perm.map Prod.fst
    have across := perm.trans perm'.symm
    constructor
    · simp only [Engine.execute,parsed,parsed',bind,Except.bind]
      subst registry
      exact Registry.execute_block_perm wf plain.member unnamed keys across free _ _
    · exact Engine.applyFunction_block_perm wf plain.member unnamed keys across registry free parsed parsed' t

/-- A function of two parameters, with the host's body that hands the target back: written by
name it reads into its invocation and arguments, and running it gives what running it written by a
tuple of its parameters in the other order gives. -/
theorem Entry.Written.invocations_agree_pair :
    let en : Engine := ⟨"F",⟨⟨[⟨"f",["a","b"],.host 0,[]⟩]⟩,[("a","f"),("b","f")]⟩,({} : Ranked).add .sql 100,
      [HostBody.keep]⟩
    (∃ fs, Query.read en.registry "F" [("f",.str (Tuple.text ["1","2"]))] = .ok fs ∧
      fs.Perm (Entry.invocation ⟨"f",["a","b"],.host 0,[]⟩ :: argumentFilters [("a",.int 1),("b",.int 2)])) ∧
    en.execute "f" [("f",.str (Tuple.text ["1","2"]))] (.sql "t") =
      en.execute "f" [(Tuple.text ["b","a"],.str (Tuple.text ["2","1"]))] (.sql "t") := by
  intro en
  have plainNames : ∀ s ∈ ["F","f","a","b","1","2"], Tuple.IsPlainName s := by
    simp [Tuple.IsPlainName,Text.trimChars,Text.isBlank]
  have plain : Entry.Plain en.registry "F" ⟨"f",["a","b"],.host 0,[]⟩ := by
    refine ⟨by simp [en,Engine.registry],plainNames "F" (by simp),plainNames "f" (by simp),rfl,?_,by decide,
      by simp [en,Engine.registry],by simp [en,Engine.registry]⟩
    intro p named
    exact plainNames p (by simp at named; rcases named with rfl | rfl <;> simp)
  let a : WrittenArgument := ⟨"a","1",.int 1,(plainNames "1" (by simp)).wellFormedToken,(plainNames "1" (by simp)).valueOf⟩
  let b : WrittenArgument := ⟨"b","2",.int 2,(plainNames "2" (by simp)).wellFormedToken,(plainNames "2" (by simp)).valueOf⟩
  have free : ∀ body ∈ en.bodies, body.OrderFree := by
    intro body held
    simp only [en,List.mem_singleton] at held
    subst held
    intro context fs perm t args
    rfl
  have agree := @Entry.Written.invocations_agree _ _ _
    (@Registry.Reachable.register {} en.registry "f" ["a","b"] (.host 0) [] .empty rfl) plain [a,b] rfl
  exact ⟨agree.1 _ (.byName (by simp)),
    (agree.2.2 en rfl rfl free _ _ _ (.byName (by simp)) (.byParameterTuple (σ := [b,a]) (.swap _ _ _) (by simp))).1⟩

/-- Where the ways part. A tuple of one parameter with the one empty token, `{"(p)": "()"}`, is
refused, while the same argument written by a tuple led by the function column is read; and a
body that reads the order of the pass's filters tells a tuple of parameters from the same tuple
in the other order. -/
theorem Entry.Written.ways_disagree :
    Query.read ⟨[⟨"f",["p"],.host 0,[]⟩]⟩ "F" [("(p)",.str "()")] = .error (.malformedTuple "()" .empty) ∧
    Query.read ⟨[⟨"f",["p"],.host 0,[]⟩]⟩ "F" [("(F, p)",.str "(f, )")] =
      .ok [.invocation "f" ⟨"f",.host 0⟩,.argument "p" (.raw (.str ""))] ∧
    let en : Engine := ⟨"F",⟨⟨[⟨"f",["a","b"],.host 0,[]⟩]⟩,[("a","f"),("b","f")]⟩,({} : Ranked).add .sql 100,
      [fun context _ _ => pure (some (.sql (match context.filters with
        | _ :: .argument p _ :: _ => p
        | _ => "")))]⟩
    en.execute "f" [("(a, b)",.str "(1, 2)")] (.sql "t") = .ok (.sql "a") ∧
      en.execute "f" [("(b, a)",.str "(2, 1)")] (.sql "t") = .ok (.sql "b") :=
  ⟨by with_unfolding_all rfl,by with_unfolding_all rfl,by with_unfolding_all rfl,by with_unfolding_all rfl⟩

end QueryFilters
