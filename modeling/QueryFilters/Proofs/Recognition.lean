import QueryFilters.Proofs.Pass

/-!
What each way of recognising an invocation does when it reads an entry from a sound state: one
lemma per way, each stating exactly when the reading fails and otherwise which filters it gives
and what it adds to the state. Whether a reading fails depends on the state only through the
functions fired so far, and a function recognised by its parameters is read once: its other
parameter columns read as nothing.
-/
namespace QueryFilters

/-- The scope of a pass over a query. -/
def Query.scope (q : Query) (r : Registry) (column : String) : Scope := ⟨some q,r,column⟩

@[simp] theorem Query.scope_query (q : Query) (r : Registry) (column : String) :
    (q.scope r column).query = .ok q := rfl

@[simp] theorem Query.scope_registry (q : Query) (r : Registry) (column : String) :
    (q.scope r column).registry = r := rfl

@[simp] theorem Query.scope_functionColumn (q : Query) (r : Registry) (column : String) :
    (q.scope r column).functionColumn = column := rfl

namespace Tuple

theorem length_of_mapM {α β : Type} {f : α → Outcome β} :
    ∀ {l : List α} {vs : List β}, l.mapM f = .ok vs → vs.length = l.length := by
  intro l
  induction l with
  | nil => intro vs h; simp only [List.mapM_nil] at h; cases h; rfl
  | cons a rest ih =>
    intro vs h
    simp only [List.mapM_cons] at h
    cases fa : f a with
    | error e => rw [fa] at h; cases h
    | ok b =>
      cases fr : rest.mapM f with
      | error e => simp [fa,fr] at h; cases h
      | ok bs =>
        simp [fa,fr] at h
        cases h
        simp [ih fr]

theorem length_values {t : Tuple} {vals : List Json} (h : t.values = .ok vals) :
    vals.length = t.tokens.length :=
  length_of_mapM h

theorem parseCount_eq_ok {raw : String} {n : Nat} {t : Tuple} :
    parseCount raw n = .ok t ↔ parse raw = .ok t ∧ t.tokens.length = n := by
  unfold parseCount
  cases parse raw with
  | error e => simp [bind,Except.bind]
  | ok t' =>
    by_cases count : t'.tokens.length = n
    · simp only [bind,Except.bind,count,if_true,pure,Except.pure,Except.ok.injEq]
      constructor
      · rintro rfl; exact ⟨rfl,count⟩
      · rintro ⟨rfl,-⟩; rfl
    · simp only [bind,Except.bind,count,if_false,throw,throwThe,MonadExceptOf.throw,Except.ok.injEq]
      constructor
      · intro h; cases h
      · rintro ⟨rfl,same⟩; exact absurd same count

theorem length_of_parseCount_eq {raw : String} {n : Nat} {t : Tuple} (h : parseCount raw n = .ok t) :
    t.tokens.length = n :=
  (parseCount_eq_ok.mp h).2

end Tuple

namespace Invocation

/-- The arguments an invocation by name gives to a function with parameters `ps`: the value
itself to a function of one parameter, unless it is a tuple, a list or an object; otherwise the
values of a tuple with as many tokens as there are parameters. -/
def byNameArguments (ps : List String) (value : Json) : Option (List (String × Json)) :=
  match ps with
  | [p] => if Tuple.isTupleValue value || value.isArray || value.isObject then none else some [(p,value)]
  | _ =>
    match value with
    | .str raw =>
      if Tuple.isTupleText raw then
        ((Tuple.parseCount raw ps.length).toOption.bind fun t => t.values.toOption).map ps.zip
      else none
    | _ => none

theorem byNameArguments_map_fst {ps : List String} {value : Json} {pairs : List (String × Json)}
    (given : byNameArguments ps value = some pairs) : pairs.map Prod.fst = ps := by
  unfold byNameArguments at given
  split at given
  · split at given
    · cases given
    · cases given; rfl
  · split at given
    · split at given
      · simp only [Option.map_eq_some_iff,Option.bind_eq_some_iff] at given
        obtain ⟨vals,⟨t,counted,valued⟩,rfl⟩ := given
        have tokens := Tuple.length_of_parseCount_eq (Except.toOption_eq_some.mp counted)
        have length := Tuple.length_values (Except.toOption_eq_some.mp valued)
        exact List.map_fst_zip (by omega)
      · cases given
    · cases given

/-- The invocation one tuple value of an invocation by tuple makes: the function its first
token names, with the tokens after it as the arguments in parameter order. -/
def tupleBlock (r : Registry) (n : Nat) (value : Json) : Option (Entry × List (String × Json)) := do
  let raw ← (tupleText value).toOption
  let t ← (Tuple.parseCount raw n).toOption
  let vals ← t.values.toOption
  let e ← r.find? ((vals.head?.map tokenName).getD "")
  if e.parameters.length ≤ vals.tail.length then some (e,e.parameters.zip vals.tail) else none

/-- The invocations the value of an invocation by tuple makes: one per tuple of a list, or the
one of a single tuple. -/
def tupleBlocks (r : Registry) (n : Nat) : Json → Option (List (Entry × List (String × Json)))
  | .arr items => items.mapM (tupleBlock r n)
  | value => (tupleBlock r n value).map ([·])

theorem tupleBlock_registered {r : Registry} {n : Nat} {value : Json} {b : Entry × List (String × Json)}
    (made : tupleBlock r n value = some b) : b.1 ∈ r.entries := by
  simp only [tupleBlock,Option.bind_eq_bind,Option.bind_eq_some_iff] at made
  obtain ⟨_,_,_,_,_,_,e,found,given⟩ := made
  split at given
  · cases given; exact (Registry.find?_eq_some found).1
  · cases given

/-- The arguments an invocation by a tuple of parameters gives: the columns paired with the
values of a tuple value with as many tokens. -/
def parameterTupleArguments (columns : List String) (value : Json) : Option (List (String × Json)) := do
  let raw ← (tupleText value).toOption
  let t ← (Tuple.parseCount raw columns.length).toOption
  let vals ← t.values.toOption
  pure (columns.zip vals)

theorem parameterTupleArguments_map_fst {columns : List String} {value : Json}
    {pairs : List (String × Json)} (given : parameterTupleArguments columns value = some pairs) :
    pairs.map Prod.fst = columns := by
  simp only [parameterTupleArguments,Option.bind_eq_bind,Option.bind_eq_some_iff,Except.toOption_eq_some,
    Option.pure_def,Option.some.injEq] at given
  obtain ⟨raw,-,t,counted,vals,valued,rfl⟩ := given
  have tokens := Tuple.length_of_parseCount_eq counted
  have length := Tuple.length_values valued
  exact List.map_fst_zip (by omega)

section Strategies
variable {sc : Scope} {column : String} (wf : sc.registry.WellFormed) {s : PassState}
  (sound : s.Sound sc.registry column)
include wf sound

/-- An invocation by name fires the function, then fails unless the value gives its
arguments. -/
theorem parse_explicitByName_ends {e : Entry} (member : e ∈ sc.registry.entries) (value : Json) :
    (Recognition.explicitByName.parse sc e.name value).ends s =
      (byNameArguments e.parameters value).bind fun pairs =>
        if e.name ∈ s.firedNames then none
        else some (e.invocation :: argumentFilters pairs,
          s.extend ⟨[(e.name,.explicitByName)],e.parameters,[]⟩) := by
  have params := Registry.parametersFor_of_mem wf member
  by_cases fired : e.name ∈ s.firedNames
  · simp [Recognition.parse,params,fire_ends,fired]
  have fresh := sound.unemitted wf member fired
  have distinct := wf.parametersNodup e member
  have nonempty := wf.parametersNonempty e member
  simp only [Recognition.parse,PassM.ends_bind,PassM.ends_lift,params,Option.bind_some,
    fire_ends_of_mem wf member fired,fired,if_false]
  unfold byNameArguments
  generalize e.parameters = ps at fresh distinct nonempty ⊢
  rcases ps with _ | ⟨p,_ | ⟨p₂,rest⟩⟩
  · exact absurd rfl nonempty
  · -- one parameter: the value itself is the argument
    simp only [List.mem_singleton,forall_eq] at fresh
    by_cases many : (Tuple.isTupleValue value || value.isArray || value.isObject) = true
    · simp [many]
    · simp [many,emitArgument_ends,fresh,PassState.extend]
  · -- several parameters: the value must be a tuple of as many tokens
    cases value with
    | str raw =>
      by_cases tuple : Tuple.isTupleText raw = true
      · simp only [tuple,if_true]
        cases counted : Tuple.parseCount raw (p :: p₂ :: rest).length with
        | error _ => simp
        | ok t =>
          cases valued : t.values with
          | error _ => simp [valued]
          | ok vals =>
            have tokens := Tuple.length_of_parseCount_eq counted
            have length := Tuple.length_values valued
            have names : ((p :: p₂ :: rest).zip vals).map Prod.fst = p :: p₂ :: rest :=
              List.map_fst_zip (by omega)
            simp only [PassM.ends_bind,PassM.ends_lift,valued,Option.bind_some,Except.toOption_ok,
              Option.map_some]
            rw [emitPairs_ends (by rw [names]; exact distinct)
              (by rw [names]; simpa [PassState.extend] using fresh)]
            simp [names,PassState.extend]
      · simp [tuple]
    | _ => simp

/-- One tuple of an invocation by tuple fires the function its first token names, then fails
unless the tokens after it give all the function's arguments. -/
theorem fireTuple_ends (n : Nat) (value : Json) :
    (fireTuple sc n value).ends s = (tupleBlock sc.registry n value).bind fun b =>
      if b.1.name ∈ s.firedNames then none
      else some (b.1.invocation :: argumentFilters b.2,s.extend (blocksDelta .explicitByTuple false [b])) := by
  unfold fireTuple tupleBlock
  cases texted : tupleText value with
  | error _ => simp
  | ok raw =>
    cases counted : Tuple.parseCount raw n with
    | error _ => simp [counted]
    | ok t =>
      cases valued : t.values with
      | error _ => simp [counted,valued]
      | ok vals =>
        simp only [PassM.ends_bind,PassM.ends_lift,counted,valued,Option.bind_some,
          Except.toOption_ok,Option.bind_eq_bind]
        generalize (vals.head?.map tokenName).getD "" = name
        cases found : sc.registry.find? name with
        | none =>
          have unregistered : sc.registry.handle name = .error (.notRegistered name) := by
            simp [Registry.handle,Registry.get,found,Except.map]
          simp [fire_ends,unregistered]
        | some e =>
          obtain ⟨member,rfl⟩ := Registry.find?_eq_some found
          by_cases fired : e.name ∈ s.firedNames
          · simp only [fire_ends,fired,if_true,Option.bind_none,Option.bind_some]
            split <;> simp [fired]
          have fresh : ∀ p ∈ e.parameters, p ∉ (s.extend ⟨[(e.name,.explicitByTuple)],[],[]⟩).emitted := by
            simpa [PassState.extend] using sound.unemitted wf member fired
          simp only [fire_ends_of_mem wf member fired,Option.bind_some,Registry.parametersFor_of_mem wf member,
            tupleArguments_ends (wf.parametersNodup e member) fresh]
          split <;> simp [fired,blocksDelta,PassState.extend]

omit wf sound in
theorem fireTuples_eq_eachStep (n : Nat) :
    ∀ items, fireTuples sc n items = eachStep (fireTuple sc n) items := by
  intro items
  induction items with
  | nil => rfl
  | cons v rest ih => simp [fireTuples,eachStep,ih]

/-- An invocation by tuple: the column tuple is read first, then each tuple of the value fires
its function, and the whole fails as soon as one tuple fails or a function comes twice. -/
theorem parse_explicitByTuple_ends (columnText : String) (value : Json) :
    (Recognition.explicitByTuple.parse sc columnText value).ends s =
      (Tuple.parse columnText).toOption.bind fun t => (tupleBlocks sc.registry t.size value).bind fun blocks =>
        if FreshBlocks s blocks then
          some (blockFilters blocks,s.extend (blocksDelta .explicitByTuple false blocks))
        else none := by
  cases parsed : Tuple.parse columnText with
  | error _ => simp [Recognition.parse,parsed]
  | ok t =>
    simp only [Recognition.parse,PassM.ends_bind,PassM.ends_lift,parsed,Option.bind_some,
      Except.toOption_ok]
    cases value with
    | arr items =>
      dsimp only [tupleBlocks]
      rw [fireTuples_eq_eachStep]
      exact eachStep_ends (fireTuple sc t.size) (tupleBlock sc.registry t.size)
        (fun _ _ made => tupleBlock_registered made) (fun v _ sound => fireTuple_ends wf sound t.size v)
        items sound
    | _ =>
      simp only [fireTuple_ends wf sound,tupleBlocks]
      cases tupleBlock sc.registry t.size _ <;>
        simp [FreshBlocks,blockFilters]

/-- An invocation by a tuple of exactly one function's parameters fires that function with
the values of the tuple value, paired with the columns in the order the column tuple gives. -/
theorem parse_implicitByTuple_ends {columnText : String} {t : Tuple} (parsed : Tuple.parse columnText = .ok t)
    {e : Entry} (member : e ∈ sc.registry.entries) (perm : t.columns.Perm e.parameters) (value : Json) :
    (Recognition.implicitByTuple.parse sc columnText value).ends s =
      (parameterTupleArguments t.columns value).bind fun pairs =>
        if e.name ∈ s.firedNames then none
        else some (e.invocation :: argumentFilters pairs,
          s.extend ⟨[(e.name,.implicitByTuple)],t.columns,[]⟩) := by
  have only := Registry.namesByAllParameters_of_perm wf member perm
  have distinct : t.columns.Nodup := perm.nodup_iff.mpr (wf.parametersNodup e member)
  unfold parameterTupleArguments
  cases texted : tupleText value with
  | error _ => simp [Recognition.parse,texted]
  | ok raw =>
    cases counted : Tuple.parseCount raw t.columns.length with
    | error _ => simp [Recognition.parse,texted,parsed,counted]
    | ok v =>
      cases valued : v.values with
      | error _ => simp [Recognition.parse,texted,parsed,counted,valued]
      | ok vals =>
        have tokens := Tuple.length_of_parseCount_eq counted
        have length := Tuple.length_values valued
        have names : (t.columns.zip vals).map Prod.fst = t.columns := List.map_fst_zip (by omega)
        by_cases fired : e.name ∈ s.firedNames
        · simp [Recognition.parse,texted,parsed,counted,valued,only,fireAll,fire_ends,fired]
        have fresh : ∀ p ∈ t.columns, p ∉ (s.extend ⟨[(e.name,.implicitByTuple)],[],[]⟩).emitted := by
          intro p named
          simpa [PassState.extend] using sound.unemitted wf member fired p (perm.mem_iff.mp named)
        simp only [Recognition.parse,PassM.ends_bind,PassM.ends_lift,texted,parsed,counted,valued,only,
          Option.bind_some,fireAll,fire_ends_of_mem wf member fired,PassM.ends_pure,Except.toOption_ok]
        rw [emitPairs_ends (by rw [names]; exact distinct) (by rw [names]; exact fresh)]
        simp [names,fired,counted,valued,PassState.extend]

end Strategies

section Scoped
variable {q : Query} {r : Registry} {column : String} (wf : r.WellFormed) {s : PassState}
  (sound : s.Sound r column)
include wf sound

/-- An invocation by list, read from the first of its entries: the function column is
consumed, and the functions it lists fire in order with their arguments taken from the query's
columns. Once the function column is consumed, every later entry of the group reads as
nothing. -/
theorem parse_explicitByList_ends (notColumn : ∀ e ∈ r.entries, column ∉ e.parameters)
    (c : String) (value : Json) :
    (Recognition.explicitByList.parse (q.scope r column) c value).ends s =
      if column ∈ s.consumed then some ([],s)
      else (listedNames ((Keyed.get? column q).getD .null)).toOption.bind fun names =>
        (names.mapM (listedBlock r q)).bind fun blocks =>
          if FreshBlocks s blocks then
            some (blockFilters blocks,(s.extend ⟨[],[],[column]⟩).extend (blocksDelta .explicitByList true blocks))
          else none := by
  by_cases consumed : column ∈ s.consumed
  · simp [Recognition.parse,consumed]
  have sound₁ := sound.consumeColumn
  have same : ∀ blocks, FreshBlocks (s.extend ⟨[],[],[column]⟩) blocks ↔ FreshBlocks s blocks := by
    intro blocks
    simp [FreshBlocks,PassState.firedNames,PassState.extend]
  simp only [Recognition.parse,Query.scope_query,Query.scope_functionColumn,PassM.ends_bind,
    PassM.ends_lift,PassM.ends_get,Option.bind_some,PassState.isConsumed_iff,consumed,if_false,consume_ends]
  cases listed : listedNames ((Keyed.get? column q).getD .null) with
  | error _ => simp
  | ok names =>
    simp only [Option.bind_some,Except.toOption_ok]
    have wfScope : (q.scope r column).registry.WellFormed := wf
    rw [fireListed_ends wfScope notColumn q names sound₁]
    simp only [same,Query.scope_registry]

/-- An invocation by parameters, read at a parameter column of a complete function that is not
listed: the function fires with all its parameters, consumed; if it fired already in this way the
entry reads as nothing, and if it fired in another way the reading fails. -/
theorem parse_implicitByValue_ends (notColumn : ∀ e ∈ r.entries, column ∉ e.parameters)
    {c : String} {e : Entry} (member : e ∈ r.entries) (completes : completed (q.scope r column) q c = [e.name])
    {pairs : List (String × Json)} (given : Query.argumentsOf q e.parameters = some pairs) (value : Json) :
    (Recognition.implicitByValue.parse (q.scope r column) c value).ends s =
      match s.firedBy e.name with
      | some .implicitByValue => some ([],s)
      | some _ => none
      | none => some (e.invocation :: argumentFilters pairs,
          s.extend ⟨[(e.name,.implicitByValue)],e.parameters,e.parameters⟩) := by
  simp only [Recognition.parse,Query.scope_query,PassM.ends_bind,PassM.ends_lift,Option.bind_some,
    completes,PassM.ends_get]
  cases fired : s.firedBy e.name with
  | some how => cases how <;> simp
  | none =>
    have unfired := PassState.firedBy_eq_none.mp fired
    have fresh : ∀ p ∈ e.parameters, p ∉ (s.extend ⟨[(e.name,.implicitByValue)],[],[]⟩).emitted := by
      simpa [PassState.extend] using sound.unemitted wf member unfired
    have unconsumed :
        ∀ p ∈ e.parameters, p ∉ (s.extend ⟨[(e.name,.implicitByValue)],[],[]⟩).consumed := by
      simpa [PassState.extend] using sound.unconsumed wf member unfired (notColumn e member)
    simp only [PassM.ends_bind]
    have wfScope : (q.scope r column).registry.WellFormed := wf
    rw [fire_ends_of_mem wfScope member unfired]
    simp only [Option.bind_some,Query.scope_registry,Registry.parametersFor_of_mem wf member,
      PassM.ends_lift]
    rw [presentArguments_ends given (wf.parametersNodup e member) fresh unconsumed]
    simp [PassState.extend]

end Scoped

end Invocation

end QueryFilters
