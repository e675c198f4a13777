import QueryFilters.Proofs.Registry
import QueryFilters.Query.Invocation

/-!
Runs of the steps of a pass. A step run from a state either fails or ends with a result and a
state; which failure it is does not matter for what is proved about passes, so a run is read
through `PassM.ends`, and each step of `Query.Pass` and `Query.Invocation` gets one lemma saying
how it ends. States grow only at their ends: `PassState.extend` adds what a step did after what
a state held.
-/
namespace QueryFilters

/-- The result and the final state of a step run from a state, or `none` when it fails. -/
def PassM.ends (m : PassM α) (s : PassState) : Option (α × PassState) :=
  match m.run s with
  | .ok a s' => some (a,s')
  | .error _ _ => none

/-- A state followed by what a later step added to it. -/
def PassState.extend (s d : PassState) : PassState :=
  ⟨s.fired ++ d.fired,s.emitted ++ d.emitted,s.consumed ++ d.consumed⟩

/-- The names of the functions fired. -/
def PassState.firedNames (s : PassState) : List String := s.fired.map Prod.fst

@[simp] theorem Except.toOption_eq_some {ε α : Type} {x : Except ε α} {a : α} :
    x.toOption = some a ↔ x = .ok a := by
  cases x <;> simp [Except.toOption]

@[simp] theorem Except.toOption_ok {ε α : Type} (a : α) : (Except.ok a : Except ε α).toOption = some a := rfl

@[simp] theorem Except.toOption_error {ε α : Type} (e : ε) :
    (Except.error e : Except ε α).toOption = none := rfl

namespace PassM

variable {α β : Type} {s : PassState}

@[simp] theorem ends_pure (a : α) : (pure a : PassM α).ends s = some (a,s) := rfl

@[simp] theorem ends_bind (x : PassM α) (f : α → PassM β) :
    (x >>= f).ends s = (x.ends s).bind fun r => (f r.1).ends r.2 := by
  simp only [ends,EStateM.run_bind]
  cases x.run s <;> rfl

@[simp] theorem ends_map (f : α → β) (x : PassM α) :
    (f <$> x).ends s = (x.ends s).map fun r => (f r.1,r.2) := by
  show (x >>= fun a => pure (f a)).ends s = _
  rw [ends_bind]
  cases x.ends s <;> rfl

@[simp] theorem ends_get : (get : PassM PassState).ends s = some (s,s) := rfl

@[simp] theorem ends_set (s' : PassState) : (set s' : PassM PUnit).ends s = some (.unit,s') := rfl

@[simp] theorem ends_modify (f : PassState → PassState) :
    (modify f : PassM PUnit).ends s = some (.unit,f s) := rfl

@[simp] theorem ends_fail (e : FilterError) : (PassM.fail e : PassM α).ends s = none := rfl

@[simp] theorem ends_lift (o : Outcome α) :
    (PassM.lift o).ends s = match o with
      | .ok a => some (a,s)
      | .error _ => none := by
  cases o <;> rfl

theorem ends_eq_some_iff {m : PassM α} {a : α} {s' : PassState} :
    m.ends s = some (a,s') ↔ m.run s = .ok a s' := by
  unfold ends
  cases m.run s <;> simp

end PassM

namespace PassState

@[simp] theorem extend_empty (s : PassState) : s.extend {} = s := by
  simp [extend]

@[simp] theorem empty_extend (d : PassState) : ({} : PassState).extend d = d := by
  simp [extend]

theorem extend_assoc (s d e : PassState) : (s.extend d).extend e = s.extend (d.extend e) := by
  simp [extend]

@[simp] theorem firedNames_extend (s d : PassState) :
    (s.extend d).firedNames = s.firedNames ++ d.firedNames := by
  simp [extend,firedNames]

theorem isSome_firedBy {s : PassState} {f : String} :
    (s.firedBy f).isSome ↔ f ∈ s.firedNames := by
  unfold firedBy firedNames
  induction s.fired with
  | nil => simp [Keyed.get?]
  | cons e rest ih =>
    obtain ⟨k,how⟩ := e
    by_cases same : k = f
    · simp [Keyed.get?,same]
    · simp [Keyed.get?,same,ih,Ne.symm same]

theorem firedBy_eq_none {s : PassState} {f : String} :
    s.firedBy f = none ↔ f ∉ s.firedNames := by
  rw [← isSome_firedBy]
  simp

@[simp] theorem isEmitted_iff {s : PassState} {p : String} : s.isEmitted p = true ↔ p ∈ s.emitted := by
  simp [isEmitted]

@[simp] theorem isConsumed_iff {s : PassState} {c : String} :
    s.isConsumed c = true ↔ c ∈ s.consumed := by
  simp [isConsumed]

end PassState

/-- The invocation filter of a registered function. -/
def Entry.invocation (e : Entry) : Filter := .invocation e.name ⟨e.name,e.body⟩

/-- The argument filters of parameter–value pairs, in order. -/
def argumentFilters (pairs : List (String × Json)) : List Filter :=
  pairs.map fun pv => .argument pv.1 (.raw pv.2)

@[simp] theorem argumentFilters_nil : argumentFilters [] = [] := rfl

@[simp] theorem argumentFilters_cons (pv : String × Json) (rest : List (String × Json)) :
    argumentFilters (pv :: rest) = .argument pv.1 (.raw pv.2) :: argumentFilters rest := rfl

/-- What every state of a pass satisfies: a function fires once and only if it is registered,
and a parameter has become an argument, or a column was consumed, only for a function that
fired (the function column apart). -/
structure PassState.Sound (r : Registry) (column : String) (s : PassState) : Prop where
  firedNodup : s.firedNames.Nodup
  firedRegistered : ∀ f ∈ s.firedNames, ∃ e ∈ r.entries, e.name = f
  emittedOwned : ∀ p ∈ s.emitted, ∃ e ∈ r.entries, e.name ∈ s.firedNames ∧ p ∈ e.parameters
  consumedOwned : ∀ c ∈ s.consumed, c = column ∨
    ∃ e ∈ r.entries, e.name ∈ s.firedNames ∧ c ∈ e.parameters

theorem PassState.sound_empty (r : Registry) (column : String) : ({} : PassState).Sound r column :=
  ⟨by simp [firedNames],by simp [firedNames],by simp,by simp⟩

section Primitives
variable {s : PassState}

theorem fire_ends (sc : Scope) (f : String) (how : Recognition) :
    (fire sc f how).ends s = if f ∈ s.firedNames then none else
      match sc.registry.handle f with
      | .ok h => some (.invocation f h,s.extend ⟨[(f,how)],[],[]⟩)
      | .error _ => none := by
  unfold fire
  by_cases fired : f ∈ s.firedNames
  · simp [PassState.isSome_firedBy.mpr fired,fired]
  · have none : s.firedBy f = none := PassState.firedBy_eq_none.mpr fired
    cases handle : sc.registry.handle f <;> simp [none,fired,PassState.extend]

theorem fire_ends_of_mem {sc : Scope} (wf : sc.registry.WellFormed) {e : Entry}
    (member : e ∈ sc.registry.entries) (fresh : e.name ∉ s.firedNames) (how : Recognition) :
    (fire sc e.name how).ends s = some (e.invocation,s.extend ⟨[(e.name,how)],[],[]⟩) := by
  simp [fire_ends,fresh,Registry.handle_of_mem wf member,Entry.invocation]

theorem emitArgument_ends (p : String) (v : Json) :
    (emitArgument p v).ends s = if p ∈ s.emitted then some ([],s)
      else some ([.argument p (.raw v)],s.extend ⟨[],[p],[]⟩) := by
  unfold emitArgument
  by_cases emitted : p ∈ s.emitted <;> simp [emitted,PassState.extend]

theorem consume_ends (c : String) :
    (consume c).ends s = some ((),if c ∈ s.consumed then s else s.extend ⟨[],[],[c]⟩) := by
  unfold consume
  by_cases consumed : c ∈ s.consumed <;> simp [consumed,PassState.extend]

end Primitives

namespace PassState.Sound
variable {r : Registry} {column : String} {s : PassState} (wf : r.WellFormed) (sound : s.Sound r column)
  {e : Entry} (member : e ∈ r.entries) (fresh : e.name ∉ s.firedNames)
include wf sound member fresh

/-- No parameter of a function that has not fired has become an argument. -/
theorem unemitted : ∀ p ∈ e.parameters, p ∉ s.emitted := by
  intro p owned emitted
  obtain ⟨x,xMember,xFired,xOwns⟩ := sound.emittedOwned p emitted
  have same := wf.ownerUnique x xMember e member p xOwns owned
  exact fresh (same ▸ xFired)

/-- No parameter of a function that has not fired was consumed. -/
theorem unconsumed (notColumn : column ∉ e.parameters) : ∀ p ∈ e.parameters, p ∉ s.consumed := by
  intro p owned consumed
  rcases sound.consumedOwned p consumed with rfl | ⟨x,xMember,xFired,xOwns⟩
  · exact notColumn owned
  · have same := wf.ownerUnique x xMember e member p xOwns owned
    exact fresh (same ▸ xFired)

omit wf in
/-- Firing a function and taking some of its parameters keeps a state sound. -/
theorem record {how : Recognition} {emitted consumed : List String}
    (emittedOwn : ∀ p ∈ emitted, p ∈ e.parameters) (consumedOwn : ∀ c ∈ consumed, c ∈ e.parameters) :
    (s.extend ⟨[(e.name,how)],emitted,consumed⟩).Sound r column := by
  have firedNames : (s.extend ⟨[(e.name,how)],emitted,consumed⟩).firedNames = s.firedNames ++ [e.name] := by
    simp [PassState.firedNames,PassState.extend]
  refine ⟨?_,?_,?_,?_⟩
  · rw [firedNames]
    exact List.nodup_append.mpr ⟨sound.firedNodup,List.nodup_singleton _,
      fun a named b single same => fresh (by simp_all)⟩
  · rw [firedNames]
    intro f named
    rcases List.mem_append.mp named with old | new
    · exact sound.firedRegistered f old
    · exact ⟨e,member,(List.mem_singleton.mp new).symm⟩
  · rw [firedNames]
    intro p inEmitted
    rcases List.mem_append.mp inEmitted with old | new
    · obtain ⟨x,xMember,xFired,xOwns⟩ := sound.emittedOwned p old
      exact ⟨x,xMember,List.mem_append_left _ xFired,xOwns⟩
    · exact ⟨e,member,by simp,emittedOwn p new⟩
  · rw [firedNames]
    intro c inConsumed
    rcases List.mem_append.mp inConsumed with old | new
    · rcases sound.consumedOwned c old with same | ⟨x,xMember,xFired,xOwns⟩
      · exact .inl same
      · exact .inr ⟨x,xMember,List.mem_append_left _ xFired,xOwns⟩
    · exact .inr ⟨e,member,by simp,consumedOwn c new⟩

end PassState.Sound

/-- Consuming the function column keeps a state sound. -/
theorem PassState.Sound.consumeColumn {r : Registry} {column : String} {s : PassState}
    (sound : s.Sound r column) : (s.extend ⟨[],[],[column]⟩).Sound r column := by
  have names : (s.extend ⟨[],[],[column]⟩).firedNames = s.firedNames := by
    simp [PassState.firedNames,PassState.extend]
  refine ⟨?_,?_,?_,?_⟩
  · rw [names]; exact sound.firedNodup
  · rw [names]; exact sound.firedRegistered
  · rw [names]; simpa [PassState.extend] using sound.emittedOwned
  · rw [names]
    intro c consumed
    simp only [PassState.extend,List.append_nil,List.mem_append,List.mem_singleton] at consumed
    rcases consumed with old | rfl
    · exact sound.consumedOwned c old
    · exact .inl rfl

/-- The columns of the parameters with their values in the query, if all are given. -/
def Query.argumentsOf (q : Query) (ps : List String) : Option (List (String × Json)) :=
  ps.mapM fun p => (Keyed.get? p q).map (p,·)

@[simp] theorem Query.argumentsOf_nil (q : Query) : Query.argumentsOf q [] = some [] := rfl

@[simp] theorem Query.argumentsOf_cons (q : Query) (p : String) (ps : List String) :
    Query.argumentsOf q (p :: ps) =
      (Keyed.get? p q).bind fun v => (Query.argumentsOf q ps).map ((p,v) :: ·) := by
  simp only [argumentsOf,List.mapM_cons]
  cases Keyed.get? p q <;> cases List.mapM (fun p => (Keyed.get? p q).map (p,·)) ps <;> rfl

theorem Query.argumentsOf_map_fst {q : Query} {ps : List String} {pairs : List (String × Json)}
    (given : Query.argumentsOf q ps = some pairs) : pairs.map Prod.fst = ps := by
  induction ps generalizing pairs with
  | nil => simp at given; simp [← given]
  | cons p rest ih =>
    simp only [argumentsOf_cons,Option.bind_eq_some_iff,Option.map_eq_some_iff] at given
    obtain ⟨v,-,tail,restGiven,rfl⟩ := given
    simp [ih restGiven]

namespace Invocation
variable {s : PassState}

theorem emitPairs_ends {pairs : List (String × Json)} (distinct : (pairs.map Prod.fst).Nodup)
    (fresh : ∀ p ∈ pairs.map Prod.fst, p ∉ s.emitted) :
    (emitPairs pairs).ends s = some (argumentFilters pairs,s.extend ⟨[],pairs.map Prod.fst,[]⟩) := by
  induction pairs generalizing s with
  | nil => simp [emitPairs]
  | cons pv rest ih =>
    obtain ⟨p,v⟩ := pv
    simp only [List.map_cons,List.nodup_cons,List.mem_cons,forall_eq_or_imp] at distinct fresh
    have restFresh : ∀ x ∈ rest.map Prod.fst, x ∉ (s.extend ⟨[],[p],[]⟩).emitted := by
      intro x named
      simp only [PassState.extend,List.mem_append,List.mem_singleton,not_or]
      exact ⟨fresh.2 x named,fun same => distinct.1 (same ▸ named)⟩
    simp only [emitPairs,PassM.ends_bind,emitArgument_ends,fresh.1,if_false,Option.bind_some,
      ih distinct.2 restFresh,PassM.ends_pure]
    simp [PassState.extend]

theorem tupleArguments_ends {function : String} {ps : List String} (distinct : ps.Nodup)
    (fresh : ∀ p ∈ ps, p ∉ s.emitted) (vals : List Json) :
    (tupleArguments function ps vals).ends s =
      if ps.length ≤ vals.length then some (argumentFilters (ps.zip vals),s.extend ⟨[],ps,[]⟩)
      else none := by
  induction ps generalizing vals s with
  | nil => simp [tupleArguments]
  | cons p rest ih =>
    simp only [List.nodup_cons,List.mem_cons,forall_eq_or_imp] at distinct fresh
    cases vals with
    | nil => simp [tupleArguments]
    | cons v more =>
      have restFresh : ∀ x ∈ rest, x ∉ (s.extend ⟨[],[p],[]⟩).emitted := by
        intro x named
        simp only [PassState.extend,List.mem_append,List.mem_singleton,not_or]
        exact ⟨fresh.2 x named,fun same => distinct.1 (same ▸ named)⟩
      simp only [tupleArguments,PassM.ends_bind,emitArgument_ends,fresh.1,if_false,Option.bind_some,
        ih distinct.2 restFresh,List.length_cons,Nat.add_le_add_iff_right,List.zip_cons_cons]
      split <;> simp [PassState.extend]

/-- The arguments of a function listed in the function column, when its parameters are
neither arguments nor consumed yet: all must be columns of the query. -/
theorem listedArguments_ends {q : Query} {function : String} {ps : List String} (distinct : ps.Nodup)
    (fresh : ∀ p ∈ ps, p ∉ s.emitted) (unconsumed : ∀ p ∈ ps, p ∉ s.consumed) :
    (listedArguments q function ps).ends s =
      (Query.argumentsOf q ps).map fun pairs => (argumentFilters pairs,s.extend ⟨[],ps,ps⟩) := by
  induction ps generalizing s with
  | nil => simp [listedArguments]
  | cons p rest ih =>
    simp only [List.nodup_cons,List.mem_cons,forall_eq_or_imp] at distinct fresh unconsumed
    cases given : Keyed.get? p q with
    | none => simp [listedArguments,given]
    | some v =>
      let s' := s.extend ⟨[],[p],[p]⟩
      have restFresh : ∀ x ∈ rest, x ∉ s'.emitted := by
        intro x named
        simp only [s',PassState.extend,List.mem_append,List.mem_singleton,not_or]
        exact ⟨fresh.2 x named,fun same => distinct.1 (same ▸ named)⟩
      have restUnconsumed : ∀ x ∈ rest, x ∉ s'.consumed := by
        intro x named
        simp only [s',PassState.extend,List.mem_append,List.mem_singleton,not_or]
        exact ⟨unconsumed.2 x named,fun same => distinct.1 (same ▸ named)⟩
      have emitted : p ∉ (s.extend ⟨[],[],[p]⟩).emitted := by simpa [PassState.extend] using fresh.1
      have after : (s.extend ⟨[],[],[p]⟩).extend ⟨[],[p],[]⟩ = s' := by simp [s',PassState.extend]
      simp only [listedArguments,given,PassM.ends_bind,consume_ends,unconsumed.1,if_false,
        Option.bind_some,emitArgument_ends,emitted,after,ih distinct.2 restFresh restUnconsumed]
      cases restGiven : Query.argumentsOf q rest <;> simp [s',PassState.extend,given,restGiven]

/-- The arguments of a function recognised by its parameters, when all its parameters are
columns of the query and none is an argument or consumed yet. -/
theorem presentArguments_ends {q : Query} {ps : List String} {pairs : List (String × Json)}
    (given : Query.argumentsOf q ps = some pairs) (distinct : ps.Nodup)
    (fresh : ∀ p ∈ ps, p ∉ s.emitted) (unconsumed : ∀ p ∈ ps, p ∉ s.consumed) :
    (presentArguments q ps).ends s = some (argumentFilters pairs,s.extend ⟨[],ps,ps⟩) := by
  induction ps generalizing s pairs with
  | nil =>
    simp only [Query.argumentsOf_nil,Option.some.injEq] at given
    simp [presentArguments,← given]
  | cons p rest ih =>
    simp only [List.nodup_cons,List.mem_cons,forall_eq_or_imp] at distinct fresh unconsumed
    simp only [Query.argumentsOf_cons,Option.bind_eq_some_iff,Option.map_eq_some_iff] at given
    obtain ⟨v,present,tail,restGiven,rfl⟩ := given
    let s' := s.extend ⟨[],[p],[p]⟩
    have restFresh : ∀ x ∈ rest, x ∉ s'.emitted := by
      intro x named
      simp only [s',PassState.extend,List.mem_append,List.mem_singleton,not_or]
      exact ⟨fresh.2 x named,fun same => distinct.1 (same ▸ named)⟩
    have restUnconsumed : ∀ x ∈ rest, x ∉ s'.consumed := by
      intro x named
      simp only [s',PassState.extend,List.mem_append,List.mem_singleton,not_or]
      exact ⟨unconsumed.2 x named,fun same => distinct.1 (same ▸ named)⟩
    have emitted : p ∉ (s.extend ⟨[],[],[p]⟩).emitted := by simpa [PassState.extend] using fresh.1
    have after : (s.extend ⟨[],[],[p]⟩).extend ⟨[],[p],[]⟩ = s' := by simp [s',PassState.extend]
    simp only [presentArguments,present,PassM.ends_bind,consume_ends,unconsumed.1,if_false,
      Option.bind_some,emitArgument_ends,emitted,after,ih restGiven distinct.2 restFresh restUnconsumed]
    simp [s',PassState.extend]

/-- The filters of invocations: each function's invocation, followed by its arguments. -/
def blockFilters (blocks : List (Entry × List (String × Json))) : List Filter :=
  blocks.flatMap fun b => b.1.invocation :: argumentFilters b.2

/-- Runs a step on each item in order, collecting the filters. -/
def eachStep {ι : Type} (step : ι → PassM (List Filter)) : List ι → PassM (List Filter)
  | [] => pure []
  | i :: rest => do
    let fs ← step i
    let more ← eachStep step rest
    pure (fs ++ more)

/-- What firing a sequence of invocations adds to a state: the functions in order, their
parameters as arguments, and the same parameters as consumed columns when the invocations
consume them. -/
def blocksDelta (how : Recognition) (consumes : Bool) (blocks : List (Entry × List (String × Json))) :
    PassState :=
  ⟨blocks.map (·.1.name,how),blocks.flatMap (·.1.parameters),
    if consumes then blocks.flatMap (·.1.parameters) else []⟩

/-- The sequence of invocations has no function twice and none that fired already. -/
def FreshBlocks (s : PassState) (blocks : List (Entry × List (String × Json))) : Prop :=
  (blocks.map (·.1.name)).Nodup ∧ ∀ b ∈ blocks, b.1.name ∉ s.firedNames

instance (s : PassState) (blocks : List (Entry × List (String × Json))) :
    Decidable (FreshBlocks s blocks) := inferInstanceAs (Decidable (_ ∧ _))

/-- A step on each item, where each step fires one function with all its parameters or fails
by itself, fires the whole sequence: it fails when one item fails, or when a function comes
twice or has fired already. -/
theorem eachStep_ends {ι : Type} {r : Registry} {column : String} {how : Recognition}
    {consumes : Bool} (step : ι → PassM (List Filter)) (block : ι → Option (Entry × List (String × Json)))
    (registered : ∀ i b, block i = some b → b.1 ∈ r.entries)
    (single : ∀ i {s : PassState}, s.Sound r column → (step i).ends s = (block i).bind fun b =>
      if b.1.name ∈ s.firedNames then none
      else some (b.1.invocation :: argumentFilters b.2,s.extend (blocksDelta how consumes [b]))) :
    ∀ (items : List ι) {s : PassState}, s.Sound r column →
      (eachStep step items).ends s = (items.mapM block).bind fun blocks =>
        if FreshBlocks s blocks then some (blockFilters blocks,s.extend (blocksDelta how consumes blocks))
        else none := by
  intro items
  induction items with
  | nil => intro s _; simp [eachStep,blockFilters,blocksDelta,FreshBlocks]
  | cons i rest ih =>
    intro s sound
    simp only [eachStep,PassM.ends_bind,single i sound,List.mapM_cons]
    cases found : block i with
    | none => simp
    | some b =>
      by_cases fired : b.1.name ∈ s.firedNames
      · have stale : ∀ bs, ¬ FreshBlocks s (b :: bs) := fun _ fresh => fresh.2 b (by simp) fired
        cases (rest.mapM block) <;> simp [fired,stale]
      have member := registered i b found
      have sound₁ : (s.extend (blocksDelta how consumes [b])).Sound r column := by
        have recorded : (s.extend ⟨[(b.1.name,how)],b.1.parameters,
            if consumes then b.1.parameters else []⟩).Sound r column :=
          sound.record member fired (fun _ owned => owned) (by cases consumes <;> simp)
        simpa [blocksDelta] using recorded
      simp only [fired,if_false,Option.bind_some,ih sound₁]
      cases blocks : rest.mapM block with
      | none => simp
      | some bs =>
        have names₁ : (s.extend (blocksDelta how consumes [b])).firedNames = s.firedNames ++ [b.1.name] := by
          simp [PassState.firedNames,PassState.extend,blocksDelta]
        have iff : FreshBlocks (s.extend (blocksDelta how consumes [b])) bs ↔ FreshBlocks s (b :: bs) := by
          simp only [FreshBlocks,names₁,List.map_cons,List.nodup_cons,List.mem_cons,forall_eq_or_imp,
            List.mem_append,not_or,List.mem_map,List.not_mem_nil,or_false]
          constructor
          · rintro ⟨nodup,unfired⟩
            exact ⟨⟨fun ⟨x,xMember,same⟩ => (unfired x xMember).2 same,nodup⟩,fired,
              fun x xMember => (unfired x xMember).1⟩
          · rintro ⟨⟨fresh,nodup⟩,-,unfired⟩
            exact ⟨nodup,fun x xMember => ⟨unfired x xMember,fun same => fresh ⟨x,xMember,same⟩⟩⟩
        by_cases good : FreshBlocks s (b :: bs)
        · simp only [Option.bind_some,if_pos (iff.mpr good)]
          cases consumes <;> simp [blockFilters,blocksDelta,PassState.extend,good]
        · simp only [Option.bind_some,if_neg (mt iff.mp good)]
          simp [good]

/-- One function listed in the function column, fired with its arguments. -/
def listedCall (sc : Scope) (q : Query) (name : String) : PassM (List Filter) := do
  let f ← fire sc name .explicitByList
  let ps ← PassM.lift (sc.registry.parametersFor name)
  let args ← listedArguments q name ps
  pure (f :: args)

theorem fireListed_eq_eachStep (sc : Scope) (q : Query) :
    ∀ names, fireListed sc q names = eachStep (listedCall sc q) names := by
  intro names
  induction names with
  | nil => rfl
  | cons n rest ih => simp [fireListed,eachStep,listedCall,ih]

/-- The invocation a listed function makes: its entry, with its arguments from the query's
columns, if it is registered and all its parameters are given. -/
def listedBlock (r : Registry) (q : Query) (name : String) : Option (Entry × List (String × Json)) :=
  (r.find? name).bind fun e => (Query.argumentsOf q e.parameters).map (e,·)

theorem listedCall_ends {sc : Scope} {column : String} (wf : sc.registry.WellFormed)
    (notColumn : ∀ e ∈ sc.registry.entries, column ∉ e.parameters) (q : Query) (name : String)
    {s : PassState} (sound : s.Sound sc.registry column) :
    (listedCall sc q name).ends s = (listedBlock sc.registry q name).bind fun b =>
      if b.1.name ∈ s.firedNames then none
      else some (b.1.invocation :: argumentFilters b.2,s.extend (blocksDelta .explicitByList true [b])) := by
  cases found : sc.registry.find? name with
  | none =>
    have unregistered : sc.registry.handle name = .error (.notRegistered name) := by
      simp [Registry.handle,Registry.get,found,Except.map]
    simp [listedCall,listedBlock,found,fire_ends,unregistered]
  | some e =>
    obtain ⟨member,rfl⟩ := Registry.find?_eq_some found
    by_cases fired : e.name ∈ s.firedNames
    · cases given : Query.argumentsOf q e.parameters <;>
        simp [listedCall,listedBlock,found,fire_ends,fired,given]
    have fresh : ∀ p ∈ e.parameters, p ∉ (s.extend ⟨[(e.name,.explicitByList)],[],[]⟩).emitted := by
      simpa [PassState.extend] using sound.unemitted wf member fired
    have unconsumed :
        ∀ p ∈ e.parameters, p ∉ (s.extend ⟨[(e.name,.explicitByList)],[],[]⟩).consumed := by
      simpa [PassState.extend] using sound.unconsumed wf member fired (notColumn e member)
    simp only [listedCall,listedBlock,found,Option.bind_some,PassM.ends_bind,
      fire_ends_of_mem wf member fired,PassM.ends_lift,Registry.parametersFor_of_mem wf member,
      listedArguments_ends (wf.parametersNodup e member) fresh unconsumed]
    cases Query.argumentsOf q e.parameters <;> simp [fired,blocksDelta,PassState.extend]

/-- Firing the listed functions from a sound state: it fails when one is not registered or
lacks a parameter, or is listed twice or has fired already; otherwise each listed function's
invocation and arguments follow in order, its parameters consumed. -/
theorem fireListed_ends {sc : Scope} {column : String} (wf : sc.registry.WellFormed)
    (notColumn : ∀ e ∈ sc.registry.entries, column ∉ e.parameters) (q : Query) (names : List String)
    {s : PassState} (sound : s.Sound sc.registry column) :
    (fireListed sc q names).ends s = (names.mapM (listedBlock sc.registry q)).bind fun blocks =>
      if FreshBlocks s blocks then
        some (blockFilters blocks,s.extend (blocksDelta .explicitByList true blocks))
      else none := by
  rw [fireListed_eq_eachStep]
  refine eachStep_ends _ _ ?_ (fun n _ sound => listedCall_ends wf notColumn q n sound) names sound
  intro n b found
  simp only [listedBlock,Option.bind_eq_some_iff,Option.map_eq_some_iff] at found
  obtain ⟨e,registered,pairs,-,rfl⟩ := found
  exact (Registry.find?_eq_some registered).1

end Invocation

end QueryFilters
