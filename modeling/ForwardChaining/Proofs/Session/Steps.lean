import ForwardChaining.Proofs.Session.Moves

namespace ForwardChaining

namespace Facts

/-- The facts once the steps have been taken in order. -/
def afterAll (facts : Facts) (steps : List Step) : Facts :=
  steps.foldl after facts

theorem afterAll_append (facts : Facts) (steps more : List Step) :
    facts.afterAll (steps ++ more) = (facts.afterAll steps).afterAll more :=
  List.foldl_append

theorem prefix_afterAll (facts : Facts) (steps : List Step) :
    facts.literals <+: (facts.afterAll steps).literals := by
  induction steps generalizing facts with
  | nil => exact List.prefix_rfl
  | cons step rest ih => exact (facts.prefix_after step).trans (ih _)

theorem afterAll_toList (facts : Facts) (step? : Option Step) :
    facts.afterAll step?.toList = step?.elim facts facts.after := by
  cases step? <;> rfl

/-- The steps that items take in order, each on the facts that those before it have left. -/
def stepsBy {α : Type} (stepOn? : α → Facts → Option Step) (facts : Facts) : List α → List Step
  | [] => []
  | item :: rest =>
    match stepOn? item facts with
    | none => facts.stepsBy stepOn? rest
    | some step => step :: (facts.after step).stepsBy stepOn? rest

section

variable {α : Type} {stepOn? : α → Facts → Option Step}

theorem stepsBy_cons (facts : Facts) (item : α) (rest : List α) :
    facts.stepsBy stepOn? (item :: rest) = (stepOn? item facts).toList ++
      ((stepOn? item facts).elim facts facts.after).stepsBy stepOn? rest := by
  rw [stepsBy]
  cases stepOn? item facts <;> rfl

theorem stepsBy_append (facts : Facts) (items more : List α) :
    facts.stepsBy stepOn? (items ++ more) = facts.stepsBy stepOn? items ++
      (facts.afterAll (facts.stepsBy stepOn? items)).stepsBy stepOn? more := by
  induction items generalizing facts with
  | nil => rfl
  | cons item rest ih =>
    rw [List.cons_append, stepsBy_cons, stepsBy_cons, ih, List.append_assoc, afterAll_append,
      afterAll_toList]

/-- Items that are made of others take the steps of those they are made of. -/
theorem stepsBy_filterMap {β : Type} (facts : Facts) (items : List β) (make? : β → Option α) :
    facts.stepsBy stepOn? (items.filterMap make?) =
      facts.stepsBy (fun item earlier => (make? item).bind (stepOn? · earlier)) items := by
  induction items generalizing facts with
  | nil => rfl
  | cons item rest ih =>
    rw [stepsBy_cons]
    cases hmade : make? item with
    | none =>
      rw [List.filterMap_cons_none hmade, ih]
      rfl
    | some value =>
      rw [List.filterMap_cons_some hmade, stepsBy_cons, ih]
      rfl

/-- Items that take no step when their turn comes can be left out. -/
theorem stepsBy_filter {keep : α → Bool} {items : List α} {facts : Facts}
    (hsilent : ∀ before item after, items = before ++ item :: after → keep item = false →
      stepOn? item (facts.afterAll (facts.stepsBy stepOn? before)) = none) :
    facts.stepsBy stepOn? (items.filter keep) = facts.stepsBy stepOn? items := by
  induction items generalizing facts with
  | nil => rfl
  | cons item rest ih =>
    have hrest : ((stepOn? item facts).elim facts facts.after).stepsBy stepOn? (rest.filter keep) =
        ((stepOn? item facts).elim facts facts.after).stepsBy stepOn? rest := by
      apply ih
      intro before later after hsplit hleft
      have hlater := hsilent (item :: before) later after (by rw [hsplit]; rfl) hleft
      rwa [stepsBy_cons, afterAll_append, afterAll_toList] at hlater
    rw [stepsBy_cons]
    cases hkeep : keep item with
    | true => rw [List.filter_cons_of_pos hkeep, stepsBy_cons, hrest]
    | false =>
      have hnone : stepOn? item facts = none := hsilent [] item rest rfl hkeep
      rw [List.filter_cons_of_neg (by simp [hkeep])]
      rw [hnone] at hrest ⊢
      exact hrest

theorem mem_stepsBy {facts : Facts} {items : List α} {step : Step}
    (hmem : step ∈ facts.stepsBy stepOn? items) :
    ∃ item ∈ items, ∃ earlier, stepOn? item earlier = some step := by
  induction items generalizing facts with
  | nil => cases hmem
  | cons item rest ih =>
    rw [stepsBy_cons] at hmem
    rcases List.mem_append.mp hmem with hfirst | hrest
    · exact ⟨item, List.mem_cons_self, facts, Option.mem_toList.mp hfirst⟩
    · obtain ⟨later, hlater, hstep⟩ := ih hrest
      exact ⟨later, List.mem_cons_of_mem _ hlater, hstep⟩

/-- The step that an item takes in its place is one of all the steps. -/
theorem mem_stepsBy_of_place {facts : Facts} {before after : List α} {item : α} {step : Step}
    (hstep : stepOn? item (facts.afterAll (facts.stepsBy stepOn? before)) = some step) :
    step ∈ facts.stepsBy stepOn? (before ++ item :: after) := by
  rw [stepsBy_append, stepsBy_cons, hstep]
  simp

end

end Facts

namespace Account

def takeAll (account : Account) (steps : List Step) : Account :=
  steps.foldl take account

theorem takeAll_append (account : Account) (steps more : List Step) :
    account.takeAll (steps ++ more) = (account.takeAll steps).takeAll more :=
  List.foldl_append

@[simp] theorem facts_takeAll (account : Account) (steps : List Step) :
    (account.takeAll steps).facts = account.facts.afterAll steps := by
  induction steps generalizing account with
  | nil => rfl
  | cons step rest ih => exact ih (account.take step)

@[simp] theorem rules_takeAll (account : Account) (steps : List Step) :
    (account.takeAll steps).rules = account.rules := by
  induction steps generalizing account with
  | nil => rfl
  | cons step rest ih => exact ih (account.take step)

@[simp] theorem trace_takeAll (account : Account) (steps : List Step) :
    (account.takeAll steps).trace = account.trace ++ steps := by
  induction steps generalizing account with
  | nil => exact (List.append_nil _).symm
  | cons step rest ih =>
    refine (ih (account.take step)).trans ?_
    change (account.trace ++ [step]) ++ rest = _
    rw [List.append_assoc, List.singleton_append]

@[simp] theorem counters_takeAll (account : Account) (steps : List Step) :
    (account.takeAll steps).counters = steps.foldl Counters.tally account.counters := by
  induction steps generalizing account with
  | nil => rfl
  | cons step rest ih => exact ih (account.take step)

end Account

/-- A loop of calls that each take one step at most, which the settings and the facts decide, takes
    these steps in order. -/
theorem Session.account_foldl {α : Type} {turn : Session → α → Session}
    {stepOn? : Config → α → Facts → Option Step}
    (hconfig : ∀ session item, (turn session item).config = session.config)
    (hturn : ∀ session item, (turn session item).account =
      (stepOn? session.config item session.facts).elim session.account session.account.take)
    (items : List α) (session : Session) :
    (items.foldl turn session).account =
      session.account.takeAll (session.facts.stepsBy (stepOn? session.config) items) := by
  induction items generalizing session with
  | nil => rfl
  | cons item rest ih =>
    have hfacts : (turn session item).facts = (turn session item).account.facts := rfl
    rw [List.foldl_cons, ih, hconfig, hfacts, hturn, Facts.stepsBy]
    cases stepOn? session.config item session.facts with
    | none => rfl
    | some step => rfl

end ForwardChaining
