import Agent33.Autonomy.Persistence

/-!
# Restart transparency of the autonomy service

After every operation the store has what a new service needs: the budgets, the state
of every enforcer and the escalations. An enforcer holds the budget that it was created
for, a restored one the budget under its id, so that the two are the same as long as no
other budget takes the id of one with an enforcer.
-/

namespace Agent33.Autonomy

open Library JsonText List Option EStateM EscalationRecord Dict

def AutonomyBudget.rules (budget : AutonomyBudget) : AutonomyBudget :=
  { budget with state := .draft, approvedBy := "" }

def RuntimeEnforcer.plain (e : RuntimeEnforcer) : RuntimeEnforcer :=
  { e with
    budget := e.budget.rules
    escalations := e.escalations.map EscalationRecord.unflagged }

inductive Answer
  | done
  | budget (budget : AutonomyBudget)
  | enforcer (enforcer : RuntimeEnforcer)
  | result (result : EnforcementResult)
  | record (record : EscalationRecord)
  | flag (found : Bool)

def Operation.answer (python : Python) : Operation → ServiceM Answer
  | .createBudget budget => do
    Autonomy.createBudget budget
    return .done
  | .transition budgetId toState approvedBy => do
    return .budget (← Autonomy.transition budgetId toState approvedBy)
  | .deleteBudget budgetId => do
    Autonomy.deleteBudget budgetId
    return .done
  | .createEnforcer budgetId startedAt stamps => do
    return .enforcer (← Autonomy.createEnforcer budgetId startedAt stamps)
  | .enforce budgetId check => do
    return .result (← Autonomy.enforce python budgetId check)
  | .triggerEscalation budgetId description target urgency => do
    return .record (← triggerServiceEscalation budgetId description target urgency)
  | .acknowledgeEscalation escalationId => do
    return .flag (← Autonomy.acknowledgeEscalation escalationId)
  | .resolveEscalation escalationId => do
    return .flag (← Autonomy.resolveEscalation escalationId)
  | .restart stamps => do
    modify fun svc => svc.loadState stamps
    return .done

def answers (python : Python) : AutonomyService → List Operation → List (Except ServiceError Answer)
  | _, [] => []
  | svc, op :: ops =>
    match (op.answer python).run svc with
    | .ok answer svc => .ok answer :: answers python svc ops
    | .error e svc => .error e :: answers python svc ops

section Plain

variable (e : RuntimeEnforcer)

variable (description target : Text) (urgency : EscalationUrgency)

theorem plain_record :
    e.plain.record description target urgency = e.record description target urgency := by
  rw [RuntimeEnforcer.record, RuntimeEnforcer.record, RuntimeEnforcer.plain, length_map]
  rfl

def onState {ε σ α : Type} (f : σ → σ) : EStateM.Result ε σ α → EStateM.Result ε σ α
  | .ok a s => .ok a (f s)
  | .error e s => .error e (f s)

theorem plain_stop (reason description : Text) :
    (stop reason description e).plain = stop reason description e.plain := by
  simp only [stop, plain_record]
  simp [RuntimeEnforcer.plain, RuntimeEnforcer.record, unflagged]

open AutonomyBudget

theorem checkFileRead_plain (path : String) :
    (checkFileRead (.str path)).run e.plain =
      onState RuntimeEnforcer.plain ((checkFileRead (.str path)).run e) := by
  obtain ⟨⟨_, _, _, _, _, _, _, _, _, _⟩, _, _, _⟩ := e
  simp only [RuntimeEnforcer.plain, rules, checkFileRead, Json.asText,
    run_bind, run_get]
  split_ifs <;> rfl

theorem checkFileLimits_plain :
    checkFileLimits.run e.plain = onState RuntimeEnforcer.plain (checkFileLimits.run e) := by
  have hstop : ∀ reason description, EStateM.Result.ok EnforcementResult.blocked
      (stop reason description e.plain) = onState RuntimeEnforcer.plain
        (EStateM.Result.ok (ε := Exn) EnforcementResult.blocked (stop reason description e)) :=
    fun reason description => congrArg _ (plain_stop e reason description).symm
  obtain ⟨⟨_, _, _, _, _, _, _, _, _, _⟩, _, _, _⟩ := e
  simp only [RuntimeEnforcer.plain, rules, checkFileLimits_run] at hstop ⊢
  split_ifs
  · exact hstop _ _
  · exact hstop _ _
  · rfl

theorem checkFileWrite_plain (path : String) (lines : Int) :
    (checkFileWrite (.str path) lines).run e.plain =
      onState RuntimeEnforcer.plain ((checkFileWrite (.str path) lines).run e) := by
  have hlimits := checkFileLimits_plain { e with context := { e.context with
    filesModified := e.context.filesModified + 1
    linesChanged := e.context.linesChanged + lines } }
  obtain ⟨⟨_, _, _, _, _, _, _, _, _, _⟩, _, _, _⟩ := e
  simp only [RuntimeEnforcer.plain, rules, checkFileWrite, Json.asText,
    run_bind, run_get]
  split_ifs
  · rfl
  · rfl
  · exact hlimits

theorem checkToolCallLimit_plain :
    checkToolCallLimit.run e.plain = onState RuntimeEnforcer.plain (checkToolCallLimit.run e) := by
  obtain ⟨⟨_, _, _, _, _, _, _, _, _, _⟩, _, _, _⟩ := e
  simp only [RuntimeEnforcer.plain, rules, checkToolCallLimit_run]
  split_ifs <;> rfl

theorem checkCommand_plain (text : String) :
    (checkCommand python (.str text)).run e.plain =
      onState RuntimeEnforcer.plain ((checkCommand python (.str text)).run e) := by
  have hlimit := checkToolCallLimit_plain { e with context := { e.context with
    toolCalls := e.context.toolCalls + 1 } }
  obtain ⟨⟨_, _, _, _, allowedCommands, _, _, _, _, _⟩, _, _, _⟩ := e
  simp only [RuntimeEnforcer.plain, rules, checkCommand, run_bind,
    run_get]
  cases commandName (.str text) with
  | error err => rfl
  | ok name =>
    dsimp only
    split_ifs
    · rfl
    · rfl
    · cases permitted python (.str text) name allowedCommands with
      | error err => rfl
      | ok allowed =>
        dsimp only
        split_ifs
        · rfl
        · exact hlimit

theorem checkNetwork_plain (domain : String) :
    (checkNetwork python (.str domain)).run e.plain =
      onState RuntimeEnforcer.plain ((checkNetwork python (.str domain)).run e) := by
  obtain ⟨⟨_, _, _, _, _, _, _, ⟨_, _, _, maxRequests⟩, _, _⟩,
    ⟨_, _, _, _, _, _, requests, _, _, _, _⟩,
    _, _⟩ := e
  simp only [RuntimeEnforcer.plain, rules, checkNetwork, Json.asText,
    run_bind, run_get]
  split_ifs
  · rfl
  · rfl
  · change (ite _ _ _ : EnforcerM EnforcementResult).run _ =
      onState _ ((ite _ _ _ : EnforcerM EnforcementResult).run _)
    split_ifs <;> rfl
  · rfl

theorem perform_plain (check : Check) :
    (check.perform python).run e.plain =
      onState RuntimeEnforcer.plain ((check.perform python).run e) := by
  cases check with
  | file path mode lines =>
    rw [Check.perform]
    split_ifs
    · exact checkFileWrite_plain e path lines
    · exact checkFileRead_plain e path
  | command text => exact checkCommand_plain e text
  | network domain => exact checkNetwork_plain e domain

theorem triggerEscalation_run :
    (triggerEscalation description target urgency).run e =
      let record := e.record description
        (if target = [] then e.budget.defaultEscalationTarget else target) urgency
      .ok record { e with escalations := e.escalations ++ [record] } := rfl

theorem triggerEscalation_plain :
    (triggerEscalation description target urgency).run e.plain =
      onState RuntimeEnforcer.plain ((triggerEscalation description target urgency).run e) := by
  have htarget : e.plain.budget.defaultEscalationTarget = e.budget.defaultEscalationTarget := rfl
  simp only [triggerEscalation_run, plain_record, htarget, onState]
  congr 1
  simp [RuntimeEnforcer.plain, RuntimeEnforcer.record, unflagged]

end Plain

structure Alike (a b : AutonomyService) : Prop where
  budgets : ∀ id, a.budgets.get? id = b.budgets.get? id
  enforcers : ∀ id, (a.enforcers.get? id).map RuntimeEnforcer.plain =
    (b.enforcers.get? id).map RuntimeEnforcer.plain
  escalations : ∀ id, (a.escalations.get? id).isSome = (b.escalations.get? id).isSome

structure Durable (svc : AutonomyService) : Prop where
  store : ∃ stored, svc.stateStore = some stored ∧
    ∀ id, stored.escalations.get? id = svc.escalations.get? id
  stored : ∀ id, Stored id svc
  held : ∀ id, Held (fun _ => True) id svc

section Move

variable {svc svc' : AutonomyService}

theorem store_persistState (h : ∃ stored, svc.stateStore = some stored) :
    ∃ stored, svc.persistState.stateStore = some stored ∧
      ∀ id, stored.escalations.get? id = svc.persistState.escalations.get? id := by
  obtain ⟨stored, hstored⟩ := h
  exact ⟨_, map_eq_some_iff.mpr ⟨stored, hstored, rfl⟩, fun _ => rfl⟩

theorem Durable.move (h : Durable svc) (hmove : Move python svc op svc') : Durable svc' := by
  refine ⟨?_, fun id => (h.stored id).move (h.held id) hmove,
    fun id => (h.held id).move closed_true (h.stored id) (fun _ _ _ => .inr trivial) hmove⟩
  obtain ⟨stored, hstored, hescalations⟩ := h.store
  cases hmove with
  | refused => exact h.store
  | restart stamps =>
    rw [AutonomyService.loadState, hstored]
    exact ⟨stored, rfl, fun _ => rfl⟩
  | _ => exact store_persistState ⟨stored, hstored⟩

theorem durable_started : Durable (started true) := by
  refine ⟨⟨{}, rfl, fun _ => rfl⟩, fun id stored h => ?_, fun id e he => (nomatch he)⟩
  obtain rfl := some.inj h
  exact ⟨rfl, rfl⟩

def stateAfter {ε σ α : Type} : EStateM.Result ε σ α → σ
  | .ok _ s => s
  | .error _ s => s

theorem next_eq (op : Operation) (svc : AutonomyService) :
    next python svc op = stateAfter ((op.answer python).run svc) := by
  have hbind : ∀ {α : Type} (x : ServiceM α) (f : α → Answer),
      op.perform python = (do let _ ← x) → op.answer python = (do return f (← x)) →
        next python svc op = stateAfter ((op.answer python).run svc) :=
    fun x f hperform hanswer => by
      rw [next, History.next, hperform, hanswer, run_bind, run_bind]
      cases x.run svc <;> rfl
  cases op with
  | createBudget budget => rfl
  | transition budgetId toState approvedBy => exact hbind _ _ rfl rfl
  | deleteBudget budgetId =>
    exact hbind (Autonomy.deleteBudget budgetId) (fun _ => .done) (bind_pure _).symm rfl
  | createEnforcer budgetId startedAt stamps => exact hbind _ _ rfl rfl
  | enforce budgetId check => exact hbind _ _ rfl rfl
  | triggerEscalation budgetId description target urgency => exact hbind _ _ rfl rfl
  | acknowledgeEscalation escalationId => exact hbind _ _ rfl rfl
  | resolveEscalation escalationId => exact hbind _ _ rfl rfl
  | restart stamps => rfl

end Move

def SameOutcome (x y : EStateM.Result ServiceError AutonomyService Answer) : Prop :=
  match x, y with
  | .ok answer a, .ok answer' b => answer = answer' ∧ Alike a b
  | .error e a, .error e' b => e = e' ∧ Alike a b
  | _, _ => False

section Answer

theorem Alike.persistState (h : Alike a b) : Alike a.persistState b.persistState :=
  ⟨h.budgets, h.enforcers, h.escalations⟩

section

variable (h : Alike a b) (id : String)
include h id

theorem Alike.putBudget (budget : AutonomyBudget) :
    Alike (a.putBudget id budget) (b.putBudget id budget) := by
  refine ⟨fun other => ?_, h.enforcers, h.escalations⟩
  change (a.budgets.set id budget).get? other = (b.budgets.set id budget).get? other
  rw [get?_set, get?_set, h.budgets]

theorem Alike.putEnforcer
    (he : e.plain = e'.plain) : Alike (a.putEnforcer id e) (b.putEnforcer id e') := by
  refine ⟨h.budgets, fun other => ?_, h.escalations⟩
  change ((a.enforcers.set id e).get? other).map _ = ((b.enforcers.set id e').get? other).map _
  rw [get?_set, get?_set]
  split_ifs
  · exact congrArg some he
  · exact h.enforcers other

theorem Alike.erase :
    Alike { a with budgets := a.budgets.erase id, enforcers := a.enforcers.erase id }
      { b with budgets := b.budgets.erase id, enforcers := b.enforcers.erase id } := by
  refine ⟨fun other => ?_, fun other => ?_, h.escalations⟩
  · change (a.budgets.erase id).get? other = (b.budgets.erase id).get? other
    rw [get?_erase, get?_erase, h.budgets]
  · change ((a.enforcers.erase id).get? other).map _ = ((b.enforcers.erase id).get? other).map _
    rw [get?_erase, get?_erase]
    split_ifs
    · rfl
    · exact h.enforcers other

theorem Alike.transition (toState : BudgetState)
    (approvedBy : String) :
    SameOutcome ((Operation.answer python (.transition id toState approvedBy)).run a)
      ((Operation.answer python (.transition id toState approvedBy)).run b) := by
  rw [Operation.answer, run_bind, run_bind, transition_run, transition_run,
    h.budgets]
  cases b.budgets.get? id with
  | none => exact ⟨rfl, h⟩
  | some budget =>
    dsimp only
    by_cases hvalid : toState ∈ validTransitions budget.state
    · rw [if_neg (not_not.mpr hvalid), if_neg (not_not.mpr hvalid)]
      exact ⟨rfl, (h.putBudget id _).persistState⟩
    · rw [if_pos hvalid, if_pos hvalid]
      exact ⟨rfl, h⟩

theorem Alike.deleteBudget :
    SameOutcome ((Operation.answer python (.deleteBudget id)).run a)
      ((Operation.answer python (.deleteBudget id)).run b) := by
  rw [Operation.answer, run_bind, run_bind, deleteBudget_run, deleteBudget_run,
    h.budgets]
  cases b.budgets.get? id with
  | none => exact ⟨rfl, h⟩
  | some budget =>
    dsimp only
    split_ifs
    · exact ⟨rfl, h⟩
    · exact ⟨rfl, (h.erase id).persistState⟩

theorem Alike.createEnforcer (startedAt : Int) (stamps : ℕ → Stamp) :
    SameOutcome ((Operation.answer python (.createEnforcer id startedAt stamps)).run a)
      ((Operation.answer python (.createEnforcer id startedAt stamps)).run b) := by
  rw [Operation.answer, run_bind, run_bind, createEnforcer_run, createEnforcer_run,
    h.budgets]
  cases b.budgets.get? id with
  | none => exact ⟨rfl, h⟩
  | some budget =>
    dsimp only
    split_ifs
    · exact ⟨rfl, h⟩
    · exact ⟨rfl, (h.putEnforcer id rfl).persistState⟩

theorem Alike.onEnforcer {α : Type} {body : EnforcerM α}
    (hbody : ∀ e : RuntimeEnforcer, body.run e.plain = onState RuntimeEnforcer.plain (body.run e))
    (f : α → Answer) :
    SameOutcome ((do return f (← onEnforcer id body) : ServiceM Answer).run a)
      ((do return f (← onEnforcer id body) : ServiceM Answer).run b) := by
  have hget := h.enforcers id
  rw [run_bind, run_bind, onEnforcer_run, onEnforcer_run]
  cases ha : a.enforcers.get? id with
  | none =>
    rw [ha, map_none, eq_comm, map_eq_none_iff] at hget
    rw [hget]
    exact ⟨rfl, h⟩
  | some e =>
    rw [ha] at hget
    obtain ⟨e', hb, hplain⟩ := map_eq_some_iff.mp hget.symm
    rw [hb]
    have hruns := (hbody e).symm.trans ((congrArg body.run hplain.symm).trans (hbody e'))
    dsimp only
    cases hrun : body.run e with
    | ok result e₁ =>
      cases hrun' : body.run e' with
      | ok result' e₂ =>
        rw [hrun, hrun'] at hruns
        obtain ⟨hresult, hstate⟩ := EStateM.Result.ok.inj hruns
        exact ⟨congrArg f hresult, (h.putEnforcer id hstate).persistState⟩
      | error err' e₂ =>
        rw [hrun, hrun'] at hruns
        cases hruns
    | error err e₁ =>
      cases hrun' : body.run e' with
      | ok result' e₂ =>
        rw [hrun, hrun'] at hruns
        cases hruns
      | error err' e₂ =>
        rw [hrun, hrun'] at hruns
        obtain ⟨herr, hstate⟩ := EStateM.Result.error.inj hruns
        exact ⟨congrArg ServiceError.raised herr, h.putEnforcer id hstate⟩

end

def HasId (escalationId : String) (records : List EscalationRecord) : Prop :=
  ∃ record ∈ records, record.escalationId = escalationId

variable {escalationId : String}


theorem updateFirst_isSome :
    (updateFirst escalationId f records).isSome ↔ HasId escalationId records := by
  induction records with
  | nil => simp [updateFirst, HasId]
  | cons record rest ih =>
    rw [HasId, exists_mem_cons_iff, ← HasId, ← ih, updateFirst]
    by_cases hid : record.escalationId = escalationId
    · simp [hid]
    · simp [hid]

theorem hasId_unflagged :
    HasId escalationId (records.map unflagged) ↔ HasId escalationId records := by
  simp [HasId, unflagged]

def EnforcerHas (svc : AutonomyService) (escalationId : String) : Prop :=
  ∃ id e, svc.enforcers.get? id = some e ∧ HasId escalationId e.escalations

theorem Alike.enforcerHas (h : Alike a b) (ha : EnforcerHas a escalationId) :
    EnforcerHas b escalationId := by
  obtain ⟨id, e, he, hrecord⟩ := ha
  have hget := h.enforcers id
  rw [he] at hget
  obtain ⟨e', he', hplain⟩ := map_eq_some_iff.mp hget.symm
  refine ⟨id, e', he', ?_⟩
  have hlists : e'.escalations.map unflagged =
      e.escalations.map unflagged :=
    congrArg RuntimeEnforcer.escalations hplain
  exact hasId_unflagged.mp (hlists ▸ hasId_unflagged.mpr hrecord)

theorem Alike.symm (h : Alike a b) : Alike b a :=
  ⟨fun id => (h.budgets id).symm, fun id => (h.enforcers id).symm,
    fun id => (h.escalations id).symm⟩

theorem Alike.trans (h : Alike a b) (h' : Alike b c) : Alike a c :=
  ⟨fun id => (h.budgets id).trans (h'.budgets id),
    fun id => (h.enforcers id).trans (h'.enforcers id),
    fun id => (h.escalations id).trans (h'.escalations id)⟩

theorem Alike.refl (a : AutonomyService) : Alike a a := ⟨fun _ => rfl, fun _ => rfl, fun _ => rfl⟩

theorem updateEscalation_spec (svc : AutonomyService) (escalationId : String)
    (hf : ∀ r, (f r).unflagged = r.unflagged) :
    ∃ found svc', (updateEscalation escalationId f).run svc = .ok found svc' ∧
      Alike svc' svc ∧
      (found = true ↔ EnforcerHas svc escalationId ∨
        (svc.escalations.get? escalationId).isSome = true) := by
  rw [updateEscalation, run_bind, run_get]
  dsimp only
  cases hfound : svc.enforcers.entries.findSome? fun p =>
      (updateFirst escalationId f p.2.escalations).map fun escalations =>
        (p.1, { p.2 with escalations }) with
  | some found =>
    obtain ⟨⟨id, e⟩, hmem, hupdate⟩ := exists_of_findSome?_eq_some hfound
    obtain ⟨escalations, hescalations, rfl⟩ := map_eq_some_iff.mp hupdate
    have hget := (mem_entries _ _ _).mp hmem
    refine ⟨true, _, rfl, ?_, iff_of_true rfl (.inl ⟨id, e, hget, ?_⟩)⟩
    · have hplain : RuntimeEnforcer.plain { e with escalations } = e.plain := by
        rw [RuntimeEnforcer.plain, RuntimeEnforcer.plain, updateFirst_unflagged hf hescalations]
      have hset := (Alike.refl svc).putEnforcer id hplain
      rw [show svc.putEnforcer id e = svc by
        rw [AutonomyService.putEnforcer, set_eq_self hget]] at hset
      exact ⟨hset.budgets, hset.enforcers, hset.escalations⟩
    · exact updateFirst_isSome.mp (by rw [hescalations]; rfl)
  | none =>
    have hnone : ¬ EnforcerHas svc escalationId := by
      rintro ⟨id, e, he, hrecord⟩
      have hfirst := findSome?_eq_none_iff.mp hfound (id, e) ((mem_entries _ _ _).mpr he)
      rw [map_eq_none_iff] at hfirst
      have hsome := updateFirst_isSome (f := f).mpr hrecord
      rw [hfirst] at hsome
      cases hsome
    cases hrecord : svc.escalations.get? escalationId with
    | none =>
      refine ⟨false, svc, rfl, Alike.refl svc, iff_of_false (by decide) ?_⟩
      rintro (h | h)
      · exact hnone h
      · cases h
    | some record =>
      refine ⟨true, _, rfl, ⟨fun _ => rfl, fun _ => rfl, fun id => ?_⟩,
        iff_of_true rfl (.inr rfl)⟩
      change ((svc.escalations.set escalationId (f record)).get? id).isSome = _
      rw [get?_set]
      split_ifs with hid
      · rw [hid, hrecord]
        rfl
      · rfl

theorem Alike.updateEscalation (h : Alike a b) (escalationId : String)
    (hf : ∀ r, (f r).unflagged = r.unflagged) :
    SameOutcome ((do return .flag (← Autonomy.updateEscalation escalationId f) :
        ServiceM Answer).run a)
      ((do return .flag (← Autonomy.updateEscalation escalationId f) : ServiceM Answer).run b) := by
  obtain ⟨found, a', ha, haa, hfa⟩ := updateEscalation_spec a escalationId hf
  obtain ⟨found', b', hb, hbb, hfb⟩ := updateEscalation_spec b escalationId hf
  rw [run_bind, run_bind, ha, hb]
  refine ⟨congrArg Answer.flag (Bool.eq_iff_iff.mpr ?_), haa.trans (h.trans hbb.symm)⟩
  rw [hfa, hfb, h.escalations]
  exact or_congr_left ⟨h.enforcerHas, h.symm.enforcerHas⟩

section

variable (h : Alike a b) (ha : Durable a) (hb : Durable b)
include h ha hb

theorem Alike.restart
    (stamps : String → ℕ → Stamp) : Alike (a.loadState stamps) (b.loadState stamps) := by
  obtain ⟨storedA, hstoreA, hescalationsA⟩ := ha.store
  obtain ⟨storedB, hstoreB, hescalationsB⟩ := hb.store
  have hA := fun id => ha.stored id storedA hstoreA
  have hB := fun id => hb.stored id storedB hstoreB
  have hbudgets : ∀ id, storedA.budgets.get? id = storedB.budgets.get? id := fun id => by
    rw [(hA id).1, (hB id).1, h.budgets]
  rw [AutonomyService.loadState, AutonomyService.loadState, hstoreA, hstoreB]
  refine ⟨hbudgets, fun id => ?_, fun id => ?_⟩
  · dsimp only
    rw [get?_filterMapValues, get?_filterMapValues, (hA id).2, (hB id).2, hbudgets]
    have hget := h.enforcers id
    cases hA : a.enforcers.get? id with
    | none =>
      rw [hA, map_none, eq_comm, map_eq_none_iff] at hget
      rw [hget]
    | some e =>
      rw [hA] at hget
      obtain ⟨e', hB, hplain⟩ := map_eq_some_iff.mp hget.symm
      rw [hB]
      have hcontext := congrArg RuntimeEnforcer.context hplain
      change e'.context = e.context at hcontext
      have hlists : e'.escalations.map unflagged =
          e.escalations.map unflagged :=
        congrArg RuntimeEnforcer.escalations hplain
      cases storedB.budgets.get? id with
      | none => rfl
      | some budget => simp [RuntimeEnforcer.snapshotState, RuntimeEnforcer.plain, hcontext, hlists]
  · dsimp only
    rw [hescalationsA, hescalationsB, h.escalations]

theorem Alike.answer (op : Operation) :
    SameOutcome ((op.answer python).run a) ((op.answer python).run b) := by
  cases op with
  | createBudget budget => exact ⟨rfl, (h.putBudget _ _).persistState⟩
  | transition id toState approvedBy => exact h.transition id toState approvedBy
  | deleteBudget id => exact h.deleteBudget id
  | createEnforcer id startedAt stamps => exact h.createEnforcer id startedAt stamps
  | enforce id check =>
    rw [Operation.answer, enforce_eq]
    exact h.onEnforcer id (fun e => perform_plain e check) _
  | triggerEscalation id description target urgency =>
    exact h.onEnforcer id (fun e => triggerEscalation_plain e description target urgency) _
  | acknowledgeEscalation escalationId => exact h.updateEscalation escalationId fun _ => rfl
  | resolveEscalation escalationId => exact h.updateEscalation escalationId fun _ => rfl
  | restart stamps => exact ⟨rfl, h.restart ha hb stamps⟩

theorem Alike.answers (ops : List Operation) :
    Autonomy.answers python a ops = Autonomy.answers python b ops := by
  induction ops generalizing a b with
  | nil => rfl
  | cons op ops ih =>
    have houtcome : SameOutcome ((op.answer python).run a) ((op.answer python).run b) :=
      h.answer ha hb op
    have hnextA : Durable (stateAfter ((op.answer python).run a)) :=
      next_eq op a ▸ ha.move (move_next python a op)
    have hnextB : Durable (stateAfter ((op.answer python).run b)) :=
      next_eq op b ▸ hb.move (move_next python b op)
    rw [Autonomy.answers, Autonomy.answers]
    cases hrunA : (op.answer python).run a with
    | ok answer a' =>
      cases hrunB : (op.answer python).run b with
      | ok answer' b' =>
        rw [hrunA, hrunB] at houtcome
        rw [hrunA] at hnextA
        rw [hrunB] at hnextB
        dsimp only
        rw [houtcome.1, ih houtcome.2 hnextA hnextB]
      | error e' b' =>
        rw [hrunA, hrunB] at houtcome
        exact houtcome.elim
    | error e a' =>
      cases hrunB : (op.answer python).run b with
      | ok answer' b' =>
        rw [hrunA, hrunB] at houtcome
        exact houtcome.elim
      | error e' b' =>
        rw [hrunA, hrunB] at houtcome
        rw [hrunA] at hnextA
        rw [hrunB] at hnextB
        dsimp only
        rw [houtcome.1, ih houtcome.2 hnextA hnextB]

end

end Answer

def Linked (svc : AutonomyService) : Prop :=
  ∀ id e, svc.enforcers.get? id = some e →
    ∃ budget, svc.budgets.get? id = some budget ∧ budget.rules = e.budget.rules

def RulesKept (svc : AutonomyService) : Operation → Prop
  | .createBudget budget => ∀ e, svc.enforcers.get? budget.budgetId = some e →
      budget.rules = e.budget.rules
  | _ => True

section Linked

variable {svc svc' : AutonomyService}

theorem Linked.putEnforcer (h : Linked svc) {id : String}
    (he : ∃ budget, svc.budgets.get? id = some budget ∧ budget.rules = e.budget.rules) :
    Linked (svc.putEnforcer id e).persistState := by
  intro other e' he'
  change (svc.enforcers.set id e).get? other = some e' at he'
  rw [get?_set] at he'
  split_ifs at he' with hid
  · obtain rfl := some.inj he'
    exact hid ▸ he
  · exact h other e' he'

theorem Linked.move (h : Linked svc) (hdurable : Durable svc) (hop : RulesKept svc op)
    (hmove : Move python svc op svc') : Linked svc' := by
  cases hmove with
  | refused => exact h
  | createBudget budget =>
    intro id e he
    change ∃ new, (svc.budgets.set budget.budgetId budget).get? id = some new ∧ _
    rw [get?_set]
    split_ifs with hid
    · exact ⟨budget, rfl, hop e (hid ▸ he)⟩
    · exact h id e he
  | @transition id approvedBy toState budget found valid =>
    intro other e he
    obtain ⟨old, hold, hrules⟩ := h other e he
    change ∃ new, (svc.budgets.set id _).get? other = some new ∧ _
    rw [get?_set]
    by_cases hid : other = id
    · obtain rfl := some.inj (found.symm.trans (hid ▸ hold))
      exact ⟨_, if_pos hid, hrules⟩
    · exact ⟨old, (if_neg hid).trans hold, hrules⟩
  | @deleteBudget id budget found state =>
    intro other e he
    change (svc.enforcers.erase id).get? other = some e at he
    rw [get?_erase] at he
    split_ifs at he with hid
    obtain ⟨old, hold, hrules⟩ := h other e he
    refine ⟨old, ?_, hrules⟩
    change (svc.budgets.erase id).get? other = some old
    rw [get?_erase, if_neg hid, hold]
  | createEnforcer found active => exact h.putEnforcer ⟨_, found, rfl⟩
  | enforce found run =>
    have hbudget := (charged_of_run run).2.budget
    exact h.putEnforcer (hbudget ▸ h _ _ found)
  | triggerEscalation found run =>
    have hbudget := (triggerEscalation_charged run).budget
    exact h.putEnforcer (hbudget ▸ h _ _ found)
  | updateEscalation _ found =>
    have hlinked := h _ _ found
    exact h.putEnforcer hlinked
  | updateStored => exact h
  | restart stamps =>
    intro id e he
    rcases loadState_spec stamps (hdurable.stored id) with
      ⟨_, hnone⟩ | ⟨stored, _, _, hloaded, _, henforcer⟩
    · rw [hnone] at he
      cases he
    · rw [henforcer] at he
      obtain ⟨e₀, -, hmap⟩ := bind_eq_some_iff.mp he
      obtain ⟨budget, hbudget, rfl⟩ := map_eq_some_iff.mp hmap
      exact ⟨budget, hloaded.trans hbudget, rfl⟩

theorem linked_started : Linked (started true) := fun _ _ he => (nomatch he)

end Linked

def AutonomyService.stamps (svc : AutonomyService) (id : String) : ℕ → Stamp :=
  ((svc.enforcers.get? id).map RuntimeEnforcer.stamps).getD fun _ => {}

/-- The same budgets, the same states of enforcers and the same escalations, and the same answer to
every later operation. -/
structure Indistinguishable (python : Python) (rebuilt svc : AutonomyService) : Prop where
  budgets : ∀ id, rebuilt.budgets.get? id = svc.budgets.get? id
  enforcers : ∀ id, (rebuilt.enforcers.get? id).map RuntimeEnforcer.snapshotState =
    (svc.enforcers.get? id).map RuntimeEnforcer.snapshotState
  escalations : ∀ id, rebuilt.escalations.get? id = svc.escalations.get? id
  answers : ∀ later, answers python rebuilt later = answers python svc later

def AutonomyService.rebuilt (svc : AutonomyService) (timestamps : Timestamps) (payload : JsonValue)
    (now : ℤ) : AutonomyService :=
  loadPayload timestamps payload svc.stateStore now svc.stamps

def Transparent (python : Python) (timestamps : Timestamps) (svc : AutonomyService) : Prop :=
  ∃ stored, svc.stateStore = some stored ∧ ∀ payload now, GivesBack timestamps stored payload →
    Indistinguishable python (svc.rebuilt timestamps payload now) svc

section Rebuilt

theorem rebuilt_enforcers (hstored : ∀ id, Stored id svc) (hlinked : Linked svc)
    (hstore : svc.stateStore = some stored) (hpayload : GivesBack timestamps stored payload)
    (now : ℤ) (id : String) :
    (svc.enforcers.get? id = none ∧ (svc.rebuilt timestamps payload now).enforcers.get? id = none) ∨
      ∃ e budget, svc.enforcers.get? id = some e ∧ svc.budgets.get? id = some budget ∧
        budget.rules = e.budget.rules ∧
        (svc.rebuilt timestamps payload now).enforcers.get? id =
          some (restored budget e.stamps e) := by
  have hrebuilt := enforcers_loadPayload hpayload svc.stateStore now svc.stamps id
  rw [(hstored id stored hstore).1, (hstored id stored hstore).2] at hrebuilt
  cases he : svc.enforcers.get? id with
  | none =>
    rw [he] at hrebuilt
    exact .inl ⟨rfl, hrebuilt⟩
  | some e =>
    obtain ⟨budget, hbudget, hrules⟩ := hlinked id e he
    rw [he, hbudget] at hrebuilt
    refine .inr ⟨e, budget, rfl, hbudget, hrules, hrebuilt.trans ?_⟩
    rw [AutonomyService.stamps, he]
    rfl

theorem transparent (hdurable : Durable svc) (hlinked : Linked svc) (python : Python)
    (timestamps : Timestamps) : Transparent python timestamps svc := by
  obtain ⟨stored, hstore, hescalations⟩ := hdurable.store
  refine ⟨stored, hstore, fun payload now hpayload => ?_⟩
  have hbudgets : ∀ id, (svc.rebuilt timestamps payload now).budgets.get? id =
      svc.budgets.get? id := fun id =>
    (budgets_loadPayload hpayload _ now _ id).trans (hdurable.stored id stored hstore).1
  have hrecords : ∀ id, (svc.rebuilt timestamps payload now).escalations.get? id =
      svc.escalations.get? id := fun id =>
    (escalations_loadPayload hpayload _ now _ id).trans (hescalations id)
  have henforcers := rebuilt_enforcers hdurable.stored hlinked hstore hpayload now
  have hsnapshots : ∀ id,
      ((svc.rebuilt timestamps payload now).enforcers.get? id).map RuntimeEnforcer.snapshotState =
        (svc.enforcers.get? id).map RuntimeEnforcer.snapshotState := fun id => by
    rcases henforcers id with ⟨he, hrebuilt⟩ | ⟨e, budget, he, -, -, hrebuilt⟩
    · rw [he, hrebuilt]
    · rw [he, hrebuilt]
      rfl
  refine ⟨hbudgets, hsnapshots, hrecords, fun later => Alike.answers ?_ ?_ hdurable later⟩
  · refine ⟨hbudgets, fun id => ?_, fun id => congrArg Option.isSome (hrecords id)⟩
    rcases henforcers id with ⟨he, hrebuilt⟩ | ⟨e, budget, he, -, hrules, hrebuilt⟩
    · rw [he, hrebuilt]
    · rw [he, hrebuilt]
      simp [restored, RuntimeEnforcer.plain, hrules]
  · refine ⟨⟨stored, hstore, fun id => ?_⟩, fun id again hagain => ?_, fun id e he => ?_⟩
    · rw [hrecords, hescalations]
    · obtain rfl := some.inj (hstore.symm.trans hagain)
      rw [hbudgets, hsnapshots]
      exact hdurable.stored id stored hstore
    · rcases henforcers id with ⟨-, hrebuilt⟩ | ⟨e, budget, -, hbudget, -, -⟩
      · rw [hrebuilt] at he
        cases he
      · exact ⟨budget, (hbudgets id).trans hbudget, trivial⟩

end Rebuilt

/-- In every run in which no other budget takes the id of one with an enforcer, a rebuilt service
is the live one after every operation. -/
theorem transparent_of_rulesKept (python : Python) (timestamps : Timestamps)
    (ops : List Operation) (hops : Along python RulesKept (started true) ops) :
    Along python (fun svc op => Transparent python timestamps (next python svc op))
      (started true) ops := by
  refine History.Along.imp (I := fun svc => Durable svc ∧ Linked svc) ?_ ?_
    ⟨durable_started, linked_started⟩ hops hops
  · intro svc op ⟨hdurable, hlinked⟩ hop _
    have hmove := move_next python svc op
    exact ⟨hdurable.move hmove, hlinked.move hdurable hop hmove⟩
  · intro svc op ⟨hdurable, hlinked⟩ hop _
    have hmove := move_next python svc op
    exact transparent (hdurable.move hmove) (hlinked.move hdurable hop hmove) python timestamps

def escalatedRun : List Operation :=
  [.createBudget { budgetId := "b", network := { enabled := true } }, .transition "b" .active "",
    .createEnforcer "b" 0 fun _ => {}, .enforce "b" (.network "example.org"),
    .triggerEscalation "b" "stuck".toList [] .normal, .restart fun _ _ => {},
    .acknowledgeEscalation ""]

theorem transparent_escalatedRun :
    Along (asciiPython [])
      (fun svc op => Transparent (asciiPython []) strokes (next (asciiPython []) svc op))
      (started true) escalatedRun :=
  transparent_of_rulesKept (asciiPython []) strokes escalatedRun
    ⟨fun _ he => (nomatch he), trivial, trivial, trivial, trivial, trivial, trivial, trivial⟩

def retakenRun : List Operation :=
  [.createBudget { budgetId := "b", network := { enabled := true } }, .transition "b" .active "",
    .createEnforcer "b" 0 fun _ => {}, .createBudget { budgetId := "b" }]

def retakenStore : Namespace where
  budgets := Dict.empty.set "b" { budgetId := "b" }
  enforcers := Dict.empty.set "b" { context := { budgetId := "b" }, escalations := [] }

theorem allows_of_answers {id : String}
    (h : answers python a [.enforce id check] = answers python b [.enforce id check])
    (hb : Allows python b id check) : Allows python a id check := by
  obtain ⟨b', hb⟩ := hb
  rw [answers, answers, Operation.answer, run_bind, run_bind, hb] at h
  cases ha : (enforce python id check).run a with
  | ok result a' =>
    rw [ha] at h
    cases h
    exact ⟨a', ha⟩
  | error e a' =>
    rw [ha] at h
    cases h

theorem not_transparent_retakenRun :
    ¬ Along (asciiPython [])
      (fun svc op => Transparent (asciiPython []) strokes (next (asciiPython []) svc op))
      (started true) retakenRun := by
  intro ⟨_, _, _, ⟨stored, hstored, htransparent⟩, _⟩
  obtain rfl : retakenStore = stored := some.inj hstored
  have hencode : (encode ⟨fun _ => [], fun _ => 0⟩
      (.dict (named (retakenStore.payload strokes)))).isSome = true := by decide +kernel
  obtain ⟨payload, hpayload⟩ := isSome_iff_exists.mp hencode
  have hback : GivesBack strokes retakenStore payload :=
    ⟨normal_payload hpayload, _, payload, hpayload, rfl⟩
  have hlive := (htransparent payload 0 hback).answers [.enforce "b" (.network "example.org")]
  have hallows := allows_of_answers hlive ⟨_, rfl⟩
  obtain ⟨e, he, hallowed⟩ := allows_iff.mp hallows
  rw [AutonomyService.rebuilt, enforcers_loadPayload hback] at he
  obtain rfl := some.inj he
  cases hallowed

end Agent33.Autonomy
