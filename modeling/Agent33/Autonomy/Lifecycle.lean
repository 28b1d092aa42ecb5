import Agent33.Autonomy.Service
import Agent33.Library.History

/-!
# Runs of the autonomy service

An enforcer is a cached object. It is dropped with its budget and created only for an
active one, but a transition leaves it where it is: what a suspended, expired or
completed budget still allows is what its enforcer allows.
-/

namespace Agent33.Autonomy

open Library List Option EStateM

inductive Operation
  | createBudget (budget : AutonomyBudget)
  | transition (budgetId : String) (toState : BudgetState) (approvedBy : String)
  | deleteBudget (budgetId : String)
  | createEnforcer (budgetId : String) (startedAt : Int) (stamps : ℕ → Stamp)
  | enforce (budgetId : String) (check : Check)
  | triggerEscalation (budgetId : String) (description target : Text)
      (urgency : EscalationUrgency)
  | acknowledgeEscalation (escalationId : String)
  | resolveEscalation (escalationId : String)
  | restart (stamps : String → ℕ → Stamp)

def enforce (python : Python) (budgetId : String) : Check → ServiceM EnforcementResult
  | .file path mode lines => enforceFile budgetId path mode lines
  | .command text => enforceCommand python budgetId text
  | .network domain => enforceNetwork python budgetId domain

namespace Operation

def perform (python : Python) : Operation → ServiceM PUnit
  | .createBudget budget => Autonomy.createBudget budget
  | .transition budgetId toState approvedBy => do
    let _ ← Autonomy.transition budgetId toState approvedBy
  | .deleteBudget budgetId => Autonomy.deleteBudget budgetId
  | .createEnforcer budgetId startedAt stamps => do
    let _ ← Autonomy.createEnforcer budgetId startedAt stamps
  | .enforce budgetId check => do
    let _ ← Autonomy.enforce python budgetId check
  | .triggerEscalation budgetId description target urgency => do
    let _ ← triggerServiceEscalation budgetId description target urgency
  | .acknowledgeEscalation escalationId => do
    let _ ← Autonomy.acknowledgeEscalation escalationId
  | .resolveEscalation escalationId => do
    let _ ← Autonomy.resolveEscalation escalationId
  | .restart stamps => modify fun svc => svc.loadState stamps

end Operation

def started (durable : Bool) : AutonomyService :=
  { stateStore := if durable then some {} else none }

abbrev next (python : Python) : AutonomyService → Operation → AutonomyService :=
  History.next (Operation.perform python)

abbrev Along (python : Python) (P : AutonomyService → Operation → Prop) :
    AutonomyService → List Operation → Prop :=
  History.Along (next python) P

theorem enforce_eq (python : Python) (budgetId : String) (check : Check) :
    enforce python budgetId check = onEnforcer budgetId (check.perform python) := by
  cases check <;> rfl

inductive Move (python : Python) (svc : AutonomyService) : Operation → AutonomyService → Prop
  | refused (op : Operation) : Move python svc op svc
  | createBudget (budget : AutonomyBudget) :
      Move python svc (.createBudget budget) (svc.putBudget budget.budgetId budget).persistState
  | transition {budgetId approvedBy : String} {toState : BudgetState} {budget : AutonomyBudget}
      (found : svc.budgets.get? budgetId = some budget)
      (valid : toState ∈ validTransitions budget.state) :
      Move python svc (.transition budgetId toState approvedBy)
        (svc.putBudget budgetId { budget with
          state := toState
          approvedBy := if approvedBy = "" then budget.approvedBy else approvedBy }).persistState
  | deleteBudget {budgetId : String} {budget : AutonomyBudget}
      (found : svc.budgets.get? budgetId = some budget)
      (state : budget.state = .draft ∨ budget.state = .rejected) :
      Move python svc (.deleteBudget budgetId) ({ svc with
        budgets := svc.budgets.erase budgetId
        enforcers := svc.enforcers.erase budgetId } : AutonomyService).persistState
  | createEnforcer {budgetId : String} {budget : AutonomyBudget} {startedAt : Int}
      {stamps : ℕ → Stamp} (found : svc.budgets.get? budgetId = some budget)
      (active : budget.state = .active) :
      Move python svc (.createEnforcer budgetId startedAt stamps) (svc.putEnforcer budgetId
        { budget, context := { budgetId := budget.budgetId, startedAt }, stamps }).persistState
  | enforce {budgetId : String} {check : Check} {e e' : RuntimeEnforcer}
      {result : EnforcementResult} (found : svc.enforcers.get? budgetId = some e)
      (run : (check.perform python).run e = .ok result e') :
      Move python svc (.enforce budgetId check) (svc.putEnforcer budgetId e').persistState
  | triggerEscalation {budgetId : String} {description target : Text}
      {urgency : EscalationUrgency} {e e' : RuntimeEnforcer} {record : EscalationRecord}
      (found : svc.enforcers.get? budgetId = some e)
      (run : (Autonomy.triggerEscalation description target urgency).run e = .ok record e') :
      Move python svc (.triggerEscalation budgetId description target urgency)
        (svc.putEnforcer budgetId e').persistState
  | updateEscalation {op : Operation} {escalationId budgetId : String} {e : RuntimeEnforcer}
      {escalations : List EscalationRecord} {f : EscalationRecord → EscalationRecord}
      (flags : f = (fun r => { r with acknowledged := true }) ∨
        f = (fun r => { r with resolved := true }))
      (found : svc.enforcers.get? budgetId = some e)
      (updated : updateFirst escalationId f e.escalations = some escalations) :
      Move python svc op (svc.putEnforcer budgetId { e with escalations }).persistState
  | updateStored {op : Operation} {escalationId : String} {record : EscalationRecord}
      {f : EscalationRecord → EscalationRecord}
      (found : svc.escalations.get? escalationId = some record) :
      Move python svc op ({ svc with
        escalations := svc.escalations.set escalationId (f record) } : AutonomyService).persistState
  | restart (stamps : String → ℕ → Stamp) : Move python svc (.restart stamps) (svc.loadState stamps)

section

variable {python : Python} {svc : AutonomyService}

variable (budgetId : String)

theorem getBudget_run (svc : AutonomyService) :
    (getBudget budgetId).run svc =
      match svc.budgets.get? budgetId with
      | none => .error (.budgetNotFound ("Budget not found: " ++ budgetId)) svc
      | some budget => .ok budget svc := by
  rw [getBudget, run_bind, run_get]
  dsimp only
  cases svc.budgets.get? budgetId <;> rfl

theorem transition_run (toState : BudgetState) (approvedBy : String)
    (svc : AutonomyService) :
    (transition budgetId toState approvedBy).run svc =
      match svc.budgets.get? budgetId with
      | none => .error (.budgetNotFound ("Budget not found: " ++ budgetId)) svc
      | some budget =>
        if toState ∉ validTransitions budget.state then
          .error (invalidTransition budget.state toState) svc
        else
          let budget := { budget with
            state := toState
            approvedBy := if approvedBy = "" then budget.approvedBy else approvedBy }
          .ok budget (svc.putBudget budgetId budget).persistState := by
  rw [transition, run_bind, getBudget_run]
  cases svc.budgets.get? budgetId with
  | none => rfl
  | some budget =>
    dsimp only
    split_ifs <;> rfl

theorem deleteBudget_run (svc : AutonomyService) :
    (deleteBudget budgetId).run svc =
      match svc.budgets.get? budgetId with
      | none => .error (.budgetNotFound ("Budget not found: " ++ budgetId)) svc
      | some budget =>
        if budget.state ≠ .draft ∧ budget.state ≠ .rejected then
          .error (invalidTransition budget.state .draft) svc
        else
          .ok ⟨⟩ ({ svc with
            budgets := svc.budgets.erase budgetId
            enforcers := svc.enforcers.erase budgetId } : AutonomyService).persistState := by
  rw [deleteBudget, run_bind, getBudget_run]
  cases svc.budgets.get? budgetId with
  | none => rfl
  | some budget =>
    dsimp only
    split_ifs <;> rfl

theorem createEnforcer_run (startedAt : Int) (stamps : ℕ → Stamp)
    (svc : AutonomyService) :
    (createEnforcer budgetId startedAt stamps).run svc =
      match svc.budgets.get? budgetId with
      | none => .error (.budgetNotFound ("Budget not found: " ++ budgetId)) svc
      | some budget =>
        if budget.state ≠ .active then .error (invalidTransition budget.state .active) svc
        else
          let enforcer := { budget, context := { budgetId := budget.budgetId, startedAt }, stamps }
          .ok enforcer (svc.putEnforcer budgetId enforcer).persistState := by
  rw [createEnforcer, run_bind, getBudget_run]
  cases svc.budgets.get? budgetId with
  | none => rfl
  | some budget =>
    dsimp only
    split_ifs <;> rfl

variable {α : Type} {svc' : AutonomyService}

theorem onEnforcer_run (body : EnforcerM α) (svc : AutonomyService) :
    (onEnforcer budgetId body).run svc =
      match svc.enforcers.get? budgetId with
      | none => .error (.enforcerNotFound ("No enforcer for budget: " ++ budgetId)) svc
      | some enforcer =>
        match body.run enforcer with
        | .ok result enforcer => .ok result (svc.putEnforcer budgetId enforcer).persistState
        | .error e enforcer => .error (.raised e) (svc.putEnforcer budgetId enforcer) := by
  rw [onEnforcer, run_bind, run_get]
  dsimp only
  cases svc.enforcers.get? budgetId with
  | none => rfl
  | some enforcer =>
    dsimp only
    cases body.run enforcer <;> rfl

theorem next_of_ok (h : (op.perform python).run svc = .ok ⟨⟩ svc') : next python svc op = svc' := by
  rw [next, History.next, h]

theorem next_of_error (h : (op.perform python).run svc = .error e svc') :
    next python svc op = svc' := by
  rw [next, History.next, h]

theorem run_discard (x : ServiceM α) (svc : AutonomyService) :
    (do let _ ← x : ServiceM PUnit).run svc =
      match x.run svc with
      | .ok _ svc' => .ok ⟨⟩ svc'
      | .error e svc' => .error e svc' := by
  rw [run_bind]
  cases x.run svc <;> rfl

theorem move_updateEscalation (escalationId : String)
    (hf : f = (fun r => { r with acknowledged := true }) ∨
      f = (fun r => { r with resolved := true }))
    (hop : op.perform python = do let _ ← updateEscalation escalationId f) :
    Move python svc op (next python svc op) := by
  have hrun := run_discard (updateEscalation escalationId f) svc
  rw [← hop] at hrun
  rw [updateEscalation, run_bind, run_get] at hrun
  dsimp only at hrun
  cases hfound : svc.enforcers.entries.findSome? fun p =>
      (updateFirst escalationId f p.2.escalations).map fun escalations =>
        (p.1, { p.2 with escalations }) with
  | some found =>
    obtain ⟨⟨budgetId, e⟩, hmem, hupdate⟩ := exists_of_findSome?_eq_some hfound
    rw [hfound] at hrun
    obtain ⟨escalations, hescalations, heq⟩ := map_eq_some_iff.mp hupdate
    subst heq
    rw [next_of_ok hrun]
    exact .updateEscalation hf ((Dict.mem_entries _ _ _).mp hmem) hescalations
  | none =>
    rw [hfound] at hrun
    dsimp only at hrun
    cases hrecord : svc.escalations.get? escalationId with
    | none =>
      rw [hrecord] at hrun
      rw [next_of_ok hrun]
      exact .refused op
    | some record =>
      rw [hrecord] at hrun
      rw [next_of_ok hrun]
      exact .updateStored (f := f) hrecord

theorem move_onEnforcer (body : EnforcerM α)
    (hop : op.perform python = do let _ ← onEnforcer budgetId body)
    (herror : ∀ e err e', body.run e = .error err e' → e' = e)
    (hok : ∀ e result e', svc.enforcers.get? budgetId = some e → body.run e = .ok result e' →
      Move python svc op (svc.putEnforcer budgetId e').persistState) :
    Move python svc op (next python svc op) := by
  have hrun := run_discard (onEnforcer budgetId body) svc
  rw [← hop, onEnforcer_run] at hrun
  cases hfound : svc.enforcers.get? budgetId with
  | none =>
    rw [hfound] at hrun
    rw [next_of_error hrun]
    exact .refused op
  | some e =>
    rw [hfound] at hrun
    dsimp only at hrun
    cases hbody : body.run e with
    | ok result e' =>
      rw [hbody] at hrun
      rw [next_of_ok hrun]
      exact hok e result e' hfound hbody
    | error err e' =>
      rw [hbody] at hrun
      obtain rfl := herror e err e' hbody
      rw [next_of_error hrun, AutonomyService.putEnforcer, Dict.set_eq_self hfound]
      exact .refused op

theorem move_next (python : Python) (svc : AutonomyService) (op : Operation) :
    Move python svc op (next python svc op) := by
  cases op with
  | restart stamps => exact .restart stamps
  | createBudget budget => exact .createBudget budget
  | transition budgetId toState approvedBy =>
    have hrun : (Operation.perform python (.transition budgetId toState approvedBy)).run svc = _ :=
      run_discard (transition budgetId toState approvedBy) svc
    rw [transition_run] at hrun
    cases hfound : svc.budgets.get? budgetId with
    | none =>
      rw [hfound] at hrun
      rw [next_of_error hrun]
      exact .refused _
    | some budget =>
      rw [hfound] at hrun
      dsimp only at hrun
      by_cases hvalid : toState ∈ validTransitions budget.state
      · rw [if_neg (not_not.mpr hvalid)] at hrun
        rw [next_of_ok hrun]
        exact .transition hfound hvalid
      · rw [if_pos hvalid] at hrun
        rw [next_of_error hrun]
        exact .refused _
  | deleteBudget budgetId =>
    have hrun : (Operation.perform python (.deleteBudget budgetId)).run svc =
      (deleteBudget budgetId).run svc := rfl
    rw [deleteBudget_run] at hrun
    cases hfound : svc.budgets.get? budgetId with
    | none =>
      rw [hfound] at hrun
      rw [next_of_error hrun]
      exact .refused _
    | some budget =>
      rw [hfound] at hrun
      dsimp only at hrun
      by_cases hstate : budget.state ≠ .draft ∧ budget.state ≠ .rejected
      · rw [if_pos hstate] at hrun
        rw [next_of_error hrun]
        exact .refused _
      · rw [if_neg hstate] at hrun
        rw [next_of_ok hrun]
        exact .deleteBudget hfound (by tauto)
  | createEnforcer budgetId startedAt stamps =>
    have hrun :
        (Operation.perform python (.createEnforcer budgetId startedAt stamps)).run svc = _ :=
      run_discard (createEnforcer budgetId startedAt stamps) svc
    rw [createEnforcer_run] at hrun
    cases hfound : svc.budgets.get? budgetId with
    | none =>
      rw [hfound] at hrun
      rw [next_of_error hrun]
      exact .refused _
    | some budget =>
      rw [hfound] at hrun
      dsimp only at hrun
      by_cases hactive : budget.state = .active
      · rw [if_neg (not_not.mpr hactive)] at hrun
        rw [next_of_ok hrun]
        exact .createEnforcer hfound hactive
      · rw [if_pos hactive] at hrun
        rw [next_of_error hrun]
        exact .refused _
  | enforce budgetId check =>
    refine move_onEnforcer budgetId (check.perform python) ?_ ?_ ?_
    · rw [← enforce_eq]
      rfl
    · intro e err e' h
      have hspec := perform_spec python check e
      rw [h] at hspec
      exact hspec.2
    · exact fun e result e' hfound hrun => .enforce hfound hrun
  | triggerEscalation budgetId description target urgency =>
    refine move_onEnforcer _ _ rfl ?_ ?_
    · intro e err e' h
      cases h
    · exact fun e result e' hfound hrun => .triggerEscalation hfound hrun
  | acknowledgeEscalation escalationId =>
    exact move_updateEscalation escalationId (.inl rfl) rfl
  | resolveEscalation escalationId =>
    exact move_updateEscalation escalationId (.inr rfl) rfl

def BudgetState.Used (state : BudgetState) : Prop :=
  state = .active ∨ state = .suspended ∨ state = .expired ∨ state = .completed

def Stored (svc : AutonomyService) : Prop :=
  ∀ stored, svc.stateStore = some stored →
    stored.budgets.get? budgetId = svc.budgets.get? budgetId ∧
      stored.enforcers.get? budgetId =
        (svc.enforcers.get? budgetId).map RuntimeEnforcer.snapshotState

def Held (P : BudgetState → Prop) (budgetId : String) (svc : AutonomyService) : Prop :=
  ∀ e, svc.enforcers.get? budgetId = some e →
    ∃ budget, svc.budgets.get? budgetId = some budget ∧ P budget.state

structure Closed (P : BudgetState → Prop) : Prop where
  active : P .active
  transition : ∀ {state toState}, P state → toState ∈ validTransitions state → P toState

variable {budgetId : String}

theorem closed_used : Closed BudgetState.Used := by
  refine ⟨.inl rfl, fun {state toState} h hvalid => ?_⟩
  rcases h with rfl | rfl | rfl | rfl
  · simp only [validTransitions, mem_cons, not_mem_nil, or_false] at hvalid
    exact .inr hvalid
  · simp only [validTransitions, mem_cons, not_mem_nil, or_false] at hvalid
    exact hvalid.imp_right fun h => .inr (.inl h)
  · cases hvalid
  · cases hvalid

theorem closed_true : Closed fun _ => True := ⟨trivial, fun _ _ => trivial⟩

theorem stored_persistState (svc : AutonomyService) : Stored budgetId svc.persistState := by
  intro stored h
  obtain ⟨_, _, rfl⟩ := map_eq_some_iff.mp h
  refine ⟨rfl, ?_⟩
  rw [Dict.get?_mapValues]
  rfl

def restored (budget : AutonomyBudget) (stamps : ℕ → Stamp) (e : RuntimeEnforcer) :
    RuntimeEnforcer :=
  { budget, context := e.context, escalations := e.escalations, stamps }

theorem loadState_spec (stamps : String → ℕ → Stamp) (hstored : Stored budgetId svc) :
    ((svc.loadState stamps).stateStore = none ∧
        (svc.loadState stamps).enforcers.get? budgetId = none) ∨
      ∃ stored, (svc.loadState stamps).stateStore = some stored ∧
        stored.budgets.get? budgetId = svc.budgets.get? budgetId ∧
        (svc.loadState stamps).budgets.get? budgetId = svc.budgets.get? budgetId ∧
        stored.enforcers.get? budgetId =
          (svc.enforcers.get? budgetId).map RuntimeEnforcer.snapshotState ∧
        (svc.loadState stamps).enforcers.get? budgetId =
          (svc.enforcers.get? budgetId).bind fun e =>
            (svc.budgets.get? budgetId).map fun budget => restored budget (stamps budgetId) e := by
  rw [AutonomyService.loadState]
  cases hstore : svc.stateStore with
  | none => exact .inl ⟨rfl, rfl⟩
  | some stored =>
    obtain ⟨hbudgets, henforcers⟩ := hstored stored hstore
    refine .inr ⟨stored, rfl, hbudgets, hbudgets, henforcers, ?_⟩
    rw [Dict.get?_filterMapValues, henforcers, hbudgets]
    cases svc.enforcers.get? budgetId <;> rfl

theorem Held.set {e : RuntimeEnforcer} (h : Held P budgetId svc)
    (hb : b = budgetId → ∃ budget, svc.budgets.get? budgetId = some budget ∧ P budget.state) :
    Held P budgetId (svc.putEnforcer b e).persistState := by
  intro e' he'
  change (svc.enforcers.set b e).get? budgetId = some e' at he'
  rw [Dict.get?_set] at he'
  split_ifs at he' with hid
  · exact hb hid.symm
  · exact h e' he'

theorem Held.move (hP : Closed P)
    (h : Held P budgetId svc) (hstored : Stored budgetId svc)
    (hop : ∀ budget, op = .createBudget budget → budget.budgetId = budgetId →
      svc.enforcers.get? budgetId = none ∨ P budget.state)
    (hmove : Move python svc op svc') : Held P budgetId svc' := by
  cases hmove with
  | refused => exact h
  | createBudget budget =>
    intro e he
    obtain ⟨old, hold, hstate⟩ := h e he
    change ∃ new, (svc.budgets.set budget.budgetId budget).get? budgetId = some new ∧ _
    rw [Dict.get?_set]
    by_cases hid : budgetId = budget.budgetId
    · refine ⟨budget, if_pos hid, (hop budget rfl hid.symm).resolve_left fun hnone => ?_⟩
      rw [show svc.enforcers.get? budgetId = some e from he] at hnone
      cases hnone
    · exact ⟨old, (if_neg hid).trans hold, hstate⟩
  | @transition b approvedBy toState budget found valid =>
    intro e he
    obtain ⟨old, hold, hstate⟩ := h e he
    change ∃ new, (svc.budgets.set b _).get? budgetId = some new ∧ _
    rw [Dict.get?_set]
    by_cases hid : budgetId = b
    · subst hid
      obtain rfl := some.inj (hold.symm.trans found)
      exact ⟨_, if_pos rfl, hP.transition hstate valid⟩
    · exact ⟨old, (if_neg hid).trans hold, hstate⟩
  | @deleteBudget b budget found state =>
    intro e he
    change (svc.enforcers.erase b).get? budgetId = some e at he
    rw [Dict.get?_erase] at he
    split_ifs at he with hid
    obtain ⟨old, hold, hstate⟩ := h e he
    refine ⟨old, ?_, hstate⟩
    change (svc.budgets.erase b).get? budgetId = some old
    rw [Dict.get?_erase, if_neg hid, hold]
  | createEnforcer found active => exact h.set fun hid => ⟨_, hid ▸ found, active ▸ hP.active⟩
  | enforce found => exact h.set fun hid => h _ (hid ▸ found)
  | triggerEscalation found => exact h.set fun hid => h _ (hid ▸ found)
  | updateEscalation _ found => exact h.set fun hid => h _ (hid ▸ found)
  | updateStored => exact h
  | restart stamps =>
    intro e he
    rcases loadState_spec stamps hstored with
      ⟨_, hnone⟩ | ⟨stored, _, _, hloaded, _, henforcer⟩
    · rw [hnone] at he
      cases he
    · rw [henforcer] at he
      obtain ⟨e₀, hcached, _⟩ := bind_eq_some_iff.mp he
      obtain ⟨old, hold, hstate⟩ := h e₀ hcached
      exact ⟨old, hloaded.trans hold, hstate⟩

theorem Stored.move (hstored : Stored budgetId svc)
    (h : Held P budgetId svc) (hmove : Move python svc op svc') : Stored budgetId svc' := by
  cases hmove with
  | refused => exact hstored
  | restart stamps =>
    intro stored' hs
    rcases loadState_spec stamps hstored with
      ⟨hstore, _⟩ | ⟨stored, hstore, hbudgets, hloaded, hsnapshot, henforcer⟩
    · rw [hstore] at hs
      cases hs
    · obtain rfl := some.inj (hstore.symm.trans hs)
      refine ⟨hbudgets.trans hloaded.symm, ?_⟩
      cases hcached : svc.enforcers.get? budgetId with
      | none =>
        rw [hcached] at hsnapshot henforcer
        rw [hsnapshot, henforcer]
        rfl
      | some e₀ =>
        obtain ⟨budget, hbudget, _⟩ := h e₀ hcached
        rw [hcached] at hsnapshot henforcer
        rw [hbudget] at henforcer
        rw [hsnapshot, henforcer]
        rfl
  | _ => exact stored_persistState _

def Allows (python : Python) (svc : AutonomyService) (budgetId : String) (check : Check) : Prop :=
  ∃ svc', (enforce python budgetId check).run svc = .ok .allowed svc'

def Active (svc : AutonomyService) (budgetId : String) : Prop :=
  ∃ budget, svc.budgets.get? budgetId = some budget ∧ budget.state = .active

theorem allows_iff {check : Check} :
    Allows python svc budgetId check ↔
      ∃ e, svc.enforcers.get? budgetId = some e ∧ check.allowed python e = true := by
  rw [Allows, enforce_eq, onEnforcer_run]
  cases hfound : svc.enforcers.get? budgetId with
  | none => simp
  | some e =>
    have hspec := perform_spec python check e
    dsimp only
    cases hrun : (check.perform python).run e with
    | error err e' =>
      rw [hrun] at hspec
      simp [Check.allowed, hspec.1]
    | ok result e' =>
      rw [hrun] at hspec
      simpa using hspec.1

def AllowsOnlyActive (python : Python) (svc : AutonomyService) : Operation → Prop
  | .enforce budgetId check => Allows python svc budgetId check → Active svc budgetId
  | _ => True

/-- No call that the cached rules allow is made on a budget that is suspended, expired or
completed. -/
def NoIdleCall (python : Python) (svc : AutonomyService) : Operation → Prop
  | .enforce budgetId check =>
    ∀ e budget, svc.enforcers.get? budgetId = some e → check.allowed python e = true →
      svc.budgets.get? budgetId = some budget →
      budget.state ≠ .suspended ∧ budget.state ≠ .expired ∧ budget.state ≠ .completed
  | _ => True

def NoneRetaken (svc : AutonomyService) : Operation → Prop
  | .createBudget budget => svc.enforcers.get? budget.budgetId = none
  | _ => True

def Consistent (svc : AutonomyService) : Prop :=
  ∀ budgetId, Held BudgetState.Used budgetId svc ∧ Stored budgetId svc

theorem consistent_started (durable : Bool) : Consistent (started durable) := by
  intro budgetId
  refine ⟨fun e he => (nomatch he), fun stored h => ?_⟩
  cases durable with
  | false => cases h
  | true =>
    obtain rfl := some.inj h
    exact ⟨rfl, rfl⟩

theorem Consistent.next (h : Consistent svc) (hop : NoneRetaken svc op) :
    Consistent (next python svc op) :=
  fun budgetId => ⟨(h budgetId).1.move closed_used (h budgetId).2
    (fun budget heq hid => by subst heq; subst hid; exact .inl hop) (move_next python svc op),
    (h budgetId).2.move (h budgetId).1 (move_next python svc op)⟩

theorem allowsOnlyActive_iff {op : Operation} (h : Consistent svc) :
    AllowsOnlyActive python svc op ↔ NoIdleCall python svc op := by
  cases op with
  | enforce budgetId check =>
    constructor
    · intro honly e budget he hallowed hbudget
      obtain ⟨found, hfound, hactive⟩ := honly (allows_iff.mpr ⟨e, he, hallowed⟩)
      obtain rfl := some.inj (hfound.symm.trans hbudget)
      simp [hactive]
    · intro hidle hallows
      obtain ⟨e, he, hallowed⟩ := allows_iff.mp hallows
      obtain ⟨budget, hbudget, hused⟩ := (h budgetId).1 e he
      obtain ⟨hsuspended, hexpired, hcompleted⟩ := hidle e budget he hallowed hbudget
      refine ⟨budget, hbudget, ?_⟩
      rcases hused with hs | hs | hs | hs
      · exact hs
      · exact absurd hs hsuspended
      · exact absurd hs hexpired
      · exact absurd hs hcompleted
  | _ => exact Iff.rfl

end

/-- A run allows checks only while their budgets are active exactly when no call that the
cached rules allow comes after a suspension, expiry or completion. -/
theorem allowsOnlyActive_iff_noIdleCall (python : Python) (durable : Bool) (ops : List Operation)
    (hids : Along python NoneRetaken (started durable) ops) :
    Along python (AllowsOnlyActive python) (started durable) ops ↔
      Along python (NoIdleCall python) (started durable) ops := by
  have hstart := consistent_started durable
  constructor
  · refine History.Along.imp (fun _ _ h hop _ => Consistent.next h hop) ?_ hstart hids
    exact fun _ _ hconsistent _ => (allowsOnlyActive_iff hconsistent).mp
  · refine History.Along.imp (fun _ _ h hop _ => Consistent.next h hop) ?_ hstart hids
    exact fun _ _ hconsistent _ => (allowsOnlyActive_iff hconsistent).mpr

def resumedRead : List Operation :=
  [.createBudget { budgetId := "b" }, .transition "b" .active "", .createEnforcer "b" 0 fun _ => {},
    .enforce "b" (.file "notes.txt" "read" 0), .transition "b" .suspended "",
    .transition "b" .active "", .restart fun _ _ => {}, .enforce "b" (.file "notes.txt" "read" 0)]

theorem allowsOnlyActive_resumedRead :
    Along (asciiPython []) (AllowsOnlyActive (asciiPython [])) (started true) resumedRead := by
  refine (allowsOnlyActive_iff_noIdleCall (asciiPython []) true resumedRead
    ⟨rfl, trivial, trivial, trivial, trivial, trivial, trivial, trivial, trivial⟩).mpr
    ⟨trivial, trivial, trivial, ?_, trivial, trivial, trivial, ?_, trivial⟩
  · intro e budget _ _ hbudget
    obtain rfl := some.inj hbudget
    decide
  · intro e budget _ _ hbudget
    obtain rfl := some.inj hbudget
    decide

def suspendedRead : List Operation :=
  [.createBudget { budgetId := "b" }, .transition "b" .active "", .createEnforcer "b" 0 fun _ => {},
    .transition "b" .suspended "", .enforce "b" (.file "notes.txt" "read" 0)]

theorem not_allowsOnlyActive_suspendedRead :
    ¬ Along (asciiPython []) (AllowsOnlyActive (asciiPython [])) (started true) suspendedRead := by
  intro ⟨_, _, _, _, h, _⟩
  obtain ⟨budget, hbudget, hactive⟩ := h ⟨_, rfl⟩
  obtain rfl := some.inj hbudget
  cases hactive

end Agent33.Autonomy
