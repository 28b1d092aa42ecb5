import Agent33.Autonomy.Enforcement
import Agent33.Library.Dict
import Mathlib.Data.List.Sort
import Mathlib.Tactic.Linarith

/-!
# The autonomy service

Budgets with their lifecycle, the enforcers that were created for them, and the
state store that both are written to after every change. An enforcer refers to its
budget; no operation changes what the enforcer reads of it.
-/

namespace Agent33.Autonomy

open Library

def BudgetState.value : BudgetState → String
  | .draft => "draft"
  | .pendingApproval => "pending_approval"
  | .active => "active"
  | .suspended => "suspended"
  | .expired => "expired"
  | .completed => "completed"
  | .rejected => "rejected"

/-- `_VALID_TRANSITIONS`. -/
def validTransitions : BudgetState → List BudgetState
  | .draft => [.pendingApproval, .active]
  | .pendingApproval => [.active, .rejected]
  | .active => [.suspended, .expired, .completed]
  | .suspended => [.active, .expired]
  | .rejected => [.draft]
  | .expired => []
  | .completed => []

inductive ServiceError
  | budgetNotFound (message : String)
  | invalidStateTransition (fromState toState : BudgetState) (message : String)
  | enforcerNotFound (message : String)
  | raised (e : Exn)

def invalidTransition (fromState toState : BudgetState) : ServiceError :=
  .invalidStateTransition fromState toState
    ("Invalid transition: " ++ fromState.value ++ " → " ++ toState.value)

structure EnforcerSnapshot where
  context : EnforcementContext
  escalations : List EscalationRecord

structure Namespace where
  budgets : Dict String AutonomyBudget := Dict.empty
  enforcers : Dict String EnforcerSnapshot := Dict.empty
  escalations : Dict String EscalationRecord := Dict.empty

structure AutonomyService where
  budgets : Dict String AutonomyBudget := Dict.empty
  enforcers : Dict String RuntimeEnforcer := Dict.empty
  escalations : Dict String EscalationRecord := Dict.empty
  stateStore : Option Namespace := none

def RuntimeEnforcer.snapshotState (enforcer : RuntimeEnforcer) : EnforcerSnapshot :=
  ⟨enforcer.context, enforcer.escalations⟩

namespace AutonomyService

variable (svc : AutonomyService)

def persistState : AutonomyService :=
  { svc with stateStore := svc.stateStore.map fun _ =>
    { budgets := svc.budgets
      enforcers := svc.enforcers.mapValues fun _ enforcer => enforcer.snapshotState
      escalations := svc.escalations } }

/-- `_load_state`, as a new service over the same store runs it. The stamps are those
of the records to come. -/
def loadState (stamps : String → ℕ → Stamp) : AutonomyService :=
  match svc.stateStore with
  | none => {}
  | some stored =>
    { budgets := stored.budgets
      enforcers := stored.enforcers.filterMapValues fun budgetId snapshot =>
        (stored.budgets.get? budgetId).map fun budget =>
          { budget, context := snapshot.context, escalations := snapshot.escalations,
            stamps := stamps budgetId }
      escalations := stored.escalations
      stateStore := some stored }

def putBudget (budgetId : String) (budget : AutonomyBudget) : AutonomyService :=
  { svc with budgets := svc.budgets.set budgetId budget }

def putEnforcer (budgetId : String) (enforcer : RuntimeEnforcer) : AutonomyService :=
  { svc with enforcers := svc.enforcers.set budgetId enforcer }

end AutonomyService

abbrev ServiceM := EStateM ServiceError AutonomyService

def persistState : ServiceM PUnit := modify AutonomyService.persistState

def createBudget (budget : AutonomyBudget) : ServiceM PUnit := do
  modify fun svc => svc.putBudget budget.budgetId budget
  persistState

variable (budgetId : String)

def getBudget : ServiceM AutonomyBudget := do
  match (← get).budgets.get? budgetId with
  | none => throw (.budgetNotFound ("Budget not found: " ++ budgetId))
  | some budget => return budget

def deleteBudget : ServiceM PUnit := do
  let budget ← getBudget budgetId
  if budget.state ≠ .draft ∧ budget.state ≠ .rejected then
    throw (invalidTransition budget.state .draft)
  else
    modify fun svc => { svc with
      budgets := svc.budgets.erase budgetId
      enforcers := svc.enforcers.erase budgetId }
    persistState

def transition (toState : BudgetState) (approvedBy : String := "") :
    ServiceM AutonomyBudget := do
  let budget ← getBudget budgetId
  if toState ∉ validTransitions budget.state then
    throw (invalidTransition budget.state toState)
  else
    let budget := { budget with
      state := toState
      approvedBy := if approvedBy = "" then budget.approvedBy else approvedBy }
    modify fun svc => svc.putBudget budgetId budget
    persistState
    return budget

def activate (approvedBy : String := "") : ServiceM AutonomyBudget :=
  transition budgetId .active approvedBy

def suspend : ServiceM AutonomyBudget := transition budgetId .suspended

def complete : ServiceM AutonomyBudget := transition budgetId .completed

def createEnforcer (startedAt : Int) (stamps : ℕ → Stamp) :
    ServiceM RuntimeEnforcer := do
  let budget ← getBudget budgetId
  if budget.state ≠ .active then
    throw (invalidTransition budget.state .active)
  else
    let enforcer := { budget, context := { budgetId := budget.budgetId, startedAt }, stamps }
    modify fun svc => svc.putEnforcer budgetId enforcer
    persistState
    return enforcer

def onEnforcer {α : Type} (body : EnforcerM α) : ServiceM α := do
  match (← get).enforcers.get? budgetId with
  | none => throw (.enforcerNotFound ("No enforcer for budget: " ++ budgetId))
  | some enforcer =>
    match body.run enforcer with
    | .error e enforcer =>
      modify fun svc => svc.putEnforcer budgetId enforcer
      throw (.raised e)
    | .ok result enforcer =>
      modify fun svc => svc.putEnforcer budgetId enforcer
      persistState
      return result

def enforceFile (budgetId path : String) (mode : String := "read") (lines : Int := 0) :
    ServiceM EnforcementResult :=
  onEnforcer budgetId
    (if mode = "write" then checkFileWrite (.str path) lines else checkFileRead (.str path))

def enforceCommand (python : Python) (budgetId command : String) : ServiceM EnforcementResult :=
  onEnforcer budgetId (checkCommand python (.str command))

def enforceNetwork (python : Python) (budgetId domain : String) : ServiceM EnforcementResult :=
  onEnforcer budgetId (checkNetwork python (.str domain))

def triggerServiceEscalation (description target : Text)
    (urgency : EscalationUrgency) : ServiceM EscalationRecord :=
  onEnforcer budgetId (triggerEscalation description target urgency)

/-- `items[:limit]`. -/
def firstItems {α : Type} (items : List α) (limit : Int) : List α :=
  items.take (if 0 ≤ limit then limit.toNat else items.length - limit.natAbs)

def listEscalations (svc : AutonomyService) (budgetId : Option String) (unresolvedOnly : Bool)
    (limit : Int := 100) : List EscalationRecord :=
  let all := svc.enforcers.values.flatMap (·.escalations) ++ svc.escalations.values
  let all := all.filter fun e =>
    (budgetId.all fun b => decide (e.budgetId = b)) && !(unresolvedOnly && e.resolved)
  firstItems (all.insertionSort fun a b => b.createdAt ≤ a.createdAt) limit

def updateFirst (escalationId : String) (f : EscalationRecord → EscalationRecord) :
    List EscalationRecord → Option (List EscalationRecord)
  | [] => none
  | record :: rest =>
    if record.escalationId = escalationId then some (f record :: rest)
    else (updateFirst escalationId f rest).map (record :: ·)

def updateEscalation (escalationId : String) (f : EscalationRecord → EscalationRecord) :
    ServiceM Bool := do
  let svc ← get
  let found := svc.enforcers.entries.findSome? fun p =>
    (updateFirst escalationId f p.2.escalations).map fun escalations =>
      (p.1, { p.2 with escalations })
  match found with
  | some (budgetId, enforcer) =>
    modify fun svc => svc.putEnforcer budgetId enforcer
    persistState
    return true
  | none =>
    match svc.escalations.get? escalationId with
    | none => return false
    | some record =>
      modify fun svc => { svc with escalations := svc.escalations.set escalationId (f record) }
      persistState
      return true

def acknowledgeEscalation (escalationId : String) : ServiceM Bool :=
  updateEscalation escalationId fun record => { record with acknowledged := true }

def resolveEscalation (escalationId : String) : ServiceM Bool :=
  updateEscalation escalationId fun record => { record with resolved := true }

end Agent33.Autonomy

/-!
## The checks that the service runs

What each check of an enforcer answers and what it changes: the answer is read off
the rules and the counters before the check, and the counters only grow.
-/

namespace Agent33.Autonomy

open Library Library.Hoare

/-- The calls of `enforce_file`, `enforce_command` and `enforce_network`. -/
inductive Check
  | file (path mode : String) (lines : Int)
  | command (command : String)
  | network (domain : String)

namespace Check

def perform (python : Python) : Check → EnforcerM EnforcementResult
  | .file path mode lines =>
    if mode = "write" then checkFileWrite (.str path) lines else checkFileRead (.str path)
  | .command text => checkCommand python (.str text)
  | .network domain => checkNetwork python (.str domain)

/-- The file, line, command and network counters after a call that the rules accept. -/
def charge (context : EnforcementContext) : Check → EnforcementContext
  | .file _ mode lines =>
    if mode = "write" then
      { context with
        filesModified := context.filesModified + 1
        linesChanged := context.linesChanged + lines }
    else context
  | .command _ => { context with toolCalls := context.toolCalls + 1 }
  | .network _ => { context with networkRequests := context.networkRequests + 1 }

def accepted (python : Python) (budget : AutonomyBudget) : Check → Bool
  | .file path mode _ =>
    !budget.files.refuses (if mode = "write" then budget.files.write else budget.files.read)
      path.toList
  | .command text =>
    match commandName (.str text) with
    | .error _ => false
    | .ok name =>
      decide (name ∉ budget.deniedCommands ∧ name ∉ budget.requireApprovalCommands ∧
        (budget.allowedCommands = [] ∨
          permitted python (.str text) name budget.allowedCommands = .ok true))
  | .network domain =>
    budget.network.enabled &&
      !budget.network.deniedDomains.any (underDomain python domain.toList) &&
      (budget.network.allowedDomains.isEmpty ||
        budget.network.allowedDomains.any (underDomain python domain.toList))

def within (budget : AutonomyBudget) (context : EnforcementContext) : Check → Bool
  | .file _ mode _ =>
    decide (mode = "write" → context.filesModified ≤ budget.limits.maxFilesModified ∧
      context.linesChanged ≤ budget.limits.maxLinesChanged)
  | .command _ =>
    decide (0 < budget.limits.maxToolCalls → context.toolCalls ≤ budget.limits.maxToolCalls)
  | .network _ =>
    decide (0 < budget.network.maxRequests → context.networkRequests ≤ budget.network.maxRequests)

def allowed (python : Python) (enforcer : RuntimeEnforcer) (check : Check) : Bool :=
  check.accepted python enforcer.budget &&
    check.within enforcer.budget (check.charge enforcer.context)

end Check

structure Consumption where
  iterations : Int := 0
  toolCalls : Int := 0
  filesModified : Int := 0
  linesChanged : Int := 0
  networkRequests : Int := 0

def EnforcementContext.consumption (context : EnforcementContext) : Consumption :=
  ⟨context.iterations, context.toolCalls, context.filesModified, context.linesChanged,
    context.networkRequests⟩

/-- The budget and the stamps stay, the counters are those of the given context, and
records are only added. -/
structure Charged (consumption : Consumption) (e e' : RuntimeEnforcer) : Prop where
  budget : e'.budget = e.budget
  stamps : e'.stamps = e.stamps
  consumption : e'.context.consumption = consumption
  escalations : ∃ records, e'.escalations = e.escalations ++ records ∧
    ∀ r ∈ records, r.budgetId = e.budget.budgetId

def stop (reason description : Text) (e : RuntimeEnforcer) : RuntimeEnforcer :=
  { e with
    context := { e.context with stopped := true, stopReason := reason }
    escalations := e.escalations ++ [e.record description "orchestrator".toList .normal] }

open EStateM

theorem checkLimit_run (exceeded : RuntimeEnforcer → Bool) (reason description : Text)
    (e : RuntimeEnforcer) :
    (checkLimit exceeded reason description).run e =
      if exceeded e then .ok .blocked (stop reason description e) else .ok .allowed e := by
  simp only [checkLimit, run_bind, run_get]
  split_ifs <;> rfl

variable {e e' : RuntimeEnforcer} {context : EnforcementContext} {check : Check}
    {python : Python} {result : EnforcementResult}

theorem charged_context (h : context.consumption = c) : Charged c e { e with context } :=
  ⟨rfl, rfl, h, [], (List.append_nil _).symm, by simp⟩

theorem charged_stop (reason description : Text) (h : context.consumption = c) :
    Charged c e (stop reason description { e with context }) :=
  ⟨rfl, rfl, h, _, rfl, by simp [RuntimeEnforcer.record]⟩

def Spec (check : Check) (python : Python) (e : RuntimeEnforcer) :
    EStateM.Result Exn RuntimeEnforcer EnforcementResult → Prop
  | .ok result e' =>
    (result = .allowed ↔ check.allowed python e = true) ∧
      Charged (if check.accepted python e.budget then (check.charge e.context).consumption
        else e.context.consumption) e e'
  | .error _ e' => check.accepted python e.budget = false ∧ e' = e

open Check

theorem spec_refused (h : check.accepted python e.budget = false) (hresult : result ≠ .allowed)
    (he : Charged e.context.consumption e e') : Spec check python e (.ok result e') := by
  refine ⟨⟨fun hr => absurd hr hresult, fun ha => ?_⟩, ?_⟩
  · simp [allowed, h] at ha
  · rw [if_neg (by simp [h])]
    exact he

theorem spec_accepted (h : check.accepted python e.budget = true)
    (hresult : result = .allowed ↔ check.within e.budget (check.charge e.context) = true)
    (he : Charged (check.charge e.context).consumption e e') :
    Spec check python e (.ok result e') := by
  refine ⟨?_, ?_⟩
  · rw [allowed, h, Bool.true_and]
    exact hresult
  · rw [if_pos h]
    exact he

theorem checkFileRead_spec (python : Python) (path mode : String) (lines : Int)
    (hmode : mode ≠ "write") (e : RuntimeEnforcer) :
    Spec (.file path mode lines) python e ((checkFileRead (.str path)).run e) := by
  simp only [checkFileRead, Json.asText, run_bind, run_get]
  split_ifs with hdeny hrefuse
  · refine spec_refused ?_ (by simp) (charged_context rfl)
    simp [accepted, FileScope.refuses, hdeny]
  · refine spec_refused ?_ (by simp) (charged_context rfl)
    simp [accepted, hmode, hrefuse]
  · refine spec_accepted ?_ ?_ ?_
    · simp [accepted, hmode, hrefuse]
    · simp [within, hmode]
    · rw [charge, if_neg hmode]
      exact charged_context rfl

def chargeFile (lines : Int) : EnforcerM PUnit :=
  modifyContext fun context => { context with
    filesModified := context.filesModified + 1
    linesChanged := context.linesChanged + lines }

def checkFileLimits : EnforcerM EnforcementResult := do
  let result ← checkFileLimit
  if result ≠ .allowed then return result
  else checkLineLimit

theorem checkFileLimits_run (e : RuntimeEnforcer) :
    checkFileLimits.run e =
      if e.budget.limits.maxFilesModified < e.context.filesModified then
        .ok .blocked (stop "SC-07: Max files modified exceeded".toList
          "Max files modified exceeded".toList e)
      else if e.budget.limits.maxLinesChanged < e.context.linesChanged then
        .ok .blocked (stop "SC-08: Max lines changed exceeded".toList
          "Max lines changed exceeded".toList e)
      else .ok .allowed e := by
  rw [checkFileLimits, run_bind, checkFileLimit, checkLimit_run]
  simp only [decide_eq_true_eq]
  split_ifs with hfiles hlines
  · rfl
  · show checkLineLimit.run e = _
    rw [checkLineLimit, checkLimit_run, if_pos (by simpa using hlines)]
  · show checkLineLimit.run e = _
    rw [checkLineLimit, checkLimit_run, if_neg (by simpa using hlines)]

theorem checkFileWrite_spec (python : Python) (path : String) (lines : Int)
    (e : RuntimeEnforcer) :
    Spec (.file path "write" lines) python e ((checkFileWrite (.str path) lines).run e) := by
  rw [checkFileWrite]
  simp only [Json.asText, run_bind, run_get]
  split_ifs with hdeny hrefuse
  · refine spec_refused ?_ (by simp) (charged_context rfl)
    simp [accepted, FileScope.refuses, hdeny]
  · refine spec_refused ?_ (by simp) (charged_context rfl)
    simp [accepted, hrefuse]
  · have haccepted : (file path "write" lines).accepted python e.budget = true := by
      simp [accepted, hrefuse]
    show Spec _ _ _ ((chargeFile lines >>= fun _ => checkFileLimits).run e)
    rw [run_bind]
    show Spec _ _ _ (checkFileLimits.run
      { e with context := (file path "write" lines).charge e.context })
    rw [checkFileLimits_run]
    split_ifs with hfiles hlines
    · refine spec_accepted haccepted ?_ (charged_stop _ _ rfl)
      rw [within, decide_eq_true_eq]
      exact ⟨by rintro ⟨⟩, fun h => absurd (h rfl).1 (not_le.mpr hfiles)⟩
    · refine spec_accepted haccepted ?_ (charged_stop _ _ rfl)
      rw [within, decide_eq_true_eq]
      exact ⟨by rintro ⟨⟩, fun h => absurd (h rfl).2 (not_le.mpr hlines)⟩
    · refine spec_accepted haccepted ?_ (charged_context rfl)
      rw [within, decide_eq_true_eq]
      exact ⟨fun _ _ => ⟨not_lt.mp hfiles, not_lt.mp hlines⟩, fun _ => rfl⟩

theorem checkToolCallLimit_run (e : RuntimeEnforcer) :
    checkToolCallLimit.run e =
      if 0 < e.budget.limits.maxToolCalls ∧ e.budget.limits.maxToolCalls < e.context.toolCalls then
        .ok .blocked { e with context := { e.context with
          stopped := true, stopReason := "Max tool calls exceeded".toList } }
      else .ok .allowed e := by
  simp only [checkToolCallLimit, run_bind, run_get]
  split_ifs <;> rfl

theorem checkCommand_spec (python : Python) (text : String) (e : RuntimeEnforcer) :
    Spec (.command text) python e ((checkCommand python (.str text)).run e) := by
  rw [checkCommand]
  simp only [run_bind, run_get]
  cases hname : commandName (.str text) with
  | error err => exact ⟨by simp [accepted, hname], rfl⟩
  | ok name =>
    dsimp only
    split_ifs with hdenied happroval
    · refine spec_refused ?_ (by simp) (charged_context rfl)
      simp [accepted, hname, hdenied]
    · refine spec_refused ?_ (by simp) (charged_context rfl)
      simp [accepted, hname, happroval]
    · cases hpermitted : permitted python (.str text) name e.budget.allowedCommands with
      | error err =>
        refine ⟨?_, rfl⟩
        have hne : e.budget.allowedCommands ≠ [] := by
          intro hnil
          rw [hnil] at hpermitted
          cases hpermitted
        simp [accepted, hname, hpermitted, hne]
      | ok allowed =>
        dsimp only
        split_ifs with hlist
        · refine spec_refused ?_ (by simp) (charged_context rfl)
          simp [accepted, hname, hpermitted, hlist.1, hlist.2]
        · have haccepted : (command text).accepted python e.budget = true := by
            simp only [accepted, hname, hpermitted, decide_eq_true_eq]
            refine ⟨hdenied, happroval, ?_⟩
            by_cases hnil : e.budget.allowedCommands = []
            · exact .inl hnil
            · exact .inr (by simpa [hnil] using hlist)
          show Spec _ _ _ (checkToolCallLimit.run
            { e with context := (command text).charge e.context })
          rw [checkToolCallLimit_run]
          split_ifs with hlimit
          · refine spec_accepted haccepted ?_ (charged_context rfl)
            rw [within, decide_eq_true_eq]
            exact ⟨fun h => (nomatch h), fun h => absurd (h hlimit.1) (not_le.mpr hlimit.2)⟩
          · refine spec_accepted haccepted ?_ (charged_context rfl)
            rw [within, decide_eq_true_eq]
            exact ⟨fun _ hpos => not_lt.mp fun h => hlimit ⟨hpos, h⟩, fun _ => rfl⟩

theorem checkNetwork_spec (python : Python) (domain : String) (e : RuntimeEnforcer) :
    Spec (.network domain) python e ((checkNetwork python (.str domain)).run e) := by
  rw [checkNetwork]
  simp only [run_bind, run_get]
  split_ifs with henabled
  · simp only [Json.asText]
    split_ifs with hdenied hlist
    · refine spec_refused ?_ (by simp) (charged_context rfl)
      simp only [accepted, hdenied]
      simp
    · refine spec_refused ?_ (by simp) (charged_context rfl)
      simp only [accepted]
      rw [Bool.and_eq_false_iff]
      refine .inr ?_
      simpa using hlist
    · have haccepted : (network domain).accepted python e.budget = true := by
        simp only [accepted, henabled, Bool.true_and, Bool.and_eq_true]
        refine ⟨by simpa using hdenied, ?_⟩
        simpa [or_iff_not_imp_left] using hlist
      show Spec _ _ _ ((if _ then _ else _ : EnforcerM EnforcementResult).run
            { e with context := (network domain).charge e.context })
      split_ifs with hlimit
      · refine spec_accepted haccepted ?_ (charged_context rfl)
        rw [within, decide_eq_true_eq]
        exact ⟨fun h => (nomatch h), fun h => absurd (h hlimit.1) (not_le.mpr hlimit.2)⟩
      · refine spec_accepted haccepted ?_ (charged_context rfl)
        rw [within, decide_eq_true_eq]
        exact ⟨fun _ hpos => not_lt.mp fun h => hlimit ⟨hpos, h⟩, fun _ => rfl⟩
  · refine spec_refused ?_ (by simp) (charged_context rfl)
    simp [accepted, henabled]

theorem perform_spec (python : Python) (check : Check) (e : RuntimeEnforcer) :
    Spec check python e ((check.perform python).run e) := by
  cases check with
  | file path mode lines =>
    rw [perform]
    split_ifs with hmode
    · subst hmode
      exact checkFileWrite_spec python path lines e
    · exact checkFileRead_spec python path mode lines hmode e
  | command text => exact checkCommand_spec python text e
  | network domain => exact checkNetwork_spec python domain e

end Agent33.Autonomy
