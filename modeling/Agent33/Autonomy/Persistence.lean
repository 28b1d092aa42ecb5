import Agent33.Autonomy.Consumption
import Agent33.Library.Codec

/-!
# The stored form of the autonomy service

Budgets, enforcers and escalations are dumped under three keys of a namespace. A new
service validates them one by one, drops what does not validate, and links each
enforcer to the budget that is restored under its id.
-/

namespace Agent33.Autonomy

open Library JsonText Codec List

def EscalationUrgency.value : EscalationUrgency → String
  | .immediate => "immediate"
  | .normal => "normal"
  | .low => "low"

def budgetState : Codec BudgetState :=
  enum [.draft, .pendingApproval, .active, .suspended, .expired, .completed, .rejected]
    BudgetState.value fun a => by cases a <;> decide

def escalationUrgency : Codec EscalationUrgency :=
  enum [.immediate, .normal, .low] EscalationUrgency.value fun a => by cases a <;> decide

def fileScope : Model FileScope where
  slots := [⟨"read", text.list, FileScope.read⟩, ⟨"write", text.list, FileScope.write⟩,
    ⟨"deny", text.list, FileScope.deny⟩]
  validate fields := do
    let read ← text.list.fieldD fields "read" []
    let write ← text.list.fieldD fields "write" []
    let deny ← text.list.fieldD fields "deny" []
    return { read, write, deny }

def commandPermission : Model CommandPermission where
  slots := [⟨"command", text, CommandPermission.command⟩,
    ⟨"args_pattern", text, CommandPermission.argsPattern⟩,
    ⟨"max_calls", int, CommandPermission.maxCalls⟩]
  validate fields := do
    let command ← text.field fields "command"
    let argsPattern ← text.fieldD fields "args_pattern" []
    let maxCalls ← int.fieldD fields "max_calls" 0
    return { command, argsPattern, maxCalls }

def networkScope : Model NetworkScope where
  slots := [⟨"enabled", bool, NetworkScope.enabled⟩,
    ⟨"allowed_domains", text.list, NetworkScope.allowedDomains⟩,
    ⟨"denied_domains", text.list, NetworkScope.deniedDomains⟩,
    ⟨"max_requests", int, NetworkScope.maxRequests⟩]
  validate fields := do
    let enabled ← bool.fieldD fields "enabled" false
    let allowedDomains ← text.list.fieldD fields "allowed_domains" []
    let deniedDomains ← text.list.fieldD fields "denied_domains" []
    let maxRequests ← int.fieldD fields "max_requests" 0
    return { enabled, allowedDomains, deniedDomains, maxRequests }

def resourceLimits : Model ResourceLimits where
  slots := [⟨"max_iterations", int, ResourceLimits.maxIterations⟩,
    ⟨"max_duration_minutes", int, ResourceLimits.maxDurationMinutes⟩,
    ⟨"max_files_modified", int, ResourceLimits.maxFilesModified⟩,
    ⟨"max_lines_changed", int, ResourceLimits.maxLinesChanged⟩,
    ⟨"max_tool_calls", int, ResourceLimits.maxToolCalls⟩]
  validate fields := do
    let maxIterations ← int.fieldD fields "max_iterations" 100
    let maxDurationMinutes ← int.fieldD fields "max_duration_minutes" 60
    let maxFilesModified ← int.fieldD fields "max_files_modified" 50
    let maxLinesChanged ← int.fieldD fields "max_lines_changed" 5000
    let maxToolCalls ← int.fieldD fields "max_tool_calls" 200
    return { maxIterations, maxDurationMinutes, maxFilesModified, maxLinesChanged, maxToolCalls }

def autonomyBudget : Model AutonomyBudget where
  slots := [⟨"budget_id", string, AutonomyBudget.budgetId⟩,
    ⟨"state", budgetState, AutonomyBudget.state⟩,
    ⟨"approved_by", string, AutonomyBudget.approvedBy⟩,
    ⟨"files", fileScope.codec, AutonomyBudget.files⟩,
    ⟨"allowed_commands", commandPermission.codec.list, AutonomyBudget.allowedCommands⟩,
    ⟨"denied_commands", text.list, AutonomyBudget.deniedCommands⟩,
    ⟨"require_approval_commands", text.list, AutonomyBudget.requireApprovalCommands⟩,
    ⟨"network", networkScope.codec, AutonomyBudget.network⟩,
    ⟨"limits", resourceLimits.codec, AutonomyBudget.limits⟩,
    ⟨"default_escalation_target", text, AutonomyBudget.defaultEscalationTarget⟩]
  validate fields := do
    let budgetId ← string.field fields "budget_id"
    let state ← budgetState.fieldD fields "state" .draft
    let approvedBy ← string.fieldD fields "approved_by" ""
    let files ← fileScope.codec.fieldD fields "files" {}
    let allowedCommands ← commandPermission.codec.list.fieldD fields "allowed_commands" []
    let deniedCommands ← text.list.fieldD fields "denied_commands" []
    let requireApprovalCommands ← text.list.fieldD fields "require_approval_commands" []
    let network ← networkScope.codec.fieldD fields "network" {}
    let limits ← resourceLimits.codec.fieldD fields "limits" {}
    let defaultEscalationTarget ←
      text.fieldD fields "default_escalation_target" "orchestrator".toList
    return { budgetId, state, approvedBy, files, allowedCommands, deniedCommands,
             requireApprovalCommands, network, limits, defaultEscalationTarget }

section

variable (timestamps : Timestamps)

def enforcementContext : Model EnforcementContext where
  slots := [⟨"budget_id", string, EnforcementContext.budgetId⟩,
    ⟨"started_at", time timestamps, EnforcementContext.startedAt⟩,
    ⟨"iterations", int, EnforcementContext.iterations⟩,
    ⟨"tool_calls", int, EnforcementContext.toolCalls⟩,
    ⟨"files_modified", int, EnforcementContext.filesModified⟩,
    ⟨"lines_changed", int, EnforcementContext.linesChanged⟩,
    ⟨"network_requests", int, EnforcementContext.networkRequests⟩,
    ⟨"warnings", text.list, EnforcementContext.warnings⟩,
    ⟨"violations", text.list, EnforcementContext.violations⟩,
    ⟨"stopped", bool, EnforcementContext.stopped⟩,
    ⟨"stop_reason", text, EnforcementContext.stopReason⟩]
  validate fields := do
    let budgetId ← string.field fields "budget_id"
    let startedAt ← (time timestamps).field fields "started_at"
    let iterations ← int.fieldD fields "iterations" 0
    let toolCalls ← int.fieldD fields "tool_calls" 0
    let filesModified ← int.fieldD fields "files_modified" 0
    let linesChanged ← int.fieldD fields "lines_changed" 0
    let networkRequests ← int.fieldD fields "network_requests" 0
    let warnings ← text.list.fieldD fields "warnings" []
    let violations ← text.list.fieldD fields "violations" []
    let stopped ← bool.fieldD fields "stopped" false
    let stopReason ← text.fieldD fields "stop_reason" []
    return { budgetId, startedAt, iterations, toolCalls, filesModified, linesChanged,
             networkRequests, warnings, violations, stopped, stopReason }

def escalationRecord : Model EscalationRecord where
  slots := [⟨"escalation_id", string, EscalationRecord.escalationId⟩,
    ⟨"budget_id", string, EscalationRecord.budgetId⟩,
    ⟨"trigger_description", text, EscalationRecord.triggerDescription⟩,
    ⟨"target", text, EscalationRecord.target⟩,
    ⟨"urgency", escalationUrgency, EscalationRecord.urgency⟩,
    ⟨"created_at", time timestamps, EscalationRecord.createdAt⟩,
    ⟨"acknowledged", bool, EscalationRecord.acknowledged⟩,
    ⟨"resolved", bool, EscalationRecord.resolved⟩]
  validate fields := do
    let escalationId ← string.field fields "escalation_id"
    let budgetId ← string.fieldD fields "budget_id" ""
    let triggerDescription ← text.fieldD fields "trigger_description" []
    let target ← text.fieldD fields "target" []
    let urgency ← escalationUrgency.fieldD fields "urgency" .normal
    let createdAt ← (time timestamps).field fields "created_at"
    let acknowledged ← bool.fieldD fields "acknowledged" false
    let resolved ← bool.fieldD fields "resolved" false
    return { escalationId, budgetId, triggerDescription, target, urgency, createdAt,
             acknowledged, resolved }

/-- What `restore_state` is given. -/
structure EnforcerState where
  context : Option EnforcementContext
  escalations : Option (List EscalationRecord)

def enforcerState : Model EnforcerState where
  slots := [⟨"context", (enforcementContext timestamps).codec.optional rfl,
      EnforcerState.context⟩,
    ⟨"escalations", (escalationRecord timestamps).codec.list.optional rfl,
      EnforcerState.escalations⟩]
  validate fields := do
    let context ← ((enforcementContext timestamps).codec.optional rfl).fieldD fields "context" none
    let escalations ←
      ((escalationRecord timestamps).codec.list.optional rfl).fieldD fields "escalations" none
    return { context, escalations }

/-- The payload of `_persist_state`. -/
def Namespace.payload (stored : Namespace) : List (String × PyValue) :=
  [("budgets", autonomyBudget.codec.dumpDict stored.budgets),
    ("enforcers", (enforcerState timestamps).codec.dumpDict
      (stored.enforcers.mapValues fun _ snapshot =>
        ⟨some snapshot.context, some snapshot.escalations⟩)),
    ("escalations", (escalationRecord timestamps).codec.dumpDict stored.escalations)]

def RuntimeEnforcer.restoreState (enforcer : RuntimeEnforcer) (state : EnforcerState) :
    RuntimeEnforcer :=
  { enforcer with
    context := state.context.getD enforcer.context
    escalations := state.escalations.getD enforcer.escalations }

/-- `_load_state` of a new service, from what the store gives back. An enforcer without a context
starts a new one. -/
def loadPayload (payload : JsonValue) (stateStore : Option Namespace) (now : ℤ)
    (stamps : String → ℕ → Stamp) : AutonomyService :=
  let budgets := autonomyBudget.codec.restore (payload.entry "budgets")
  let states := (enforcerState timestamps).codec.restore (payload.entry "enforcers")
  { budgets
    enforcers := states.filterMapValues fun budgetId state =>
      (budgets.get? budgetId).map fun budget =>
        let enforcer : RuntimeEnforcer :=
          { budget, context := { budgetId := budget.budgetId, startedAt := now },
            stamps := stamps budgetId }
        enforcer.restoreState state
    escalations := (escalationRecord timestamps).codec.restore (payload.entry "escalations")
    stateStore }

def GivesBack (stored : Namespace) (payload : JsonValue) : Prop :=
  Normal payload ∧ ∃ floats v,
    encode floats (.dict (named (stored.payload timestamps))) = some v ∧ Same payload v

variable {timestamps} {stored : Namespace}

theorem nodup_payload : ((stored.payload timestamps).map Prod.fst).Nodup := by
  simp [Namespace.payload]

theorem normal_payload
    (h : encode floats (.dict (named (stored.payload timestamps))) = some v) : Normal v := by
  refine normal_encode_named h nodup_payload ?_
  simp only [Namespace.payload, forall_mem_cons]
  exact ⟨fun v hv => (restore_encode _ hv).1, fun v hv => (restore_encode _ hv).1,
    fun v hv => (restore_encode _ hv).1, nofun⟩

theorem GivesBack.restore (h : GivesBack timestamps stored payload) {α : Type} (c : Codec α)
    (d : Dict String α) (hmem : (name, c.dumpDict d) ∈ stored.payload timestamps)
    (key : String) : (c.restore (payload.entry name)).get? key = d.get? key := by
  obtain ⟨hnormal, floats, v, hencode, hsame⟩ := h
  have hv := normal_payload hencode
  obtain ⟨w, hentry, hw⟩ := entry_encode hencode nodup_payload _ hmem
  rw [c.get?_restore_same (normal_entry hnormal name) (normal_entry hv name)
    (entry_same hnormal hv hsame name), hentry, (c.restore_encode hw).2]

section

variable (h : GivesBack timestamps stored payload) (stateStore : Option Namespace) (now : ℤ)
  (stamps : String → ℕ → Stamp) (id : String)
include h stateStore now stamps id

theorem budgets_loadPayload :
    (loadPayload timestamps payload stateStore now stamps).budgets.get? id =
      stored.budgets.get? id :=
  h.restore _ _ (mem_cons_self ..) id

theorem escalations_loadPayload :
    (loadPayload timestamps payload stateStore now stamps).escalations.get? id =
      stored.escalations.get? id :=
  h.restore _ _ (by simp [Namespace.payload]) id

theorem enforcers_loadPayload :
    (loadPayload timestamps payload stateStore now stamps).enforcers.get? id =
      (stored.enforcers.get? id).bind fun snapshot => (stored.budgets.get? id).map fun budget =>
        { budget, context := snapshot.context, escalations := snapshot.escalations,
          stamps := stamps id } := by
  have hstates := h.restore (enforcerState timestamps).codec
    (stored.enforcers.mapValues fun _ snapshot =>
      ⟨some snapshot.context, some snapshot.escalations⟩)
    (mem_cons_of_mem _ (mem_cons_self ..)) id
  have hbudgets := budgets_loadPayload h stateStore now stamps id
  change (autonomyBudget.codec.restore (payload.entry "budgets")).get? id = _ at hbudgets
  change (Dict.filterMapValues _ _).get? id = _
  rw [Dict.get?_filterMapValues, hstates, Dict.get?_mapValues, hbudgets]
  cases stored.enforcers.get? id with
  | none => rfl
  | some snapshot => cases stored.budgets.get? id <;> rfl

end

end

end Agent33.Autonomy
