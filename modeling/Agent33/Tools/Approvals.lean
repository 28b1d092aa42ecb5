import Agent33.Tools.Governance

/-!
# Approval requests

The lifecycle of the requests that an operator decides about: pending, approved or
rejected, consumed by the call that it lets through, expired when nobody decided.
Times are in microseconds.
-/

namespace Agent33.Tools.Approvals

open Library Tools.Governance

inductive ApprovalStatus
  | pending
  | approved
  | rejected
  | consumed
  | expired
  deriving DecidableEq

def ApprovalStatus.value : ApprovalStatus → String
  | .pending => "pending"
  | .approved => "approved"
  | .rejected => "rejected"
  | .consumed => "consumed"
  | .expired => "expired"

structure ToolApprovalRequest where
  approvalId : Text
  status : ApprovalStatus := .pending
  reason : ApprovalReason
  toolName : Text
  operation : Text := []
  command : Text := []
  requestedBy : String := ""
  tenantId : String := ""
  details : Text := []
  arguments : Json := .obj []
  riskTier : ApprovalRiskTier := .medium
  createdAt : Int := 0
  expiresAt : Option Int := none
  reviewedBy : String := ""
  reviewedAt : Option Int := none
  reviewNote : Text := []

/-- `newApprovalId` gives the id of a request that is made after a number of others. -/
structure ToolApprovalService where
  newApprovalId : ℕ → Text
  defaultTtlMinutes : Int := 60
  requests : Dict Text ToolApprovalRequest := Dict.empty
  stateStore : Option (Dict Text ToolApprovalRequest) := none

namespace ToolApprovalRequest

variable (request : ToolApprovalRequest)

def due (now : Int) : Bool :=
  decide (request.status = .pending) && request.expiresAt.any fun time => decide (time ≤ now)

def expire (now : Int) : ToolApprovalRequest :=
  if request.due now then
    { request with status := .expired, reviewNote := "Approval request expired.".toList }
  else request

/-- The request matches a governed call: an empty tenant of the caller and an empty
operation of the request match everything. -/
def matchesCall (toolName operation : Text) (tenantId : String) : Bool :=
  decide ((tenantId = "" ∨ request.tenantId = tenantId) ∧ request.toolName = toolName ∧
    (request.operation = [] ∨ request.operation = operation))

def consume : ToolApprovalRequest :=
  let note := "Consumed by governed execution.".toList
  { request with
    status := .consumed
    reviewNote := if request.reviewNote = [] then note else request.reviewNote ++ ' ' :: note }

end ToolApprovalRequest

namespace ToolApprovalService

variable (svc : ToolApprovalService)

def persistState : ToolApprovalService :=
  { svc with stateStore := svc.stateStore.map fun _ => svc.requests }

def putRequest (approvalId : Text) (request : ToolApprovalRequest) : ToolApprovalService :=
  { svc with requests := svc.requests.set approvalId request }

def expirePending (now : Int) : ToolApprovalService :=
  let svc' := { svc with requests := svc.requests.mapValues fun _ request => request.expire now }
  if svc.requests.values.any fun request => request.due now then svc'.persistState else svc'

def request (now : Int) (asked : ApprovalRequest) : ToolApprovalService :=
  let svc := svc.expirePending now
  let request : ToolApprovalRequest :=
    { approvalId := svc.newApprovalId svc.requests.entries.length
      reason := asked.reason
      toolName := asked.toolName
      operation := asked.operation
      command := asked.command
      requestedBy := asked.requestedBy
      tenantId := asked.tenantId
      details := asked.details
      arguments := asked.arguments
      riskTier := asked.riskTier
      createdAt := now
      expiresAt := some (now + 60000000 * max 1 svc.defaultTtlMinutes) }
  (svc.putRequest request.approvalId request).persistState

def decide (now : Int) (approvalId : Text) (approved : Bool)
    (reviewedBy : String) (reviewNote : Text) : Option ToolApprovalRequest × ToolApprovalService :=
  let svc := svc.expirePending now
  match svc.requests.get? approvalId with
  | none => (none, svc)
  | some request =>
    if request.status ≠ .pending then (some request, svc)
    else
      let request := { request with
        status := if approved then .approved else .rejected
        reviewedBy
        reviewedAt := some now
        reviewNote }
      (some request, (svc.putRequest approvalId request).persistState)

def usable (approvalId toolName operation : Text) (tenantId : String) :
    Option ToolApprovalRequest :=
  (svc.requests.get? approvalId).filter fun request =>
    Decidable.decide (request.status = .approved) && request.matchesCall toolName operation tenantId

def isApproved (now : Int) (approvalId toolName operation : Text)
    (tenantId : String) : Bool × ToolApprovalService :=
  let svc := svc.expirePending now
  ((svc.usable approvalId toolName operation tenantId).isSome, svc)

def consumeIfApproved (now : Int)
    (approvalId toolName operation : Text) (tenantId : String) : Bool × ToolApprovalService :=
  let svc := svc.expirePending now
  match svc.usable approvalId toolName operation tenantId with
  | none => (false, svc)
  | some request => (true, (svc.putRequest approvalId request.consume).persistState)

end ToolApprovalService

end Agent33.Tools.Approvals
