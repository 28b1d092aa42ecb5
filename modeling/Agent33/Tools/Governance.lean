import Agent33.Library.Dict
import Agent33.Library.Python
import Agent33.Security.Permissions
import Mathlib.Data.List.Sort

/-!
# Tool contexts and results

The sink for delegation events of a context is left out: no modelled function
reads it.
-/

namespace Agent33.Tools

open Library

structure ToolContext where
  userScopes : List String := []
  commandAllowlist : List Text := []
  pathAllowlist : List Text := []
  domainAllowlist : List Text := []
  workingDir : Option Text := none
  toolPolicies : Dict Text Text := Dict.empty
  requestedBy : String := ""
  tenantId : String := ""
  sessionId : String := ""

structure ToolResult where
  success : Bool
  output : Text := []
  error : Text := []

def ToolResult.ok (output : Text := []) : ToolResult := { success := true, output }

def ToolResult.fail (error : Text) : ToolResult := { success := false, error }

end Agent33.Tools

/-!
## Tool governance

The check that a tool call passes before it runs: tool policies, the rate limit
of its subject, the autonomy level, the scopes of the caller and the allow lists
of the context. Approvals are requested from and consumed at services that live
in the world outside. Times are in microseconds.
-/

namespace Agent33.Tools.Governance

open Library Security.Permissions

inductive AutonomyLevel
  | readOnly
  | supervised
  | full
  deriving DecidableEq

inductive ApprovalReason
  | toolPolicyAsk
  | supervisedDestructive
  | routeMutation

inductive ApprovalRiskTier
  | low
  | medium
  | high

structure RateLimiter where
  perMinute : Int
  burst : Int
  windows : Dict String (List Int) := Dict.empty

def RateLimiter.check (limiter : RateLimiter) (subject : String) (now : Int) : Bool × RateLimiter :=
  let window := (limiter.windows.getD subject []).filter fun t => decide (now - 60000000 < t)
  let recent := window.countP fun t => decide (now - 1000000 < t)
  if limiter.perMinute ≤ window.length ∨ limiter.burst ≤ recent then
    (false, { limiter with windows := limiter.windows.set subject window })
  else (true, { limiter with windows := limiter.windows.set subject (window ++ [now]) })

structure ApprovalRequest where
  reason : ApprovalReason
  toolName : Text
  operation : Text
  command : Text
  requestedBy : String
  tenantId : String
  details : Text
  arguments : Json
  riskTier : ApprovalRiskTier

structure TokenPayload where
  jti : Text
  oneTime : Bool

structure ApprovalService (W : Type) where
  request : ApprovalRequest → W → W
  isApproved : Text → Text → Text → String → W → Bool × W
  consumeIfApproved : Text → Text → Text → String → W → Bool × W

structure ApprovalTokenManager (W : Type) where
  validate : Text → Text → Json → String → W → Option TokenPayload × W
  consume : Text → W → Bool × W

structure ToolGovernance (W : Type) where
  approvalService : Option (ApprovalService W) := none
  approvalTokenManager : Option (ApprovalTokenManager W) := none
  approvedTools : List Text := []

structure GovernanceState (W : Type) where
  limiter : RateLimiter
  world : W

variable {W : Type}

abbrev GovernanceM (W : Type) := EStateM Exn (GovernanceState W)

def onWorld {α : Type} (f : W → α × W) : GovernanceM W α := do
  let s ← get
  set { s with world := (f s.world).2 }
  return (f s.world).1

def writeTools : List Text := ["shell".toList, "browser".toList]

def destructiveParams (toolName : Text) : List Text :=
  if toolName = "file_ops".toList then ["write".toList]
  else if toolName = "apply_patch".toList then ["apply".toList]
  else []

def resolveOperation (python : Python) (toolName : Text) (params : Json) : Except Exn Text :=
  if toolName = "apply_patch".toList then
    (params.getKey "dry_run" (.bool false)).map fun dryRun =>
      if dryRun.truthy then "preview".toList else "apply".toList
  else (params.getKey "operation" (.str "")).map python.str

def isWriteOperation (toolName operation : Text) : Bool :=
  decide (toolName ∈ writeTools ∨ operation ∈ destructiveParams toolName)

def hasWildcard (key : Text) : Bool := key.any fun c => c == '*' || c == '?' || c == '['

def longestFirst (keys : List Text) : List Text :=
  keys.insertionSort fun a b => b.length ≤ a.length

def checkToolPolicy (python : Python) (policies : Dict Text Text) (toolName operation : Text) :
    Option Text :=
  let exact := if operation = [] then none else
    (policies.get? (toolName ++ ':' :: operation)).or (policies.get? (toolName ++ ":*".toList))
  let operationPattern := if operation = [] then none else
    (longestFirst (policies.keys.filter fun key => List.elem ':' key && hasWildcard key)).find?
      fun key =>
        let toolPattern := key.takeWhile (· != ':')
        let opPattern := (key.dropWhile (· != ':')).tail
        Glob.fnmatch toolName toolPattern &&
          (decide (opPattern = "*".toList) || Glob.fnmatch operation opPattern)
  let toolPattern :=
    (longestFirst (policies.keys.filter fun key =>
      !List.elem ':' key && hasWildcard key && decide (key ≠ "*".toList))).find?
      fun key => Glob.fnmatch toolName key
  (exact.or <| (policies.get? toolName).or <| (operationPattern.bind policies.get?).or <|
    (toolPattern.bind policies.get?).or <| policies.get? "*".toList).map python.lower

def sanitizeApprovalArguments : Json → Json
  | .obj fields => .obj (fields.filter fun f =>
      decide (f.1 ≠ "__approval_id" ∧ f.1 ≠ "__approval_token"))
  | params => params

def nonEmptyText : Option Json → Option Text
  | some (.str s) => if s = "" then none else some s.toList
  | _ => none

def tryConsumeApproval (governance : ToolGovernance W) (params : Json) (toolName operation : Text)
    (tenantId : String) (consume : Bool) : GovernanceM W Bool := do
  match nonEmptyText (params.field? "__approval_token"), governance.approvalTokenManager with
  | some token, some manager =>
    let payload ← onWorld
      (manager.validate token toolName (sanitizeApprovalArguments params) tenantId)
    match payload, governance.approvalService with
    | none, _ => return false
    | some payload, none =>
      if !consume || !payload.oneTime then return true
      else onWorld (manager.consume payload.jti)
    | some payload, some service =>
      if !consume then onWorld (service.isApproved payload.jti toolName operation tenantId)
      else
        let consumed ← onWorld (service.consumeIfApproved payload.jti toolName operation tenantId)
        if !consumed then return false
        else if !payload.oneTime then return true
        else onWorld (manager.consume payload.jti)
  | _, _ =>
    match governance.approvalService, nonEmptyText (params.field? "__approval_id") with
    | some service, some approvalId =>
      if !consume then onWorld (service.isApproved approvalId toolName operation tenantId)
      else onWorld (service.consumeIfApproved approvalId toolName operation tenantId)
    | _, _ => return false

variable (python : Python) (governance : ToolGovernance W) (params : Json)
  (toolName operation : Text) (context : ToolContext)

def requestApproval (reason : ApprovalReason) (details : Text)
    (riskTier : ApprovalRiskTier) : GovernanceM W PUnit :=
  match governance.approvalService with
  | none => return
  | some service => do
    match params.getKey "command" (.str "") with
    | .error e => throw e
    | .ok command =>
      modify fun s => { s with
        world := service.request
          { reason, toolName, operation, command := python.str command,
            requestedBy := context.requestedBy, tenantId := context.tenantId, details,
            arguments := sanitizeApprovalArguments params, riskTier } s.world }

def hasSubshell (command : Text) : Bool :=
  Text.includes command "$(".toList || List.elem (Char.ofNat 0x60) command

def commandSegments (command : Text) : List Text :=
  command.splitOnP fun c => c == '|' || c == ';' || c == '&'

def validateCommand (command : Json) (context : ToolContext) : Except Exn Bool :=
  if !command.truthy then .ok true
  else
    match command with
    | .str s =>
      if hasSubshell s.toList then .ok false
      else if context.commandAllowlist = [] then .ok true
      else .ok ((commandSegments s.toList).all fun segment =>
        match Text.words segment with
        | [] => true
        | executable :: _ => decide (executable ∈ context.commandAllowlist))
    | _ => .error .typeError

/-- What `urlparse` makes of an address that may not be a string. -/
def hostOf (python : Python) (url : Json) : Except Exn Text :=
  match url with
  | .str s => (python.urlHostname s.toList).map (·.getD [])
  | url => if url.truthy then .error .attributeError else .ok []

def checkAllowlists (python : Python) (toolName : Text) (params : Json) (context : ToolContext) :
    Except Exn Bool := do
  if toolName = "shell".toList then
    let command ← params.getKey "command" (.str "")
    validateCommand command context
  else if toolName = "file_ops".toList ∧ context.pathAllowlist ≠ [] then
    let path ← params.getKey "path" (.str "")
    let path ← path.asText
    return context.pathAllowlist.any fun allowed => allowed.isPrefixOf path
  else if toolName = "web_fetch".toList ∧ context.domainAllowlist ≠ [] then
    let url ← params.getKey "url" (.str "")
    let domain ← hostOf python url
    return context.domainAllowlist.any fun allowed =>
      decide (domain = allowed) || ('.' :: allowed).isSuffixOf domain
  else return true

def approvedOrRequested (reason : ApprovalReason) (details : Text)
    (riskTier : ApprovalRiskTier) : GovernanceM W Bool := do
  let approved ← tryConsumeApproval governance params toolName operation context.tenantId false
  if approved then return true
  else
    requestApproval python governance params toolName operation context reason details riskTier
    return false

def checkPolicies : GovernanceM W (Option Bool) := do
  match checkToolPolicy python context.toolPolicies toolName operation with
  | none => return some false
  | some policy =>
    if policy = "deny".toList then return none
    else if policy = "ask".toList ∧ toolName ∉ governance.approvedTools then
      let approved ← approvedOrRequested python governance params toolName operation context
        .toolPolicyAsk "Tool policy requires operator approval.".toList .medium
      return if approved then some true else none
    else return some false

def checkAutonomy (level : Option AutonomyLevel)
    (approved : Bool) : GovernanceM W (Option Bool) := do
  match level with
  | some .readOnly =>
    return if isWriteOperation toolName operation then none else some approved
  | some .supervised =>
    if operation ∈ destructiveParams toolName ∧ approved = false then
      let approved ← approvedOrRequested python governance params toolName operation context
        .supervisedDestructive "Supervised autonomy requires operator approval.".toList .high
      return if approved then some true else none
    else return some approved
  | _ => return some approved

def checkRate (subject : String) (now : Int) : GovernanceM W Bool := do
  let s ← get
  set { s with limiter := (s.limiter.check subject now).2 }
  return (s.limiter.check subject now).1

def preExecuteCheck (python : Python) (governance : ToolGovernance W) (now : Int)
    (toolName : Text) (params : Json) (context : ToolContext) (level : Option AutonomyLevel) :
    GovernanceM W Bool := do
  match resolveOperation python toolName params with
  | .error e => throw e
  | .ok operation =>
    match ← checkPolicies python governance params toolName operation context with
    | none => return false
    | some approved =>
      let withinRate ← checkRate (context.userScopes.headD "__anon__") now
      if !withinRate then return false
      else
        match ← checkAutonomy python governance params toolName operation context level approved
          with
        | none => return false
        | some approved =>
          if !checkPermission "tools:execute" context.userScopes then return false
          else
            match checkAllowlists python toolName params context with
            | .error e => throw e
            | .ok false => return false
            | .ok true =>
              if approved then
                tryConsumeApproval governance params toolName operation context.tenantId true
              else return true

end Agent33.Tools.Governance
