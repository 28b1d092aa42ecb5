import Agent33.Library.Glob
import Agent33.Library.Hoare
import Agent33.Library.Python

/-!
# Runtime enforcement of autonomy budgets

A budget, what has been consumed of it, and the checks of a file, a command, a
network domain, an iteration and the duration. Times are in microseconds. The
arguments of the checks are JSON values, as the tool loop passes them on.
-/

namespace Agent33.Autonomy

open Library

inductive EnforcementResult
  | allowed
  | blocked
  | warned
  | escalated
  deriving DecidableEq

inductive EscalationUrgency
  | immediate
  | normal
  | low
  deriving DecidableEq

structure FileScope where
  read : List Text := []
  write : List Text := []
  deny : List Text := []

structure CommandPermission where
  command : Text
  argsPattern : Text := []
  maxCalls : Int := 0
  deriving DecidableEq

structure NetworkScope where
  enabled : Bool := false
  allowedDomains : List Text := []
  deniedDomains : List Text := []
  maxRequests : Int := 0

structure ResourceLimits where
  maxIterations : Int := 100
  maxDurationMinutes : Int := 60
  maxFilesModified : Int := 50
  maxLinesChanged : Int := 5000
  maxToolCalls : Int := 200

inductive BudgetState
  | draft
  | pendingApproval
  | active
  | suspended
  | expired
  | completed
  | rejected
  deriving DecidableEq

structure AutonomyBudget where
  budgetId : String := ""
  state : BudgetState := .draft
  approvedBy : String := ""
  files : FileScope := {}
  allowedCommands : List CommandPermission := []
  deniedCommands : List Text := []
  requireApprovalCommands : List Text := []
  network : NetworkScope := {}
  limits : ResourceLimits := {}
  defaultEscalationTarget : Text := "orchestrator".toList

structure EnforcementContext where
  budgetId : String := ""
  startedAt : Int := 0
  iterations : Int := 0
  toolCalls : Int := 0
  filesModified : Int := 0
  linesChanged : Int := 0
  networkRequests : Int := 0
  warnings : List Text := []
  violations : List Text := []
  stopped : Bool := false
  stopReason : Text := []

structure EscalationRecord where
  escalationId : String
  budgetId : String
  triggerDescription : Text
  target : Text
  urgency : EscalationUrgency := .normal
  createdAt : Int := 0
  acknowledged : Bool := false
  resolved : Bool := false

structure Stamp where
  escalationId : String := ""
  createdAt : Int := 0

structure RuntimeEnforcer where
  budget : AutonomyBudget
  context : EnforcementContext := {}
  escalations : List EscalationRecord := []
  stamps : ℕ → Stamp := fun _ => {}

abbrev EnforcerM := EStateM Exn RuntimeEnforcer

def modifyContext (f : EnforcementContext → EnforcementContext) : EnforcerM PUnit :=
  modify fun enforcer => { enforcer with context := f enforcer.context }

def addViolation (message : Text) : EnforcerM PUnit :=
  modifyContext fun context => { context with violations := context.violations ++ [message] }

def addWarning (message : Text) : EnforcerM PUnit :=
  modifyContext fun context => { context with warnings := context.warnings ++ [message] }

def markStopped (reason : Text) : EnforcerM PUnit :=
  modifyContext fun context => { context with stopped := true, stopReason := reason }

def RuntimeEnforcer.record (enforcer : RuntimeEnforcer) (description target : Text)
    (urgency : EscalationUrgency) : EscalationRecord :=
  let stamp := enforcer.stamps enforcer.escalations.length
  { escalationId := stamp.escalationId, budgetId := enforcer.budget.budgetId,
    triggerDescription := description, target, urgency, createdAt := stamp.createdAt }

def escalate (description target : Text) (urgency : EscalationUrgency := .normal) :
    EnforcerM PUnit :=
  modify fun enforcer => { enforcer with
    escalations := enforcer.escalations ++ [enforcer.record description target urgency] }

def triggerEscalation (description target : Text) (urgency : EscalationUrgency) :
    EnforcerM EscalationRecord := do
  let enforcer ← get
  let target := if target = [] then enforcer.budget.defaultEscalationTarget else target
  escalate description target urgency
  return enforcer.record description target urgency

def blockWith (message : Text) : EnforcerM EnforcementResult := do
  addViolation message
  return .blocked

def checkLimit (exceeded : RuntimeEnforcer → Bool) (reason description : Text) :
    EnforcerM EnforcementResult := do
  if exceeded (← get) then
    markStopped reason
    escalate description "orchestrator".toList
    return .blocked
  else return .allowed

def checkFileLimit : EnforcerM EnforcementResult :=
  checkLimit (fun e => decide (e.budget.limits.maxFilesModified < e.context.filesModified))
    "SC-07: Max files modified exceeded".toList "Max files modified exceeded".toList

def checkLineLimit : EnforcerM EnforcementResult :=
  checkLimit (fun e => decide (e.budget.limits.maxLinesChanged < e.context.linesChanged))
    "SC-08: Max lines changed exceeded".toList "Max lines changed exceeded".toList

def checkToolCallLimit : EnforcerM EnforcementResult := do
  let enforcer ← get
  let limit := enforcer.budget.limits.maxToolCalls
  if 0 < limit ∧ limit < enforcer.context.toolCalls then
    markStopped "Max tool calls exceeded".toList
    return .blocked
  else return .allowed

def slashes (path : Text) : Text := path.map fun c => if c = '\\' then '/' else c

def matchesAny (path : Text) (patterns : List Text) : Bool :=
  patterns.any fun pattern => Glob.fnmatch (slashes path) (slashes pattern)

def FileScope.refuses (scope : FileScope) (allowed : List Text) (path : Text) : Bool :=
  matchesAny path scope.deny || (!allowed.isEmpty && !matchesAny path allowed)

def checkFileRead (path : Json) : EnforcerM EnforcementResult := do
  match path.asText with
  | .error e => throw e
  | .ok path =>
    let scope := (← get).budget.files
    if matchesAny path scope.deny then blockWith ("File read denied: ".toList ++ path)
    else if scope.refuses scope.read path then
      blockWith ("File read not in allowlist: ".toList ++ path)
    else return .allowed

def checkFileWrite (path : Json) (lines : Int := 0) : EnforcerM EnforcementResult := do
  match path.asText with
  | .error e => throw e
  | .ok path =>
    let scope := (← get).budget.files
    if matchesAny path scope.deny then blockWith ("File write denied: ".toList ++ path)
    else if scope.refuses scope.write path then
      blockWith ("File write not in allowlist: ".toList ++ path)
    else
      modifyContext fun context => { context with
        filesModified := context.filesModified + 1
        linesChanged := context.linesChanged + lines }
      let result ← checkFileLimit
      if result ≠ .allowed then return result
      else checkLineLimit

/-- `command.split()[0] if command else ""`. -/
def commandName (command : Json) : Except Exn Text :=
  if command.truthy then
    match command with
    | .str s =>
      match Text.words s.toList with
      | [] => .error .indexError
      | name :: _ => .ok name
    | _ => .error .attributeError
  else .ok []

/-- `command[len(name):].strip()`. -/
def commandArgs (command : Json) (name : Text) : Except Exn Text :=
  match command with
  | .str s => .ok (Text.strip (s.toList.drop name.length))
  | _ => .error .typeError

def permitted (python : Python) (command : Json) (name : Text) :
    List CommandPermission → Except Exn Bool
  | [] => .ok false
  | permission :: rest =>
    if permission.command = name then
      if permission.argsPattern = [] then .ok true
      else
        match commandArgs command name with
        | .error e => .error e
        | .ok args =>
          if python.reMatch permission.argsPattern args then .ok true
          else permitted python command name rest
    else permitted python command name rest

def checkCommand (python : Python) (command : Json) : EnforcerM EnforcementResult := do
  let budget := (← get).budget
  match commandName command with
  | .error e => throw e
  | .ok name =>
    if name ∈ budget.deniedCommands then blockWith ("Command denied: ".toList ++ name)
    else if name ∈ budget.requireApprovalCommands then
      addWarning ("Command requires approval: ".toList ++ name)
      return .warned
    else
      match permitted python command name budget.allowedCommands with
      | .error e => throw e
      | .ok allowed =>
        if budget.allowedCommands ≠ [] ∧ allowed = false then
          blockWith ("Command not in allowlist: ".toList ++ name)
        else
          modifyContext fun context => { context with toolCalls := context.toolCalls + 1 }
          checkToolCallLimit

def underDomain (python : Python) (domain parent : Text) : Bool :=
  python.lower domain = python.lower parent ||
    ('.' :: python.lower parent).isSuffixOf (python.lower domain)

def checkNetwork (python : Python) (domain : Json) : EnforcerM EnforcementResult := do
  let network := (← get).budget.network
  if network.enabled then
    match domain.asText with
    | .error e => throw e
    | .ok domain =>
      if network.deniedDomains.any (underDomain python domain) then
        blockWith ("Domain denied: ".toList ++ domain)
      else if !network.allowedDomains.isEmpty &&
          !network.allowedDomains.any (underDomain python domain) then
        blockWith ("Domain not in allowlist: ".toList ++ domain)
      else
        modifyContext fun context => { context with
          networkRequests := context.networkRequests + 1 }
        let requests := (← get).context.networkRequests
        if 0 < network.maxRequests ∧ network.maxRequests < requests then
          blockWith "Network request limit exceeded".toList
        else return .allowed
  else blockWith "Network access disabled".toList

def recordIteration : EnforcerM EnforcementResult := do
  modifyContext fun context => { context with iterations := context.iterations + 1 }
  checkLimit (fun e => decide (e.budget.limits.maxIterations < e.context.iterations))
    "SC-05: Max iterations reached".toList "Max iterations reached".toList

def checkDuration (now : Int) : EnforcerM EnforcementResult :=
  checkLimit
    (fun e => decide (60000000 * e.budget.limits.maxDurationMinutes < now - e.context.startedAt))
    "SC-06: Max duration exceeded".toList "Max duration exceeded".toList

section Budget

open Hoare

def Enforces (budget : AutonomyBudget) (enforcer : RuntimeEnforcer) : Prop :=
  enforcer.budget = budget

def OnIterations (P : RuntimeEnforcer → Prop) : Prop :=
  ∀ e e' : RuntimeEnforcer, e'.budget = e.budget →
    e'.context.iterations = e.context.iterations → P e → P e'

variable (hP : OnIterations P)

theorem onIterations_enforces : OnIterations (Enforces budget) := fun _ _ h _ he => h.trans he

include hP

theorem keeps_modifyContext (hf : ∀ context, (f context).iterations = context.iterations) :
    Keeps P (modifyContext f) := keeps_modify fun e h => hP e _ rfl (hf e.context) h

theorem keeps_blockWith (message : Text) : Keeps P (blockWith message) :=
  (keeps_modifyContext hP fun _ => by rfl).bind fun _ => keeps_pure _

theorem keeps_checkLimit (exceeded : RuntimeEnforcer → Bool) (reason description : Text) :
    Keeps P (checkLimit exceeded reason description) := by
  refine keeps_get.bind fun enforcer => ?_
  split_ifs
  · refine (keeps_modifyContext hP fun _ => by rfl).bind fun _ => ?_
    exact Keeps.bind (keeps_modify fun e h => hP e _ rfl rfl h) fun _ => keeps_pure _
  · exact keeps_pure _

theorem keeps_checkToolCallLimit : Keeps P checkToolCallLimit := by
  refine keeps_get.bind fun enforcer => ?_
  dsimp only
  split_ifs
  · exact (keeps_modifyContext hP fun _ => by rfl).bind fun _ => keeps_pure _
  · exact keeps_pure _

theorem keeps_checkFileRead (path : Json) : Keeps P (checkFileRead path) := by
  rw [checkFileRead]
  cases path.asText with
  | error e => exact keeps_throw e
  | ok path =>
    refine keeps_get.bind fun enforcer => ?_
    dsimp only
    split_ifs
    · exact keeps_blockWith hP _
    · exact keeps_blockWith hP _
    · exact keeps_pure _

theorem keeps_checkFileWrite (path : Json) (lines : Int) : Keeps P (checkFileWrite path lines) := by
  rw [checkFileWrite]
  cases path.asText with
  | error e => exact keeps_throw e
  | ok path =>
    refine keeps_get.bind fun enforcer => ?_
    dsimp only
    split_ifs
    · exact keeps_blockWith hP _
    · exact keeps_blockWith hP _
    · refine (keeps_modifyContext hP fun _ => by rfl).bind fun _ => ?_
      refine (keeps_checkLimit hP _ _ _).bind fun result => ?_
      split_ifs
      · exact keeps_pure _
      · exact keeps_checkLimit hP _ _ _

theorem keeps_checkCommand (python : Python) (command : Json) :
    Keeps P (checkCommand python command) := by
  refine keeps_get.bind fun enforcer => ?_
  dsimp only
  cases commandName command with
  | error e => exact keeps_throw e
  | ok name =>
    dsimp only
    split_ifs
    · exact keeps_blockWith hP _
    · exact (keeps_modifyContext hP fun _ => by rfl).bind fun _ => keeps_pure _
    · cases permitted python command name enforcer.budget.allowedCommands with
      | error e => exact keeps_throw e
      | ok allowed =>
        dsimp only
        split_ifs
        · exact keeps_blockWith hP _
        · exact (keeps_modifyContext hP fun _ => by rfl).bind fun _ => keeps_checkToolCallLimit hP

theorem keeps_checkNetwork (python : Python) (domain : Json) :
    Keeps P (checkNetwork python domain) := by
  refine keeps_get.bind fun enforcer => ?_
  dsimp only
  split_ifs
  · cases domain.asText with
    | error e => exact keeps_throw e
    | ok domain =>
      dsimp only
      split_ifs
      · exact keeps_blockWith hP _
      · exact keeps_blockWith hP _
      · refine (keeps_modifyContext hP fun _ => by rfl).bind fun _ =>
          keeps_get.bind fun enforcer => ?_
        split_ifs
        · exact keeps_blockWith hP _
        · exact keeps_pure _
  · exact keeps_blockWith hP _

omit hP in
theorem keeps_recordIteration : Keeps (Enforces budget) recordIteration :=
  Keeps.bind (keeps_modify fun _ h => h) fun _ => keeps_checkLimit onIterations_enforces _ _ _

theorem keeps_checkDuration (now : Int) : Keeps P (checkDuration now) :=
  keeps_checkLimit hP _ _ _

end Budget

end Agent33.Autonomy
