import Agent33.Library.Glob
import Agent33.Releases.Records

/-!
# The release service with its store

Every operation changes the data of the service, the sync engine and the rollback
manager in memory and writes all of it to the namespace of the service.
-/

namespace Agent33.Releases

open Library JsonText

structure Encoding where
  floats : Floats
  timestamps : Timestamps

structure ReleaseData where
  releases : Dict String DatedRelease := Dict.empty
  rules : Dict String SyncRule := Dict.empty
  executions : Dict String SyncExecution := Dict.empty
  records : Dict String RollbackRecord := Dict.empty

def ReleaseData.payload (timestamps : Timestamps) (data : ReleaseData) : List (String × PyValue) :=
  [("releases", (datedRelease timestamps).codec.dumpDict data.releases),
    ("sync_rules", syncRule.codec.dumpDict data.rules),
    ("sync_executions", (syncExecution timestamps).codec.dumpDict data.executions),
    ("rollback_records", (rollbackRecord timestamps).codec.dumpDict data.records)]

/-- `_load_state`. -/
def loadData (timestamps : Timestamps) (payload : JsonValue) : ReleaseData where
  releases := (datedRelease timestamps).codec.restore (payload.entry "releases")
  rules := syncRule.codec.restore (payload.entry "sync_rules")
  executions := (syncExecution timestamps).codec.restore (payload.entry "sync_executions")
  records := (rollbackRecord timestamps).codec.restore (payload.entry "rollback_records")

abbrev Snapshot := { v : JsonValue // Normal v }

def snapshot (encoding : Encoding) (data : ReleaseData) : Option Snapshot :=
  (encode encoding.floats (.dict (named (data.payload encoding.timestamps)))).map fun v =>
    ⟨normalise v, normal_normalise v⟩

structure DurableService where
  data : ReleaseData := {}
  hasScanService : Bool := false
  securityGatePolicy : SecurityGatePolicy := {}
  stored : Snapshot

namespace DurableService

def create (timestamps : Timestamps) (hasScanService : Bool)
    (securityGatePolicy : SecurityGatePolicy) (stored : Snapshot) : DurableService :=
  { data := loadData timestamps stored, hasScanService, securityGatePolicy, stored }

abbrev DurableM := EStateM ReleaseError DurableService

section

variable (encoding : Encoding)

def persistState : DurableM Unit := do
  let svc ← get
  match snapshot encoding svc.data with
  | none => throw .storage
  | some stored => set { svc with stored }

def modifyData (f : ReleaseData → ReleaseData) : DurableM Unit :=
  modify fun svc => { svc with data := f svc.data }

variable (releaseId : String)

def getRelease : DurableM DatedRelease := do
  match (← get).data.releases.get? releaseId with
  | none => throw (.notFound ("Release not found: " ++ releaseId))
  | some release => return release

def putRelease (release : DatedRelease) : DurableM Unit :=
  modifyData fun data => { data with releases := data.releases.set releaseId release }

def createRelease (releaseId version : String) (releaseType : ReleaseType) (description : String)
    (createdAt : ℤ) : DurableM DatedRelease := do
  let release : DatedRelease :=
    { releaseId, version, releaseType, description, createdAt
      evidence := { checklist := buildChecklist releaseType } }
  putRelease releaseId release
  persistState encoding
  return release

def transition (toStatus : ReleaseStatus) : DurableM DatedRelease := do
  let release ← getRelease releaseId
  if toStatus ∉ validTransitions release.status then
    throw (.invalidTransition release.status toStatus)
  else
    let release := { release with status := toStatus }
    putRelease releaseId release
    persistState encoding
    return release

def freeze : DurableM DatedRelease := transition encoding releaseId .frozen

def cutRc (releaseId rcVersion : String) : DurableM DatedRelease := do
  let release ← transition encoding releaseId .rc
  if rcVersion = "" then return release
  else
    let release := { release with rcVersion }
    putRelease releaseId release
    return release

end

end DurableService

def DatedRelease.checked (release : DatedRelease) (checkId : String) (status : CheckStatus)
    (message : String) : DatedRelease :=
  match updateChecks checkId status message release.evidence.checklist with
  | none => release
  | some checklist => { release with evidence := { release.evidence with checklist } }

def DatedRelease.gated (release : DatedRelease) (result : SecurityGateResult) : DatedRelease :=
  let passed := decide (result.decision = .pass)
  { release with evidence := { release.evidence with gatePassed := passed } }.checked "RL-06"
    (if passed then .pass else .fail) result.message

namespace DurableService

section

variable (encoding : Encoding)

/-- The release after the gate was evaluated on the completed runs, or their lookup raised. -/
def autoEvaluated (policy : SecurityGatePolicy) (release : DatedRelease) (lookup : ScanLookup) :
    DatedRelease :=
  match lookup with
  | .error _ =>
    release.checked "RL-06" .fail "Security gate could not be evaluated: scan service lookup failed"
  | .ok completedRuns =>
    match (completedRuns.find? fun run => run.releaseCandidateId = release.releaseId).or
        completedRuns.head? with
    | none =>
      release.checked "RL-06" .fail
        "Security gate not evaluated: no completed scan run found for this release"
    | some run => release.gated (evaluateSecurityGate run.findingsSummary policy)

def startValidation (releaseId : String) (lookup : ScanLookup) : DurableM DatedRelease := do
  let release ← transition encoding releaseId .validating
  let svc ← get
  if svc.hasScanService = false then return release
  else
    let release := autoEvaluated svc.securityGatePolicy release lookup
    putRelease releaseId release
    persistState encoding
    return release

def publish (releaseId releasedBy : String) (now : ℤ) : DurableM DatedRelease := do
  let release ← getRelease releaseId
  if (evaluate release.evidence.checklist).1 = false then
    throw (.invalidTransition release.status .released)
  else
    let release ← transition encoding releaseId .released
    let release := { release with releasedBy, releasedAt := some now }
    putRelease releaseId release
    persistState encoding
    return release

def markFailed (releaseId : String) : DurableM DatedRelease := transition encoding releaseId .failed

def updateCheck (releaseId checkId : String) (status : CheckStatus) (message : String) :
    DurableM DatedRelease := do
  let release ← getRelease releaseId
  let release := release.checked checkId status message
  putRelease releaseId release
  persistState encoding
  return release

def evaluateChecklist (releaseId : String) : DurableM (Bool × List String) := do
  let release ← getRelease releaseId
  return evaluate release.evidence.checklist

def applyComponentSecurityGate (releaseId : String) (summary : FindingsSummary)
    (policy : Option SecurityGatePolicy) : DurableM SecurityGateResult := do
  let release ← getRelease releaseId
  let result := evaluateSecurityGate summary (policy.getD {})
  putRelease releaseId (release.gated result)
  persistState encoding
  return result

def addRule (rule : SyncRule) : DurableM SyncRule := do
  modifyData fun data => { data with rules := data.rules.set rule.ruleId rule }
  persistState encoding
  return rule

def getRule (ruleId : String) : DurableM (Option SyncRule) := do
  return (← get).data.rules.get? ruleId

def removeRule (ruleId : String) : DurableM Bool := do
  match (← get).data.rules.get? ruleId with
  | none => return false
  | some _ =>
    modifyData fun data => { data with rules := data.rules.erase ruleId }
    persistState encoding
    return true

def slashes (path : Text) : Text := path.map fun c => if c = '\\' then '/' else c

def matchFiles (rule : SyncRule) (availableFiles : List Text) : List Text :=
  availableFiles.filter fun f =>
    Glob.fnmatch (slashes f) rule.sourcePattern &&
      (rule.includePatterns.isEmpty || rule.includePatterns.any (Glob.fnmatch (slashes f))) &&
      !rule.excludePatterns.any (Glob.fnmatch (slashes f))

/-- `f.split('/')[-1]` under the target path. -/
def targetOf (rule : SyncRule) (f : Text) : Text :=
  if rule.targetPath = [] then f
  else rule.targetPath ++ '/' :: (f.reverse.takeWhile (· ≠ '/')).reverse

structure SyncCall where
  executionId : String
  ruleId : String
  availableFiles : List Text
  releaseVersion : String
  startedAt : ℤ

/-- What a call of `dry_run` or `execute` comes to. -/
def SyncCall.execution (call : SyncCall) (rule : Option SyncRule) (dryRun : Bool)
    (status : SyncStatus) (completedAt : Option ℤ) : SyncExecution :=
  let base : SyncExecution :=
    { executionId := call.executionId, ruleId := call.ruleId,
      releaseVersion := call.releaseVersion, dryRun, startedAt := call.startedAt }
  match rule with
  | none => { base with status := .failed, errors := ["Rule not found: " ++ call.ruleId] }
  | some rule =>
    let fileResults := (matchFiles rule call.availableFiles).map fun f =>
      { sourcePath := f, targetPath := targetOf rule f, action := "added", checksumValid := true }
    { base with status, filesAdded := fileResults.length, fileResults, completedAt }

def runRule (call : SyncCall) (dryRun : Bool) (status : SyncStatus) (completedAt : Option ℤ) :
    DurableM SyncExecution := do
  let rule ← getRule call.ruleId
  let execution := call.execution rule dryRun status completedAt
  modifyData fun data =>
    { data with executions := data.executions.set execution.executionId execution }
  persistState encoding
  return execution

def dryRun (call : SyncCall) : DurableM SyncExecution := runRule encoding call true .dryRun none

def execute (call : SyncCall) (now : ℤ) : DurableM SyncExecution :=
  runRule encoding call false .completed (some now)

def getExecution (executionId : String) : DurableM (Option SyncExecution) := do
  return (← get).data.executions.get? executionId

def putRecord (record : RollbackRecord) (rollbackId : String) : DurableM Unit :=
  modifyData fun data => { data with records := data.records.set rollbackId record }

def createRollback (record : RollbackRecord) : DurableM RollbackRecord := do
  putRecord record record.rollbackId
  persistState encoding
  return record

def getRollback (rollbackId : String) : DurableM (Option RollbackRecord) := do
  return (← get).data.records.get? rollbackId

def updateRollback (rollbackId : String) (f : RollbackRecord → RollbackRecord) :
    DurableM (Option RollbackRecord) := do
  match ← getRollback rollbackId with
  | none => return none
  | some record =>
    putRecord (f record) rollbackId
    persistState encoding
    return some (f record)

def approve (rollbackId approvedBy : String) : DurableM (Option RollbackRecord) :=
  updateRollback encoding rollbackId fun record =>
    { record with approvedBy, status := .inProgress }

def completeStep (rollbackId stepDescription : String) : DurableM (Option RollbackRecord) :=
  updateRollback encoding rollbackId fun record =>
    { record with stepsCompleted := record.stepsCompleted ++ [stepDescription] }

def complete (rollbackId : String) (now : ℤ) : DurableM (Option RollbackRecord) :=
  updateRollback encoding rollbackId fun record =>
    { record with status := .completed, completedAt := some now }

def fail (rollbackId error : String) : DurableM (Option RollbackRecord) :=
  updateRollback encoding rollbackId fun record =>
    { record with status := .failed, errors := record.errors ++ [error] }

def initiateRollback (releaseId : String) (record : RollbackRecord) : DurableM DatedRelease := do
  let release ← getRelease releaseId
  discard (createRollback encoding { record with releaseId })
  let release ← if release.status = .released then transition encoding releaseId .rolledBack
    else pure release
  persistState encoding
  return release

inductive Request
  | createRelease (releaseId version : String) (releaseType : ReleaseType) (description : String)
      (createdAt : ℤ)
  | getRelease (releaseId : String)
  | transition (releaseId : String) (toStatus : ReleaseStatus)
  | freeze (releaseId : String)
  | cutRc (releaseId rcVersion : String)
  | startValidation (releaseId : String) (lookup : ScanLookup)
  | publish (releaseId releasedBy : String) (now : ℤ)
  | markFailed (releaseId : String)
  | updateCheck (releaseId checkId : String) (status : CheckStatus) (message : String)
  | evaluateChecklist (releaseId : String)
  | applyComponentSecurityGate (releaseId : String) (summary : FindingsSummary)
      (policy : Option SecurityGatePolicy)
  | addRule (rule : SyncRule)
  | getRule (ruleId : String)
  | removeRule (ruleId : String)
  | dryRun (call : SyncCall)
  | execute (call : SyncCall) (now : ℤ)
  | getExecution (executionId : String)
  | createRollback (record : RollbackRecord)
  | getRollback (rollbackId : String)
  | approve (rollbackId approvedBy : String)
  | completeStep (rollbackId stepDescription : String)
  | complete (rollbackId : String) (now : ℤ)
  | fail (rollbackId error : String)
  | initiateRollback (releaseId : String) (record : RollbackRecord)

inductive Reply
  | release (release : DatedRelease)
  | checklist (passed : Bool) (failures : List String)
  | gate (result : SecurityGateResult)
  | rule (rule : Option SyncRule)
  | removed (removed : Bool)
  | execution (execution : Option SyncExecution)
  | rollback (record : Option RollbackRecord)

def Request.reply : Request → DurableM Reply
  | .createRelease releaseId version releaseType description createdAt =>
    .release <$>
      DurableService.createRelease encoding releaseId version releaseType description createdAt
  | .getRelease releaseId => .release <$> DurableService.getRelease releaseId
  | .transition releaseId toStatus =>
    .release <$> DurableService.transition encoding releaseId toStatus
  | .freeze releaseId => .release <$> DurableService.freeze encoding releaseId
  | .cutRc releaseId rcVersion => .release <$> DurableService.cutRc encoding releaseId rcVersion
  | .startValidation releaseId lookup =>
    .release <$> DurableService.startValidation encoding releaseId lookup
  | .publish releaseId releasedBy now =>
    .release <$> DurableService.publish encoding releaseId releasedBy now
  | .markFailed releaseId => .release <$> DurableService.markFailed encoding releaseId
  | .updateCheck releaseId checkId status message =>
    .release <$> DurableService.updateCheck encoding releaseId checkId status message
  | .evaluateChecklist releaseId =>
    (fun r => .checklist r.1 r.2) <$> DurableService.evaluateChecklist releaseId
  | .applyComponentSecurityGate releaseId summary policy =>
    .gate <$> DurableService.applyComponentSecurityGate encoding releaseId summary policy
  | .addRule rule => (fun r => .rule (some r)) <$> DurableService.addRule encoding rule
  | .getRule ruleId => .rule <$> DurableService.getRule ruleId
  | .removeRule ruleId => .removed <$> DurableService.removeRule encoding ruleId
  | .dryRun call => (fun e => .execution (some e)) <$> DurableService.dryRun encoding call
  | .execute call now =>
    (fun e => .execution (some e)) <$> DurableService.execute encoding call now
  | .getExecution executionId => .execution <$> DurableService.getExecution executionId
  | .createRollback record =>
    (fun r => .rollback (some r)) <$> DurableService.createRollback encoding record
  | .getRollback rollbackId => .rollback <$> DurableService.getRollback rollbackId
  | .approve rollbackId approvedBy =>
    .rollback <$> DurableService.approve encoding rollbackId approvedBy
  | .completeStep rollbackId stepDescription =>
    .rollback <$> DurableService.completeStep encoding rollbackId stepDescription
  | .complete rollbackId now => .rollback <$> DurableService.complete encoding rollbackId now
  | .fail rollbackId error => .rollback <$> DurableService.fail encoding rollbackId error
  | .initiateRollback releaseId record =>
    .release <$> DurableService.initiateRollback encoding releaseId record

end

end DurableService

end Agent33.Releases
