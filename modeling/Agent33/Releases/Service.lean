import Agent33.Library.Dict
import Agent33.Library.History

/-!
# The release service

Releases with their checklists, the lifecycle, and the security gate that
answers item RL-06 when validation begins. The log says when a release moved to a
status and when a result was recorded for an item of its checklist.
-/

namespace Agent33.Releases

open Library

inductive ReleaseType
  | patch
  | minor
  | major
  deriving DecidableEq

inductive ReleaseStatus
  | planned
  | frozen
  | rc
  | validating
  | released
  | failed
  | rolledBack
  deriving DecidableEq

def ReleaseStatus.value : ReleaseStatus → String
  | .planned => "planned"
  | .frozen => "frozen"
  | .rc => "rc"
  | .validating => "validating"
  | .released => "released"
  | .failed => "failed"
  | .rolledBack => "rolled_back"

inductive CheckStatus
  | pending
  | pass
  | fail
  | skipped
  | na
  deriving DecidableEq

def CheckStatus.value : CheckStatus → String
  | .pending => "pending"
  | .pass => "pass"
  | .fail => "fail"
  | .skipped => "skipped"
  | .na => "na"

structure ReleaseCheck where
  checkId : String
  name : String
  status : CheckStatus := .pending
  message : String := ""
  required : Bool := true

structure ReleaseEvidence where
  gatePassed : Bool := false
  checklist : List ReleaseCheck := []

structure Release where
  releaseId : String
  version : String
  releaseType : ReleaseType := .minor
  status : ReleaseStatus := .planned
  releasedAt : Option ℤ := none
  releasedBy : String := ""
  evidence : ReleaseEvidence := {}
  description : String := ""
  rcVersion : String := ""

/-- `_CHECKS`. -/
def checks : List (String × String × Bool) :=
  [("RL-01", "All PRs merged", true), ("RL-02", "Gates pass", true),
    ("RL-03", "Changelog updated", true), ("RL-04", "Version bumped", true),
    ("RL-05", "Documentation updated", true), ("RL-06", "Security review", true),
    ("RL-07", "Rollback tested", true), ("RL-08", "Release notes drafted", true)]

def buildChecklist (releaseType : ReleaseType) : List ReleaseCheck :=
  checks.map fun (checkId, name, required) =>
    { checkId, name
      required := if checkId = "RL-07" ∧ releaseType ≠ .major then false else required }

def ReleaseCheck.passing (check : ReleaseCheck) : Bool :=
  check.status = .pass || check.status = .na

def evaluate (checks : List ReleaseCheck) : Bool × List String :=
  let failures := (checks.filter fun check => check.required && !check.passing).map fun check =>
    check.checkId ++ " (" ++ check.name ++ "): " ++ check.status.value
  (failures.isEmpty, failures)

def updateChecks (checkId : String) (status : CheckStatus) (message : String) :
    List ReleaseCheck → Option (List ReleaseCheck)
  | [] => none
  | check :: checks =>
    if check.checkId = checkId then
      some ({ check with
        status := status
        message := if message = "" then check.message else message } :: checks)
    else (updateChecks checkId status message checks).map (check :: ·)

structure FindingsSummary where
  critical : ℤ := 0
  high : ℤ := 0
  medium : ℤ := 0

structure SecurityGatePolicy where
  blockOnCritical : Bool := true
  blockOnHigh : Bool := true
  maxHigh : ℤ := 0
  maxMedium : ℤ := 10

inductive SecurityGateDecision
  | pass
  | fail
  deriving DecidableEq

structure SecurityGateResult where
  decision : SecurityGateDecision
  message : String

def evaluateSecurityGate (summary : FindingsSummary) (policy : SecurityGatePolicy) :
    SecurityGateResult :=
  let violations :=
    (if policy.blockOnCritical && summary.critical > 0 then
      ["critical findings: " ++ toString summary.critical] else []) ++
    (if policy.blockOnHigh && summary.high > policy.maxHigh then
      ["high findings: " ++ toString summary.high ++ " > allowed " ++ toString policy.maxHigh]
      else []) ++
    (if summary.medium > policy.maxMedium then
      ["medium findings: " ++ toString summary.medium ++ " > allowed " ++ toString policy.maxMedium]
      else [])
  if violations = [] then { decision := .pass, message := "Security gate passed" }
  else
    { decision := .fail, message := "Security gate failed - " ++ "; ".intercalate violations }

/-- `_VALID_TRANSITIONS`. -/
def validTransitions : ReleaseStatus → List ReleaseStatus
  | .planned => [.frozen]
  | .frozen => [.rc, .planned]
  | .rc => [.validating, .failed]
  | .validating => [.released, .failed]
  | .released => [.rolledBack]
  | .failed => [.planned]
  | .rolledBack => [.planned]

inductive ReleaseError
  | notFound (message : String)
  | invalidTransition (fromStatus toStatus : ReleaseStatus)
  | storage

def ReleaseError.message : ReleaseError → String
  | .notFound message => message
  | .invalidTransition fromStatus toStatus =>
    "Invalid transition: " ++ fromStatus.value ++ " -> " ++ toStatus.value
  | .storage => ""

inductive ReleaseEvent
  | moved (releaseId : String) (status : ReleaseStatus)
  | checked (releaseId checkId : String)
  deriving DecidableEq

/-- The writes are those of the state store that come next, and whether they raise; without a
store none does. -/
structure ReleaseService where
  releases : Dict String Release := Dict.empty
  hasScanService : Bool := false
  securityGatePolicy : SecurityGatePolicy := {}
  writes : List Bool := []
  log : List ReleaseEvent := []

abbrev ReleaseM := EStateM ReleaseError ReleaseService

def persistState : ReleaseM Unit := do
  match (← get).writes with
  | [] => pure ()
  | raises :: writes =>
    modify fun svc => { svc with writes }
    if raises then throw .storage

variable (releaseId : String)

def getRelease : ReleaseM Release := do
  match (← get).releases.get? releaseId with
  | none => throw (.notFound ("Release not found: " ++ releaseId))
  | some release => return release

def putRelease (release : Release) : ReleaseM Unit :=
  modify fun svc => { svc with releases := svc.releases.set releaseId release }

def record (event : ReleaseEvent) : ReleaseM Unit :=
  modify fun svc => { svc with log := svc.log ++ [event] }

def createRelease (releaseId version : String) (releaseType : ReleaseType) (description : String) :
    ReleaseM Release := do
  let release : Release :=
    { releaseId, version, releaseType, description
      evidence := { checklist := buildChecklist releaseType } }
  putRelease releaseId release
  persistState
  return release

def transition (toStatus : ReleaseStatus) : ReleaseM Release := do
  let release ← getRelease releaseId
  if toStatus ∉ validTransitions release.status then
    throw (.invalidTransition release.status toStatus)
  else
    putRelease releaseId { release with status := toStatus }
    record (.moved releaseId toStatus)
    persistState
    return { release with status := toStatus }

def freeze : ReleaseM Release := transition releaseId .frozen

def cutRc (releaseId rcVersion : String) : ReleaseM Release := do
  let release ← transition releaseId .rc
  if rcVersion = "" then return release
  else
    putRelease releaseId { release with rcVersion }
    return { release with rcVersion }

def applyCheck (release : Release) (checkId : String) (status : CheckStatus)
    (message : String) : ReleaseM Unit :=
  match updateChecks checkId status message release.evidence.checklist with
  | none => putRelease releaseId release
  | some checklist => do
    record (.checked releaseId checkId)
    putRelease releaseId { release with evidence := { release.evidence with checklist } }

structure SecurityRun where
  id : String
  releaseCandidateId : String
  findingsSummary : FindingsSummary

def applyGate (release : Release) (result : SecurityGateResult) :
    ReleaseM Unit := do
  let passed := decide (result.decision = .pass)
  applyCheck releaseId
    { release with evidence := { release.evidence with gatePassed := passed } } "RL-06"
    (if passed then .pass else .fail) result.message
  persistState

abbrev ScanLookup := Except Unit (List SecurityRun)

def autoEvaluateSecurityGate (release : Release) (lookup : ScanLookup) :
    ReleaseM Unit := do
  let svc ← get
  if svc.hasScanService = false then pure ()
  else
    match lookup with
    | .error _ =>
      applyCheck releaseId release "RL-06" .fail
        "Security gate could not be evaluated: scan service lookup failed"
      persistState
    | .ok completedRuns =>
      match (completedRuns.find? fun run => run.releaseCandidateId = releaseId).or
          completedRuns.head? with
      | none =>
        applyCheck releaseId release "RL-06" .fail
          "Security gate not evaluated: no completed scan run found for this release"
        persistState
      | some run =>
        applyGate releaseId release
          (evaluateSecurityGate run.findingsSummary svc.securityGatePolicy)

def startValidation (lookup : ScanLookup) : ReleaseM Unit := do
  let release ← transition releaseId .validating
  autoEvaluateSecurityGate releaseId release lookup

def publish (releaseId releasedBy : String) (now : ℤ) : ReleaseM Release := do
  let release ← getRelease releaseId
  if (evaluate release.evidence.checklist).1 = false then
    throw (.invalidTransition release.status .released)
  else
    let release ← transition releaseId .released
    let released := { release with releasedBy, releasedAt := some now }
    putRelease releaseId released
    persistState
    return released

def markFailed : ReleaseM Release := transition releaseId .failed

def updateCheck (releaseId checkId : String) (status : CheckStatus) (message : String) :
    ReleaseM Unit := do
  let release ← getRelease releaseId
  applyCheck releaseId release checkId status message
  persistState

def applyComponentSecurityGate (summary : FindingsSummary)
    (policy : Option SecurityGatePolicy) : ReleaseM SecurityGateResult := do
  let release ← getRelease releaseId
  let result := evaluateSecurityGate summary (policy.getD {})
  applyGate releaseId release result
  return result

def initiateRollback : ReleaseM Unit := do
  let release ← getRelease releaseId
  persistState
  if release.status = .released then
    discard (transition releaseId .rolledBack)
  persistState

inductive Op
  | createRelease (releaseId version : String) (releaseType : ReleaseType) (description : String)
  | transition (releaseId : String) (toStatus : ReleaseStatus)
  | freeze (releaseId : String)
  | cutRc (releaseId rcVersion : String)
  | startValidation (releaseId : String) (lookup : ScanLookup)
  | publish (releaseId releasedBy : String) (now : ℤ)
  | markFailed (releaseId : String)
  | updateCheck (releaseId checkId : String) (status : CheckStatus) (message : String)
  | applyComponentSecurityGate (releaseId : String) (summary : FindingsSummary)
      (policy : Option SecurityGatePolicy)
  | initiateRollback (releaseId : String)

def Op.body : Op → ReleaseM Unit
  | .createRelease releaseId version releaseType description =>
    discard (Releases.createRelease releaseId version releaseType description)
  | .transition releaseId toStatus => discard (Releases.transition releaseId toStatus)
  | .freeze releaseId => discard (Releases.freeze releaseId)
  | .cutRc releaseId rcVersion => discard (Releases.cutRc releaseId rcVersion)
  | .startValidation releaseId lookup => Releases.startValidation releaseId lookup
  | .publish releaseId releasedBy now => discard (Releases.publish releaseId releasedBy now)
  | .markFailed releaseId => discard (Releases.markFailed releaseId)
  | .updateCheck releaseId checkId status message =>
    Releases.updateCheck releaseId checkId status message
  | .applyComponentSecurityGate releaseId summary policy =>
    discard (Releases.applyComponentSecurityGate releaseId summary policy)
  | .initiateRollback releaseId => Releases.initiateRollback releaseId

end Agent33.Releases
