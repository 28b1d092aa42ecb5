import Agent33.Library.Dict
import Agent33.Library.History
import Agent33.Library.Python
import Agent33.Library.Records
import Mathlib.Data.Rat.Floor

/-!
# Learning signals and generated intakes

Signals are recorded, with duplicates merged, and intakes are generated from those that
qualify. Each change is followed by a prune, which enforces the retention and the caps of
the policy, and by a save of what is left.

Times are microseconds since the first moment that has a date.
-/

namespace Agent33.Improvement

open Library

inductive LearningSignalType
  | bug
  | incident
  | feedback
  | performance
  | security
  | process
  deriving DecidableEq

def LearningSignalType.value : LearningSignalType → Text
  | .bug => "bug".toList
  | .incident => "incident".toList
  | .feedback => "feedback".toList
  | .performance => "performance".toList
  | .security => "security".toList
  | .process => "process".toList

inductive LearningSignalSeverity
  | low
  | medium
  | high
  | critical
  deriving DecidableEq

def severityRank : LearningSignalSeverity → ℕ
  | .low => 1
  | .medium => 2
  | .high => 3
  | .critical => 4

structure LearningSignal where
  signalId : Text
  recordedAt : ℤ
  signalType : LearningSignalType := .feedback
  severity : LearningSignalSeverity := .medium
  tenantId : Text := "default".toList
  summary : Text
  details : Text := []
  source : Text := []
  context : Dict Text Text := Dict.empty
  qualityScore : ℚ := 0
  qualityLabel : Text := "low".toList
  qualityReasons : List Text := []
  enrichment : Dict Text Text := Dict.empty
  occurrenceCount : ℤ := 1
  firstSeenAt : Option ℤ := none
  lastSeenAt : Option ℤ := none
  intakeGenerated : Bool := false
  relatedIntakeId : Option Text := none

inductive IntakeStatus
  | submitted
  | triaged
  | analyzing
  | accepted
  | deferred
  | rejected
  | tracked
  deriving DecidableEq

def IntakeStatus.value : IntakeStatus → Text
  | .submitted => "submitted".toList
  | .triaged => "triaged".toList
  | .analyzing => "analyzing".toList
  | .accepted => "accepted".toList
  | .deferred => "deferred".toList
  | .rejected => "rejected".toList
  | .tracked => "tracked".toList

def intakeTransitions : IntakeStatus → List IntakeStatus
  | .submitted => [.triaged]
  | .triaged => [.analyzing]
  | .analyzing => [.accepted, .deferred, .rejected]
  | .accepted => [.tracked]
  | .deferred => [.triaged]
  | .rejected => []
  | .tracked => []

structure IntakeClassification where
  researchType : Text := "external".toList
  category : Text := []
  urgency : Text := "medium".toList

structure IntakeContent where
  title : Text
  summary : Text := []
  source : Text := []

structure IntakeRelevance where
  impactAreas : List Text := []
  priorityScore : ℤ := 5

structure IntakeDisposition where
  status : IntakeStatus := .submitted
  decisionDate : Option ℤ := none
  decisionBy : Text := []
  rationale : Text := []
  actionItems : List Text := []

structure ResearchIntake where
  intakeId : Text
  submittedAt : ℤ
  submittedBy : Text := []
  tenantId : Text := "default".toList
  generatedFromSignalId : Option Text := none
  automatedQualityScore : Option ℚ := none
  automatedQualityLabel : Option Text := none
  classification : IntakeClassification := {}
  content : IntakeContent := { title := "Untitled".toList }
  relevance : IntakeRelevance := {}
  disposition : IntakeDisposition := {}

structure LearningPersistencePolicy where
  dedupeWindowMinutes : ℤ := 0
  retentionDays : Option ℤ := none
  maxSignals : Option ℤ := none
  maxGeneratedIntakes : Option ℤ := none
  autoIntakeMinQuality : ℚ := 0
  autoIntakeMinSeverity : LearningSignalSeverity := .high
  autoIntakeMaxItems : ℤ := 3

structure LearningPersistenceState where
  signals : List LearningSignal := []
  generatedIntakes : List ResearchIntake := []
  signalIntakeMap : Dict Text Text := Dict.empty

/-- Beside the service stand its store and the ids of the signals that intakes were
generated from, the latest first. -/
structure ImprovementService where
  policy : LearningPersistencePolicy := {}
  intakes : Records ResearchIntake.intakeId := Records.empty
  signals : Records LearningSignal.signalId := Records.empty
  signalIntakeMap : Dict Text Text := Dict.empty
  store : LearningPersistenceState := {}
  generatedFrom : List Text := []

inductive LearningError
  | valueError (message : Text)
  | overflowError

abbrev ServiceM := EStateM LearningError ImprovementService

def minute : ℤ := 60 * 1000000

def day : ℤ := 24 * 60 * minute

def before (moment span : ℤ) : ServiceM ℤ :=
  if moment < span then throw .overflowError else pure (moment - span)

def capped {α : Type} (cap : Option ℤ) (items : List α) : List α :=
  match cap with
  | none => items
  | some n => if 0 ≤ n then items.take n.toNat else items

def newestFirst {α : Type} (time : α → ℤ) (id : α → Text) (a b : α) : Bool :=
  time b < time a ∨ time b = time a ∧ id b ≤ id a

def newest {α : Type} (cap : Option ℤ) (time : α → ℤ) (id : α → Text) (items : List α) : List α :=
  capped cap (items.insertionSort fun a b => newestFirst time id a b = true)

def byId {α : Type} (id : α → Text) (items : List α) : List α :=
  items.insertionSort fun a b => id a ≤ id b

namespace ImprovementService

variable (s : ImprovementService)

def keptSignals (cutoff : Option ℤ) : List LearningSignal :=
  newest s.policy.maxSignals (·.recordedAt) (·.signalId)
    (s.signals.toList.filter fun signal => cutoff.all fun time => time ≤ signal.recordedAt)

def keptIntakes (signalIds : List Text) : List ResearchIntake :=
  newest s.policy.maxGeneratedIntakes (·.submittedAt) (·.intakeId)
    (s.intakes.toList.filter fun intake => intake.generatedFromSignalId.any (· ∈ signalIds))

def relinked (intakeIds : List Text) (signal : LearningSignal) : LearningSignal :=
  match signal.relatedIntakeId with
  | none => signal
  | some related =>
    if related ∈ intakeIds then signal
    else { signal with relatedIntakeId := none, intakeGenerated := false }

theorem signalId_relinked (intakeIds : List Text) (signal : LearningSignal) :
    (relinked intakeIds signal).signalId = signal.signalId := by
  unfold relinked
  split
  · rfl
  · split_ifs <;> rfl

def pruned (signalIds intakeIds : List Text) : ImprovementService :=
  { s with
    signals := (s.signals.filter fun signal => signal.signalId ∈ signalIds).mapRecords
      (relinked intakeIds) (signalId_relinked intakeIds)
    signalIntakeMap := s.signalIntakeMap.filterMapValues fun signalId intakeId =>
      if signalId ∈ signalIds ∧ intakeId ∈ intakeIds then some intakeId else none
    intakes := s.intakes.filter fun intake =>
      intake.generatedFromSignalId = none ∨ intake.intakeId ∈ intakeIds }

def persisted (cutoff : Option ℤ) : ImprovementService :=
  let signals := s.keptSignals cutoff
  let intakes := s.keptIntakes (signals.map (·.signalId))
  let s' := s.pruned (signals.map (·.signalId)) (intakes.map (·.intakeId))
  { s' with
    store := {
      signals := byId (·.signalId) (signals.map (relinked (intakes.map (·.intakeId))))
      generatedIntakes := byId (·.intakeId) intakes
      signalIntakeMap := s'.signalIntakeMap } }

def cutoffAt (now : ℤ) : ServiceM (Option ℤ) := do
  match (← get).policy.retentionDays with
  | none => pure none
  | some days => if 0 < days then some <$> before now (days * day) else pure none

def persistLearningState (now : ℤ) : ServiceM Unit := do
  let cutoff ← cutoffAt now
  modify fun s => s.persisted cutoff

def submitIntake (intake : ResearchIntake) (now : ℤ) : ServiceM ResearchIntake := do
  let intake := { intake with disposition := { intake.disposition with status := .submitted } }
  modify fun s => { s with intakes := s.intakes.put intake }
  if intake.generatedFromSignalId.isSome then persistLearningState now else pure ()
  return intake

structure Decision where
  decisionBy : Text := []
  rationale : Text := []
  actionItems : List Text := []
  time : ℤ

def decided (newStatus : IntakeStatus) (decision : Decision) (intake : ResearchIntake) :
    ResearchIntake :=
  let old := intake.disposition
  { intake with
    disposition := {
      status := newStatus
      decisionBy := if decision.decisionBy = [] then old.decisionBy else decision.decisionBy
      rationale := if decision.rationale = [] then old.rationale else decision.rationale
      actionItems := if decision.actionItems = [] then old.actionItems else decision.actionItems
      decisionDate :=
        if newStatus = .accepted ∨ newStatus = .deferred ∨ newStatus = .rejected then
          some decision.time
        else old.decisionDate } }

def transitionIntake (intakeId : Text) (newStatus : IntakeStatus) (decision : Decision)
    (now : ℤ) : ServiceM Unit := do
  match (← get).intakes.get? intakeId with
  | none => throw (.valueError ("Intake ".toList ++ intakeId ++ " not found".toList))
  | some intake =>
    let current := intake.disposition.status
    if newStatus ∈ intakeTransitions current then
      modify fun s =>
        { s with intakes := s.intakes.modify intakeId (decided newStatus decision) fun _ => rfl }
      if intake.generatedFromSignalId.isSome then persistLearningState now else pure ()
    else
      throw (.valueError ("Cannot transition from ".toList ++ current.value ++ " to ".toList ++
        newStatus.value))

structure Quality where
  score : ℚ
  label : Text
  reasons : List Text
  enrichment : Dict Text Text

section

variable (python : Python) (quality : LearningSignal → Quality)

variable (signal : LearningSignal)

def enrichLearningSignal : LearningSignal :=
  { signal with
    qualityScore := (quality signal).score
    qualityLabel := (quality signal).label
    qualityReasons := (quality signal).reasons
    enrichment := (quality signal).enrichment }

def normalizeSignalField (value : Text) : Text :=
  Text.joinWith [' '] (Text.words (python.lower (Text.strip value)))

def signalFingerprint : Text × LearningSignalType × Text × Text :=
  (signal.tenantId, signal.signalType, normalizeSignalField python signal.summary,
    normalizeSignalField python signal.source)

def latest : List LearningSignal → Option LearningSignal
  | [] => none
  | signal :: rest =>
    some (rest.foldl (fun best other => if best.recordedAt < other.recordedAt then other else best)
      signal)

def findRecentDuplicate : ServiceM (Option LearningSignal) := do
  let s ← get
  let window := s.policy.dedupeWindowMinutes
  if window ≤ 0 then pure none
  else
    let threshold ← before signal.recordedAt (window * minute)
    pure (latest (s.signals.toList.filter fun existing =>
      threshold ≤ existing.recordedAt ∧
        signalFingerprint python existing = signalFingerprint python signal))

def mergedContext (target incoming : Dict Text Text) : Dict Text Text :=
  incoming.entries.foldl
    (fun context e => if (context.get? e.1).isSome then context else context.set e.1 e.2) target

def mergedSignal (incoming target : LearningSignal) : LearningSignal :=
  enrichLearningSignal quality
    { target with
      occurrenceCount := target.occurrenceCount + 1
      lastSeenAt := some (max (target.lastSeenAt.getD target.recordedAt) incoming.recordedAt)
      severity :=
        if severityRank target.severity < severityRank incoming.severity then incoming.severity
        else target.severity
      details :=
        if target.details.length < incoming.details.length then incoming.details
        else target.details
      source := if incoming.source ≠ [] ∧ target.source = [] then incoming.source
        else target.source
      context := mergedContext target.context incoming.context }

def received : LearningSignal :=
  { enrichLearningSignal quality signal with
    firstSeenAt := some signal.recordedAt
    lastSeenAt := some signal.recordedAt }

def recordLearningSignal (now : ℤ) : ServiceM Unit := do
  let signal := received quality signal
  match ← findRecentDuplicate python signal with
  | some duplicate =>
    modify fun s =>
      { s with
        signals := s.signals.modify duplicate.signalId (mergedSignal quality signal)
          fun _ => rfl }
    persistLearningState now
  | none =>
    modify fun s => { s with signals := s.signals.put signal }
    persistLearningState now

end

def listLearningSignals (tenantId : Option Text) : List LearningSignal :=
  (s.signals.toList.filter fun signal => tenantId.all fun tenant => signal.tenantId = tenant)
    |>.insertionSort fun a b => b.recordedAt ≤ a.recordedAt

def strongerFirst (a b : LearningSignal) : Bool :=
  let rankA := severityRank a.severity
  let rankB := severityRank b.severity
  rankB < rankA ∨ rankB = rankA ∧
    (b.qualityScore < a.qualityScore ∨
      b.qualityScore = a.qualityScore ∧ b.recordedAt ≤ a.recordedAt)

def candidates (tenantId : Option Text) : List LearningSignal :=
  (s.listLearningSignals tenantId).insertionSort fun a b => strongerFirst a b = true

/-- `round`: halves go to the even neighbour. -/
def round (q : ℚ) : ℤ :=
  let below := ⌊q⌋
  if q - below < 1 / 2 ∨ q - below = 1 / 2 ∧ below % 2 = 0 then below else below + 1

def basePriority : LearningSignalSeverity → ℤ
  | .low => 3
  | .medium => 5
  | .high => 8
  | .critical => 10

structure Draw where
  intakeId : Text
  submittedAt : ℤ
  now : ℤ

def intakeFor (signal : LearningSignal) (draw : Draw) : ResearchIntake where
  intakeId := draw.intakeId
  submittedAt := draw.submittedAt
  submittedBy := "learning-service".toList
  tenantId := signal.tenantId
  generatedFromSignalId := some signal.signalId
  automatedQualityScore := some signal.qualityScore
  automatedQualityLabel := some signal.qualityLabel
  classification := {
    researchType := "internal".toList
    category := "learning:".toList ++ signal.signalType.value
    urgency := if signal.severity = .high ∨ signal.severity = .critical then "high".toList
      else "medium".toList }
  content := {
    title := "Learning signal: ".toList ++ signal.summary
    summary := if signal.details = [] then signal.summary else signal.details
    source := signal.source }
  relevance := {
    priorityScore := min 10 (max 1 (basePriority signal.severity + round (signal.qualityScore * 2)))
    impactAreas := ["quality:".toList ++ signal.qualityLabel] }

def linkedTo (intakeId : Text) (signal : LearningSignal) : LearningSignal :=
  { signal with relatedIntakeId := some intakeId, intakeGenerated := true }

def link (signalId intakeId : Text) : ImprovementService :=
  { s with
    signalIntakeMap := s.signalIntakeMap.set signalId intakeId
    signals := s.signals.modify signalId (linkedTo intakeId) fun _ => rfl
    generatedFrom := signalId :: s.generatedFrom }

def generateFrom (signal : LearningSignal) (draw : Draw) : ServiceM ResearchIntake := do
  let intake ← submitIntake (intakeFor signal draw) draw.now
  modify fun s => s.link signal.signalId intake.intakeId
  return intake

variable (policy : LearningPersistencePolicy)

def qualifies (minSeverity : LearningSignalSeverity) (signal : LearningSignal) : Bool :=
  severityRank minSeverity ≤ severityRank signal.severity ∧
    policy.autoIntakeMinQuality ≤ signal.qualityScore

def generateLoop (minSeverity : LearningSignalSeverity) (maxItems : ℤ) (draws : ℕ → Draw) :
    List LearningSignal → List ResearchIntake → ServiceM (List ResearchIntake)
  | [], created => return created
  | signal :: rest, created => do
    let s ← get
    if qualifies s.policy minSeverity signal ∧ s.signalIntakeMap.get? signal.signalId = none then
      let intake ← generateFrom signal (draws created.length)
      let created := created ++ [intake]
      if maxItems ≤ created.length then return created
      else generateLoop minSeverity maxItems draws rest created
    else generateLoop minSeverity maxItems draws rest created

structure Request where
  minSeverity : Option LearningSignalSeverity := none
  maxItems : Option ℤ := none
  tenantId : Option Text := none

def generateIntakesFromLearningSignals (request : Request) (draws : ℕ → Draw) (now : ℤ) :
    ServiceM (List ResearchIntake) := do
  let s ← get
  let minSeverity := request.minSeverity.getD s.policy.autoIntakeMinSeverity
  let maxItems := request.maxItems.getD s.policy.autoIntakeMaxItems
  if maxItems ≤ 0 then return []
  else
    let created ← generateLoop minSeverity maxItems draws (s.candidates request.tenantId) []
    if created.isEmpty then pure () else persistLearningState now
    return created

def checkPolicy : ServiceM Unit :=
  if policy.autoIntakeMinQuality < 0 ∨ 1 < policy.autoIntakeMinQuality then
    throw (.valueError "auto_intake_min_quality must be between 0.0 and 1.0".toList)
  else if policy.autoIntakeMaxItems < 1 then
    throw (.valueError "auto_intake_max_items must be at least 1".toList)
  else pure ()

def updatePolicy : ServiceM Unit := do
  checkPolicy policy
  modify fun s => { s with policy }

def seen (signal : LearningSignal) : LearningSignal :=
  { signal with
    firstSeenAt := some (signal.firstSeenAt.getD signal.recordedAt)
    lastSeenAt := some (signal.lastSeenAt.getD signal.recordedAt) }

def loaded : ImprovementService where
  policy := policy
  signals := Records.ofList (s.store.signals.map seen)
  signalIntakeMap := s.store.signalIntakeMap
  intakes := Records.ofList s.store.generatedIntakes
  store := s.store
  generatedFrom := s.generatedFrom

def reload : ServiceM Unit := do
  checkPolicy policy
  modify fun s => s.loaded policy

inductive Op
  | recordLearningSignal (signal : LearningSignal) (now : ℤ)
  | generateIntakes (request : Request) (draws : ℕ → Draw) (now : ℤ)
  | submitIntake (intake : ResearchIntake) (now : ℤ)
  | transitionIntake (intakeId : Text) (newStatus : IntakeStatus) (decision : Decision) (now : ℤ)
  | updatePolicy (policy : LearningPersistencePolicy)
  | reload (policy : LearningPersistencePolicy)

def Op.run (python : Python) (quality : LearningSignal → Quality) : Op → ServiceM Unit
  | .recordLearningSignal signal now =>
    ImprovementService.recordLearningSignal python quality signal now
  | .generateIntakes request draws now => do
    discard (ImprovementService.generateIntakesFromLearningSignals request draws now)
  | .submitIntake intake now => do discard (ImprovementService.submitIntake intake now)
  | .transitionIntake intakeId newStatus decision now =>
    ImprovementService.transitionIntake intakeId newStatus decision now
  | .updatePolicy policy => ImprovementService.updatePolicy policy
  | .reload policy => ImprovementService.reload policy

end ImprovementService

end Agent33.Improvement
