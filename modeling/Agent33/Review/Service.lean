import Agent33.Library.Dict
import Agent33.Library.History

/-!
# Review records and their risk assessment

The data of a two-layer review, the assessment of the risk triggers and the
reviewers that the assignment matrix names. Timestamps are left out: no
operation of the service reads them.
-/

namespace Agent33.Review

inductive RiskLevel
  | none
  | low
  | medium
  | high
  | critical

inductive RiskTrigger
  | documentation
  | config
  | codeIsolated
  | apiInternal
  | apiPublic
  | security
  | schema
  | infrastructure
  | promptAgent
  | secrets
  | productionData
  | promptInjection
  | sandboxEscape
  | supplyChain

inductive SignoffState
  | draft
  | ready
  | l1Review
  | l1ChangesRequested
  | l1Approved
  | l2Review
  | l2ChangesRequested
  | l2Approved
  | approved
  | changesRequested
  | deferred
  | merged
  deriving DecidableEq

def SignoffState.value : SignoffState → String
  | draft => "draft"
  | ready => "ready"
  | l1Review => "l1-review"
  | l1ChangesRequested => "l1-changes-requested"
  | l1Approved => "l1-approved"
  | l2Review => "l2-review"
  | l2ChangesRequested => "l2-changes-requested"
  | l2Approved => "l2-approved"
  | approved => "approved"
  | changesRequested => "changes-requested"
  | deferred => "deferred"
  | merged => "merged"

inductive ReviewDecision
  | approved
  | changesRequested
  | escalated

inductive ChecklistVerdict
  | pass
  | fail
  | na

structure L1ChecklistResults where
  codeQuality : ChecklistVerdict := .na
  correctness : ChecklistVerdict := .na
  testing : ChecklistVerdict := .na
  scope : ChecklistVerdict := .na

def L1ChecklistResults.modelDump (c : L1ChecklistResults) : List (String × ChecklistVerdict) :=
  [("code_quality", c.codeQuality), ("correctness", c.correctness), ("testing", c.testing),
    ("scope", c.scope)]

structure L2ChecklistResults where
  architecture : ChecklistVerdict := .na
  security : ChecklistVerdict := .na
  compliance : ChecklistVerdict := .na
  impact : ChecklistVerdict := .na

def L2ChecklistResults.modelDump (c : L2ChecklistResults) : List (String × ChecklistVerdict) :=
  [("architecture", c.architecture), ("security", c.security), ("compliance", c.compliance),
    ("impact", c.impact)]

structure RiskAssessment where
  riskLevel : RiskLevel := .none
  triggersIdentified : List RiskTrigger := []
  l1Required : Bool := false
  l2Required : Bool := false

structure LayerReview where
  reviewerId : String := ""
  reviewerRole : String := ""
  decision : Option ReviewDecision := none
  checklistResults : List (String × ChecklistVerdict) := []
  issuesFound : List String := []
  comments : String := ""

structure FinalSignoff where
  approvedBy : String := ""
  approvalType : String := ""
  conditions : List String := []
  rationale : String := ""
  modificationSummary : String := ""
  linkedIntakeId : Option String := none

structure ReviewArtifactLink where
  kind : String := ""
  artifactId : String := ""
  label : String := ""
  mode : String := ""

structure ReviewRecord where
  id : String
  taskId : String := ""
  branch : String := ""
  prNumber : Option Int := none
  tenantId : String := ""
  state : SignoffState := .draft
  riskAssessment : RiskAssessment := {}
  l1Review : LayerReview := {}
  l2Review : LayerReview := {}
  finalSignoff : FinalSignoff := {}
  artifacts : List ReviewArtifactLink := []

/-- `_TRIGGER_RISK`. -/
def triggerRisk : RiskTrigger → RiskLevel
  | .documentation => .none
  | .config => .low
  | .codeIsolated => .low
  | .apiInternal => .medium
  | .apiPublic => .high
  | .security => .high
  | .schema => .high
  | .infrastructure => .high
  | .promptAgent => .high
  | .secrets => .critical
  | .productionData => .critical
  | .promptInjection => .high
  | .sandboxEscape => .high
  | .supplyChain => .high

/-- `_RISK_ORD`. -/
def riskOrd : RiskLevel → ℕ
  | .none => 0
  | .low => 1
  | .medium => 2
  | .high => 3
  | .critical => 4

def raiseLevel (maxLevel : RiskLevel) (trigger : RiskTrigger) : RiskLevel :=
  if riskOrd maxLevel < riskOrd (triggerRisk trigger) then triggerRisk trigger else maxLevel

def assess (triggers : List RiskTrigger) : RiskAssessment :=
  match triggers with
  | [] => {}
  | _ :: _ =>
    let maxLevel := triggers.foldl raiseLevel .none
    { riskLevel := maxLevel
      triggersIdentified := triggers
      l1Required := decide (riskOrd .low ≤ riskOrd maxLevel)
      l2Required := decide (riskOrd .medium ≤ riskOrd maxLevel) }

structure ReviewerAssignment where
  reviewerRole : String
  agentId : String
  humanRequired : Bool := false

/-- `_ASSIGNMENT_MATRIX`. -/
def assignmentMatrix : RiskTrigger → ReviewerAssignment × ReviewerAssignment
  | .codeIsolated | .schema | .apiInternal | .config =>
    (⟨"implementer", "AGT-006", false⟩, ⟨"architect", "AGT-003", false⟩)
  | .security | .promptInjection | .sandboxEscape | .secrets | .productionData =>
    (⟨"security", "AGT-004", false⟩, ⟨"security-human", "HUMAN", true⟩)
  | .apiPublic | .infrastructure =>
    (⟨"implementer", "AGT-006", false⟩, ⟨"architect-human", "HUMAN", true⟩)
  | .promptAgent => (⟨"qa", "AGT-005", false⟩, ⟨"orchestrator", "AGT-001", false⟩)
  | .documentation => (⟨"documentation", "AGT-007", false⟩, ⟨"orchestrator", "AGT-001", false⟩)
  | .supplyChain => (⟨"security", "AGT-004", false⟩, ⟨"architect", "AGT-003", false⟩)

def highestTrigger (highest : RiskTrigger) (trigger : RiskTrigger) : RiskTrigger :=
  if riskOrd (triggerRisk highest) < riskOrd (triggerRisk trigger) then trigger else highest

def assign (triggers : List RiskTrigger) : ReviewerAssignment × ReviewerAssignment :=
  match triggers with
  | [] => (⟨"implementer", "AGT-006", false⟩, ⟨"architect", "AGT-003", false⟩)
  | t :: rest => assignmentMatrix (rest.foldl highestTrigger t)

end Agent33.Review

/-!
## The review service

The signoff state machine, the operations of the service on one record, and the
service itself with its optional durable store. A record is an object that an
operation changes in place, so what it holds when an operation raises stays.
-/

namespace Agent33.Review

open Library Option

inductive ReviewError
  | notFound (message : String)
  | state (message : String)

/-- `_VALID_TRANSITIONS`. -/
def validNextStates : SignoffState → List SignoffState
  | .draft => [.ready]
  | .ready => [.l1Review]
  | .l1Review => [.l1Approved, .l1ChangesRequested]
  | .l1ChangesRequested => [.draft]
  | .l1Approved => [.l2Review, .approved]
  | .l2Review => [.l2Approved, .l2ChangesRequested]
  | .l2ChangesRequested => [.draft]
  | .l2Approved => [.approved]
  | .approved => [.merged, .changesRequested, .deferred]
  | .changesRequested => [.ready]
  | .deferred => [.ready]
  | .merged => []

def canTransition (fromState toState : SignoffState) : Bool :=
  decide (toState ∈ validNextStates fromState)

abbrev RecordM := EStateM ReviewError ReviewRecord

def transition (toState : SignoffState) : RecordM Unit := do
  let record ← get
  if canTransition record.state toState then
    set { record with state := toState }
  else
    throw (.state ("Invalid transition: " ++ record.state.value ++ " -> " ++ toState.value))

def requireState (state : SignoffState) (message : String) : RecordM Unit := do
  let record ← get
  if record.state ≠ state then
    throw (.state (message ++ record.state.value))

def assessRisk (triggers : List RiskTrigger) : RecordM Unit :=
  modify fun record => { record with riskAssessment := assess triggers }

def markReady : RecordM Unit := transition .ready

def assignL1 : RecordM Unit := do
  transition .l1Review
  modify fun record =>
    let l1 := (assign record.riskAssessment.triggersIdentified).1
    { record with l1Review :=
        { record.l1Review with reviewerId := l1.agentId, reviewerRole := l1.reviewerRole } }

def LayerReview.submit (review : LayerReview) (decision : ReviewDecision)
    (checklist : Option (List (String × ChecklistVerdict))) (issues : List String)
    (comments : String) : LayerReview :=
  { review with
    decision := some decision
    comments := comments
    issuesFound := if issues = [] then review.issuesFound else issues
    checklistResults := checklist.getD review.checklistResults }

def requireL2 (record : ReviewRecord) : ReviewRecord :=
  { record with riskAssessment := { record.riskAssessment with l2Required := true } }

def submitL1 (decision : ReviewDecision) (checklist : Option L1ChecklistResults)
    (issues : List String) (comments : String) : RecordM Unit := do
  requireState .l1Review "Cannot submit L1 review in state "
  modify fun record => { record with
    l1Review := record.l1Review.submit decision (checklist.map (·.modelDump)) issues comments }
  match decision with
  | .approved =>
    if (← get).riskAssessment.l2Required then
      transition .l1Approved
    else
      transition .l1Approved
      transition .approved
  | .changesRequested => transition .l1ChangesRequested
  | .escalated =>
    modify requireL2
    transition .l1Approved

def assignL2 : RecordM Unit := do
  transition .l2Review
  modify fun record =>
    let l2 := (assign record.riskAssessment.triggersIdentified).2
    { record with l2Review :=
        { record.l2Review with reviewerId := l2.agentId, reviewerRole := l2.reviewerRole } }

def submitL2 (decision : ReviewDecision) (checklist : Option L2ChecklistResults)
    (issues : List String) (comments : String) : RecordM Unit := do
  requireState .l2Review "Cannot submit L2 review in state "
  modify fun record => { record with
    l2Review := record.l2Review.submit decision (checklist.map (·.modelDump)) issues comments }
  match decision with
  | .approved =>
    transition .l2Approved
    transition .approved
  | .changesRequested => transition .l2ChangesRequested
  | .escalated => transition .l2ChangesRequested

def approvalType (record : ReviewRecord) : String :=
  if record.l2Review.decision = none then "l1_only"
  else if record.l2Review.reviewerId = "HUMAN" then "l1_l2_human"
  else "l1_l2_agent"

def approve (approverId : String) (conditions : List String) : RecordM Unit := do
  requireState .approved "Cannot approve review in state "
  modify fun record => { record with
    finalSignoff := {
      approvedBy := approverId
      approvalType := approvalType record
      conditions := conditions } }

def approveWithRationale (approverId decision rationale modificationSummary : String)
    (conditions : List String) (linkedIntakeId : Option String) : RecordM Unit := do
  requireState .approved "Cannot apply rationale approval in state "
  modify fun record => { record with
    finalSignoff := {
      approvedBy := approverId
      approvalType := approvalType record
      conditions := conditions
      rationale := rationale
      modificationSummary := modificationSummary
      linkedIntakeId := linkedIntakeId } }
  if decision = "changes_requested" then transition .changesRequested
  else if decision = "deferred" then transition .deferred

def merge : RecordM Unit := transition .merged

inductive RecordOp
  | assessRisk (triggers : List RiskTrigger)
  | markReady
  | assignL1
  | submitL1 (decision : ReviewDecision) (checklist : Option L1ChecklistResults)
      (issues : List String) (comments : String)
  | assignL2
  | submitL2 (decision : ReviewDecision) (checklist : Option L2ChecklistResults)
      (issues : List String) (comments : String)
  | approve (approverId : String) (conditions : List String)
  | approveWithRationale (approverId decision rationale modificationSummary : String)
      (conditions : List String) (linkedIntakeId : Option String)
  | merge

def RecordOp.body : RecordOp → RecordM Unit
  | .assessRisk triggers => Review.assessRisk triggers
  | .markReady => Review.markReady
  | .assignL1 => Review.assignL1
  | .submitL1 decision checklist issues comments =>
    Review.submitL1 decision checklist issues comments
  | .assignL2 => Review.assignL2
  | .submitL2 decision checklist issues comments =>
    Review.submitL2 decision checklist issues comments
  | .approve approverId conditions => Review.approve approverId conditions
  | .approveWithRationale approverId decision rationale modificationSummary conditions intake =>
    Review.approveWithRationale approverId decision rationale modificationSummary conditions intake
  | .merge => Review.merge

/-- The records in memory and, when a state store is configured, the namespace
that holds them there. -/
structure ReviewService where
  reviews : Dict String ReviewRecord := Dict.empty
  stateStore : Option (Dict String ReviewRecord) := none

abbrev ReviewM := EStateM ReviewError ReviewService

def ReviewService.persistState (svc : ReviewService) : ReviewService :=
  { svc with stateStore := svc.stateStore.map fun _ => svc.reviews }

/-- `_load_state`, as a new service over the same store runs it. -/
def ReviewService.loadState (svc : ReviewService) : ReviewService :=
  { svc with reviews := svc.stateStore.getD Dict.empty }

def ReviewService.putRecord (svc : ReviewService) (reviewId : String) (record : ReviewRecord) :
    ReviewService :=
  { svc with reviews := svc.reviews.set reviewId record }

def create (id taskId branch : String) (prNumber : Option Int) (tenantId : String)
    (artifacts : List ReviewArtifactLink) : ReviewM ReviewRecord := do
  let record : ReviewRecord :=
    { id, taskId, branch, prNumber, tenantId, artifacts }
  modify fun svc => (svc.putRecord id record).persistState
  return record

def getReview (reviewId : String) : ReviewM ReviewRecord := do
  match (← get).reviews.get? reviewId with
  | none => throw (.notFound ("Review not found: " ++ reviewId))
  | some record => return record

def listAll (svc : ReviewService) (tenantId : Option String) : List ReviewRecord :=
  match tenantId with
  | some tenant => svc.reviews.values.filter fun record => record.tenantId == tenant
  | none => svc.reviews.values

def delete (reviewId : String) : ReviewM Unit := do
  if reviewId ∉ (← get).reviews.keys then
    throw (.notFound ("Review not found: " ++ reviewId))
  modify fun svc => ReviewService.persistState { svc with reviews := svc.reviews.erase reviewId }

def update (reviewId : String) (body : RecordM Unit) : ReviewM ReviewRecord := do
  let record ← getReview reviewId
  match body.run record with
  | .ok _ record =>
    modify fun svc => (svc.putRecord reviewId record).persistState
    return record
  | .error e record =>
    modify fun svc => svc.putRecord reviewId record
    throw e

inductive ReviewOp
  | create (id taskId branch : String) (prNumber : Option Int) (tenantId : String)
      (artifacts : List ReviewArtifactLink)
  | delete (reviewId : String)
  | update (reviewId : String) (op : RecordOp)
  | restart

def step : ReviewOp → ReviewM Unit
  | .create id taskId branch prNumber tenantId artifacts => do
    let _ ← Review.create id taskId branch prNumber tenantId artifacts
  | .delete reviewId => Review.delete reviewId
  | .update reviewId op => do
    let _ ← Review.update reviewId op.body
  | .restart => modify ReviewService.loadState

def Moves (r : ReviewRecord) : RecordOp → SignoffState → Prop
  | .assessRisk _, target => target = r.state
  | .markReady, target => target = .ready
  | .assignL1, target => r.state = .ready ∧ target = .l1Review
  | .submitL1 .approved _ _ _, target => r.state = .l1Review ∧
      target = if r.riskAssessment.l2Required then .l1Approved else .approved
  | .submitL1 .changesRequested _ _ _, target => r.state = .l1Review ∧ target = .l1ChangesRequested
  | .submitL1 .escalated _ _ _, target => r.state = .l1Review ∧ target = .l1Approved
  | .assignL2, target => r.state = .l1Approved ∧ target = .l2Review
  | .submitL2 .approved _ _ _, target => r.state = .l2Review ∧ target = .approved
  | .submitL2 _ _ _ _, target => r.state = .l2Review ∧ target = .l2ChangesRequested
  | .approve _ _, target => r.state = .approved ∧ target = .approved
  | .approveWithRationale _ _ _ _ _ _, target =>
    r.state = .approved ∧ (target = .approved ∨ target = .changesRequested ∨ target = .deferred)
  | .merge, target => r.state = .approved ∧ target = .merged

open EStateM

theorem transition_run (target : SignoffState) (r : ReviewRecord) :
    (transition target).run r =
      if canTransition r.state target then .ok () { r with state := target }
      else
        .error (.state ("Invalid transition: " ++ r.state.value ++ " -> " ++ target.value)) r := by
  simp only [transition, run_bind, run_get]
  split_ifs <;> rfl

theorem requireState_run (state : SignoffState) (message : String) (r : ReviewRecord) :
    (requireState state message).run r =
      if r.state = state then .ok () r
      else .error (.state (message ++ r.state.value)) r := by
  simp only [requireState, run_bind, run_get, ite_not]
  split_ifs <;> rfl

variable {rid : String} {events : List (History.Event ReviewService ReviewOp)}
    {e : History.Event ReviewService ReviewOp}

theorem canTransition_l1Review (h : canTransition s .l1Review = true) : s = .ready := by
  cases s <;> first | rfl | exact absurd h (by decide)

theorem canTransition_l2Review (h : canTransition s .l2Review = true) : s = .l1Approved := by
  cases s <;> first | rfl | exact absurd h (by decide)

theorem canTransition_merged (h : canTransition s .merged = true) : s = .approved := by
  cases s <;> first | rfl | exact absurd h (by decide)

theorem transition_run_of (state : SignoffState)
    (hr : r.state = state) (h : canTransition state target = true) :
    (transition target).run r = .ok () { r with state := target } := by
  rw [transition_run, hr, if_pos h]

open RecordOp

/-- An operation on a record either moves it as `Moves` says or leaves it alone. -/
theorem body_spec (op : RecordOp) (r : ReviewRecord) :
    match op.body.run r with
    | .ok _ r' => Moves r op r'.state
    | .error _ r' => r' = r := by
  cases op with
  | assessRisk triggers => rfl
  | markReady =>
    simp only [body, markReady, transition_run]
    split_ifs <;> rfl
  | assignL1 =>
    simp only [body, assignL1, run_bind, transition_run]
    split_ifs with h
    · exact ⟨canTransition_l1Review h, rfl⟩
    · rfl
  | submitL1 decision checklist issues comments =>
    simp only [body, submitL1, run_bind, requireState_run]
    split_ifs with h
    · cases decision with
      | approved =>
        simp only [run_bind, run_modify, run_get]
        split_ifs with h2
        · rw [transition_run_of .l1Review (by exact h) (by decide)]
          exact ⟨h, by rw [if_pos h2]⟩
        · rw [run_bind, transition_run_of .l1Review (by exact h) (by decide)]
          dsimp only
          rw [transition_run_of .l1Approved rfl (by decide)]
          exact ⟨h, by rw [if_neg h2]⟩
      | changesRequested =>
        simp only [run_modify]
        rw [transition_run_of .l1Review (by exact h) (by decide)]
        exact ⟨h, rfl⟩
      | escalated =>
        simp only [run_bind, run_modify]
        rw [transition_run_of .l1Review (by exact h) (by decide)]
        exact ⟨h, rfl⟩
    · rfl
  | assignL2 =>
    simp only [body, assignL2, run_bind, transition_run]
    split_ifs with h
    · exact ⟨canTransition_l2Review h, rfl⟩
    · rfl
  | submitL2 decision checklist issues comments =>
    simp only [body, submitL2, run_bind, requireState_run]
    split_ifs with h
    · cases decision with
      | approved =>
        simp only [run_bind, run_modify]
        rw [transition_run_of .l2Review (by exact h) (by decide)]
        dsimp only
        rw [transition_run_of .l2Approved rfl (by decide)]
        exact ⟨h, rfl⟩
      | changesRequested =>
        simp only [run_modify]
        rw [transition_run_of .l2Review (by exact h) (by decide)]
        exact ⟨h, rfl⟩
      | escalated =>
        simp only [run_modify]
        rw [transition_run_of .l2Review (by exact h) (by decide)]
        exact ⟨h, rfl⟩
    · rfl
  | approve approverId conditions =>
    simp only [body, approve, run_bind, requireState_run]
    split_ifs with h
    · exact ⟨h, h⟩
    · rfl
  | approveWithRationale approverId decision rationale modificationSummary conditions intake =>
    by_cases h : r.state = .approved
    · simp only [body, approveWithRationale, run_bind, requireState_run, if_pos h,
        run_modify]
      split_ifs
      · rw [transition_run_of .approved (by exact h) (by decide)]
        exact ⟨h, .inr (.inl rfl)⟩
      · rw [transition_run_of .approved (by exact h) (by decide)]
        exact ⟨h, .inr (.inr rfl)⟩
      · exact ⟨h, .inl h⟩
    · simp only [body, approveWithRationale, run_bind, requireState_run, if_neg h]
  | merge =>
    simp only [body, merge, transition_run]
    split_ifs with h
    · exact ⟨canTransition_merged h, rfl⟩
    · rfl

def startsRound (rid : String) (e : History.Event ReviewService ReviewOp) : Bool :=
  match e.op with
  | .update id .markReady => id == rid
  | _ => false

def round (rid : String) (events : List (History.Event ReviewService ReviewOp)) :
    List (History.Event ReviewService ReviewOp) :=
  History.since (startsRound rid) events

def SubmittedL1 (rid : String) (decision : ReviewDecision)
    (e : History.Event ReviewService ReviewOp) : Prop :=
  ∃ checklist issues comments, e.op = .update rid (.submitL1 decision checklist issues comments)

def SubmittedL2 (rid : String) (decision : ReviewDecision)
    (e : History.Event ReviewService ReviewOp) : Prop :=
  ∃ checklist issues comments, e.op = .update rid (.submitL2 decision checklist issues comments)

def RequiredL2 (rid : String) (e : History.Event ReviewService ReviewOp) : Prop :=
  ∃ r, e.before.reviews.get? rid = some r ∧ r.riskAssessment.l2Required = true

def PassedGate (rid : String) (events : List (History.Event ReviewService ReviewOp)) : Prop :=
  ∃ e ∈ round rid events, ∃ decision, SubmittedL1 rid decision e ∧
    (decision = .approved ∨ decision = .escalated) ∧
    (decision = .escalated ∨ RequiredL2 rid e →
      ∃ e' ∈ round rid events, SubmittedL2 rid .approved e')

def PassedL1 (rid : String) (events : List (History.Event ReviewService ReviewOp)) : Prop :=
  ∃ e ∈ round rid events, ∃ decision, SubmittedL1 rid decision e ∧
    (decision = .approved ∨ decision = .escalated)

def StageMet (rid : String) (events : List (History.Event ReviewService ReviewOp)) :
    SignoffState → Prop
  | .l1Approved | .l2Review => PassedL1 rid events
  | .approved | .merged => PassedGate rid events
  | _ => True

theorem PassedL1.concat (h : PassedL1 rid events) (he : startsRound rid e = false) :
    PassedL1 rid (events ++ [e]) := by
  obtain ⟨e₁, h₁, hrest⟩ := h
  exact ⟨e₁, History.mem_since_concat he h₁, hrest⟩

theorem PassedGate.concat (h : PassedGate rid events) (he : startsRound rid e = false) :
    PassedGate rid (events ++ [e]) := by
  obtain ⟨e₁, h₁, decision, hsub, hdec, hl2⟩ := h
  refine ⟨e₁, History.mem_since_concat he h₁, decision, hsub, hdec, fun hreq => ?_⟩
  obtain ⟨e₂, h₂, hsub₂⟩ := hl2 hreq
  exact ⟨e₂, History.mem_since_concat he h₂, hsub₂⟩

theorem StageMet.concat (h : StageMet rid events state) (he : startsRound rid e = false) :
    StageMet rid (events ++ [e]) state := by
  cases state <;> first | trivial | exact PassedL1.concat h he | exact PassedGate.concat h he

/-- The invariant of a run: the stage of every record is met, and the store holds
the records of the service. -/
structure Gated (r : History.Run ReviewService ReviewOp) : Prop where
  stage : ∀ rid record, r.state.reviews.get? rid = some record →
    StageMet rid r.events record.state
  stored : ∀ records, r.state.stateStore = some records → records = r.state.reviews

theorem stageMet_of_moves {svc svc' : ReviewService}
    (hget : svc.reviews.get? rid = some record) (h : StageMet rid events record.state)
    (hmove : Moves record op state) :
    StageMet rid (events ++ [⟨svc, .update rid op, svc'⟩]) state := by
  cases op with
  | assessRisk triggers =>
    obtain rfl : state = record.state := hmove
    exact h.concat rfl
  | markReady =>
    obtain rfl : state = .ready := hmove
    trivial
  | assignL1 =>
    obtain ⟨_, rfl⟩ := hmove
    trivial
  | submitL1 decision checklist issues comments =>
    have hlast := History.last_mem_since events (p := startsRound rid)
      (e := ⟨svc, .update rid (.submitL1 decision checklist issues comments), svc'⟩) rfl
    have hsub : SubmittedL1 rid decision
        ⟨svc, .update rid (.submitL1 decision checklist issues comments), svc'⟩ :=
      ⟨checklist, issues, comments, rfl⟩
    cases decision with
    | approved =>
      obtain ⟨_, rfl⟩ := hmove
      split_ifs with hreq
      · exact ⟨_, hlast, .approved, hsub, .inl rfl⟩
      · refine ⟨_, hlast, .approved, hsub, .inl rfl, ?_⟩
        rintro (hesc | ⟨r, hr, hl2⟩)
        · simp at hesc
        · obtain rfl : record = r := some.inj (hget.symm.trans hr)
          exact absurd hl2 hreq
    | changesRequested =>
      obtain ⟨_, rfl⟩ := hmove
      trivial
    | escalated =>
      obtain ⟨_, rfl⟩ := hmove
      exact ⟨_, hlast, .escalated, hsub, .inr rfl⟩
  | assignL2 =>
    obtain ⟨hfrom, rfl⟩ := hmove
    rw [hfrom] at h
    exact PassedL1.concat h rfl
  | submitL2 decision checklist issues comments =>
    have hlast := History.last_mem_since events (p := startsRound rid)
      (e := ⟨svc, .update rid (.submitL2 decision checklist issues comments), svc'⟩) rfl
    cases decision with
    | approved =>
      obtain ⟨hfrom, rfl⟩ := hmove
      rw [hfrom] at h
      obtain ⟨e, he, decision, hsub, hdec⟩ := h
      exact ⟨e, History.mem_since_concat rfl he, decision, hsub, hdec,
        fun _ => ⟨_, hlast, checklist, issues, comments, rfl⟩⟩
    | changesRequested =>
      obtain ⟨_, rfl⟩ := hmove
      trivial
    | escalated =>
      obtain ⟨_, rfl⟩ := hmove
      trivial
  | approve approverId conditions =>
    obtain ⟨hfrom, rfl⟩ := hmove
    rw [hfrom] at h
    exact PassedGate.concat h rfl
  | approveWithRationale approverId decision rationale modificationSummary conditions intake =>
    obtain ⟨hfrom, rfl | rfl | rfl⟩ := hmove
    · rw [hfrom] at h
      exact PassedGate.concat h rfl
    · trivial
    · trivial
  | merge =>
    obtain ⟨hfrom, rfl⟩ := hmove
    rw [hfrom] at h
    exact PassedGate.concat h rfl

inductive Effect (svc : ReviewService) : ReviewOp → ReviewService → Prop
  | create (id taskId branch : String) (prNumber : Option Int) (tenantId : String)
      (artifacts : List ReviewArtifactLink) :
      Effect svc (.create id taskId branch prNumber tenantId artifacts)
        (svc.putRecord id { id, taskId, branch, prNumber, tenantId, artifacts }).persistState
  | delete (id : String) :
      Effect svc (.delete id)
        (ReviewService.persistState { svc with reviews := svc.reviews.erase id })
  | update {id : String} {op : RecordOp} {record record' : ReviewRecord} :
      svc.reviews.get? id = some record → Moves record op record'.state →
      Effect svc (.update id op) (svc.putRecord id record').persistState
  | restart : Effect svc .restart svc.loadState

theorem getReview_run (id : String) (svc : ReviewService) :
    (getReview id).run svc =
      match svc.reviews.get? id with
      | none => .error (.notFound ("Review not found: " ++ id)) svc
      | some record => .ok record svc := by
  simp only [getReview, run_bind, run_get]
  cases svc.reviews.get? id <;> rfl

theorem step_spec (op : ReviewOp) (svc : ReviewService) :
    match (step op).run svc with
    | .ok _ svc' => Effect svc op svc'
    | .error _ svc' => svc' = svc := by
  cases op with
  | create id taskId branch prNumber tenantId artifacts => exact .create ..
  | delete id =>
    simp only [step, delete, run_bind, run_get, ite_not]
    by_cases h : id ∈ svc.reviews.keys
    · simp only [if_pos h]
      exact .delete id
    · simp only [if_neg h]
      rfl
  | update id op =>
    simp only [step, update, run_bind, getReview_run]
    cases hget : svc.reviews.get? id with
    | none => rfl
    | some record =>
      have hbody := body_spec op record
      cases hrun : op.body.run record with
      | ok _ record' =>
        rw [hrun] at hbody
        simp only [hrun]
        exact .update hget hbody
      | error e record' =>
        rw [hrun] at hbody
        obtain rfl : record' = record := hbody
        simp only [hrun]
        exact congrArg (fun d => { svc with reviews := d }) (Dict.set_eq_self hget)
  | restart => exact .restart

open ReviewService

theorem Gated.step (h : Gated r) (heff : Effect r.state op svc') :
    Gated ⟨svc', r.events ++ [⟨r.state, op, svc'⟩]⟩ := by
  cases heff with
  | create id taskId branch prNumber tenantId artifacts =>
    refine ⟨fun rid record hget => ?_, fun records hrec => ?_⟩
    · rw [persistState, putRecord, Dict.get?_set] at hget
      split_ifs at hget with heq
      · obtain rfl := some.inj hget
        trivial
      · exact (h.stage rid record hget).concat rfl
    · obtain ⟨_, _, rfl⟩ := Option.map_eq_some_iff.mp hrec
      rfl
  | delete id =>
    refine ⟨fun rid record hget => ?_, fun records hrec => ?_⟩
    · rw [persistState, Dict.get?_erase] at hget
      split_ifs at hget with heq
      exact (h.stage rid record hget).concat rfl
    · obtain ⟨_, _, rfl⟩ := Option.map_eq_some_iff.mp hrec
      rfl
  | @update id op record record' hold hmove =>
    refine ⟨fun rid rec hget => ?_, fun records hrec => ?_⟩
    · rw [persistState, putRecord, Dict.get?_set] at hget
      split_ifs at hget with heq
      · subst heq
        obtain rfl := some.inj hget
        exact stageMet_of_moves hold (h.stage rid record hold) hmove
      · refine (h.stage rid rec hget).concat ?_
        cases op <;> simp [startsRound, Ne.symm heq]
    · obtain ⟨_, _, rfl⟩ := Option.map_eq_some_iff.mp hrec
      rfl
  | restart =>
    refine ⟨fun rid record hget => ?_, fun records hrec => ?_⟩
    · have hstage : r.state.reviews.get? rid = some record := by
        rw [loadState] at hget
        cases hstore : r.state.stateStore with
        | none => simp [hstore] at hget
        | some records =>
          rw [hstore, Option.getD_some, h.stored records hstore] at hget
          exact hget
      exact (h.stage rid record hstage).concat rfl
    · rw [loadState] at hrec ⊢
      dsimp only at hrec ⊢
      rw [hrec, Option.getD_some]

def ReviewService.init (durable : Bool) : ReviewService :=
  { stateStore := if durable then some Dict.empty else none }

theorem gated_run (durable : Bool) (ops : List ReviewOp) :
    Gated (History.run step (.init durable) ops) := by
  refine History.run_induction step (P := Gated) ⟨?_, ?_⟩ ?_ ?_ ops
  · intro rid record hget
    simp [init] at hget
  · intro records hrec
    cases durable with
    | false => simp [init] at hrec
    | true => exact (some.inj hrec).symm
  · intro r op _ svc' hr hrun
    have := step_spec op r.state
    rw [hrun] at this
    exact hr.step this
  · intro r op _ svc' hr hrun
    have := step_spec op r.state
    rw [hrun] at this
    obtain rfl : svc' = r.state := this
    exact hr

/-- A record is merged only in a round that passed the gate, over every sequence
of operations and restarts. -/
theorem merged_passedGate (durable : Bool) (ops : List ReviewOp) (rid : String)
    (record : ReviewRecord)
    (hget : (History.run step (.init durable) ops).state.reviews.get? rid = some record)
    (hmerged : record.state = .merged) :
    PassedGate rid (History.run step (.init durable) ops).events := by
  have := (gated_run durable ops).stage rid record hget
  rwa [hmerged] at this

def escalatedReview : List ReviewOp :=
  [.create "rev-1" "T-400" "feat/auth" none "" [], .update "rev-1" (.assessRisk [.codeIsolated]),
    .update "rev-1" .markReady, .update "rev-1" .assignL1,
    .update "rev-1" (.submitL1 .escalated none [] ""), .update "rev-1" .assignL2,
    .update "rev-1" (.submitL2 .approved none [] ""), .update "rev-1" (.approve "admin-1" []),
    .update "rev-1" .merge]

theorem merged_passedGate_escalatedReview :
    PassedGate "rev-1" (History.run step (.init true) escalatedReview).events :=
  merged_passedGate true escalatedReview "rev-1" _ rfl rfl

def SignedOff (rid : String) (e : History.Event ReviewService ReviewOp) : Prop :=
  (∃ approverId conditions, e.op = .update rid (.approve approverId conditions)) ∨
    ∃ approverId decision rationale summary conditions intake, e.op =
      .update rid (.approveWithRationale approverId decision rationale summary conditions intake)

def StrictGate (rid : String) (record : ReviewRecord)
    (events : List (History.Event ReviewService ReviewOp)) : Prop :=
  (∃ e ∈ round rid events, SubmittedL1 rid .approved e) ∧
    (record.riskAssessment.l2Required = true →
      ∃ e ∈ round rid events, SubmittedL2 rid .approved e) ∧
    ∃ e ∈ round rid events, SignedOff rid e

theorem escalatedReview_round :
    (round "rev-1" (History.run step (.init true) escalatedReview).events).map
        (fun e => match e.op with
          | .update _ (.submitL1 decision _ _ _) => some decision
          | _ => none) =
      [none, some .escalated, none, none, none, none] := rfl

/-- An escalated round is merged although its first layer never approved. -/
theorem merged_not_strictGate :
    ¬ ∀ (durable : Bool) (ops : List ReviewOp) (rid : String) (record : ReviewRecord),
      (History.run step (.init durable) ops).state.reviews.get? rid = some record →
        record.state = .merged →
          StrictGate rid record (History.run step (.init durable) ops).events := by
  intro h
  obtain ⟨⟨e, he, checklist, issues, comments, hop⟩, _⟩ :=
    h true escalatedReview "rev-1" _ rfl rfl
  have hmem := List.mem_map_of_mem (f := fun e => match e.op with
    | .update _ (.submitL1 decision _ _ _) => some decision
    | _ => none) he
  rw [escalatedReview_round, hop] at hmem
  simp at hmem

end Agent33.Review
