import Agent33.Library.Python
import Agent33.Skills.Registry
import Mathlib.Data.List.Sort

/-!
# Candidate assets

Assets from outside go from candidate to validated to published, and to revoked from
each of these. An asset of the type skill defines one by its metadata or by its
source. Times are numbers, ids come from a source that never repeats one.
-/

namespace Agent33.Ingestion

open Library
open Skills (SkillDefinition)

inductive CandidateStatus
  | candidate
  | validated
  | published
  | revoked
  deriving DecidableEq

def CandidateStatus.value : CandidateStatus → String
  | .candidate => "candidate"
  | .validated => "validated"
  | .published => "published"
  | .revoked => "revoked"

def CandidateStatus.all : List CandidateStatus := [.candidate, .validated, .published, .revoked]

inductive ConfidenceLevel
  | high
  | medium
  | low
  deriving DecidableEq

def ConfidenceLevel.value : ConfidenceLevel → String
  | .high => "high"
  | .medium => "medium"
  | .low => "low"

def ConfidenceLevel.ofValue? (value : String) : Option ConfidenceLevel :=
  [high, medium, low].find? fun level => level.value = value

abbrev Metadata := Dict String Json

abbrev AssetName := { name : String // 1 ≤ name.length ∧ name.length ≤ 128 }

structure CandidateAsset where
  id : ℕ
  name : AssetName
  assetType : String
  status : CandidateStatus
  confidence : ConfidenceLevel
  sourceUri : Option String := none
  tenantId : String
  createdAt : ℕ
  updatedAt : ℕ
  validatedAt : Option ℕ := none
  publishedAt : Option ℕ := none
  revokedAt : Option ℕ := none
  revocationReason : Option String := none
  metadata : Metadata := Dict.empty

/-- Whether the metadata have `True` itself under the key. -/
def CandidateAsset.flag (asset : CandidateAsset) (key : String) : Bool :=
  asset.metadata.get? key = some (.bool true)

def validTransitions : CandidateStatus → List CandidateStatus
  | .candidate => [.validated, .revoked]
  | .validated => [.published, .revoked]
  | .published => [.revoked]
  | .revoked => []

theorem not_mem_validTransitions_self (status : CandidateStatus) :
    status ∉ validTransitions status := by
  cases status <;> decide

theorem eq_validated_of_published
    (h : .published ∈ validTransitions status) : status = .validated := by
  cases status <;> simp_all [validTransitions]

def CandidateAsset.moved (asset : CandidateAsset) (target : CandidateStatus)
    (reason : Option String) (now : ℕ) : CandidateAsset :=
  { asset with
    status := target
    updatedAt := now
    validatedAt := if target = .validated then some now else asset.validatedAt
    publishedAt := if target = .published then some now else asset.publishedAt
    revokedAt := if target = .revoked then some now else asset.revokedAt
    revocationReason := if target = .revoked then reason.or asset.revocationReason
      else asset.revocationReason }

def CandidateAsset.patched (asset : CandidateAsset) (updates : Metadata) (now : ℕ) :
    CandidateAsset :=
  { asset with metadata := asset.metadata.update updates, updatedAt := now }

structure JournalEntry where
  assetId : ℕ
  tenantId : String
  fromStatus : CandidateStatus
  toStatus : CandidateStatus
  eventType : String
  operator : String
  reason : String
  details : Json
  occurredAt : ℕ

inductive LoadError
  | value
  | other

/-- The validation of a definition, the front matter and body of a Markdown text, YAML, and
what stands at a source. -/
structure SkillLoader where
  modelValidate : Json → Except LoadError SkillDefinition
  parseFrontmatter : String → Except LoadError (List (String × Json) × String)
  safeLoad : String → Except LoadError Json
  fromSourceUri : String → Except LoadError (Option SkillDefinition)

def noSkills : SkillLoader where
  modelValidate _ := .error .value
  parseFrontmatter _ := .error .value
  safeLoad _ := .error .value
  fromSourceUri _ := .ok none

variable (loader : SkillLoader)

/-- `metadata.get(key)`, without the nulls. -/
def Metadata.given (metadata : Metadata) (key : String) : Option Json :=
  (metadata.get? key).filter fun value => value ≠ .null

def textOf : Json → Except LoadError String
  | .str text => if text.toList.all Text.isSpace then .error .value else .ok text
  | _ => .error .value

def skillOfMarkdown (raw : Json) : Except LoadError SkillDefinition := do
  let text ← textOf raw
  let (frontmatter, body) ← loader.parseFrontmatter text
  loader.modelValidate (.obj ((Dict.ofList frontmatter).set "instructions" (.str body)).entries)

def skillOfYaml (raw : Json) : Except LoadError SkillDefinition := do
  if raw.isObj then
    loader.modelValidate raw
  else
    let parsed ← loader.safeLoad (← textOf raw)
    if parsed.isObj then loader.modelValidate parsed else .error .value

/-- `_load_inline_skill_definition`. -/
def loadInline (metadata : Metadata) : Except LoadError (Option SkillDefinition) :=
  match metadata.given "skill_definition" with
  | some raw => if raw.isObj then some <$> loader.modelValidate raw else .error .value
  | none =>
    match (metadata.given "skill_markdown").or (metadata.given "skill_md") with
    | some raw => some <$> skillOfMarkdown loader raw
    | none =>
      match metadata.given "skill_yaml" with
      | some raw => some <$> skillOfYaml loader raw
      | none => .ok none

def provenanceOf (asset : CandidateAsset) : String :=
  match asset.sourceUri with
  | none | some "" => "ingestion:" ++ toString asset.id
  | some uri => uri

def CandidateAsset.complete (asset : CandidateAsset) (skill : SkillDefinition) : SkillDefinition :=
  { skill with
    provenance := if skill.provenance = "" then provenanceOf asset else skill.provenance
    category := match asset.metadata.get? "skill_category" with
      | some (.str category) => if skill.category = "" then category else skill.category
      | _ => skill.category }

/-- `skill_definition_from_candidate_asset`. -/
def skillDefinition (asset : CandidateAsset) : Except LoadError (Option SkillDefinition) :=
  if asset.assetType ≠ "skill" then
    .ok none
  else do
    match ← loadInline loader asset.metadata with
    | some skill => return some (asset.complete skill)
    | none =>
      match asset.sourceUri with
      | none => return none
      | some uri => return (← loader.fromSourceUri uri).map asset.complete

def CandidateAsset.definition? (asset : CandidateAsset) : Option SkillDefinition :=
  match skillDefinition loader asset with
  | .ok skill => skill
  | .error _ => none

end Agent33.Ingestion

/-!
## The ingestion service

The operations on candidate assets, the pipeline that submits assets by their
confidence, and a restart of the process. Memory is written first, then the database,
the journal and the hooks that are notified, and each of these may raise.
-/

namespace Agent33.Ingestion

open Library
open Skills (SkillDefinition SkillRegistry Directories)

inductive IngestionError
  | keyError (key : String)
  | transition (current target : CandidateStatus)
  | validation
  | value
  | storage
  | journal
  | notification
  | definition
  | lineage

/-- The text of a `CandidateTransitionError`. -/
def transitionMessage (current target : CandidateStatus) : String :=
  "Cannot transition from '" ++ current.value ++ "' to '" ++ target.value ++
    "': transition is not permitted by the candidate lifecycle."

/-- A write to a database: done, left out because the connection is closed, or one that
raises. -/
inductive SaveOutcome
  | written
  | skipped
  | raises
  deriving DecidableEq

structure Journal where
  entries : List JournalEntry := []
  rows : List JournalEntry := []

/-- The service with what it is given: database, journal and registry when there are any, and
what the clock, the next writes and the next notifications come to. -/
structure IngestionService where
  store : Dict ℕ CandidateAsset := Dict.empty
  persistence : Option (Dict ℕ CandidateAsset) := none
  journal : Option Journal := none
  skillRegistry : Option SkillRegistry := none
  nextId : ℕ := 0
  times : List ℕ := []
  saves : List SaveOutcome := []
  journalWrites : List SaveOutcome := []
  notificationFaults : List Bool := []

def IngestionService.opened (service : IngestionService) : IngestionService :=
  { service with
    store := Dict.empty
    persistence := service.persistence.map fun _ => Dict.empty
    journal := service.journal.map fun _ => {} }

abbrev IngestionM := EStateM IngestionError IngestionService

def now : IngestionM ℕ := do
  let service ← get
  set { service with times := service.times.tail }
  return service.times.headD 0

def newId : IngestionM ℕ := do
  let service ← get
  set { service with nextId := service.nextId + 1 }
  return service.nextId

def put (assetId : ℕ) (asset : CandidateAsset) : IngestionM Unit :=
  modify fun service => { service with store := service.store.set assetId asset }

/-- `INSERT OR REPLACE`: the new row is the last one. -/
def upsert (rows : Dict ℕ CandidateAsset) (asset : CandidateAsset) : Dict ℕ CandidateAsset :=
  (rows.erase asset.id).set asset.id asset

def save (asset : CandidateAsset) : IngestionM Unit := do
  let service ← get
  match service.persistence with
  | none => pure ()
  | some rows =>
    match service.saves.headD .written with
    | .written =>
      set { service with persistence := some (upsert rows asset), saves := service.saves.tail }
    | .skipped => set { service with saves := service.saves.tail }
    | .raises =>
      set { service with saves := service.saves.tail }
      throw .storage

def record (asset : CandidateAsset) (fromStatus : CandidateStatus) (operator reason : String)
    (eventType : String := "transition") (details : Json := .obj []) : IngestionM Unit := do
  match (← get).journal with
  | none => pure ()
  | some journal =>
    let occurredAt ← now
    let service ← get
    let entry : JournalEntry :=
      { assetId := asset.id, tenantId := asset.tenantId, fromStatus, toStatus := asset.status
        eventType, operator, reason, details, occurredAt }
    let entries := journal.entries ++ [entry]
    match service.journalWrites.headD .written with
    | .written =>
      set { service with
        journal := some { entries, rows := journal.rows ++ [entry] }
        journalWrites := service.journalWrites.tail }
    | .skipped =>
      set { service with
        journal := some { journal with entries }
        journalWrites := service.journalWrites.tail }
    | .raises =>
      set { service with journalWrites := service.journalWrites.tail }
      throw .journal

def recordEvent (asset : CandidateAsset) (eventType operator reason : String)
    (details : Json := .obj []) : IngestionM Unit :=
  record asset asset.status operator reason eventType details

def emit : IngestionM Unit := do
  let service ← get
  set { service with notificationFaults := service.notificationFaults.tail }
  if service.notificationFaults.headD false then throw .notification else pure ()

def announce (asset : CandidateAsset) (key eventType reason : String) (prior : Bool) :
    IngestionM Unit := do
  if prior = false ∧ asset.flag key = true then
    recordEvent asset eventType "intake_pipeline" reason (.obj [(key, .bool true)])
    emit
  else pure ()

def announceFlags (asset : CandidateAsset) (priorReviewRequired priorQuarantine : Bool) :
    IngestionM Unit := do
  announce asset "review_required" "review_required"
    "Asset requires operator review before promotion." priorReviewRequired
  announce asset "quarantine" "quarantined" "Asset was quarantined for manual inspection."
    priorQuarantine

def ingest (name assetType : String) (sourceUri : Option String) (tenantId : String)
    (confidence : ConfidenceLevel) (metadata : Metadata) : IngestionM CandidateAsset := do
  let time ← now
  let id ← newId
  if h : 1 ≤ name.length ∧ name.length ≤ 128 then
    let asset : CandidateAsset :=
      { id, name := ⟨name, h⟩, assetType, status := .candidate, confidence, sourceUri, tenantId
        createdAt := time, updatedAt := time, metadata }
    put id asset
    save asset
    recordEvent asset "ingested" "system" "Asset entered the ingestion lifecycle."
      (.obj [("asset_type", .str assetType), ("confidence", .str confidence.value),
        ("source_uri", sourceUri.elim .null .str)])
    announceFlags asset false false
    return asset
  else throw .validation

def require (assetId : ℕ) : IngestionM CandidateAsset := do
  match (← get).store.get? assetId with
  | none => throw (.keyError (toString assetId))
  | some asset => return asset

/-- `CandidateStateMachine.transition`. -/
def transition (asset : CandidateAsset) (target : CandidateStatus) (reason : Option String) :
    IngestionM CandidateAsset := do
  if target ∈ validTransitions asset.status then
    return asset.moved target reason (← now)
  else throw (.transition asset.status target)

/-- `operator or "system"`. -/
def operatorOr (operator : Option String) : String :=
  match operator with
  | none | some "" => "system"
  | some operator => operator

def advance (assetId : ℕ) (target : CandidateStatus) (operator : Option String) (reason : String)
    (revocationReason : Option String) : IngestionM CandidateAsset := do
  let asset ← require assetId
  let updated ← transition asset target revocationReason
  put assetId updated
  save updated
  record updated asset.status (operatorOr operator) reason
  return updated

def validate (assetId : ℕ) (operator : Option String) (reason : String) :
    IngestionM CandidateAsset :=
  advance assetId .validated operator reason none

def registerSkill (skill : SkillDefinition) : IngestionM Unit := do
  let service ← get
  match service.skillRegistry with
  | none => pure ()
  | some registry =>
    match (Skills.register skill).run registry with
    | .ok _ registry => set { service with skillRegistry := some registry }
    | .error _ registry =>
      set { service with skillRegistry := some registry }
      throw .lineage

variable (loader : SkillLoader)

/-- `_register_published_skill`. -/
def registerPublishedSkill (asset : CandidateAsset) : IngestionM Unit :=
  match skillDefinition loader asset with
  | .ok (some skill) => registerSkill skill
  | .ok none => pure ()
  | .error .value => pure ()
  | .error .other => do
    if (← get).skillRegistry.isSome then throw .definition else pure ()

def promote (assetId : ℕ) (operator : Option String) (reason : String) :
    IngestionM CandidateAsset := do
  let updated ← advance assetId .published operator reason none
  registerPublishedSkill loader updated
  return updated

def revoke (assetId : ℕ) (reason : String) (operator : Option String) : IngestionM CandidateAsset :=
  advance assetId .revoked operator reason (some reason)

def patchMetadata (assetId : ℕ) (updates : Metadata) : IngestionM CandidateAsset := do
  let asset ← require assetId
  let updated := asset.patched updates (← now)
  put assetId updated
  save updated
  announceFlags updated (asset.flag "review_required") (asset.flag "quarantine")
  return updated

def cleared : Metadata :=
  Dict.ofList [("review_required", .bool false), ("quarantine", .bool false)]

def approve (assetId : ℕ) (operator reason : String) : IngestionM CandidateAsset := do
  discard (validate assetId (some operator) reason)
  let asset ← patchMetadata assetId cleared
  recordEvent asset "approved" operator reason (.obj cleared.entries)
  emit
  return asset

def reject (assetId : ℕ) (operator reason : String) : IngestionM CandidateAsset := do
  let asset ← revoke assetId reason (some operator)
  recordEvent asset "rejected" operator reason
  emit
  return asset

inductive Op
  | ingest (name assetType : String) (sourceUri : Option String) (tenantId : String)
      (confidence : ConfidenceLevel) (metadata : Metadata)
  | validate (assetId : ℕ) (operator : Option String) (reason : String)
  | promote (assetId : ℕ) (operator : Option String) (reason : String)
  | revoke (assetId : ℕ) (reason : String) (operator : Option String)
  | patchMetadata (assetId : ℕ) (updates : Metadata)
  | approve (assetId : ℕ) (operator reason : String)
  | reject (assetId : ℕ) (operator reason : String)

def Op.body : Op → IngestionM CandidateAsset
  | .ingest name assetType sourceUri tenantId confidence metadata =>
    Ingestion.ingest name assetType sourceUri tenantId confidence metadata
  | .validate assetId operator reason => Ingestion.validate assetId operator reason
  | .promote assetId operator reason => Ingestion.promote loader assetId operator reason
  | .revoke assetId reason operator => Ingestion.revoke assetId reason operator
  | .patchMetadata assetId updates => Ingestion.patchMetadata assetId updates
  | .approve assetId operator reason => Ingestion.approve assetId operator reason
  | .reject assetId operator reason => Ingestion.reject assetId operator reason

def loadByStatus (rows : Dict ℕ CandidateAsset) (status : CandidateStatus) : List CandidateAsset :=
  (rows.values.filter fun asset => asset.status = status).insertionSort
    fun asset other => asset.createdAt ≤ other.createdAt

def hydrate : List CandidateAsset → IngestionM Unit
  | [] => pure ()
  | asset :: assets => do
    put asset.id asset
    registerPublishedSkill loader asset
    hydrate assets

/-- `_hydrate_from_persistence`. -/
def hydrateFromPersistence : IngestionM Unit := do
  match (← get).persistence with
  | none => pure ()
  | some rows => hydrate loader (CandidateStatus.all.flatMap (loadByStatus rows))

def Journal.reopened (journal : Journal) : Journal where
  entries := journal.rows.insertionSort fun entry other => entry.occurredAt ≤ other.occurredAt
  rows := journal.rows

/-- A new process over the same databases, with a registry over the same store and
directories. -/
def restart (directories : Directories) (paths : List String) : IngestionM Unit := do
  modify fun service =>
    { service with
      store := Dict.empty
      journal := service.journal.map Journal.reopened
      skillRegistry := service.skillRegistry.map (·.fresh directories paths) }
  hydrateFromPersistence loader

end Agent33.Ingestion
