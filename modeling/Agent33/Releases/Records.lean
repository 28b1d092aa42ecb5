import Agent33.Library.Codec
import Agent33.Releases.Service
import Agent33.Services.OrchestrationState

/-!
# The records of the release service

Releases, sync rules with their executions, and rollbacks, as they are dumped to the
namespace of the service and restored from it one by one.
-/

namespace Agent33.Releases

open Library JsonText Codec

structure DatedRelease extends Release where
  createdAt : ℤ
  tenantId : Option String := none

inductive SyncStrategy
  | copy
  | template
  | reference
  deriving DecidableEq

def SyncStrategy.value : SyncStrategy → String
  | .copy => "copy"
  | .template => "template"
  | .reference => "reference"

inductive SyncFrequency
  | onRelease
  | onChange
  | manual
  deriving DecidableEq

def SyncFrequency.value : SyncFrequency → String
  | .onRelease => "on_release"
  | .onChange => "on_change"
  | .manual => "manual"

inductive SyncStatus
  | pending
  | dryRun
  | running
  | completed
  | failed
  deriving DecidableEq

def SyncStatus.value : SyncStatus → String
  | .pending => "pending"
  | .dryRun => "dry_run"
  | .running => "running"
  | .completed => "completed"
  | .failed => "failed"

inductive RollbackType
  | immediate
  | planned
  | partly
  | config
  deriving DecidableEq

def RollbackType.value : RollbackType → String
  | .immediate => "immediate"
  | .planned => "planned"
  | .partly => "partial"
  | .config => "config"

inductive RollbackStatus
  | pending
  | inProgress
  | completed
  | failed
  deriving DecidableEq

def RollbackStatus.value : RollbackStatus → String
  | .pending => "pending"
  | .inProgress => "in_progress"
  | .completed => "completed"
  | .failed => "failed"

def ReleaseType.value : ReleaseType → String
  | .patch => "patch"
  | .minor => "minor"
  | .major => "major"

structure SyncRule where
  ruleId : String
  sourcePattern : Text := "core/**/*.md".toList
  targetRepo : String := ""
  targetPath : Text := []
  strategy : SyncStrategy := .copy
  frequency : SyncFrequency := .onRelease
  includePatterns : List Text := []
  excludePatterns : List Text := []
  validateChecksum : Bool := true
  validateSchema : Bool := true

structure SyncFileResult where
  sourcePath : Text
  targetPath : Text
  action : String := ""
  checksumValid : Bool := true

structure SyncExecution where
  executionId : String
  ruleId : String := ""
  releaseVersion : String := ""
  status : SyncStatus := .pending
  dryRun : Bool := true
  startedAt : ℤ
  completedAt : Option ℤ := none
  filesAdded : ℤ := 0
  filesModified : ℤ := 0
  filesRemoved : ℤ := 0
  fileResults : List SyncFileResult := []
  errors : List String := []

structure RollbackRecord where
  rollbackId : String
  releaseId : String := ""
  rollbackType : RollbackType := .planned
  status : RollbackStatus := .pending
  reason : String := ""
  initiatedBy : String := ""
  approvedBy : String := ""
  targetVersion : String := ""
  createdAt : ℤ
  completedAt : Option ℤ := none
  stepsCompleted : List String := []
  errors : List String := []

def releaseType : Codec ReleaseType :=
  enum [.patch, .minor, .major] ReleaseType.value fun a => by cases a <;> decide

def releaseStatus : Codec ReleaseStatus :=
  enum [.planned, .frozen, .rc, .validating, .released, .failed, .rolledBack]
    ReleaseStatus.value fun a => by cases a <;> decide

def checkStatus : Codec CheckStatus :=
  enum [.pending, .pass, .fail, .skipped, .na] CheckStatus.value fun a => by cases a <;> decide

def syncStrategy : Codec SyncStrategy :=
  enum [.copy, .template, .reference] SyncStrategy.value fun a => by cases a <;> decide

def syncFrequency : Codec SyncFrequency :=
  enum [.onRelease, .onChange, .manual] SyncFrequency.value fun a => by cases a <;> decide

def syncStatus : Codec SyncStatus :=
  enum [.pending, .dryRun, .running, .completed, .failed]
    SyncStatus.value fun a => by cases a <;> decide

def rollbackType : Codec RollbackType :=
  enum [.immediate, .planned, .partly, .config]
    RollbackType.value fun a => by cases a <;> decide

def rollbackStatus : Codec RollbackStatus :=
  enum [.pending, .inProgress, .completed, .failed]
    RollbackStatus.value fun a => by cases a <;> decide

def releaseCheck : Model ReleaseCheck where
  slots := [⟨"check_id", string, ReleaseCheck.checkId⟩, ⟨"name", string, ReleaseCheck.name⟩,
    ⟨"status", checkStatus, ReleaseCheck.status⟩, ⟨"message", string, ReleaseCheck.message⟩,
    ⟨"required", bool, ReleaseCheck.required⟩]
  validate fields := do
    let checkId ← string.field fields "check_id"
    let name ← string.field fields "name"
    let status ← checkStatus.fieldD fields "status" .pending
    let message ← string.fieldD fields "message" ""
    let required ← bool.fieldD fields "required" true
    return { checkId, name, status, message, required }

def releaseEvidence : Model ReleaseEvidence where
  slots := [⟨"gate_passed", bool, ReleaseEvidence.gatePassed⟩,
    ⟨"checklist", releaseCheck.codec.list, ReleaseEvidence.checklist⟩]
  validate fields := do
    let gatePassed ← bool.fieldD fields "gate_passed" false
    let checklist ← releaseCheck.codec.list.fieldD fields "checklist" []
    return { gatePassed, checklist }

def syncRule : Model SyncRule where
  slots := [⟨"rule_id", string, SyncRule.ruleId⟩,
    ⟨"source_pattern", text, SyncRule.sourcePattern⟩,
    ⟨"target_repo", string, SyncRule.targetRepo⟩, ⟨"target_path", text, SyncRule.targetPath⟩,
    ⟨"strategy", syncStrategy, SyncRule.strategy⟩,
    ⟨"frequency", syncFrequency, SyncRule.frequency⟩,
    ⟨"include_patterns", text.list, SyncRule.includePatterns⟩,
    ⟨"exclude_patterns", text.list, SyncRule.excludePatterns⟩,
    ⟨"validate_checksum", bool, SyncRule.validateChecksum⟩,
    ⟨"validate_schema", bool, SyncRule.validateSchema⟩]
  validate fields := do
    let ruleId ← string.field fields "rule_id"
    let sourcePattern ← text.fieldD fields "source_pattern" "core/**/*.md".toList
    let targetRepo ← string.fieldD fields "target_repo" ""
    let targetPath ← text.fieldD fields "target_path" []
    let strategy ← syncStrategy.fieldD fields "strategy" .copy
    let frequency ← syncFrequency.fieldD fields "frequency" .onRelease
    let includePatterns ← text.list.fieldD fields "include_patterns" []
    let excludePatterns ← text.list.fieldD fields "exclude_patterns" []
    let validateChecksum ← bool.fieldD fields "validate_checksum" true
    let validateSchema ← bool.fieldD fields "validate_schema" true
    return { ruleId, sourcePattern, targetRepo, targetPath, strategy, frequency,
             includePatterns, excludePatterns, validateChecksum, validateSchema }

def syncFileResult : Model SyncFileResult where
  slots := [⟨"source_path", text, SyncFileResult.sourcePath⟩,
    ⟨"target_path", text, SyncFileResult.targetPath⟩,
    ⟨"action", string, SyncFileResult.action⟩,
    ⟨"checksum_valid", bool, SyncFileResult.checksumValid⟩]
  validate fields := do
    let sourcePath ← text.field fields "source_path"
    let targetPath ← text.field fields "target_path"
    let action ← string.fieldD fields "action" ""
    let checksumValid ← bool.fieldD fields "checksum_valid" true
    return { sourcePath, targetPath, action, checksumValid }

section

variable (timestamps : Timestamps)

def datedRelease : Model DatedRelease where
  slots := [⟨"release_id", string, fun r => r.releaseId⟩, ⟨"version", string, fun r => r.version⟩,
    ⟨"release_type", releaseType, fun r => r.releaseType⟩,
    ⟨"status", releaseStatus, fun r => r.status⟩,
    ⟨"created_at", time timestamps, DatedRelease.createdAt⟩,
    ⟨"released_at", (time timestamps).optional rfl, fun r => r.releasedAt⟩,
    ⟨"released_by", string, fun r => r.releasedBy⟩,
    ⟨"evidence", releaseEvidence.codec, fun r => r.evidence⟩,
    ⟨"description", string, fun r => r.description⟩,
    ⟨"rc_version", string, fun r => r.rcVersion⟩,
    ⟨"tenant_id", string.optional rfl, DatedRelease.tenantId⟩]
  validate fields := do
    let releaseId ← string.field fields "release_id"
    let version ← string.field fields "version"
    let type ← releaseType.fieldD fields "release_type" .minor
    let status ← releaseStatus.fieldD fields "status" .planned
    let createdAt ← (time timestamps).field fields "created_at"
    let releasedAt ← ((time timestamps).optional rfl).fieldD fields "released_at" none
    let releasedBy ← string.fieldD fields "released_by" ""
    let evidence ← releaseEvidence.codec.fieldD fields "evidence" {}
    let description ← string.fieldD fields "description" ""
    let rcVersion ← string.fieldD fields "rc_version" ""
    let tenantId ← (string.optional rfl).fieldD fields "tenant_id" none
    return { releaseId, version, releaseType := type, status, createdAt, releasedAt, releasedBy,
             evidence, description, rcVersion, tenantId }

def syncExecution : Model SyncExecution where
  slots := [⟨"execution_id", string, SyncExecution.executionId⟩,
    ⟨"rule_id", string, SyncExecution.ruleId⟩,
    ⟨"release_version", string, SyncExecution.releaseVersion⟩,
    ⟨"status", syncStatus, SyncExecution.status⟩, ⟨"dry_run", bool, SyncExecution.dryRun⟩,
    ⟨"started_at", time timestamps, SyncExecution.startedAt⟩,
    ⟨"completed_at", (time timestamps).optional rfl, SyncExecution.completedAt⟩,
    ⟨"files_added", int, SyncExecution.filesAdded⟩,
    ⟨"files_modified", int, SyncExecution.filesModified⟩,
    ⟨"files_removed", int, SyncExecution.filesRemoved⟩,
    ⟨"file_results", syncFileResult.codec.list, SyncExecution.fileResults⟩,
    ⟨"errors", string.list, SyncExecution.errors⟩]
  validate fields := do
    let executionId ← string.field fields "execution_id"
    let ruleId ← string.fieldD fields "rule_id" ""
    let releaseVersion ← string.fieldD fields "release_version" ""
    let status ← syncStatus.fieldD fields "status" .pending
    let dryRun ← bool.fieldD fields "dry_run" true
    let startedAt ← (time timestamps).field fields "started_at"
    let completedAt ← ((time timestamps).optional rfl).fieldD fields "completed_at" none
    let filesAdded ← int.fieldD fields "files_added" 0
    let filesModified ← int.fieldD fields "files_modified" 0
    let filesRemoved ← int.fieldD fields "files_removed" 0
    let fileResults ← syncFileResult.codec.list.fieldD fields "file_results" []
    let errors ← string.list.fieldD fields "errors" []
    return { executionId, ruleId, releaseVersion, status, dryRun, startedAt, completedAt,
             filesAdded, filesModified, filesRemoved, fileResults, errors }

def rollbackRecord : Model RollbackRecord where
  slots := [⟨"rollback_id", string, RollbackRecord.rollbackId⟩,
    ⟨"release_id", string, RollbackRecord.releaseId⟩,
    ⟨"rollback_type", rollbackType, RollbackRecord.rollbackType⟩,
    ⟨"status", rollbackStatus, RollbackRecord.status⟩,
    ⟨"reason", string, RollbackRecord.reason⟩,
    ⟨"initiated_by", string, RollbackRecord.initiatedBy⟩,
    ⟨"approved_by", string, RollbackRecord.approvedBy⟩,
    ⟨"target_version", string, RollbackRecord.targetVersion⟩,
    ⟨"created_at", time timestamps, RollbackRecord.createdAt⟩,
    ⟨"completed_at", (time timestamps).optional rfl, RollbackRecord.completedAt⟩,
    ⟨"steps_completed", string.list, RollbackRecord.stepsCompleted⟩,
    ⟨"errors", string.list, RollbackRecord.errors⟩]
  validate fields := do
    let rollbackId ← string.field fields "rollback_id"
    let releaseId ← string.fieldD fields "release_id" ""
    let type ← rollbackType.fieldD fields "rollback_type" .planned
    let status ← rollbackStatus.fieldD fields "status" .pending
    let reason ← string.fieldD fields "reason" ""
    let initiatedBy ← string.fieldD fields "initiated_by" ""
    let approvedBy ← string.fieldD fields "approved_by" ""
    let targetVersion ← string.fieldD fields "target_version" ""
    let createdAt ← (time timestamps).field fields "created_at"
    let completedAt ← ((time timestamps).optional rfl).fieldD fields "completed_at" none
    let stepsCompleted ← string.list.fieldD fields "steps_completed" []
    let errors ← string.list.fieldD fields "errors" []
    return { rollbackId, releaseId, rollbackType := type, status, reason, initiatedBy,
             approvedBy, targetVersion, createdAt, completedAt, stepsCompleted, errors }

end

end Agent33.Releases
