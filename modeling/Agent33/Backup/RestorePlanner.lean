import Agent33.Backup.Service

/-!
# Restoring a backup

A plan says for each asset of a verified archive what becomes of its target. The execution of a
plan stages one asset after another from the archive and puts each in the place of its target.
-/

namespace Agent33.Backup

open Library

inductive RestoreAction
  | create
  | overwrite
  | skip
  deriving DecidableEq

structure RestoreAssetPlan where
  relativePath : Text
  assetType : Text
  action : RestoreAction
  currentExists : Bool
  sizeBytes : ℕ

inductive ConflictType
  | versionMismatch
  | unmappedAsset
  | schemaChange
  | fileModified

inductive Resolution
  | review
  | skip
  | overwrite
  deriving DecidableEq

structure RestoreConflict where
  relativePath : Text
  conflictType : ConflictType
  message : Text
  resolution : Resolution

structure RestorePlan where
  backupId : Text
  backupVersion : Text
  assetsToRestore : List RestoreAssetPlan
  conflicts : List RestoreConflict
  estimatedDuration : Text

structure RestoreExecutionResult where
  backupId : Text
  restoredAssets : List RestoreAssetPlan
  skippedAssets : List RestoreAssetPlan
  conflicts : List RestoreConflict

inductive RestoreError
  | planning (message : Text)
  | verification (error : VerifyError)
  | manifest (message : Text)
  | os

namespace BackupService

variable (service : BackupService)

def estimateDuration (totalBytes : ℕ) : Text :=
  if totalBytes = 0 then "No restore actions needed".toList
  else if totalBytes < 1000000 then "Under 1 minute".toList
  else if totalBytes < 100000000 then "1-2 minutes".toList
  else "Several minutes".toList

def planAsset (live : Tree) (asset : BackupAsset) : RestoreAssetPlan × List RestoreConflict :=
  let plan (action : RestoreAction) (currentExists : Bool) : RestoreAssetPlan :=
    ⟨asset.relativePath, asset.assetType, action, currentExists, asset.sizeBytes⟩
  match service.resolveTargetPath asset.relativePath with
  | none =>
    (plan .skip false, [⟨asset.relativePath, .unmappedAsset,
      "No live target is mapped for this backup asset.".toList, .skip⟩])
  | some target =>
    if live.node target = none then (plan .create false, [])
    else if live.isDir target ≠ asset.isDirectory then
      (plan .overwrite true, [⟨asset.relativePath, .schemaChange,
        "Current filesystem entry type differs from the backup asset type.".toList, .overwrite⟩])
    else if computeChecksum service.sha256 (live.sub target) = asset.checksum then
      (plan .skip true, [])
    else
      (plan .overwrite true, [⟨asset.relativePath, .fileModified,
        "Current asset contents differ from the backup snapshot.".toList, .overwrite⟩])

def loadArchiveManifest (members : List TarInfo) : Except RestoreError BackupManifest :=
  match (topLevels members).map List.dedup with
  | some [archiveRoot] => (service.readManifest members archiveRoot).mapError .manifest
  | _ => .error (.manifest "Archive must contain exactly one top-level root".toList)

def versionConflicts (manifest : BackupManifest) : List RestoreConflict :=
  if manifest.runtimeVersion ≠ runtimeVersion then
    [⟨[], .versionMismatch, "Backup runtime version ".toList ++ manifest.runtimeVersion ++
      " differs from current runtime version ".toList ++ runtimeVersion, .review⟩]
  else []

def included (manifest : BackupManifest) : List BackupAsset :=
  manifest.assets.filter BackupAsset.included

def planManifest (live : Tree) (backupId : Text) (manifest : BackupManifest) : RestorePlan :=
  let plans := (included manifest).map (service.planAsset live)
  { backupId
    backupVersion := manifest.runtimeVersion
    assetsToRestore := plans.map Prod.fst
    conflicts := versionConflicts manifest ++ plans.flatMap Prod.snd
    estimatedDuration := estimateDuration (((plans.map Prod.fst).filter fun plan =>
      plan.action ≠ .skip).map RestoreAssetPlan.sizeBytes).sum }

def plan (live : Tree) (backupId : Text) (archive : ArchiveFile) :
    Except RestoreError RestorePlan :=
  match service.verify archive with
  | .error error => .error (.verification error)
  | .ok result =>
    if result.valid then
      match archive with
      | .tar members =>
        (service.loadArchiveManifest members).map (service.planManifest live backupId)
      | _ => .error .os
    else
      let failed := (result.checks.filter fun check => !check.passed).map VerifyCheck.message
      .error (.planning ("Backup verification failed before restore planning: ".toList ++
        [';', ' '].intercalate failed))

def stageMember (staged : Tree) (path : Parts) (payload : Payload) : Option Tree :=
  match payload with
  | .dir => staged.mkdirs path
  | .file content =>
    if path = [] then staged.writeFile path content
    else do
      let staged ← staged.mkdirs path.dropLast
      staged.writeFile path content
  | .other _ => some staged

/-- The members at a path and below it, without the manifest, each with its path below. -/
def membersBelow (members : List TarInfo) (sourcePrefix manifestPath : Parts) :
    List (Parts × Payload) :=
  members.filterMap fun member =>
    let normalized := partsOf member.name
    if normalized ≠ manifestPath ∧ sourcePrefix <+: normalized then
      some (normalized.drop sourcePrefix.length, member.payload)
    else none

def stageMembers : List (Parts × Payload) → Tree → Option Tree
  | [], staged => some staged
  | (path, payload) :: rest, staged => do
    let staged ← stageMember staged path payload
    stageMembers rest staged

def stageAsset (members : List TarInfo) (archiveRoot relativePath : Text) :
    Except RestoreError Tree :=
  match members.find? fun member => !isSafeArchiveMember member.name with
  | some member => .error (.planning ("Unsafe archive member path: ".toList ++ member.name))
  | none =>
    let matched := membersBelow members (archiveRoot :: partsOf relativePath)
      [archiveRoot, manifestFilename]
    if matched = [] then .error (.planning ("Archive asset missing: ".toList ++ relativePath))
    else
      match stageMembers matched DirTree.empty with
      | none => .error .os
      | some staged => .ok staged

/-- The old target is removed before the copy; the second component is what is on the disk in
the end, also when something is refused. -/
def replaceTarget (live staged : Tree) (target : Parts) (isDirectory : Bool) :
    Except RestoreError Unit × Tree :=
  match live.mkdirs target.dropLast with
  | none => (.error .os, live)
  | some live =>
    let live := live.remove target
    if staged.node [] = none ∨ staged.isDir [] ≠ isDirectory then (.error .os, live)
    else
      match copy live target staged with
      | none => (.error .os, live)
      | some live => (.ok (), live)

def restoreAsset (members : List TarInfo) (archiveRoot : Text) (live : Tree)
    (asset : BackupAsset) (target : Parts) : Except RestoreError Unit × Tree :=
  match stageAsset members archiveRoot asset.relativePath with
  | .error error => (.error error, live)
  | .ok staged => replaceTarget live staged target asset.isDirectory

def restoredBy (assets : List BackupAsset) (plan : RestoreAssetPlan) :
    Option (BackupAsset × Parts) :=
  if plan.action = .skip then none
  else
    (assets.reverse.find? fun asset => asset.relativePath = plan.relativePath).bind fun asset =>
      (service.resolveTargetPath asset.relativePath).map fun target => (asset, target)

/-- The assets of the plan one after another, with those that are restored and skipped. -/
def executePlan (members : List TarInfo) (archiveRoot : Text) (assets : List BackupAsset) :
    List RestoreAssetPlan → List RestoreAssetPlan → List RestoreAssetPlan → Tree →
      Except RestoreError (List RestoreAssetPlan × List RestoreAssetPlan) × Tree
  | [], restored, skipped, live => (.ok (restored, skipped), live)
  | plan :: rest, restored, skipped, live =>
    match service.restoredBy assets plan with
    | none => executePlan members archiveRoot assets rest restored (skipped ++ [plan]) live
    | some (asset, target) =>
      match restoreAsset members archiveRoot live asset target with
      | (.error error, live) => (.error error, live)
      | (.ok _, live) =>
        executePlan members archiveRoot assets rest (restored ++ [plan]) skipped live

def blockingConflicts (conflicts : List RestoreConflict) (allowOverwrite : Bool) :
    List RestoreConflict :=
  conflicts.filter fun conflict => conflict.resolution = .overwrite ∧ allowOverwrite = false

def execute (live : Tree) (backupId : Text) (archive : ArchiveFile) (confirm : Bool)
    (allowOverwrite : Bool) : Except RestoreError RestoreExecutionResult × Tree :=
  if confirm then
    match service.plan live backupId archive with
    | .error error => (.error error, live)
    | .ok plan =>
      let blocking := blockingConflicts plan.conflicts allowOverwrite
      if blocking ≠ [] then
        (.error (.planning ("Restore conflicts require allow_overwrite=true: ".toList ++
          [',', ' '].intercalate (blocking.map RestoreConflict.relativePath))), live)
      else
        match archive with
        | .tar members =>
          match service.loadArchiveManifest members, (topLevels members).map List.dedup with
          | .ok manifest, some [archiveRoot] =>
            match service.executePlan members archiveRoot (included manifest)
              plan.assetsToRestore [] [] live with
            | (.error error, live) => (.error error, live)
            | (.ok (restoredAssets, skippedAssets), live) =>
              (.ok ⟨backupId, restoredAssets, skippedAssets, plan.conflicts⟩, live)
          | .error error, _ => (.error error, live)
          | _, _ => (.error (.planning "Archive must contain exactly one top-level root".toList),
              live)
        | _ => (.error .os, live)
  else (.error (.planning "Restore execution requires confirm=true".toList), live)

end BackupService

end Agent33.Backup

/-!
## Restorations that fail

Any filesystem operation of a restoration may fail. Before the first replacement nothing has
changed; a replacement that fails has made some directories, or removed some of the target, or
copied some of the staged asset.
-/

namespace Agent33.Backup

open Library

def PartlyMade (live : Tree) (path : Parts) (made : Tree) : Prop :=
  ∀ q, made.node q = live.node q ∨
    live.node q = none ∧ q <+: path ∧ made.node q = some .dir

def PartlyRemoved (live : Tree) (target : Parts) (left : Tree) : Prop :=
  ∀ q, left.node q = live.node q ∨ target <+: q ∧ left.node q = none

/-- Some of a staged tree is at the target, of a file perhaps its first bytes alone. -/
def PartlyCopied (live staged : Tree) (target : Parts) (left : Tree) : Prop :=
  (∀ q, ¬ target <+: q → left.node q = live.node q) ∧
    ∀ path, left.node (target ++ path) = none ∨
      staged.node path = some .dir ∧ left.node (target ++ path) = some .dir ∨
        ∃ content written, staged.node path = some (.file content) ∧ written <+: content ∧
          left.node (target ++ path) = some (.file written)

inductive FailedReplacement (live staged : Tree) (target : Parts) (isDirectory : Bool) :
    Tree → Prop
  | parents {made : Tree} : PartlyMade live target.dropLast made →
      FailedReplacement live staged target isDirectory made
  | removal {made left : Tree} : live.mkdirs target.dropLast = some made →
      made.node target ≠ none → PartlyRemoved made target left →
      FailedReplacement live staged target isDirectory left
  | kind {made : Tree} : live.mkdirs target.dropLast = some made →
      staged.node [] = none ∨ staged.isDir [] ≠ isDirectory →
      FailedReplacement live staged target isDirectory (made.remove target)
  | copy {made left : Tree} : live.mkdirs target.dropLast = some made →
      staged.node [] ≠ none → staged.isDir [] = isDirectory →
      PartlyCopied (made.remove target) staged target left →
      FailedReplacement live staged target isDirectory left

namespace BackupService

variable (service : BackupService)

inductive PlanRuns (members : List TarInfo) (archiveRoot : Text) (assets : List BackupAsset) :
    List RestoreAssetPlan → Tree → Bool → Tree → Prop
  | done {live : Tree} : PlanRuns members archiveRoot assets [] live false live
  | skipped {plan : RestoreAssetPlan} {rest : List RestoreAssetPlan} {live live' : Tree}
      {raised : Bool} : service.restoredBy assets plan = none →
      PlanRuns members archiveRoot assets rest live raised live' →
      PlanRuns members archiveRoot assets (plan :: rest) live raised live'
  | unstaged {plan : RestoreAssetPlan} {rest : List RestoreAssetPlan} {live : Tree}
      {asset : BackupAsset} {target : Parts} :
      service.restoredBy assets plan = some (asset, target) →
      PlanRuns members archiveRoot assets (plan :: rest) live true live
  | failed {plan : RestoreAssetPlan} {rest : List RestoreAssetPlan} {live staged live' : Tree}
      {asset : BackupAsset} {target : Parts} :
      service.restoredBy assets plan = some (asset, target) →
      stageAsset members archiveRoot asset.relativePath = .ok staged →
      FailedReplacement live staged target asset.isDirectory live' →
      PlanRuns members archiveRoot assets (plan :: rest) live true live'
  | restored {plan : RestoreAssetPlan} {rest : List RestoreAssetPlan}
      {live staged replaced live' : Tree} {asset : BackupAsset} {target : Parts}
      {raised : Bool} :
      service.restoredBy assets plan = some (asset, target) →
      stageAsset members archiveRoot asset.relativePath = .ok staged →
      replaceTarget live staged target asset.isDirectory = (.ok (), replaced) →
      PlanRuns members archiveRoot assets rest replaced raised live' →
      PlanRuns members archiveRoot assets (plan :: rest) live raised live'

structure Starts (live : Tree) (backupId : Text) (archive : ArchiveFile)
    (confirm allowOverwrite : Bool) (members : List TarInfo) (archiveRoot : Text)
    (manifest : BackupManifest) (plan : RestorePlan) : Prop where
  confirmed : confirm = true
  planned : service.plan live backupId archive = .ok plan
  unblocked : blockingConflicts plan.conflicts allowOverwrite = []
  tar : archive = .tar members
  loaded : service.loadArchiveManifest members = .ok manifest
  root : (topLevels members).map List.dedup = some [archiveRoot]

/-- The executions of an archive: one that is refused, or in which a reading operation fails,
ends before anything changes. -/
inductive Executes (live : Tree) (backupId : Text) (archive : ArchiveFile)
    (confirm allowOverwrite : Bool) : Bool → Tree → Prop
  | refused : Executes live backupId archive confirm allowOverwrite true live
  | planned {members : List TarInfo} {archiveRoot : Text} {manifest : BackupManifest}
      {plan : RestorePlan} {raised : Bool} {live' : Tree} :
      Starts service live backupId archive confirm allowOverwrite members archiveRoot manifest
        plan →
      PlanRuns service members archiveRoot (included manifest) plan.assetsToRestore live raised
        live' →
      Executes live backupId archive confirm allowOverwrite raised live'

end BackupService

end Agent33.Backup
