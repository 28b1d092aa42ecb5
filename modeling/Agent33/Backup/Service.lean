import Agent33.Backup.Archive

/-!
# The backup service

The assets of a backup come from a fixed table whose sources are settings. A backup copies them
into a staging directory and writes it as an archive; an archive is verified against the digests
of its manifest.
-/

namespace Agent33.Backup

open Library

inductive BackupMode
  | full
  | configOnly
  | noWorkspace
  deriving DecidableEq

def BackupMode.value : BackupMode → Text
  | .full => "full".toList
  | .configOnly => "config-only".toList
  | .noWorkspace => "no-workspace".toList

structure BackupStamp where
  created : Text
  shortId : Text
  plain : ∀ c ∈ created ++ shortId, c ≠ '/' ∧ c ≠ '\x00'

def BackupStamp.backupId (stamp : BackupStamp) : Text := stamp.created ++ ['-'] ++ stamp.shortId

def buildArchiveStem (stamp : BackupStamp) (mode : BackupMode) : Text :=
  "agent33-backup-".toList ++ stamp.created ++ ['-'] ++ mode.value ++ ['-'] ++ stamp.shortId

structure AssetCandidate where
  relativePath : Text
  assetType : Text
  sourcePath : Option Parts
  includedModes : List BackupMode
  missingReason : Text := "Asset source not found".toList
  deriving DecidableEq

structure VerifyCheck where
  name : Text
  passed : Bool
  message : Text := []

structure VerifyResult where
  valid : Bool
  checks : List VerifyCheck

structure BackupResult where
  success : Bool
  backupId : Text
  assetCount : ℕ
  errors : List Text

inductive VerifyError
  | indexError

/-- The digest, the text of a manifest and how it is read, the text of an error for a name that
no member has, and what the settings resolve to. -/
structure BackupService where
  sha256 : Bytes → Text
  dumpManifest : BackupManifest → Bytes
  loadManifest : Bytes → Except Text BackupManifest
  keyError : Text → Text
  settings : Text → Option Parts
  backupDir : Parts

namespace BackupService

variable (service : BackupService)

def runtimeVersion : Text := "0.1.0".toList

section Candidates

variable (settings : Text → Option Parts)

def everyMode : List BackupMode := [.full, .configOnly, .noWorkspace]

def stateModes : List BackupMode := [.full, .noWorkspace]

def configCandidate (name assetType : String) : AssetCandidate :=
  ⟨name.toList, assetType.toList, settings name.toList, everyMode, "Asset source not found".toList⟩

def stateCandidate (name assetType missingReason : String) : AssetCandidate :=
  ⟨name.toList, assetType.toList, settings name.toList, stateModes, missingReason.toList⟩

def databaseAssetCandidates : List AssetCandidate :=
  ["state/databases/component_security_scans.sqlite3", "state/databases/p69b.db",
    "state/databases/ingestion.db", "state/databases/ingestion_mailbox.db",
    "state/databases/ingestion_journal.db", "state/databases/ingestion_task_metrics.db",
    "state/databases/ingestion_notification_hooks.db", "state/databases/outcomes.db",
    "state/databases/ppack_ab.db", "state/databases/agent33_memory.db",
    "state/databases/improvement_learning_signals.sqlite3",
    "state/databases/control_plane.db"].map fun name =>
      stateCandidate settings name "database" "Configured database file not found"

def assetCandidates : List AssetCandidate :=
  [{ configCandidate settings "config/.env" "config" with
      missingReason := "No root .env file found".toList },
    configCandidate settings "config/agent-definitions" "agent_definitions",
    configCandidate settings "config/workflow-definitions" "workflow_definitions",
    configCandidate settings "config/skills" "skills",
    configCandidate settings "config/packs" "packs",
    configCandidate settings "config/plugins" "plugins",
    configCandidate settings "config/hooks" "hooks",
    stateCandidate settings "state/plugin_lifecycle_state.json" "state" "Asset source not found",
    stateCandidate settings "state/orchestration_state.json" "state"
      "No orchestration state store configured",
    stateCandidate settings "state/synthetic_environment_bundles.json" "state"
      "Asset source not found",
    stateCandidate settings "state/process-manager" "process_logs" "Asset source not found",
    stateCandidate settings "state/improvement-learning" "state"
      "Improvement learning persistence is not file-backed",
    stateCandidate settings "sessions" "sessions"
      "Operator session directory not configured or not found"] ++
  databaseAssetCandidates settings ++
  [⟨"workspace".toList, "workspace".toList, settings "workspace".toList, [.full],
    "Workspace backup is not configured for this runtime".toList⟩]

end Candidates

def resolveTargetPath (relativePath : Text) : Option Parts :=
  ((assetCandidates service.settings).find? fun candidate =>
    candidate.relativePath = relativePath).bind AssetCandidate.sourcePath

def sourceContainsBackupDir (source : Parts) : Bool := source.isPrefixOf service.backupDir

variable (disk : Tree) (mode : BackupMode)

def materializeAsset (candidate : AssetCandidate) : BackupAsset :=
  match candidate.sourcePath with
  | none =>
    { relativePath := candidate.relativePath
      assetType := candidate.assetType
      included := false
      exclusionReason := candidate.missingReason }
  | some source =>
    let excluded (reason : Text) : BackupAsset :=
      { relativePath := candidate.relativePath
        assetType := candidate.assetType
        included := false
        exclusionReason := reason
        isDirectory := disk.isDir source
        sourcePath := source }
    if mode ∉ candidate.includedModes then
      excluded (if mode = .configOnly then "Excluded in config-only mode".toList
        else "Workspace excluded by backup mode".toList)
    else if disk.node source = none then excluded candidate.missingReason
    else if service.sourceContainsBackupDir source then
      excluded "Backup output directory is nested under the source root".toList
    else
      { relativePath := candidate.relativePath
        assetType := candidate.assetType
        sizeBytes := computeSize (disk.sub source)
        checksum := computeChecksum service.sha256 (disk.sub source)
        included := true
        isDirectory := disk.isDir source
        sourcePath := source }

def inventory : List BackupAsset :=
  (assetCandidates service.settings).map (service.materializeAsset disk mode)

def copy (staging : Tree) (path : Parts) (source : Tree) : Option Tree :=
  if h : ∀ q ∈ path.inits, q ≠ path → staging.isDir q = true then
    if staging.isDir path ∨ source.isDir [] ∧ staging.node path ≠ none then none
    else some (staging.graft path source fun q hq hne =>
      DirTree.isDir_iff.mp (h q ((List.mem_inits q path).mpr hq) hne))
  else none

def stage (disk : Tree) : List BackupAsset → Tree → Option Tree
  | [], staging => some staging
  | asset :: rest, staging =>
    if asset.included then do
      let target := partsOf asset.relativePath
      let staging ← staging.mkdirs target.dropLast
      let staging ← copy staging target (disk.sub asset.sourcePath)
      stage disk rest staging
    else stage disk rest staging

def manifest (backupId : Text) : BackupManifest :=
  { backupId, runtimeVersion, assets := service.inventory disk mode }

def create (backupId archiveStem : Text) :
    Option (List TarInfo) := do
  let staging ← (DirTree.empty : Tree).mkdirs []
  let staging ← stage disk (service.inventory disk mode) staging
  let staging ← staging.writeFile [manifestFilename]
    (service.dumpManifest (service.manifest disk mode backupId))
  return writeTarGz archiveStem staging

def check (name : String) (passed : Bool) (yes no : Text) : VerifyCheck :=
  ⟨name.toList, passed, if passed then yes else no⟩

def findDuplicates : List Text → List Text → List Text
  | _, [] => []
  | seen, item :: rest =>
    if item ∈ seen ∧ seen.count item = 1 then item :: findDuplicates (item :: seen) rest
    else findDuplicates (item :: seen) rest

def topLevels (members : List TarInfo) : Option (List Text) :=
  (members.filter fun member => member.name ≠ []).mapM fun member => (partsOf member.name).head?

def verifyAssets (members : List TarInfo) (archiveRoot : Text) :
    List BackupAsset → List VerifyCheck × Option Text
  | [] => ([], none)
  | asset :: rest =>
    if asset.included then
      let present := decide (matchingAssetMembers members archiveRoot asset.relativePath ≠ [])
      let presence : VerifyCheck :=
        ⟨"asset_present:".toList ++ asset.relativePath, present,
          if present then "Asset entries present in archive".toList
          else "Asset missing from archive: ".toList ++ asset.relativePath⟩
      if present then
        match computeArchiveChecksum service.sha256 members archiveRoot asset with
        | .error message => ([presence], some message)
        | .ok checksum =>
          let passed := decide (checksum = asset.checksum)
          let agreement : VerifyCheck :=
            ⟨"checksum:".toList ++ asset.relativePath, passed,
              if passed then "Asset checksum verified".toList
              else "Checksum mismatch for ".toList ++ asset.relativePath⟩
          let (checks, error) := verifyAssets members archiveRoot rest
          (presence :: agreement :: checks, error)
      else
        let (checks, error) := verifyAssets members archiveRoot rest
        (presence :: checks, error)
    else verifyAssets members archiveRoot rest

def failedParse (checks : List VerifyCheck) (message : Text) : VerifyResult :=
  ⟨false, checks ++ [⟨"archive_parse".toList, false, message⟩]⟩

def supportedSchemaVersions : List Text := ["1.0".toList]

def readManifest (members : List TarInfo) (archiveRoot : Text) : Except Text BackupManifest :=
  let name := archiveRoot ++ ['/'] ++ manifestFilename
  match getmember members name with
  | none => .error (service.keyError name)
  | some member =>
    match extractfile member with
    | none => .error "Manifest payload is missing".toList
    | some content => service.loadManifest content

def verifyContents (checks : List VerifyCheck) (members : List TarInfo) (archiveRoot : Text) :
    VerifyResult :=
  let normalized := (members.map fun member => stripArchiveRoot member.name archiveRoot).filter
    (· ≠ [])
  let duplicates := findDuplicates [] (normalized.map asPosix)
  let checks := checks ++ [check "duplicate_members" (duplicates = [])
    "No duplicate normalized entries".toList
    ("Duplicate entries detected: ".toList ++ [',', ' '].intercalate duplicates)]
  match service.readManifest members archiveRoot with
  | .error message => failedParse checks message
  | .ok manifest =>
    let schemaOk := decide (manifest.schemaVersion ∈ supportedSchemaVersions)
    let checks := checks ++
      [check "manifest_parseable" true "Manifest parsed successfully".toList [],
        check "schema_supported" schemaOk "Manifest schema version supported".toList
          ("Unsupported schema version: ".toList ++ manifest.schemaVersion)]
    if schemaOk then
      match service.verifyAssets members archiveRoot manifest.assets with
      | (assetChecks, some message) => failedParse (checks ++ assetChecks) message
      | (assetChecks, none) =>
        ⟨(checks ++ assetChecks).all VerifyCheck.passed, checks ++ assetChecks⟩
    else ⟨false, checks⟩

def verify : ArchiveFile → Except VerifyError VerifyResult
  | .missing => .ok ⟨false, [⟨"archive_exists".toList, false, "Archive not found".toList⟩]⟩
  | .unreadable error => .ok (failedParse [] error)
  | .tar members =>
    let safePaths := members.all fun member => isSafeArchiveMember member.name
    let checks :=
      [check "archive_readable" true "Archive is readable".toList [],
        check "archive_member_paths" safePaths "Archive members are contained".toList
          "Archive contains unsafe member paths".toList]
    if safePaths then
      match topLevels members with
      | none => .error .indexError
      | some parts =>
        let singleRoot (passed : Bool) := check "single_archive_root" passed
          "Archive uses a single top-level root".toList
          "Archive contains multiple top-level roots".toList
        match parts.dedup with
        | [archiveRoot] =>
          .ok (service.verifyContents (checks ++ [singleRoot true]) members archiveRoot)
        | _ => .ok ⟨false, checks ++ [singleRoot false]⟩
    else .ok ⟨false, checks⟩

/-- The archive that is written and what the caller is told, which is whether it verifies. -/
def createBackup (stamp : BackupStamp) : Option (List TarInfo × Except VerifyError BackupResult) :=
  (service.create disk mode stamp.backupId (buildArchiveStem stamp mode)).map fun members =>
    (members, (service.verify (.tar members)).map fun result =>
      { success := result.valid
        backupId := stamp.backupId
        assetCount := ((service.inventory disk mode).filter BackupAsset.included).length
        errors := (result.checks.filter fun check => !check.passed).map VerifyCheck.message })

end BackupService

end Agent33.Backup
