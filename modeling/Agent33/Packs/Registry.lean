import Agent33.Library.History
import Agent33.Packs.Loader
import Mathlib.Data.Finset.Basic

/-!
# The pack registry

The registry keeps the installed packs, the tenants and sessions that have
enabled them, and the skill registry that their skills are registered in. Every
operation sees the file system, the marketplace and the signature check as they
are when it runs.
-/

namespace Agent33.Packs

open Library

structure PackTrustPolicy where
  requireSignature : Bool
  minTrustLevel : TrustLevel
  allowedSigners : List Text

structure TrustDecision where
  allowed : Bool
  reason : Text

def TrustLevel.rank : TrustLevel → ℕ
  | .untrusted => 0
  | .community => 1
  | .verified => 2
  | .official => 3

def TrustLevel.value : TrustLevel → Text
  | .untrusted => Text.ofString "untrusted"
  | .community => Text.ofString "community"
  | .verified => Text.ofString "verified"
  | .official => Text.ofString "official"

def evaluateTrust (provenance : Option PackProvenance) (policy : PackTrustPolicy) : TrustDecision :=
  match provenance with
  | none =>
    if policy.requireSignature then
      ⟨false, Text.ofString "Pack has no provenance metadata but policy requires a signature"⟩
    else ⟨true, Text.ofString "No provenance metadata; policy does not require signature"⟩
  | some provenance =>
    if policy.allowedSigners ≠ [] ∧ provenance.signerId ∉ policy.allowedSigners then
      ⟨false, Text.ofString "Signer '" ++ provenance.signerId ++
        Text.ofString "' is not in the allowed signers list: " ++
        DependencyResolver.listText policy.allowedSigners⟩
    else if provenance.trustLevel.rank < policy.minTrustLevel.rank then
      ⟨false, Text.ofString "Pack trust level '" ++ provenance.trustLevel.value ++
        Text.ofString "' is below the required minimum '" ++ policy.minTrustLevel.value ++
        Text.ofString "'"⟩
    else
      ⟨true, Text.ofString "Pack signed by '" ++ provenance.signerId ++
        Text.ofString "' with trust level '" ++ provenance.trustLevel.value ++
        Text.ofString "' meets policy requirements"⟩

structure PackSource where
  sourceType : Text
  path : Text
  name : Text
  version : Text

structure MarketplaceResolvedPack where
  packDir : Path
  sourceName : Text
  provenance : Option PackProvenance

/-- What lies around the registry when an operation runs. A skill that is loaded
through a path inside a directory has its base inside that directory. -/
structure Surroundings where
  trustPolicy : PackTrustPolicy
  dir : Path → PackDir
  within : Path → Path → Bool
  marketplace : Option (Text → Text → Except PackError (Option MarketplaceResolvedPack))
  verifyPack : PackManifest → PackProvenance → Text → Bool
  loadedInside : ∀ path entryPath skill, ((dir path).skillPath entryPath).inside = true →
    ((dir path).skillPath entryPath).load = .ok skill →
      ∃ base, skill.basePath = some base ∧ within base path = true

structure InstallResult where
  success : Bool
  packName : Text
  version : Text
  skillsLoaded : ℕ
  errors : List Text

def refused (packName : Text) (errors : List Text) : InstallResult :=
  ⟨false, packName, [], 0, errors⟩

@[simp] theorem refused_success (packName : Text) (errors : List Text) :
    (refused packName errors).success = false := rfl

structure Enablement where
  enabled : Dict Text (Finset Text)
  sessionEnabled : Dict Text (Finset Text)
  sessionPackSources : Dict Text (Dict Text Text)
  sessionPackSequence : Dict Text (Dict Text ℕ)
  sessionActivationCounter : Dict Text ℕ

structure PackRegistry where
  skillRegistry : SkillRegistry
  installed : Dict Text InstalledPack
  enablement : Enablement

structure ResolvedSource where
  packPath : Path
  installSource : Text
  sourceReference : Text
  provenance : Option PackProvenance

def resolveSource (w : Surroundings) (source : PackSource) (provenance : Option PackProvenance) :
    Except PackError ResolvedSource :=
  if source.sourceType = Text.ofString "local" then
    if (w.dir source.path).isDir = false then
      .error (.valueError (Text.ofString "Pack directory not found: " ++ source.path))
    else
      .ok ⟨source.path, source.sourceType,
        if source.path = [] then source.name else source.path, provenance⟩
  else if source.sourceType = Text.ofString "marketplace" then
    match w.marketplace with
    | none => .error (.valueError (Text.ofString "Marketplace registry is not configured"))
    | some resolve =>
      if source.name = [] then
        .error (.valueError (Text.ofString "Marketplace installs require a pack name"))
      else
        match resolve source.name source.version with
        | .error e => .error e
        | .ok none => .error (.valueError (Text.ofString "Marketplace pack '" ++ source.name ++
            Text.ofString "'" ++
            (if source.version = [] then [] else
              Text.ofString " version '" ++ source.version ++ Text.ofString "'") ++
            Text.ofString " was not found"))
        | .ok (some found) =>
          .ok ⟨found.packDir, Text.ofString "marketplace", found.sourceName,
            found.provenance.or provenance⟩
  else .error (.valueError (Text.ofString "Unsupported source type: " ++ source.sourceType))

namespace PackRegistry

variable (w : Surroundings) (s : PackRegistry)

def installedPack (path : Path) (manifest : PackManifest) (loaded : List SkillDefinition)
    (checksum : Text) : InstalledPack where
  name := manifest.name
  version := manifest.version
  skills := manifest.skills
  loadedSkillNames := loaded.map fun skill => qualifiedName manifest.name skill.name
  packDependencies := manifest.packDependencies
  source := Text.ofString "local"
  sourceReference := []
  checksum := checksum
  packDir := path
  provenance := none

def loadPack (path : Path) : PackRegistry × Except PackError InstalledPack :=
  match (w.dir path).read path with
  | .error e => (s, .error e)
  | .ok (manifest, loaded) =>
    let s := { s with
      skillRegistry := (registerPackSkills manifest.name s.skillRegistry loaded).1 }
    (s, (w.dir path).checksum.map (installedPack path manifest loaded))

variable (name : Text)

def put (pack : InstalledPack) : PackRegistry :=
  { s with installed := s.installed.set name pack }

def unregister (pack : InstalledPack) : PackRegistry :=
  { s with skillRegistry := unregisterPackSkills w.within s.skillRegistry pack }

def missingDependency (pack : InstalledPack) (dep : PackDependency) : Text :=
  Text.ofString "Missing dependency: pack '" ++ pack.name ++ Text.ofString "' requires '" ++
    dep.name ++ Text.ofString "' (" ++ dep.constraint ++ Text.ofString ") but it is not installed"

def incompatibleDependency (pack : InstalledPack) (dep : PackDependency) (version : Text) : Text :=
  Text.ofString "Incompatible dependency: pack '" ++ pack.name ++ Text.ofString "' requires '" ++
    dep.name ++ Text.ofString "' " ++ dep.constraint ++
    Text.ofString " but installed version is " ++ version

def invalidConstraint (pack : InstalledPack) (dep : PackDependency) (message : Text) : Text :=
  Text.ofString "Invalid version constraint for dependency '" ++ dep.name ++
    Text.ofString "' in pack '" ++ pack.name ++ Text.ofString "': " ++ message

variable (installed : Dict Text InstalledPack)

def dependencyError (pack : InstalledPack) (dep : PackDependency) : Option Text :=
  match installed.get? dep.name with
  | none => some (missingDependency pack dep)
  | some installedDep =>
    match VersionConstraint.parse dep.constraint with
    | .error e => some (invalidConstraint pack dep e)
    | .ok constraint =>
      match Version.parse installedDep.version with
      | .error e => some (invalidConstraint pack dep e)
      | .ok version =>
        if constraint.satisfies version then none
        else some (incompatibleDependency pack dep installedDep.version)

def checkDependenciesMet (pack : InstalledPack) : List Text :=
  pack.packDependencies.filterMap (dependencyError installed pack)

def breaksDependent (packName name : Text) (dep : PackDependency) (newVersion : Text) : Text :=
  Text.ofString "Upgrade would break dependent: pack '" ++ packName ++
    Text.ofString "' requires '" ++ name ++ Text.ofString "' " ++ dep.constraint ++
    Text.ofString " but new version is " ++ newVersion

def invalidDependent (packName name message : Text) : Text :=
  Text.ofString "Invalid version constraint in dependent '" ++ packName ++
    Text.ofString "' for '" ++ name ++ Text.ofString "': " ++ message

def dependentError (name newVersion : Text) (version : Version) (packName : Text)
    (dep : PackDependency) : Option Text :=
  if dep.name ≠ name then none
  else
    match VersionConstraint.parse dep.constraint with
    | .error e => some (invalidDependent packName name e)
    | .ok constraint =>
      if constraint.satisfies version then none
      else some (breaksDependent packName name dep newVersion)

def checkDependentsCompatible (name newVersion : Text) : List Text :=
  match Version.parse newVersion with
  | .error e => [Text.ofString "Invalid new version '" ++ newVersion ++ Text.ofString "': " ++ e]
  | .ok version => installed.entries.flatMap fun entry =>
    if entry.1 = name then []
    else entry.2.packDependencies.filterMap (dependentError name newVersion version entry.1)

def findDependents (name : Text) : List Text :=
  (installed.entries.filter fun entry =>
    decide (entry.1 ≠ name) && entry.2.packDependencies.any fun dep => dep.name == name).map
      Prod.fst

def checkSignature (resolved : ResolvedSource) (verificationKey : Text) :
    Except PackError (Option Text) :=
  match resolved.provenance with
  | none => .ok none
  | some provenance =>
    if verificationKey = [] then .ok none
    else ((w.dir resolved.packPath).loadPackManifest resolved.packPath).map fun manifest =>
      if w.verifyPack manifest provenance verificationKey then none else some manifest.name

def trustViolation (decision : TrustDecision) : Text :=
  Text.ofString "Trust policy violation: " ++ decision.reason

def signatureFailed : Text := Text.ofString "Provenance signature verification failed"

def notInstalled : Text :=
  Text.ofString "Pack '" ++ name ++ Text.ofString "' is not installed"

def alreadyInstalled (name version : Text) : Text :=
  Text.ofString "Pack '" ++ name ++ Text.ofString "' is already installed at version " ++ version ++
    Text.ofString ". Use upgrade to change versions."

def nameMismatch (name found : Text) : Text :=
  Text.ofString "Pack name mismatch: expected '" ++ name ++ Text.ofString "' but found '" ++
    found ++ Text.ofString "'"

def versionMismatch (target found : Text) : Text :=
  Text.ofString "Version mismatch: expected '" ++ target ++ Text.ofString "' but pack is '" ++
    found ++ Text.ofString "'"

def requiredBy (dependents : List Text) : Text :=
  Text.ofString "Cannot uninstall '" ++ name ++ Text.ofString "': required by " ++
    (Text.ofString ", ").intercalate dependents

def authorize (packName : Text) (resolved : ResolvedSource) (verificationKey : Text) :
    Except PackError (Option InstallResult) :=
  let decision := evaluateTrust resolved.provenance w.trustPolicy
  if decision.allowed = false then .ok (some (refused packName [trustViolation decision]))
  else (checkSignature w resolved verificationKey).map fun failed =>
    failed.map fun name => refused name [signatureFailed]

variable (source : PackSource) (provenance : Option PackProvenance) (verificationKey : Text)

/-- What `install` checks before it loads the pack: it is refused, or the source
is resolved. -/
def admission : Except PackError (InstallResult ⊕ ResolvedSource) :=
  let packName := if source.name = [] then Text.ofString "unknown" else source.name
  match resolveSource w source provenance with
  | .error (.valueError message) => .ok (.inl (refused packName [message]))
  | .error e => .error e
  | .ok resolved =>
    match (w.dir resolved.packPath).validatePackDirectory resolved.packPath with
    | .error e => .error e
    | .ok errors =>
      if errors ≠ [] then .ok (.inl (refused packName errors))
      else (authorize w packName resolved verificationKey).map fun result =>
        match result with
        | some result => .inl result
        | none => .inr resolved

/-- What `install` does with a pack that was loaded. -/
def admitPack (resolved : ResolvedSource) (pack : InstalledPack) : PackRegistry × InstallResult :=
  match s.installed.get? pack.name with
  | some existing =>
    (s, ⟨false, pack.name, existing.version, 0, [alreadyInstalled pack.name existing.version]⟩)
  | none =>
    let errors := checkDependenciesMet s.installed pack
    if errors ≠ [] then (s.unregister w pack, ⟨false, pack.name, pack.version, 0, errors⟩)
    else
      (s.put pack.name (pack.fromSource resolved.installSource resolved.sourceReference
          resolved.provenance),
        ⟨true, pack.name, pack.version, pack.loadedSkillNames.length, []⟩)

/-- A pack that cannot be found or is invalid is refused; any other error is
raised. -/
def afterLoad (packName : Text)
    (next : PackRegistry → InstalledPack → PackRegistry × InstallResult) :
    PackRegistry × Except PackError InstalledPack → PackRegistry × Except PackError InstallResult
  | (s, .error (.other message)) => (s, .error (.other message))
  | (s, .error e) => (s, .ok (refused packName [e.message]))
  | (s, .ok pack) => ((next s pack).1, .ok (next s pack).2)

def install : PackRegistry × Except PackError InstallResult :=
  match admission w source provenance verificationKey with
  | .error e => (s, .error e)
  | .ok (.inl result) => (s, .ok result)
  | .ok (.inr resolved) =>
    afterLoad (if source.name = [] then Text.ofString "unknown" else source.name)
      (fun s pack => s.admitPack w resolved pack) (s.loadPack w resolved.packPath)

def uninstall : PackRegistry × Except PackError Unit :=
  match s.installed.get? name with
  | none => (s, .error (.valueError (notInstalled name)))
  | some pack =>
    let dependents := findDependents s.installed name
    if dependents ≠ [] then (s, .error (.valueError (requiredBy name dependents)))
    else
      ({ s.unregister w pack with
          installed := s.installed.erase name
          enablement := { s.enablement with
            enabled := s.enablement.enabled.mapValues fun _ names => names.erase name
            sessionEnabled := s.enablement.sessionEnabled.mapValues fun _ names =>
              names.erase name } },
        .ok ())

/-- What `upgrade` does with the new version once it was loaded. -/
def replacePack (name targetVersion : Text) (oldPack newPack : InstalledPack) :
    PackRegistry × InstallResult :=
  if newPack.name ≠ name then (s, refused name [nameMismatch name newPack.name])
  else if targetVersion ≠ [] ∧ newPack.version ≠ targetVersion then
    (s, refused name [versionMismatch targetVersion newPack.version])
  else
    let errors := checkDependentsCompatible s.installed name newPack.version
    if errors ≠ [] then (s.unregister w newPack, ⟨false, name, newPack.version, 0, errors⟩)
    else
      ((s.unregister w oldPack).put name (newPack.fromSource oldPack.source
          oldPack.sourceReference oldPack.provenance),
        ⟨true, name, newPack.version, newPack.loadedSkillNames.length, []⟩)

def upgrade (newPackDir : Path) (targetVersion : Text) :
    PackRegistry × Except PackError InstallResult :=
  match s.installed.get? name with
  | none => (s, .ok (refused name [notInstalled name]))
  | some oldPack =>
    afterLoad name (fun s newPack => s.replacePack w name targetVersion oldPack newPack)
      (s.loadPack w newPackDir)

def downgrade (oldPackDir : Path) : PackRegistry × Except PackError InstallResult :=
  s.upgrade w name oldPackDir []

def recordSource (resolved : ResolvedSource) :
    PackRegistry × Except PackError InstallResult → PackRegistry × Except PackError InstallResult
  | (s, .ok result) =>
    match s.installed.get? name with
    | some upgraded =>
      if result.success then
        (s.put name (upgraded.fromSource resolved.installSource resolved.sourceReference
          resolved.provenance), .ok result)
      else (s, .ok result)
    | none => (s, .ok result)
  | (s, .error e) => (s, .error e)

def upgradeFromSource : PackRegistry × Except PackError InstallResult :=
  match s.installed.get? name with
  | none => (s, .ok (refused name [notInstalled name]))
  | some current =>
    let source := { source with name := if source.name = [] then current.name else source.name }
    match resolveSource w source provenance with
    | .error (.valueError message) => (s, .ok (refused name [message]))
    | .error e => (s, .error e)
    | .ok resolved =>
      match authorize w name resolved verificationKey with
      | .error e => (s, .error e)
      | .ok (some result) => (s, .ok result)
      | .ok none => recordSource name resolved (s.upgrade w name resolved.packPath source.version)

def ifInstalled (result : PackRegistry × Except PackError Unit) :
    PackRegistry × Except PackError Unit :=
  if s.installed.get? name = none then (s, .error (.valueError (notInstalled name))) else result

def setEnabled (name tenantId : Text) (on : Bool) : PackRegistry :=
  let enabled := s.enablement.enabled
  let names := enabled.getD tenantId ∅
  { s with
    enablement := { s.enablement with
      enabled :=
        if on then enabled.set tenantId (insert name names)
        else if enabled.get? tenantId = none then enabled
        else enabled.set tenantId (names.erase name) } }

def enable (name tenantId : Text) : PackRegistry × Except PackError Unit :=
  s.ifInstalled name (s.setEnabled name tenantId true, .ok ())

def disable (name tenantId : Text) : PackRegistry × Except PackError Unit :=
  s.ifInstalled name (s.setEnabled name tenantId false, .ok ())

def applyEnablementRow (row : Dict Text Bool) : PackRegistry :=
  row.entries.foldl (fun s cell => s.setEnabled name cell.1 cell.2) s

def applyEnablementRows : PackRegistry → List (Text × Dict Text Bool) →
    PackRegistry × Except PackError Unit
  | s, [] => (s, .ok ())
  | s, (name, row) :: rest =>
    if s.installed.get? name = none then (s, .error (.valueError (notInstalled name)))
    else applyEnablementRows (s.applyEnablementRow name row) rest

def applyEnablementMatrix (matrix : Dict Text (Dict Text Bool)) :
    PackRegistry × Except PackError Unit :=
  s.applyEnablementRows matrix.entries

end PackRegistry

namespace Enablement

variable (e : Enablement)

def explicit : Text := Text.ofString "explicit"

def shared : Text := Text.ofString "shared"

def recordSessionPackActivation (packName sessionId source : Text) : Enablement :=
  let sources := e.sessionPackSources.getD sessionId .empty
  let sequence := e.sessionPackSequence.getD sessionId .empty
  let e := { e with
    sessionPackSources := e.sessionPackSources.set sessionId sources
    sessionPackSequence := e.sessionPackSequence.set sessionId sequence }
  let existing := sources.get? packName
  if existing = some explicit ∧ source = shared ∨ existing = some source then e
  else
    let next := e.sessionActivationCounter.getD sessionId 0 + 1
    { e with
      sessionActivationCounter := e.sessionActivationCounter.set sessionId next
      sessionPackSources := e.sessionPackSources.set sessionId (sources.set packName source)
      sessionPackSequence := e.sessionPackSequence.set sessionId (sequence.set packName next) }

def clearSessionState (sessionId : Text) : Enablement :=
  { e with
    sessionEnabled := e.sessionEnabled.erase sessionId
    sessionPackSources := e.sessionPackSources.erase sessionId
    sessionPackSequence := e.sessionPackSequence.erase sessionId
    sessionActivationCounter := e.sessionActivationCounter.erase sessionId }

def dropFrom {ν : Type*} (d : Dict Text (Dict Text ν)) (sessionId packName : Text) :
    Dict Text (Dict Text ν) :=
  d.filterMapValues fun id entries =>
    some (if id = sessionId then entries.erase packName else entries)

def enableForSession (packName sessionId source : Text) : Enablement :=
  { e with
    sessionEnabled := e.sessionEnabled.set sessionId
      (insert packName (e.sessionEnabled.getD sessionId ∅)) }.recordSessionPackActivation
    packName sessionId source

def disableForSession (packName sessionId : Text) : Enablement :=
  match e.sessionEnabled.get? sessionId with
  | none => e
  | some names =>
    if names.erase packName = ∅ then e.clearSessionState sessionId
    else
      { e with
        sessionEnabled := e.sessionEnabled.set sessionId (names.erase packName)
        sessionPackSources := dropFrom e.sessionPackSources sessionId packName
        sessionPackSequence := dropFrom e.sessionPackSequence sessionId packName }

end Enablement

namespace PackRegistry

variable (w : Surroundings) (s : PackRegistry)

def unsupportedSource (source : Text) : Text :=
  Text.ofString "Unsupported session pack source '" ++ source ++ Text.ofString "'"

def enableForSession (packName sessionId source : Text) : PackRegistry × Except PackError Unit :=
  s.ifInstalled packName
    (if source = Enablement.explicit ∨ source = Enablement.shared then
      ({ s with enablement := s.enablement.enableForSession packName sessionId source }, .ok ())
    else (s, .error (.valueError (unsupportedSource source))))

def disableForSession (packName sessionId : Text) : PackRegistry × Except PackError Unit :=
  s.ifInstalled packName
    ({ s with enablement := s.enablement.disableForSession packName sessionId }, .ok ())

end PackRegistry

structure ArchivedPackRevision where
  packName : Text
  version : Text
  archivePath : Path

structure PackSystem where
  registry : PackRegistry
  history : Dict Text (List ArchivedPackRevision)

structure Archiving where
  copied : Except PackError Path
  persisted : Except PackError Unit

inductive PackOp where
  | install (source : PackSource) (provenance : Option PackProvenance) (verificationKey : Text)
  | uninstall (name : Text)
  | upgrade (name : Text) (newPackDir : Path) (targetVersion : Text)
  | downgrade (name : Text) (oldPackDir : Path)
  | upgradeFromSource (name : Text) (source : PackSource) (provenance : Option PackProvenance)
      (verificationKey : Text)
  | archiveCurrent (name : Text) (archiving : Archiving)
  | rollback (name version : Text) (archiving : Archiving)
  | enable (name tenantId : Text)
  | disable (name tenantId : Text)
  | applyEnablementMatrix (matrix : Dict Text (Dict Text Bool))
  | enableForSession (name sessionId source : Text)
  | disableForSession (name sessionId : Text)

inductive Response where
  | result (result : InstallResult)
  | done

def Failed : Except PackError Response → Bool
  | .error _ => true
  | .ok (.result result) => !result.success
  | .ok .done => false

namespace PackSystem

variable (s : PackSystem) (w : Surroundings)

def archiveCurrent (name : Text) (archiving : Archiving) : PackSystem × Except PackError Unit :=
  match s.registry.installed.get? name with
  | none => (s, .error (.valueError (PackRegistry.notInstalled name)))
  | some pack =>
    match archiving.copied with
    | .error e => (s, .error e)
    | .ok path =>
      let revisions := s.history.getD name [] ++ [⟨name, pack.version, path⟩]
      ({ s with history := s.history.set name revisions }, archiving.persisted)

def listArchivedVersions (name : Text) : List ArchivedPackRevision :=
  (s.history.getD name []).reverse

def rollbackTarget (name version current : Text) : Option ArchivedPackRevision :=
  (s.listArchivedVersions name).find? fun revision =>
    decide (revision.version ≠ current ∧ (version = [] ∨ revision.version = version))

def noRevision (name version : Text) : Text :=
  Text.ofString "No archived rollback revision available for pack '" ++ name ++
    Text.ofString "'" ++
    (if version = [] then [] else Text.ofString " at version '" ++ version ++ Text.ofString "'")

def withRegistry {α : Type} (respond : α → Response) (r : PackRegistry × Except PackError α) :
    PackSystem × Except PackError Response :=
  ({ s with registry := r.1 }, r.2.map respond)

def rollback (name version : Text) (archiving : Archiving) :
    PackSystem × Except PackError Response :=
  match s.registry.installed.get? name with
  | none => (s, .error (.valueError (PackRegistry.notInstalled name)))
  | some pack =>
    match s.rollbackTarget name version pack.version with
    | none => (s, .error (.valueError (noRevision name version)))
    | some target =>
      match s.archiveCurrent name archiving with
      | (s, .error e) => (s, .error e)
      | (s, .ok _) =>
        s.withRegistry .result (s.registry.upgrade w name target.archivePath target.version)

def perform : PackOp → PackSystem × Except PackError Response
  | .install source provenance verificationKey =>
    s.withRegistry .result (s.registry.install w source provenance verificationKey)
  | .uninstall name => s.withRegistry (fun _ => .done) (s.registry.uninstall w name)
  | .upgrade name newPackDir targetVersion =>
    s.withRegistry .result (s.registry.upgrade w name newPackDir targetVersion)
  | .downgrade name oldPackDir =>
    s.withRegistry .result (s.registry.downgrade w name oldPackDir)
  | .upgradeFromSource name source provenance verificationKey =>
    s.withRegistry .result (s.registry.upgradeFromSource w name source provenance verificationKey)
  | .archiveCurrent name archiving =>
    ((s.archiveCurrent name archiving).1,
      (s.archiveCurrent name archiving).2.map fun _ => .done)
  | .rollback name version archiving => s.rollback w name version archiving
  | .enable name tenantId => s.withRegistry (fun _ => .done) (s.registry.enable name tenantId)
  | .disable name tenantId => s.withRegistry (fun _ => .done) (s.registry.disable name tenantId)
  | .applyEnablementMatrix matrix =>
    s.withRegistry (fun _ => .done) (s.registry.applyEnablementMatrix matrix)
  | .enableForSession name sessionId source =>
    s.withRegistry (fun _ => .done) (s.registry.enableForSession name sessionId source)
  | .disableForSession name sessionId =>
    s.withRegistry (fun _ => .done) (s.registry.disableForSession name sessionId)

end PackSystem

structure PackStep where
  surroundings : Surroundings
  op : PackOp

def PackSystem.next (s : PackSystem) (step : PackStep) : PackSystem :=
  (s.perform step.surroundings step.op).1

def PackSystem.outcome (s : PackSystem) (step : PackStep) : Except PackError Response :=
  (s.perform step.surroundings step.op).2

end Agent33.Packs
