import Agent33.Packs.Registry

/-!
# What an operation does to the pack registry

An operation either gets as far as loading a pack from a directory, to install
it or to replace an installed one, or it does not. Everything that a step can do
to the registry is one of a few changes, and every invariant follows from them.
-/

namespace Agent33.Packs

open Library Option PackRegistry

inductive Purpose where
  | install
  | upgrade (name targetVersion : Text)

namespace PackSystem

variable {s : PackSystem} {w : Surroundings}

/-- The directory that the operation loads a pack from, once it has passed what
is checked before. -/
def loading (s : PackSystem) (w : Surroundings) : PackOp → Option (Path × Purpose)
  | .install source provenance verificationKey =>
    match PackRegistry.admission w source provenance verificationKey with
    | .ok (.inr resolved) => some (resolved.packPath, .install)
    | _ => none
  | .upgrade name newPackDir targetVersion => some (newPackDir, .upgrade name targetVersion)
  | .downgrade name oldPackDir => some (oldPackDir, .upgrade name [])
  | .upgradeFromSource name source provenance verificationKey =>
    match s.registry.installed.get? name with
    | none => none
    | some current =>
      let source := { source with name := if source.name = [] then current.name else source.name }
      match resolveSource w source provenance with
      | .error _ => none
      | .ok resolved =>
        match PackRegistry.authorize w name resolved verificationKey with
        | .ok none => some (resolved.packPath, .upgrade name source.version)
        | _ => none
  | .rollback name version archiving =>
    match s.registry.installed.get? name with
    | none => none
    | some pack =>
      match s.rollbackTarget name version pack.version, (s.archiveCurrent name archiving).2 with
      | some target, .ok _ => some (target.archivePath, .upgrade name target.version)
      | _, _ => none
  | _ => none

end PackSystem

namespace PackRegistry

def registered (s : PackRegistry) (manifest : PackManifest) (loaded : List SkillDefinition) :
    PackRegistry :=
  { s with skillRegistry := (registerPackSkills manifest.name s.skillRegistry loaded).1 }

inductive Loads (w : Surroundings) (s : PackRegistry) (path : Path) :
    Purpose → PackRegistry → Bool → Prop where
  | unread {purpose : Purpose} {e} : (w.dir path).read path = .error e →
      Loads w s path purpose s true
  | absent {name target : Text} : s.installed.get? name = none →
      Loads w s path (.upgrade name target) s true
  | interrupted {purpose : Purpose} {manifest loaded e} :
      (∀ name target, purpose = .upgrade name target → ∃ old, s.installed.get? name = some old) →
      (w.dir path).read path = .ok (manifest, loaded) → (w.dir path).checksum = .error e →
      Loads w s path purpose (s.registered manifest loaded) true
  | already {manifest loaded existing} : (w.dir path).read path = .ok (manifest, loaded) →
      s.installed.get? manifest.name = some existing →
      Loads w s path .install (s.registered manifest loaded) true
  | unmet {manifest loaded checksum} : (w.dir path).read path = .ok (manifest, loaded) →
      (w.dir path).checksum = .ok checksum → s.installed.get? manifest.name = none →
      checkDependenciesMet s.installed (installedPack path manifest loaded checksum) ≠ [] →
      Loads w s path .install ((s.registered manifest loaded).unregister w
        (installedPack path manifest loaded checksum)) true
  | installed {manifest loaded checksum} (source reference provenance) :
      (w.dir path).read path = .ok (manifest, loaded) → (w.dir path).checksum = .ok checksum →
      s.installed.get? manifest.name = none →
      checkDependenciesMet s.installed (installedPack path manifest loaded checksum) = [] →
      Loads w s path .install ((s.registered manifest loaded).put manifest.name
        ((installedPack path manifest loaded checksum).fromSource source reference provenance))
        false
  | mismatch {name target : Text} {manifest loaded old} :
      (w.dir path).read path = .ok (manifest, loaded) → s.installed.get? name = some old →
      (manifest.name ≠ name ∨ target ≠ [] ∧ manifest.version ≠ target) →
      Loads w s path (.upgrade name target) (s.registered manifest loaded) true
  | incompatible {name target : Text} {manifest loaded checksum old} :
      (w.dir path).read path = .ok (manifest, loaded) → (w.dir path).checksum = .ok checksum →
      s.installed.get? name = some old → manifest.name = name →
      (target = [] ∨ manifest.version = target) →
      checkDependentsCompatible s.installed name manifest.version ≠ [] →
      Loads w s path (.upgrade name target) ((s.registered manifest loaded).unregister w
        (installedPack path manifest loaded checksum)) true
  | replaced {name target : Text} {manifest loaded checksum old} (source reference provenance) :
      (w.dir path).read path = .ok (manifest, loaded) → (w.dir path).checksum = .ok checksum →
      s.installed.get? name = some old → manifest.name = name →
      (target = [] ∨ manifest.version = target) →
      checkDependentsCompatible s.installed name manifest.version = [] →
      Loads w s path (.upgrade name target) (((s.registered manifest loaded).unregister w old).put
        name ((installedPack path manifest loaded checksum).fromSource source reference
          provenance)) false

def failedResult (r : Except PackError InstallResult) : Bool := Failed (r.map .result)

theorem failedResult_ok (r : InstallResult) : failedResult (.ok r) = !r.success := rfl

theorem afterLoad_cases (hr : afterLoad packName next (s.loadPack w path) = r) :
    (∃ e, (w.dir path).read path = .error e ∧ r.1 = s ∧ failedResult r.2 = true) ∨
      ∃ manifest loaded, (w.dir path).read path = .ok (manifest, loaded) ∧
        ((∃ e, (w.dir path).checksum = .error e ∧ r.1 = s.registered manifest loaded ∧
            failedResult r.2 = true) ∨
          ∃ checksum, (w.dir path).checksum = .ok checksum ∧
            r.1 = (next (s.registered manifest loaded)
              (installedPack path manifest loaded checksum)).1 ∧
            r.2 = .ok (next (s.registered manifest loaded)
              (installedPack path manifest loaded checksum)).2) := by
  subst hr
  unfold loadPack
  cases hread : (w.dir path).read path with
  | error e =>
    refine .inl ⟨e, rfl, ?_⟩
    cases e with
    | fileNotFound message => exact ⟨rfl, rfl⟩
    | valueError message => exact ⟨rfl, rfl⟩
    | other message => exact ⟨rfl, rfl⟩
  | ok found =>
    obtain ⟨manifest, loaded⟩ := found
    refine .inr ⟨manifest, loaded, rfl, ?_⟩
    cases hchecksum : (w.dir path).checksum with
    | error e =>
      refine .inl ⟨e, rfl, ?_⟩
      cases e with
      | fileNotFound message => exact ⟨rfl, rfl⟩
      | valueError message => exact ⟨rfl, rfl⟩
      | other message => exact ⟨rfl, rfl⟩
    | ok checksum => exact .inr ⟨checksum, rfl, rfl, rfl⟩

theorem admitPack_cases (w : Surroundings) (s : PackRegistry) (resolved : ResolvedSource)
    (pack : InstalledPack) :
    (∃ existing, s.installed.get? pack.name = some existing ∧
        (s.admitPack w resolved pack).1 = s ∧
        (s.admitPack w resolved pack).2.success = false) ∨
      (s.installed.get? pack.name = none ∧ checkDependenciesMet s.installed pack ≠ [] ∧
        (s.admitPack w resolved pack).1 = s.unregister w pack ∧
        (s.admitPack w resolved pack).2.success = false) ∨
      (s.installed.get? pack.name = none ∧ checkDependenciesMet s.installed pack = [] ∧
        (s.admitPack w resolved pack).1 = s.put pack.name (pack.fromSource resolved.installSource
          resolved.sourceReference resolved.provenance) ∧
        (s.admitPack w resolved pack).2.success = true) := by
  cases hget : s.installed.get? pack.name with
  | some existing =>
    refine .inl ⟨existing, rfl, ?_⟩
    simp [admitPack, hget]
  | none =>
    by_cases hmet : checkDependenciesMet s.installed pack = []
    · refine .inr (.inr ⟨rfl, hmet, ?_⟩)
      simp [admitPack, hget, hmet]
    · refine .inr (.inl ⟨rfl, hmet, ?_⟩)
      simp [admitPack, hget, hmet]

theorem replacePack_cases (w : Surroundings) (s : PackRegistry) (name target : Text)
    (old new : InstalledPack) :
    ((new.name ≠ name ∨ target ≠ [] ∧ new.version ≠ target) ∧
        (s.replacePack w name target old new).1 = s ∧
        (s.replacePack w name target old new).2.success = false) ∨
      (new.name = name ∧ (target = [] ∨ new.version = target) ∧
        ((checkDependentsCompatible s.installed name new.version ≠ [] ∧
            (s.replacePack w name target old new).1 = s.unregister w new ∧
            (s.replacePack w name target old new).2.success = false) ∨
          (checkDependentsCompatible s.installed name new.version = [] ∧
            (s.replacePack w name target old new).1 = (s.unregister w old).put name
              (new.fromSource old.source old.sourceReference old.provenance) ∧
            (s.replacePack w name target old new).2.success = true))) := by
  by_cases hname : new.name = name
  · by_cases htarget : target ≠ [] ∧ new.version ≠ target
    · refine .inl ⟨.inr htarget, ?_⟩
      simp [replacePack, hname, htarget]
    · refine .inr ⟨hname, by tauto, ?_⟩
      by_cases hcompatible : checkDependentsCompatible s.installed name new.version = []
      · refine .inr ⟨hcompatible, ?_⟩
        rw [replacePack, if_neg (not_not.mpr hname), if_neg htarget]
        simp [hcompatible]
      · refine .inl ⟨hcompatible, ?_⟩
        rw [replacePack, if_neg (not_not.mpr hname), if_neg htarget]
        simp [hcompatible]
  · refine .inl ⟨.inl hname, ?_⟩
    simp [replacePack, hname]

theorem authorize_refused (h : authorize w packName resolved key = .ok (some result)) :
    result.success = false := by
  unfold authorize at h
  dsimp only at h
  split_ifs at h
  · cases h
    rfl
  · cases hcheck : checkSignature w resolved key with
    | error e => simp [hcheck, Except.map] at h
    | ok failed =>
      cases failed with
      | none => simp [hcheck, Except.map] at h
      | some name =>
        simp only [hcheck, Except.map, Option.map_some, Except.ok.injEq, some.injEq] at h
        rw [← h, refused_success]

theorem admit_refused
    (h : admission w source provenance key = .ok (.inl result)) : result.success = false := by
  unfold admission at h
  dsimp only at h
  generalize (if source.name = [] then Text.ofString "unknown" else source.name) = packName at h
  cases hresolve : resolveSource w source provenance with
  | error e =>
    cases e with
    | valueError message =>
      simp only [hresolve, Except.ok.injEq, Sum.inl.injEq] at h
      rw [← h, refused_success]
    | fileNotFound message => simp [hresolve] at h
    | other message => simp [hresolve] at h
  | ok resolved =>
    simp only [hresolve] at h
    cases hvalidate : (w.dir resolved.packPath).validatePackDirectory resolved.packPath with
    | error e => simp [hvalidate] at h
    | ok errors =>
      simp only [hvalidate] at h
      split_ifs at h
      · simp only [Except.ok.injEq, Sum.inl.injEq] at h
        rw [← h, refused_success]
      · cases hauthorize : authorize w packName resolved key with
        | error e => simp [hauthorize, Except.map] at h
        | ok failed =>
          cases failed with
          | none => simp [hauthorize, Except.map] at h
          | some refusal =>
            simp only [hauthorize, Except.map, Except.ok.injEq, Sum.inl.injEq] at h
            exact h ▸ authorize_refused hauthorize

theorem loads_install : Loads w s resolved.packPath .install
      (afterLoad packName (fun s pack => s.admitPack w resolved pack)
        (s.loadPack w resolved.packPath)).1
      (failedResult (afterLoad packName (fun s pack => s.admitPack w resolved pack)
        (s.loadPack w resolved.packPath)).2) := by
  generalize hr : afterLoad packName (fun s pack => s.admitPack w resolved pack)
    (s.loadPack w resolved.packPath) = r
  obtain ⟨e, he, hs, hfailed⟩ | ⟨manifest, loaded, hread, ⟨e, he, hs, hfailed⟩ |
      ⟨checksum, hchecksum, hs, hr'⟩⟩ :=
    afterLoad_cases hr
  · rw [hs, hfailed]
    exact .unread he
  · rw [hs, hfailed]
    exact .interrupted (fun _ _ h => nomatch h) hread he
  · rw [hs, hr']
    obtain ⟨existing, hget, hs, hfailed⟩ | ⟨hget, hmet, hs, hfailed⟩ | ⟨hget, hmet, hs, hok⟩ :=
      admitPack_cases w (s.registered manifest loaded) resolved
        (installedPack resolved.packPath manifest loaded checksum)
    · rw [hs, failedResult_ok, hfailed]
      exact .already hread hget
    · rw [hs, failedResult_ok, hfailed]
      exact .unmet hread hchecksum hget hmet
    · rw [hs, failedResult_ok, hok]
      exact .installed _ _ _ hread hchecksum hget hmet

theorem loads_upgrade {name target : Text} {path : Path} :
    Loads w s path (.upgrade name target) (s.upgrade w name path target).1
      (failedResult (s.upgrade w name path target).2) := by
  cases hget : s.installed.get? name with
  | none =>
    simp only [upgrade, hget]
    exact .absent hget
  | some old =>
    have hupgrade : s.upgrade w name path target = afterLoad name
        (fun s newPack => s.replacePack w name target old newPack) (s.loadPack w path) := by
      simp only [upgrade, hget]
    obtain ⟨e, he, hs, hfailed⟩ | ⟨manifest, loaded, hread, ⟨e, he, hs, hfailed⟩ |
        ⟨checksum, hchecksum, hs, hr⟩⟩ :=
      afterLoad_cases hupgrade.symm
    · rw [hs, hfailed]
      exact .unread he
    · rw [hs, hfailed]
      refine .interrupted (fun other _ h => ?_) hread he
      cases h
      exact ⟨old, hget⟩
    · rw [hs, hr]
      obtain ⟨hmismatch, hs, hfailed⟩ | ⟨hname, htarget, ⟨hbreaks, hs, hfailed⟩ |
          ⟨hcompatible, hs, hok⟩⟩ :=
        replacePack_cases w (s.registered manifest loaded) name target old
          (installedPack path manifest loaded checksum)
      · rw [hs, failedResult_ok, hfailed]
        exact .mismatch hread hget hmismatch
      · rw [hs, failedResult_ok, hfailed]
        exact .incompatible hread hchecksum hget hname htarget hbreaks
      · rw [hs, failedResult_ok, hok]
        exact .replaced _ _ _ hread hchecksum hget hname htarget hcompatible

section

variable (s : PackRegistry)
include s

theorem put_put (name : Text) (pack other : InstalledPack) :
    (s.put name pack).put name other = s.put name other := by
  simp only [put, Dict.set_set]

theorem applyEnablementRow_eq (name : Text) (row : Dict Text Bool) :
    ∃ enabled, s.applyEnablementRow name row =
      { s with enablement := { s.enablement with enabled := enabled } } := by
  unfold applyEnablementRow
  induction row.entries generalizing s with
  | nil => exact ⟨_, rfl⟩
  | cons cell rest ih => exact ih (s.setEnabled name cell.1 cell.2)

theorem applyEnablementRows_eq (rows : List (Text × Dict Text Bool)) :
    ∃ enabled, (s.applyEnablementRows rows).1 =
      { s with enablement := { s.enablement with enabled := enabled } } := by
  induction rows generalizing s with
  | nil => exact ⟨_, rfl⟩
  | cons row rest ih =>
    rw [applyEnablementRows]
    split_ifs
    · exact ⟨_, rfl⟩
    · obtain ⟨enabled, hrow⟩ := s.applyEnablementRow_eq row.1 row.2
      obtain ⟨enabled', hrest⟩ := ih (s.applyEnablementRow row.1 row.2)
      rw [hrow] at hrest
      exact ⟨enabled', by rw [hrow, hrest]⟩

theorem applyEnablementRow_frame (name : Text) (row : Dict Text Bool) :
    (s.applyEnablementRow name row).installed = s.installed ∧
      (s.applyEnablementRow name row).skillRegistry = s.skillRegistry := by
  obtain ⟨_, h⟩ := s.applyEnablementRow_eq name row
  rw [h]
  exact ⟨rfl, rfl⟩

theorem applyEnablementRows_frame (rows : List (Text × Dict Text Bool)) :
    (s.applyEnablementRows rows).1.installed = s.installed ∧
      (s.applyEnablementRows rows).1.skillRegistry = s.skillRegistry := by
  obtain ⟨_, h⟩ := s.applyEnablementRows_eq rows
  rw [h]
  exact ⟨rfl, rfl⟩

end

theorem loads_recordSource
    (h : Loads w s resolved.packPath (.upgrade name target) r.1 (failedResult r.2)) :
    Loads w s resolved.packPath (.upgrade name target) (recordSource name resolved r).1
      (failedResult (recordSource name resolved r).2) := by
  obtain ⟨m, result⟩ := r
  cases result with
  | error e => exact h
  | ok result =>
    cases hget : m.installed.get? name with
    | none =>
      simp only [recordSource, hget]
      exact h
    | some upgraded =>
      cases hsuccess : result.success with
      | false =>
        simp only [recordSource, hget, hsuccess, Bool.false_eq_true, if_false]
        exact h
      | true =>
        simp only [recordSource, hget, hsuccess, if_true]
        simp only [failedResult_ok, hsuccess, Bool.not_true] at h ⊢
        cases h with
        | replaced source reference provenance hread hchecksum hold hname htarget hcompatible =>
          simp only [put, Dict.get?_set, if_true, some.injEq] at hget
          subst hget
          rw [put_put]
          exact .replaced _ _ _ hread hchecksum hold hname htarget hcompatible

end PackRegistry

def PackOp.reloads : PackOp → Bool
  | .install _ _ _ | .upgrade _ _ _ | .downgrade _ _ | .upgradeFromSource _ _ _ _
  | .archiveCurrent _ _ | .rollback _ _ _ => true
  | _ => false

namespace PackSystem

variable {s : PackSystem} {w : Surroundings}

def isError {α : Type} : Except PackError α → Bool
  | .error _ => true
  | .ok _ => false

inductive Change (s : PackSystem) (w : Surroundings) (op : PackOp) :
    PackRegistry → Bool → Prop where
  | refused : s.loading w op = none → Change s w op s.registry true
  | archived : s.loading w op = none → Change s w op s.registry false
  | loads {path purpose r failed} : s.loading w op = some (path, purpose) →
      PackRegistry.Loads w s.registry path purpose r failed → Change s w op r failed
  | uninstalled {name pack enablement} : op = .uninstall name →
      s.registry.installed.get? name = some pack →
      PackRegistry.findDependents s.registry.installed name = [] →
      Change s w op { s.registry.unregister w pack with
        installed := s.registry.installed.erase name
        enablement := enablement } false
  | enabled {enablement : Enablement} : s.loading w op = none →
      Change s w op { s.registry with enablement := enablement } false
  | matrix {matrix} : op = .applyEnablementMatrix matrix →
      Change s w op (s.registry.applyEnablementMatrix matrix).1
        (isError (s.registry.applyEnablementMatrix matrix).2)

inductive Reload (s : PackSystem) (w : Surroundings) (op : PackOp) :
    PackRegistry → Bool → Prop where
  | refused : s.loading w op = none → Reload s w op s.registry true
  | archived : s.loading w op = none → Reload s w op s.registry false
  | loads {path purpose r failed} : s.loading w op = some (path, purpose) →
      PackRegistry.Loads w s.registry path purpose r failed → Reload s w op r failed

theorem Reload.change (h : Reload s w op r failed) : Change s w op r failed := by
  cases h with
  | refused hop => exact .refused hop
  | archived hop => exact .archived hop
  | loads hop h => exact .loads hop h

theorem change_ifInstalled {name : Text}
    (hop : s.loading w op = none) (h : Change s w op r.1 (isError r.2)) :
    Change s w op (s.registry.ifInstalled name r).1
      (isError (s.registry.ifInstalled name r).2) := by
  unfold ifInstalled
  split_ifs
  · exact .refused hop
  · exact h

theorem failed_map_done (r : Except PackError Unit) :
    Failed (r.map fun _ => Response.done) = isError r := by
  cases r <;> rfl

theorem reload_install (source : PackSource) (provenance : Option PackProvenance)
    (verificationKey : Text) :
    Reload s w (.install source provenance verificationKey)
      (s.registry.install w source provenance verificationKey).1
      (failedResult (s.registry.install w source provenance verificationKey).2) := by
  unfold install
  cases hadmit : admission w source provenance verificationKey with
  | error e => exact .refused (by simp [loading, hadmit])
  | ok result =>
    cases result with
    | inl result =>
      dsimp only
      rw [failedResult_ok, admit_refused hadmit]
      exact .refused (by simp [loading, hadmit])
    | inr resolved => exact .loads (by simp [loading, hadmit]) loads_install

theorem change_uninstall (name : Text) :
    Change s w (.uninstall name) (s.registry.uninstall w name).1
      (isError (s.registry.uninstall w name).2) := by
  unfold uninstall
  cases hget : s.registry.installed.get? name with
  | none => exact .refused rfl
  | some pack =>
    by_cases hdependents : findDependents s.registry.installed name = []
    · simp only [hdependents, ne_eq, not_true_eq_false, if_false]
      exact .uninstalled rfl hget hdependents
    · simp only [hdependents, ne_eq, not_false_eq_true, if_true]
      exact .refused rfl

theorem reload_upgradeFromSource (name : Text) (source : PackSource)
    (provenance : Option PackProvenance) (verificationKey : Text) :
    Reload s w (.upgradeFromSource name source provenance verificationKey)
      (s.registry.upgradeFromSource w name source provenance verificationKey).1
      (failedResult
        (s.registry.upgradeFromSource w name source provenance verificationKey).2) := by
  unfold upgradeFromSource
  cases hget : s.registry.installed.get? name with
  | none => exact .refused (by simp [loading, hget])
  | some current =>
    dsimp only
    cases hresolve : resolveSource w { source with
        name := if source.name = [] then current.name else source.name } provenance with
    | error e =>
      cases e with
      | fileNotFound message => exact .refused (by simp [loading, hget, hresolve])
      | valueError message => exact .refused (by simp [loading, hget, hresolve])
      | other message => exact .refused (by simp [loading, hget, hresolve])
    | ok resolved =>
      dsimp only
      cases hauthorize : authorize w name resolved verificationKey with
      | error e => exact .refused (by simp [loading, hget, hresolve, hauthorize])
      | ok result =>
        cases result with
        | some result =>
          dsimp only
          rw [failedResult_ok, authorize_refused hauthorize]
          exact .refused (by simp [loading, hget, hresolve, hauthorize])
        | none =>
          refine .loads ?_ (loads_recordSource loads_upgrade)
          simp [loading, hget, hresolve, hauthorize]

theorem archiveCurrent_registry (name : Text) (archiving : Archiving) :
    (s.archiveCurrent name archiving).1.registry = s.registry := by
  unfold archiveCurrent
  cases s.registry.installed.get? name with
  | none => rfl
  | some pack => cases archiving.copied <;> rfl

theorem reload_rollback (name version : Text) (archiving : Archiving) :
    Reload s w (.rollback name version archiving)
      (s.rollback w name version archiving).1.registry
      (Failed (s.rollback w name version archiving).2) := by
  unfold rollback
  cases hget : s.registry.installed.get? name with
  | none => exact .refused (by simp [loading, hget])
  | some pack =>
    dsimp only
    cases htarget : s.rollbackTarget name version pack.version with
    | none => exact .refused (by simp [loading, hget, htarget])
    | some target =>
      have hregistry := s.archiveCurrent_registry name archiving
      cases harchive : s.archiveCurrent name archiving with
      | mk m result =>
        rw [harchive] at hregistry
        dsimp only at hregistry
        cases result with
        | error e =>
          dsimp only
          rw [hregistry]
          exact .refused (by simp [loading, hget, htarget, harchive])
        | ok _ =>
          simp only [withRegistry, hregistry]
          refine .loads ?_ loads_upgrade
          simp [loading, hget, htarget, harchive]

theorem reload_next (h : step.op.reloads = true) :
    Reload s step.surroundings step.op (s.next step).registry (Failed (s.outcome step)) := by
  obtain ⟨w, op⟩ := step
  unfold next outcome
  cases op with
  | install source provenance verificationKey =>
    exact reload_install source provenance verificationKey
  | upgrade name newPackDir targetVersion => exact .loads rfl loads_upgrade
  | downgrade name oldPackDir => exact .loads rfl loads_upgrade
  | upgradeFromSource name source provenance verificationKey =>
    exact reload_upgradeFromSource name source provenance verificationKey
  | archiveCurrent name archiving =>
    simp only [perform, failed_map_done, archiveCurrent_registry]
    cases isError (s.archiveCurrent name archiving).2 with
    | true => exact .refused rfl
    | false => exact .archived rfl
  | rollback name version archiving => exact reload_rollback name version archiving
  | uninstall | enable | disable | applyEnablementMatrix | enableForSession | disableForSession =>
    exact absurd h Bool.false_ne_true

theorem change_next (s : PackSystem) (step : PackStep) :
    Change s step.surroundings step.op (s.next step).registry (Failed (s.outcome step)) := by
  by_cases h : step.op.reloads = true
  · exact (reload_next h).change
  obtain ⟨w, op⟩ := step
  unfold next outcome
  cases op with
  | install | upgrade | downgrade | upgradeFromSource | archiveCurrent | rollback =>
    exact absurd rfl h
  | uninstall name =>
    simp only [perform, withRegistry, failed_map_done]
    exact change_uninstall name
  | enable name tenantId =>
    simp only [perform, withRegistry, failed_map_done]
    exact change_ifInstalled rfl (.enabled rfl)
  | disable name tenantId =>
    simp only [perform, withRegistry, failed_map_done]
    exact change_ifInstalled rfl (.enabled rfl)
  | applyEnablementMatrix matrix =>
    simp only [perform, withRegistry, failed_map_done]
    exact .matrix rfl
  | enableForSession name sessionId source =>
    simp only [perform, withRegistry, failed_map_done]
    apply change_ifInstalled rfl
    split_ifs
    · exact .enabled rfl
    · exact .refused rfl
  | disableForSession name sessionId =>
    simp only [perform, withRegistry, failed_map_done]
    exact change_ifInstalled rfl (.enabled rfl)

end PackSystem

end Agent33.Packs
