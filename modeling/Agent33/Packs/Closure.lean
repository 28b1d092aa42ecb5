import Agent33.Library.Peeling
import Agent33.Packs.Changes

/-!
# Dependencies of installed packs

Installing a pack checks what it depends on and uninstalling one checks what
depends on it. Replacing a pack by another version only checks the packs that
depend on it, never what the new version itself declares, so that every
installed pack keeps its dependencies exactly as long as each version that
replaces another finds its own dependencies installed.
-/

namespace Agent33.Packs

open Library List

def PackDependency.need (dep : PackDependency) : Need Text InstalledPack where
  key := dep.name
  accepts pack := ∃ v, Version.parse pack.version = .ok v ∧ dep.meets v

def InstalledPack.needs (pack : InstalledPack) : Set (Need Text InstalledPack) :=
  {need | ∃ dep ∈ pack.packDependencies, need = dep.need}

def DependenciesInstalled (installed : Dict Text InstalledPack) : Prop :=
  SelfContained InstalledPack.needs installed.get?

namespace PackRegistry

variable {installed : Dict Text InstalledPack} {pack : InstalledPack}

theorem get?_set_eq_update (name : Text) (pack : InstalledPack) :
    (installed.set name pack).get? = Function.update installed.get? name (some pack) := by
  funext other
  rw [Dict.get?_set, Function.update_apply]

theorem get?_erase_eq_update (name : Text) :
    (installed.erase name).get? = Function.update installed.get? name none := by
  funext other
  rw [Dict.get?_erase, Function.update_apply]

theorem dependencyError_eq_none :
    dependencyError installed pack dep = none ↔ Served installed.get? dep.need := by
  unfold dependencyError Served PackDependency.need Requirement.meets
  dsimp only
  cases hget : installed.get? dep.name with
  | none => simp
  | some other =>
    cases hconstraint : VersionConstraint.parse dep.constraint with
    | error e => simp
    | ok constraint =>
      cases hversion : Version.parse other.version with
      | error e => simp [hversion]
      | ok version => simp [hversion]

theorem checkDependenciesMet_eq_nil :
    checkDependenciesMet installed pack = [] ↔
      ∀ need ∈ pack.needs, Served installed.get? need := by
  rw [checkDependenciesMet, filterMap_eq_nil_iff]
  constructor
  · intro h need hneed
    obtain ⟨dep, hdep, rfl⟩ := hneed
    exact dependencyError_eq_none.mp (h dep hdep)
  · intro h dep hdep
    exact dependencyError_eq_none.mpr (h dep.need ⟨dep, hdep, rfl⟩)

theorem accepts_of_compatible
    (h : checkDependentsCompatible installed name new.version = []) (hother : other ≠ name)
    (hget : installed.get? other = some pack) (hneed : need ∈ pack.needs) (hkey : need.key = name) :
    need.accepts new := by
  obtain ⟨dep, hdep, rfl⟩ := hneed
  unfold checkDependentsCompatible at h
  cases hversion : Version.parse new.version with
  | error e => simp [hversion] at h
  | ok version =>
    simp only [hversion, flatMap_eq_nil_iff] at h
    have hentry := h (other, pack) ((Dict.mem_entries _ _ _).mpr hget)
    simp only [hother, if_false, filterMap_eq_nil_iff] at hentry
    have hnone := hentry dep hdep
    have hname : dep.name = name := hkey
    refine ⟨version, hversion, ?_⟩
    unfold Requirement.meets
    cases hconstraint : VersionConstraint.parse dep.constraint with
    | error e => simp [dependentError, hname, hconstraint] at hnone
    | ok constraint => simpa [dependentError, hname, hconstraint] using hnone

theorem key_ne_of_findDependents (h : findDependents installed name = []) (hother : other ≠ name)
    (hget : installed.get? other = some pack) (hneed : need ∈ pack.needs) : need.key ≠ name := by
  obtain ⟨dep, hdep, rfl⟩ := hneed
  rw [findDependents, map_eq_nil_iff, filter_eq_nil_iff] at h
  have hentry := h (other, pack) ((Dict.mem_entries _ _ _).mpr hget)
  simp only [hother, ne_eq, not_false_eq_true, decide_true, Bool.true_and, any_eq_true,
    beq_iff_eq, not_exists, not_and] at hentry
  exact hentry dep hdep

end PackRegistry

namespace PackSystem

variable {s : PackSystem} {step : PackStep}

def Replaces (s : PackSystem) (step : PackStep) (name : Text) (manifest : PackManifest) : Prop :=
  ∃ path target loaded checksum old,
    s.loading step.surroundings step.op = some (path, .upgrade name target) ∧
    (step.surroundings.dir path).read path = .ok (manifest, loaded) ∧
    (step.surroundings.dir path).checksum = .ok checksum ∧
    s.registry.installed.get? name = some old ∧ manifest.name = name ∧
    (target = [] ∨ manifest.version = target) ∧
    PackRegistry.checkDependentsCompatible s.registry.installed name manifest.version = []

def versionAfter (s : PackSystem) (name newVersion other : Text) : Option Text :=
  if other = name then some newVersion
  else (s.registry.installed.get? other).map InstalledPack.version

def Supplied (s : PackSystem) (step : PackStep) : Prop :=
  ∀ name manifest, s.Replaces step name manifest → ∀ dep ∈ manifest.packDependencies,
    ∃ version v, s.versionAfter name manifest.version dep.name = some version ∧
      Version.parse version = .ok v ∧ dep.meets v

theorem Replaces.of_loading (h : s.Replaces step name manifest)
    (hloading : s.loading step.surroundings step.op = some (path, purpose)) :
    ∃ target loaded checksum old, purpose = .upgrade name target ∧
      (step.surroundings.dir path).read path = .ok (manifest, loaded) ∧
      (step.surroundings.dir path).checksum = .ok checksum ∧
      s.registry.installed.get? name = some old ∧ manifest.name = name ∧
      (target = [] ∨ manifest.version = target) ∧
      PackRegistry.checkDependentsCompatible s.registry.installed name manifest.version = [] := by
  obtain ⟨path', target, loaded, checksum, old, hload, hrest⟩ := h
  rw [hloading] at hload
  cases hload
  exact ⟨target, loaded, checksum, old, rfl, hrest⟩

theorem served_iff_versionAfter {name : Text} {new : InstalledPack} {dep : PackDependency} :
    Served (Function.update s.registry.installed.get? name (some new)) dep.need ↔
      ∃ version v, s.versionAfter name new.version dep.name = some version ∧
        Version.parse version = .ok v ∧ dep.meets v := by
  unfold Served PackDependency.need versionAfter
  dsimp only
  by_cases hname : dep.name = name
  · simp [hname]
  · rw [Function.update_of_ne hname, if_neg hname]
    cases s.registry.installed.get? dep.name with
    | none => simp
    | some pack => simp

theorem dependenciesInstalled_set_iff (pack : InstalledPack) (h : DependenciesInstalled installed)
    (hothers : ∀ other pack', other ≠ name → installed.get? other = some pack' →
      ∀ need ∈ pack'.needs, need.key = name → need.accepts pack) :
    DependenciesInstalled (installed.set name pack) ↔
      ∀ need ∈ pack.needs, Served (Function.update installed.get? name (some pack)) need := by
  rw [DependenciesInstalled, PackRegistry.get?_set_eq_update]
  exact h.update_iff hothers

theorem dependenciesInstalled_next_iff (h : DependenciesInstalled s.registry.installed) :
    DependenciesInstalled (s.next step).registry.installed ↔ s.Supplied step := by
  have hchange := s.change_next step
  generalize hr : (s.next step).registry = r at hchange
  generalize Failed (s.outcome step) = failed at hchange
  have hvacuous (hkept : r.installed = s.registry.installed)
      (hnone : ∀ name manifest, ¬ s.Replaces step name manifest) :
      DependenciesInstalled r.installed ↔ s.Supplied step := by
    rw [hkept]
    exact iff_of_true h fun name manifest hreplaces => absurd hreplaces (hnone name manifest)
  have hidle (hloading : s.loading step.surroundings step.op = none) (name : Text)
      (manifest : PackManifest) : ¬ s.Replaces step name manifest := by
    rintro ⟨path, target, loaded, checksum, old, hload, -⟩
    rw [hloading] at hload
    exact absurd hload (by simp)
  cases hchange with
  | refused hloading => exact hvacuous rfl (hidle hloading)
  | archived hloading => exact hvacuous rfl (hidle hloading)
  | enabled hloading => exact hvacuous rfl (hidle hloading)
  | matrix hop =>
    exact hvacuous (s.registry.applyEnablementRows_frame _).1 (hidle (by rw [hop]; rfl))
  | uninstalled hop hget hdependents =>
    have hnone := hidle (by rw [hop]; rfl)
    refine iff_of_true ?_ fun name manifest hreplaces => absurd hreplaces (hnone name manifest)
    rw [DependenciesInstalled, PackRegistry.get?_erase_eq_update]
    exact h.erase fun other pack hother hpack need =>
      PackRegistry.key_ne_of_findDependents hdependents hother hpack
  | @loads path _ _ _ hloading hloads =>
    cases hloads with
    | unread hread =>
      refine hvacuous rfl fun name manifest hreplaces => ?_
      obtain ⟨_, loaded, _, _, -, hread', -⟩ := hreplaces.of_loading hloading
      rw [hread] at hread'
      cases hread'
    | absent hget =>
      refine hvacuous rfl fun name manifest hreplaces => ?_
      obtain ⟨_, _, _, old, hpurpose, -, -, hget', -⟩ := hreplaces.of_loading hloading
      cases hpurpose
      rw [hget] at hget'
      cases hget'
    | interrupted hold hread hchecksum =>
      refine hvacuous rfl fun name manifest hreplaces => ?_
      obtain ⟨_, _, checksum, _, -, -, hchecksum', -⟩ := hreplaces.of_loading hloading
      rw [hchecksum] at hchecksum'
      cases hchecksum'
    | already hread hget =>
      refine hvacuous rfl fun name manifest hreplaces => ?_
      obtain ⟨_, _, _, _, hpurpose, -⟩ := hreplaces.of_loading hloading
      cases hpurpose
    | unmet hread hchecksum hget hmet =>
      refine hvacuous rfl fun name manifest hreplaces => ?_
      obtain ⟨_, _, _, _, hpurpose, -⟩ := hreplaces.of_loading hloading
      cases hpurpose
    | mismatch hread hget hmismatch =>
      refine hvacuous rfl fun name manifest hreplaces => ?_
      obtain ⟨_, _, _, _, hpurpose, hread', -, -, hname, htarget, -⟩ :=
        hreplaces.of_loading hloading
      cases hpurpose
      rw [hread] at hread'
      cases hread'
      tauto
    | incompatible hread hchecksum hget hname htarget hbreaks =>
      refine hvacuous rfl fun name manifest hreplaces => ?_
      obtain ⟨_, _, _, _, hpurpose, hread', -, -, -, -, hcompatible⟩ :=
        hreplaces.of_loading hloading
      cases hpurpose
      rw [hread] at hread'
      cases hread'
      exact hbreaks hcompatible
    | @installed manifest loaded checksum source reference provenance hread hchecksum hget hmet =>
      refine iff_of_true ?_ fun name manifest hreplaces => ?_
      · apply (dependenciesInstalled_set_iff _ h ?_).mpr
        · intro need hneed
          have hserved := PackRegistry.checkDependenciesMet_eq_nil.mp hmet need hneed
          refine hserved.update_of_ne (fun hkey => ?_) _
          obtain ⟨other, hother, -⟩ := hserved
          rw [hkey, hget] at hother
          cases hother
        · intro other pack hother hpack need hneed hkey
          exact absurd hkey (h.key_ne hget hpack hneed)
      · obtain ⟨_, _, _, _, hpurpose, -⟩ := hreplaces.of_loading hloading
        cases hpurpose
    | @replaced name target manifest loaded checksum old source reference provenance hread hchecksum
        hget hname htarget hcompatible =>
      have hreplaces : s.Replaces step name manifest :=
        ⟨path, target, loaded, checksum, old, hloading, hread, hchecksum, hget, hname, htarget,
          hcompatible⟩
      have hset := dependenciesInstalled_set_iff
        ((PackRegistry.installedPack path manifest loaded checksum).fromSource source reference
          provenance) h fun other pack hother hpack need hneed hkey =>
        PackRegistry.accepts_of_compatible hcompatible hother hpack hneed hkey
      apply hset.trans
      constructor
      · intro hserved other manifest' hreplaces' dep hdep
        obtain ⟨_, _, _, _, hpurpose, hread', -⟩ := hreplaces'.of_loading hloading
        cases hpurpose
        rw [hread] at hread'
        cases hread'
        exact served_iff_versionAfter.mp (hserved dep.need ⟨dep, hdep, rfl⟩)
      · intro hsupplied need hneed
        obtain ⟨dep, hdep, rfl⟩ := hneed
        exact served_iff_versionAfter.mpr (hsupplied name manifest hreplaces dep hdep)

/-- In a run from a state that has the dependencies installed, all the states have
exactly if every version that replaces another one is supplied. -/
theorem run_dependenciesInstalled_iff {s : PackSystem}
    (h : DependenciesInstalled s.registry.installed) (steps : List PackStep) :
    History.Along next (fun s step => DependenciesInstalled (s.next step).registry.installed) s
        steps ↔ History.Along next Supplied s steps :=
  History.along_iff_of_step_iff (I := fun s : PackSystem =>
    DependenciesInstalled s.registry.installed)
    (fun _ _ => dependenciesInstalled_next_iff) h steps

def fresh (skills : SkillRegistry) : PackSystem :=
  ⟨⟨skills, .empty, ⟨.empty, .empty, .empty, .empty, .empty⟩⟩, .empty⟩

theorem dependenciesInstalled_fresh (skills : SkillRegistry) :
    DependenciesInstalled (fresh skills).registry.installed := by
  intro name pack hget
  simp [fresh] at hget

end PackSystem

/-- The pack `notes` with one skill. -/
def notesManifest (version : Text) (packDependencies : List PackDependency)
    (versionValid : isSemver version = true) : PackManifest where
  name := Text.ofString "notes"
  version := version
  skills := [⟨Text.ofString "notes", Text.ofString "skill", [], true⟩]
  packDependencies := packDependencies
  nameValid := by decide
  versionValid := versionValid
  skillsNonempty := by simp
  skillNamesUnique := by simp

def notesSkill (name : Text) (path : Path) (version : Text) : SkillDefinition :=
  ⟨name, version, [], [], some path⟩

def notesDir (manifest : PackManifest) (skillName : Text) (path : Path) : PackDir where
  isDir := true
  manifestFile := some (.ok manifest)
  skillPath _ := ⟨true, true, .ok (notesSkill skillName path manifest.version)⟩
  mismatches := .ok []
  checksum := .ok (Text.ofString "sha256:0")

def notesSurroundings (manifest : Path → PackManifest) (skillName : Path → Text) :
    Surroundings where
  trustPolicy := ⟨false, .untrusted, []⟩
  dir path := notesDir (manifest path) (skillName path) path
  within base path := base == path
  marketplace := none
  verifyPack _ _ _ := false
  loadedInside path entryPath skill hinside hload := by
    cases hload
    exact ⟨path, rfl, by simp⟩

def firstVersion : PackManifest := notesManifest (Text.ofString "1.0.0") [] (by decide)

def secondVersion : PackManifest := notesManifest (Text.ofString "2.0.0") [] (by decide)

def needyVersion : PackManifest :=
  notesManifest (Text.ofString "2.0.0") [⟨Text.ofString "fonts", Text.ofString "^1.0.0"⟩]
    (by decide)

variable (manifest : PackManifest) (skillName : String)

/-- The first version in the directory `old`, whose skill is called `notes`, and another
one in all the others. -/
def twoVersionsOf : Surroundings :=
  notesSurroundings
    (fun path => if path = Text.ofString "old" then firstVersion else manifest)
    (fun path => if path = Text.ofString "old" then Text.ofString "notes"
      else Text.ofString skillName)

def installFirst : PackStep where
  surroundings := twoVersionsOf manifest skillName
  op := .install ⟨Text.ofString "local", Text.ofString "old", [], []⟩ none []

def upgradeTo : PackStep where
  surroundings := twoVersionsOf manifest skillName
  op := .upgrade (Text.ofString "notes") (Text.ofString "new") []

namespace PackSystem

theorem run_dependenciesInstalled_secondVersion :
    History.Along next (fun s step => DependenciesInstalled (s.next step).registry.installed)
      (fresh .empty) [installFirst secondVersion "notes", upgradeTo secondVersion "notes"] := by
  apply (run_dependenciesInstalled_iff (dependenciesInstalled_fresh .empty) _).mpr
  refine ⟨fun name manifest hreplaces => ?_, fun name manifest hreplaces => ?_, trivial⟩
  · obtain ⟨path, target, loaded, checksum, old, hloading, -⟩ := hreplaces
    cases hloading
  · obtain ⟨path, target, loaded, checksum, old, hloading, hread, -⟩ := hreplaces
    cases hloading
    cases hread
    intro dep hdep
    cases hdep

/-- The new version depends on a pack that was never installed. -/
theorem needyVersion_not_dependenciesInstalled :
    ¬ History.Along next (fun s step => DependenciesInstalled (s.next step).registry.installed)
      (fresh .empty) [installFirst needyVersion "notes", upgradeTo needyVersion "notes"] := by
  rintro ⟨-, h, -⟩
  have hneeds : ((((fresh .empty).next (installFirst needyVersion "notes")).next
      (upgradeTo needyVersion "notes")).registry.installed.get? (Text.ofString "notes")).map
        InstalledPack.packDependencies =
      some [⟨Text.ofString "fonts", Text.ofString "^1.0.0"⟩] := by decide +kernel
  have hmissing : (((fresh .empty).next (installFirst needyVersion "notes")).next
      (upgradeTo needyVersion "notes")).registry.installed.get? (Text.ofString "fonts") = none := by
    decide +kernel
  obtain ⟨pack, hpack, hdeps⟩ := Option.map_eq_some_iff.mp hneeds
  obtain ⟨fonts, hfonts, -⟩ := h _ pack hpack _ ⟨_, hdeps ▸ mem_cons_self, rfl⟩
  exact absurd (hfonts.symm.trans hmissing) (by simp)

end PackSystem

end Agent33.Packs
