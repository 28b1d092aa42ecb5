import Agent33.Packs.Closure
import Agent33.Packs.Registration

/-!
# The skill registry and the installed packs

Next to the registry goes a record of the skills that were read from the
directory of each installed version. The two agree when the skills with
qualified names are those of the installed packs as they were read. Loading a
pack registers its skills before it is checked whether the pack may be installed
or may replace the installed version, so that agreement, and what a failed
operation leaves behind, depend on what was registered before.
-/

namespace Agent33.Packs

open Library List Option

structure Tracked where
  system : PackSystem
  loaded : Text → List SkillDefinition

namespace Tracked

variable (t : Tracked) (step : PackStep)

def next : Tracked where
  system := t.system.next step
  loaded :=
    if Failed (t.system.outcome step) then t.loaded
    else
      match t.system.loading step.surroundings step.op with
      | none => t.loaded
      | some (path, _) =>
        match (step.surroundings.dir path).read path with
        | .error _ => t.loaded
        | .ok (manifest, skills) => Function.update t.loaded manifest.name skills

def Agrees : Prop :=
  ∀ key skill, '/' ∈ key → (t.system.registry.skillRegistry.get? key = some skill ↔
    ∃ name pack, t.system.registry.installed.get? name = some pack ∧
      (packSkills name (t.loaded name)).get? key = some skill)

def Keeps : Prop :=
  (t.next step).Agrees ∧
    (Failed (t.system.outcome step) = true → (t.next step).system.registry = t.system.registry)

end Tracked

namespace PackRegistry

variable (s : PackRegistry) (w : Surroundings) (path : Path)

structure SafeInstall (manifest : PackManifest) (loaded : List SkillDefinition) : Prop where
  recorded : (∃ e, (w.dir path).checksum = .error e) ∨
      (∃ existing, s.installed.get? manifest.name = some existing) →
    Recorded manifest.name s.skillRegistry loaded
  clean : ∀ checksum, (w.dir path).checksum = .ok checksum →
    s.installed.get? manifest.name = none →
    checkDependenciesMet s.installed (installedPack path manifest loaded checksum) ≠ [] →
    Clean w.within path s.skillRegistry manifest.skills loaded

/-- Loading a pack to replace an installed one registers nothing that is not
undone, and shares no qualified name with it. -/
structure SafeUpgrade (name target : Text) (manifest : PackManifest)
    (loaded : List SkillDefinition) (old : InstalledPack) : Prop where
  recorded : (∃ e, (w.dir path).checksum = .error e) ∨ manifest.name ≠ name ∨
      (target ≠ [] ∧ manifest.version ≠ target) →
    Recorded manifest.name s.skillRegistry loaded
  unshared : ∀ checksum, (w.dir path).checksum = .ok checksum → manifest.name = name →
    (target = [] ∨ manifest.version = target) →
    ∀ skill ∈ loaded, qualifiedName name skill.name ∉ old.loadedSkillNames
  clean : ∀ checksum, (w.dir path).checksum = .ok checksum → manifest.name = name →
    (target = [] ∨ manifest.version = target) →
    checkDependentsCompatible s.installed name manifest.version ≠ [] →
    Clean w.within path s.skillRegistry manifest.skills loaded

def Slugs (manifest : PackManifest) (loaded : List SkillDefinition) : Prop :=
  (∀ skill ∈ loaded, '/' ∉ skill.name) ∧ ∀ entry ∈ manifest.skills, '/' ∉ entry.name

instance (manifest : PackManifest) (loaded : List SkillDefinition) :
    Decidable (Slugs manifest loaded) := inferInstanceAs (Decidable (_ ∧ _))

def SafeLoad (purpose : Purpose) (manifest : PackManifest) (loaded : List SkillDefinition) : Prop :=
  match purpose with
  | .install => Slugs manifest loaded ∧ s.SafeInstall w path manifest loaded
  | .upgrade name target => ∀ old, s.installed.get? name = some old →
    Slugs manifest loaded ∧ s.SafeUpgrade w path name target manifest loaded old

def InEffect (row : Text × Dict Text Bool) : Prop :=
  ∀ cell ∈ row.2.entries, cell.2 = decide (row.1 ∈ s.enablement.enabled.getD cell.1 ∅)

def Knows (row : Text × Dict Text Bool) : Bool := (s.installed.get? row.1).isSome

def SafeMatrix (matrix : Dict Text (Dict Text Bool)) : Prop :=
  (∀ row ∈ matrix.entries, s.Knows row) ∨ ∀ row ∈ matrix.entries.takeWhile s.Knows, s.InEffect row

end PackRegistry

/-- What a step must meet for the registries to agree after it and for a failure to
leave everything as it was. -/
structure PackSystem.Safe (s : PackSystem) (step : PackStep) : Prop where
  load : ∀ path purpose manifest loaded,
    s.loading step.surroundings step.op = some (path, purpose) →
    (step.surroundings.dir path).read path = .ok (manifest, loaded) →
    s.registry.SafeLoad step.surroundings path purpose manifest loaded
  matrix : ∀ matrix, step.op = .applyEnablementMatrix matrix → s.registry.SafeMatrix matrix

/-- The registries agree, pack names have no slash, and each pack lists the names
of the skills that were read for it. -/
structure Sound (r : PackRegistry) (loaded : Text → List SkillDefinition) : Prop where
  names : ∀ name pack, r.installed.get? name = some pack → '/' ∉ name ∧
    pack.loadedSkillNames = (loaded name).map (fun skill => qualifiedName name skill.name) ∧
    ∀ entry ∈ pack.skills, '/' ∉ entry.name
  skills : ∀ key, '/' ∈ key → r.skillRegistry.get? key =
    if (r.installed.get? (owner key)).isSome then
      (packSkills (owner key) (loaded (owner key))).get? key
    else none

theorem Sound.agrees {t : Tracked} (h : Sound t.system.registry t.loaded) : t.Agrees := by
  intro key skill hkey
  rw [h.skills key hkey]
  constructor
  · intro hget
    split_ifs at hget with hinstalled
    obtain ⟨pack, hpack⟩ := isSome_iff_exists.mp hinstalled
    exact ⟨owner key, pack, hpack, hget⟩
  · rintro ⟨name, pack, hpack, hget⟩
    have howner := owner_of_packSkills (h.names name pack hpack).1 hget
    rw [howner, hpack]
    exact hget

theorem slash_notMem_of_isPackName (h : isPackName name = true) : '/' ∉ name := by
  intro hmem
  have hdrop : '/' ∈ dropNewline name := by
    unfold dropNewline
    split_ifs with hlast
    · have hne : name ≠ [] := ne_nil_of_mem hmem
      rw [getLast?_eq_some_getLast hne, some.injEq] at hlast
      rw [← dropLast_append_getLast hne, hlast] at hmem
      simpa using hmem
    · exact hmem
  simp only [isPackName, Bool.and_eq_true, List.all_eq_true] at h
  exact absurd (h.1.1.2 '/' hdrop) (by decide)

theorem PackDir.inside_of_read {w : Surroundings} {path : Path} {manifest : PackManifest}
    {loaded : List SkillDefinition} (h : (w.dir path).read path = .ok (manifest, loaded)) :
    ∀ skill ∈ loaded, ∃ base, skill.basePath = some base ∧ w.within base path = true := by
  have hloaded : loaded = manifest.skills.filterMap fun entry =>
      ((w.dir path).loadSkill entry).toOption := by
    unfold read at h
    cases hmanifest : (w.dir path).loadPackManifest path with
    | error e => simp [hmanifest] at h
    | ok found =>
      cases hmismatches : (w.dir path).mismatches with
      | error e => simp [hmanifest, hmismatches] at h
      | ok mismatches =>
        simp only [hmanifest, hmismatches] at h
        split_ifs at h
        simp only [Except.ok.injEq, Prod.mk.injEq] at h
        rw [← h.2, ← h.1]
        rfl
  intro skill hskill
  rw [hloaded, mem_filterMap] at hskill
  obtain ⟨entry, -, hentry⟩ := hskill
  unfold loadSkill at hentry
  dsimp only at hentry
  split_ifs at hentry with houtside
  · simp [Except.toOption] at hentry
  · cases hload : ((w.dir path).skillPath entry.path).load with
    | error e => simp [hload, Except.toOption] at hentry
    | ok found =>
      obtain ⟨base, hbase, hwithin⟩ :=
        w.loadedInside path entry.path found (by simpa using houtside) hload
      rw [hload] at hentry
      dsimp only at hentry
      split_ifs at hentry
      · simp only [Except.toOption, some.injEq] at hentry
        exact ⟨base, by rw [← hentry, hbase], hwithin⟩
      · simp only [Except.toOption, some.injEq] at hentry
        exact ⟨base, by rw [← hentry, hbase], hwithin⟩

namespace PackRegistry

variable {s : PackRegistry}



theorem registered_eq_self (h : Recorded manifest.name s.skillRegistry loaded) :
    s.registered manifest loaded = s := by
  have hskills : (registerPackSkills manifest.name s.skillRegistry loaded).1 = s.skillRegistry :=
    register_eq_self h
  rw [registered, hskills]

theorem unregister_registered (hread : (w.dir path).read path = .ok (manifest, loaded))
    (hslugs : Slugs manifest loaded)
    (hnew : ∀ skill ∈ loaded,
      s.skillRegistry.get? (qualifiedName manifest.name skill.name) = none)
    (hclean : Clean w.within path s.skillRegistry manifest.skills loaded) :
    (s.registered manifest loaded).unregister w (installedPack path manifest loaded checksum) =
      s := by
  have hskills : unregisterPackSkills w.within (register manifest.name s.skillRegistry loaded)
      (installedPack path manifest loaded checksum) = s.skillRegistry :=
    unregister_register rfl hslugs.1 hslugs.2 (PackDir.inside_of_read hread) hnew hclean
  have hregistered : (s.registered manifest loaded).skillRegistry =
    register manifest.name s.skillRegistry loaded := rfl
  rw [unregister, hregistered, hskills]
  rfl

theorem get?_qualified_of_not_installed (h : Sound s L) (hname : '/' ∉ name)
    (hget : s.installed.get? name = none) (skillName : Text) :
    s.skillRegistry.get? (qualifiedName name skillName) = none := by
  rw [h.skills _ (slash_mem_qualifiedName name skillName), owner_qualifiedName hname, hget]
  rfl

theorem get?_qualified_of_notMem (h : Sound s L) (hget : s.installed.get? name = some old)
    (hnot : qualifiedName name skillName ∉ old.loadedSkillNames) :
    s.skillRegistry.get? (qualifiedName name skillName) = none := by
  obtain ⟨hname, hnames, -⟩ := h.names name old hget
  rw [h.skills _ (slash_mem_qualifiedName name skillName), owner_qualifiedName hname, hget]
  rw [hnames] at hnot
  exact get?_packSkills_eq_none.mpr hnot

theorem get?_register_of_owner_ne (hslugs : Slugs manifest loaded) (hname : '/' ∉ name)
    (hkey : '/' ∈ key) (howner : owner key ≠ name) :
    (register name s.skillRegistry loaded).get? key = s.skillRegistry.get? key := by
  rw [get?_register_of_slash hslugs.1 hkey]
  cases hskill : (packSkills name loaded).get? key with
  | none => rfl
  | some skill => exact absurd (owner_of_packSkills hname hskill) howner

section

variable (h : Sound s L)
include h

theorem names_put (hname : '/' ∉ manifest.name) (hslugs : Slugs manifest loaded)
    (source reference : Text) (provenance : Option PackProvenance) {pack : InstalledPack}
    (hget : (s.installed.set manifest.name ((installedPack path manifest loaded checksum).fromSource
      source reference provenance)).get? other = some pack) :
    '/' ∉ other ∧ pack.loadedSkillNames =
        (Function.update L manifest.name loaded other).map
          (fun skill => qualifiedName other skill.name) ∧
      ∀ entry ∈ pack.skills, '/' ∉ entry.name := by
  rw [Dict.get?_set] at hget
  split_ifs at hget with hother
  · subst hother
    rw [← some.inj hget, Function.update_self]
    exact ⟨hname, rfl, hslugs.2⟩
  · rw [Function.update_of_ne hother]
    exact h.names other pack hget

theorem sound_of_frame (hinstalled : r.installed = s.installed)
    (hskills : r.skillRegistry = s.skillRegistry) : Sound r L := by
  refine ⟨fun name pack hget => h.names name pack (hinstalled ▸ hget), fun key hkey => ?_⟩
  rw [hskills, hinstalled]
  exact h.skills key hkey

theorem sound_installed (hslugs : Slugs manifest loaded)
    (hget : s.installed.get? manifest.name = none) (source reference : Text)
    (provenance : Option PackProvenance) :
    Sound ((s.registered manifest loaded).put manifest.name
      ((installedPack path manifest loaded checksum).fromSource source reference provenance))
      (Function.update L manifest.name loaded) := by
  have hname := slash_notMem_of_isPackName manifest.nameValid
  refine ⟨fun other pack => names_put h hname hslugs source reference provenance,
    fun key hkey => ?_⟩
  change (register manifest.name s.skillRegistry loaded).get? key = _
  simp only [put, registered, Dict.get?_set]
  by_cases howner : owner key = manifest.name
  · rw [howner, if_pos rfl, Function.update_self, get?_register_of_slash hslugs.1 hkey,
      h.skills key hkey, howner, hget]
    simp
  · rw [if_neg howner, Function.update_of_ne howner,
      get?_register_of_owner_ne hslugs hname hkey howner]
    exact h.skills key hkey

theorem sound_uninstalled (hget : s.installed.get? name = some old)
    (enablement : Enablement) : Sound { s.unregister w old with
      installed := s.installed.erase name
      enablement := enablement } L := by
  obtain ⟨hname, hnames, hentries⟩ := h.names name old hget
  refine ⟨fun other pack hother => ?_, fun key hkey => ?_⟩
  · rw [Dict.get?_erase] at hother
    split_ifs at hother
    exact h.names other pack hother
  · simp only [unregister, get?_unregister_of_slash hentries hkey, Dict.get?_erase]
    rw [h.skills key hkey]
    by_cases howner : owner key = name
    · have hold : key ∉ old.loadedSkillNames → (packSkills name (L name)).get? key = none := by
        intro hmem
        rw [hnames] at hmem
        exact get?_packSkills_eq_none.mpr hmem
      rw [if_pos howner, howner, hget]
      by_cases hmem : key ∈ old.loadedSkillNames
      · simp [hmem]
      · simp [hmem, hold hmem]
    · rw [if_neg howner, if_neg]
      rw [hnames]
      intro hmem
      obtain ⟨skill, -, rfl⟩ := List.mem_map.mp hmem
      exact howner (owner_qualifiedName hname skill.name)

theorem sound_replaced (hslugs : Slugs manifest loaded)
    (hget : s.installed.get? manifest.name = some old)
    (hunshared : ∀ skill ∈ loaded, qualifiedName manifest.name skill.name ∉ old.loadedSkillNames)
    (source reference : Text) (provenance : Option PackProvenance) :
    Sound (((s.registered manifest loaded).unregister w old).put manifest.name
      ((installedPack path manifest loaded checksum).fromSource source reference provenance))
      (Function.update L manifest.name loaded) := by
  obtain ⟨hname, hnames, hentries⟩ := h.names manifest.name old hget
  refine ⟨fun other pack => names_put h hname hslugs source reference provenance,
    fun key hkey => ?_⟩
  change (unregisterPackSkills w.within (register manifest.name s.skillRegistry loaded) old).get?
    key = _
  rw [get?_unregister_of_slash hentries hkey]
  simp only [put, unregister, registered, Dict.get?_set]
  by_cases howner : owner key = manifest.name
  · rw [howner, if_pos rfl, Function.update_self, get?_register_of_slash hslugs.1 hkey,
      h.skills key hkey, howner, hget]
    have hold : key ∉ old.loadedSkillNames →
        (packSkills manifest.name (L manifest.name)).get? key = none := by
      intro hmem
      rw [hnames] at hmem
      exact get?_packSkills_eq_none.mpr hmem
    have hnew : key ∈ old.loadedSkillNames → (packSkills manifest.name loaded).get? key = none := by
      intro hmem
      refine get?_packSkills_eq_none.mpr fun hloaded => ?_
      obtain ⟨skill, hskill, rfl⟩ := List.mem_map.mp hloaded
      exact hunshared skill hskill hmem
    by_cases hmem : key ∈ old.loadedSkillNames
    · simp [hmem, hnew hmem]
    · simp [hmem, hold hmem]
  · rw [if_neg howner, if_neg, Function.update_of_ne howner,
      get?_register_of_owner_ne hslugs hname hkey howner]
    · exact h.skills key hkey
    · rw [hnames]
      intro hmem
      obtain ⟨skill, -, rfl⟩ := List.mem_map.mp hmem
      exact howner (owner_qualifiedName hname skill.name)

theorem loads_keeps (hload : Loads w s path purpose r failed)
    (hsafe : ∀ manifest loaded, (w.dir path).read path = .ok (manifest, loaded) →
      s.SafeLoad w path purpose manifest loaded) :
    (failed = true ∧ r = s) ∨
      (failed = false ∧ ∃ manifest loaded, (w.dir path).read path = .ok (manifest, loaded) ∧
        Sound r (Function.update L manifest.name loaded)) := by
  cases hload with
  | unread hread => exact .inl ⟨rfl, rfl⟩
  | absent hget => exact .inl ⟨rfl, rfl⟩
  | interrupted hold hread hchecksum =>
    refine .inl ⟨rfl, registered_eq_self ?_⟩
    have hload := hsafe _ _ hread
    cases purpose with
    | install => exact hload.2.recorded (.inl ⟨_, hchecksum⟩)
    | upgrade name target =>
      obtain ⟨old, hget⟩ := hold name target rfl
      exact (hload old hget).2.recorded (.inl ⟨_, hchecksum⟩)
  | already hread hget =>
    exact .inl ⟨rfl, registered_eq_self ((hsafe _ _ hread).2.recorded (.inr ⟨_, hget⟩))⟩
  | unmet hread hchecksum hget hmet =>
    obtain ⟨hslugs, hinstall⟩ := hsafe _ _ hread
    refine .inl ⟨rfl, unregister_registered hread hslugs (fun skill _ => ?_)
      (hinstall.clean _ hchecksum hget hmet)⟩
    exact get?_qualified_of_not_installed h (slash_notMem_of_isPackName (PackManifest.nameValid _))
      hget skill.name
  | installed source reference provenance hread hchecksum hget hmet =>
    exact .inr ⟨rfl, _, _, hread,
      sound_installed h (hsafe _ _ hread).1 hget source reference provenance⟩
  | mismatch hread hget hmismatch =>
    exact .inl ⟨rfl, registered_eq_self ((hsafe _ _ hread _ hget).2.recorded (.inr hmismatch))⟩
  | incompatible hread hchecksum hget hname htarget hbreaks =>
    subst hname
    obtain ⟨hslugs, hupgrade⟩ := hsafe _ _ hread _ hget
    refine .inl ⟨rfl, unregister_registered hread hslugs (fun skill hskill => ?_)
      (hupgrade.clean _ hchecksum rfl htarget hbreaks)⟩
    exact get?_qualified_of_notMem h hget
      (hupgrade.unshared _ hchecksum rfl htarget skill hskill)
  | replaced source reference provenance hread hchecksum hget hname htarget hcompatible =>
    subst hname
    obtain ⟨hslugs, hupgrade⟩ := hsafe _ _ hread _ hget
    exact .inr ⟨rfl, _, _, hread, sound_replaced h hslugs hget
      (hupgrade.unshared _ hchecksum rfl htarget) source reference provenance⟩

end

theorem setEnabled_eq_self (h : on = decide (name ∈ s.enablement.enabled.getD tenantId ∅)) :
    s.setEnabled name tenantId on = s := by
  have henabled : (if on then s.enablement.enabled.set tenantId
        (insert name (s.enablement.enabled.getD tenantId ∅))
      else if s.enablement.enabled.get? tenantId = none then s.enablement.enabled
      else s.enablement.enabled.set tenantId
        ((s.enablement.enabled.getD tenantId ∅).erase name)) = s.enablement.enabled := by
    cases hget : s.enablement.enabled.get? tenantId with
    | none =>
      have hnot : on = false := by simpa [Dict.getD, hget] using h
      simp [hnot]
    | some names =>
      rw [Dict.getD, hget, getD_some] at h ⊢
      cases on with
      | true =>
        have hmem : name ∈ names := by simpa using h.symm
        rw [if_pos rfl, Finset.insert_eq_of_mem hmem]
        exact Dict.set_eq_self hget
      | false =>
        have hmem : name ∉ names := by simpa using h.symm
        rw [Finset.erase_eq_of_notMem hmem]
        simpa using Dict.set_eq_self hget
  unfold setEnabled
  dsimp only
  rw [henabled]

theorem applyEnablementRow_eq_self (h : s.InEffect row) : s.applyEnablementRow row.1 row.2 = s := by
  unfold InEffect at h
  unfold applyEnablementRow
  generalize row.2.entries = cells at h
  induction cells with
  | nil => rfl
  | cons cell rest ih =>
    rw [foldl_cons, setEnabled_eq_self (h cell mem_cons_self)]
    exact ih fun other hother => h other (mem_cons_of_mem cell hother)

theorem applyEnablementRows_eq_self (h : ∀ row ∈ rows.takeWhile s.Knows, s.InEffect row)
    (herror : PackSystem.isError (s.applyEnablementRows rows).2 = true) :
    (s.applyEnablementRows rows).1 = s := by
  induction rows with
  | nil => cases herror
  | cons row rest ih =>
    rw [applyEnablementRows] at herror ⊢
    by_cases hget : s.installed.get? row.1 = none
    · rw [if_pos hget]
    · have hknows : s.Knows row = true := by
        rw [Knows, isSome_iff_ne_none]
        exact hget
      rw [takeWhile_cons_of_pos hknows] at h
      rw [if_neg hget, applyEnablementRow_eq_self (h row mem_cons_self)] at herror ⊢
      exact ih (fun other hother => h other (mem_cons_of_mem row hother)) herror

theorem applyEnablementRows_ok (h : ∀ row ∈ rows, s.Knows row) :
    PackSystem.isError (s.applyEnablementRows rows).2 = false := by
  induction rows generalizing s with
  | nil => rfl
  | cons row rest ih =>
    have hget : ¬ s.installed.get? row.1 = none := by
      rw [← ne_eq, ← isSome_iff_ne_none]
      exact h row mem_cons_self
    rw [applyEnablementRows, if_neg hget]
    apply ih
    intro other hother
    rw [Knows, (s.applyEnablementRow_frame row.1 row.2).1]
    exact h other (mem_cons_of_mem row hother)

end PackRegistry

namespace Tracked

variable {t : Tracked} {step : PackStep}

open PackRegistry in
theorem sound_next (h : Sound t.system.registry t.loaded) (hsafe : t.system.Safe step) :
    Sound (t.next step).system.registry (t.next step).loaded ∧
      (Failed (t.system.outcome step) = true →
        (t.next step).system.registry = t.system.registry) := by
  have hchange := t.system.change_next step
  unfold next
  dsimp only
  generalize (t.system.next step).registry = r at hchange
  generalize Failed (t.system.outcome step) = failed at hchange
  cases hchange with
  | refused hloading => exact ⟨by simpa using h, fun _ => rfl⟩
  | archived hloading => exact ⟨by simpa [hloading] using h, fun hfailed => nomatch hfailed⟩
  | enabled hloading =>
    refine ⟨?_, fun hfailed => nomatch hfailed⟩
    simp only [hloading]
    exact ⟨h.names, h.skills⟩
  | uninstalled hop hget hdependents =>
    refine ⟨?_, fun hfailed => nomatch hfailed⟩
    simp only [hop, PackSystem.loading]
    exact sound_uninstalled h hget _
  | @matrix matrix hop =>
    have hframe := t.system.registry.applyEnablementRows_frame matrix.entries
    have hloading : t.system.loading step.surroundings step.op = none := by
      rw [hop]
      rfl
    refine ⟨?_, fun hfailed => ?_⟩
    · simp only [hloading, ite_self]
      exact sound_of_frame h hframe.1 hframe.2
    · cases hsafe.matrix matrix hop with
      | inl hknown =>
        rw [applyEnablementMatrix, applyEnablementRows_ok hknown]
          at hfailed
        cases hfailed
      | inr heffect => exact applyEnablementRows_eq_self heffect hfailed
  | @loads path purpose _ _ hloading hloads =>
    obtain ⟨rfl, rfl⟩ | ⟨rfl, manifest, loaded, hread, hsound⟩ :=
      loads_keeps h hloads fun manifest loaded =>
        hsafe.load path purpose manifest loaded hloading
    · exact ⟨by simpa using h, fun _ => rfl⟩
    · refine ⟨?_, fun hfailed => nomatch hfailed⟩
      simpa [hloading, hread] using hsound

theorem run_keeps (h : Sound t.system.registry t.loaded)
    (hsafe : History.Along next (fun t step => t.system.Safe step) t steps) :
    History.Along next Keeps t steps :=
  History.Along.imp (I := fun t : Tracked => Sound t.system.registry t.loaded)
    (R := fun _ _ => True) (fun _ _ h _ hsafe => (sound_next h hsafe).1)
    (fun _ _ h _ hsafe => ⟨(sound_next h hsafe).1.agrees, (sound_next h hsafe).2⟩) h
    (History.along_of_invariant (I := fun _ => True) (fun _ _ _ => trivial)
      (fun _ _ _ => trivial) trivial steps) hsafe

def start (skills : SkillRegistry) : Tracked := ⟨.fresh skills, fun _ => []⟩

theorem sound_start (hskills : ∀ key ∈ skills.keys, '/' ∉ key) :
    Sound (start skills).system.registry (start skills).loaded := by
  refine ⟨fun name pack hget => ?_, fun key hkey => ?_⟩
  · simp [start, PackSystem.fresh] at hget
  · have hnone : skills.get? key = none := by
      rw [Dict.get?_eq_none]
      exact fun hmem => hskills key hmem hkey
    simpa [start, PackSystem.fresh] using hnone

theorem run_start_keeps {skills : SkillRegistry} (hskills : ∀ key ∈ skills.keys, '/' ∉ key)
    {steps : List PackStep}
    (hsafe : History.Along next (fun t step => t.system.Safe step) (start skills) steps) :
    History.Along next Keeps (start skills) steps :=
  run_keeps (sound_start hskills) hsafe

/-- An upgrade to a version whose skill has another name. -/
theorem run_start_keeps_summary :
    History.Along next Keeps (start .empty)
      [installFirst secondVersion "summary", upgradeTo secondVersion "summary"] := by
  refine run_start_keeps (by simp) ⟨⟨?_, fun matrix hop => by cases hop⟩,
    ⟨?_, fun matrix hop => by cases hop⟩, trivial⟩
  · intro path purpose manifest loaded hloading hread
    cases hloading
    cases hread
    refine ⟨by decide +kernel, fun hrefused => ?_, fun checksum _ _ hunmet => absurd rfl hunmet⟩
    obtain ⟨e, he⟩ | ⟨existing, hexisting⟩ := hrefused
    · cases he
    · simp [start, PackSystem.fresh] at hexisting
  · intro path purpose manifest loaded hloading hread
    cases hloading
    cases hread
    intro old hold
    have hnames : (((start .empty).next (installFirst secondVersion
        "summary")).system.registry.installed.get? (Text.ofString "notes")).map
          InstalledPack.loadedSkillNames =
        some [qualifiedName (Text.ofString "notes") (Text.ofString "notes")] := by decide +kernel
    rw [hold, map_some, some.injEq] at hnames
    refine ⟨by decide +kernel, fun hrefused => ?_, fun _ _ _ _ => ?_,
      fun _ _ _ _ hbreaks => absurd (by decide +kernel) hbreaks⟩
    · obtain ⟨e, he⟩ | hname | ⟨htarget, -⟩ := hrefused
      · cases he
      · exact absurd rfl hname
      · exact absurd rfl htarget
    · rw [hnames]
      decide +kernel

/-- After an upgrade to a version whose skill has the same name, the skill is gone. -/
theorem sameSkill_not_keeps :
    ¬ History.Along next Keeps (start .empty)
      [installFirst secondVersion "notes", upgradeTo secondVersion "notes"] := by
  rintro ⟨-, ⟨hagrees, -⟩, -⟩
  have hversion : ((((start .empty).next (installFirst secondVersion "notes")).next
      (upgradeTo secondVersion "notes")).system.registry.installed.get?
        (Text.ofString "notes")).map InstalledPack.version = some (Text.ofString "2.0.0") := by
    decide +kernel
  obtain ⟨pack, hpack, -⟩ := map_eq_some_iff.mp hversion
  have hread : (packSkills (Text.ofString "notes") ((((start .empty).next
      (installFirst secondVersion "notes")).next (upgradeTo secondVersion "notes")).loaded
        (Text.ofString "notes"))).get? (Text.ofString "notes/notes") =
      some (notesSkill (Text.ofString "notes/notes") (Text.ofString "new")
        (Text.ofString "2.0.0")) := by decide +kernel
  have hgone : (((start .empty).next (installFirst secondVersion "notes")).next
      (upgradeTo secondVersion "notes")).system.registry.skillRegistry.get?
        (Text.ofString "notes/notes") = none := by decide +kernel
  have hheld := (hagrees _ _ (by decide)).mpr ⟨_, pack, hpack, hread⟩
  rw [hgone] at hheld
  cases hheld

end Tracked

end Agent33.Packs
