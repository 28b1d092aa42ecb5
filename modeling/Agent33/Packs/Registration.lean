import Agent33.Packs.Changes

/-!
# What registering and unregistering a pack does to the skills

Qualified names contain a slash, pack names do not, so that a qualified name
tells its pack. Registering a pack sets its qualified names and takes the bare
names that are free; unregistering it removes the qualified names and the bare
names of the manifest whose skill lies in the pack's directory.
-/

namespace Agent33.Packs

open Library List

variable {name key : Text} {skills : SkillRegistry} {loaded : List SkillDefinition}

theorem slash_mem_qualifiedName (name skillName : Text) : '/' ∈ qualifiedName name skillName := by
  simp [qualifiedName]

def owner (key : Text) : Text := key.takeWhile (· ≠ '/')

theorem owner_qualifiedName (hname : '/' ∉ name) (skillName : Text) :
    owner (qualifiedName name skillName) = name := by
  have hall : ∀ c ∈ name, decide (c ≠ '/') = true := by
    intro c hc
    have hne : c ≠ '/' := fun heq => hname (heq ▸ hc)
    simp [hne]
  rw [owner, qualifiedName, takeWhile_append_of_pos hall]
  simp

def packSkills (name : Text) (loaded : List SkillDefinition) : SkillRegistry :=
  loaded.foldl (fun skills skill => skills.register (qualifiedSkill name skill)) .empty

theorem get?_packSkills_concat (skill : SkillDefinition) :
    (packSkills name (loaded ++ [skill])).get? key =
      if key = qualifiedName name skill.name then some (qualifiedSkill name skill)
      else (packSkills name loaded).get? key := by
  rw [packSkills, foldl_concat, SkillRegistry.register, Dict.get?_set]
  rfl

theorem get?_packSkills_eq_none :
    (packSkills name loaded).get? key = none ↔
      key ∉ loaded.map fun skill => qualifiedName name skill.name := by
  induction loaded using List.reverseRecOn with
  | nil => simp [packSkills]
  | append_singleton rest skill ih =>
    rw [get?_packSkills_concat]
    split_ifs with hkey
    · simp [hkey]
    · rw [ih]
      simp [hkey]

theorem owner_of_packSkills (hname : '/' ∉ name)
    (h : (packSkills name loaded).get? key = some skill) : owner key = name := by
  have hmem : key ∈ loaded.map fun skill => qualifiedName name skill.name := by
    by_contra hnot
    rw [get?_packSkills_eq_none.mpr hnot] at h
    cases h
  obtain ⟨other, -, rfl⟩ := mem_map.mp hmem
  exact owner_qualifiedName hname other.name

def register (name : Text) (skills : SkillRegistry) (loaded : List SkillDefinition) :
    SkillRegistry :=
  (registerPackSkills name skills loaded).1

theorem register_concat (skill : SkillDefinition) :
    register name skills (loaded ++ [skill]) =
      registerPackSkill name (register name skills loaded) skill :=
  foldl_concat _ _ _ _

theorem get?_register_of_slash (hplain : ∀ skill ∈ loaded, '/' ∉ skill.name) (hkey : '/' ∈ key) :
    (register name skills loaded).get? key =
      ((packSkills name loaded).get? key).or (skills.get? key) := by
  induction loaded using List.reverseRecOn with
  | nil => simp [register, registerPackSkills, packSkills]
  | append_singleton rest skill ih =>
    have hne : key ≠ skill.name := fun heq =>
      hplain skill (by simp) (heq ▸ hkey)
    have hrest := ih fun other hother => hplain other (mem_append_left _ hother)
    rw [register_concat, registerPackSkill, get?_packSkills_concat]
    have hset : ((register name skills rest).register (qualifiedSkill name skill)).get? key =
        if key = qualifiedName name skill.name then some (qualifiedSkill name skill)
        else (register name skills rest).get? key := by
      rw [SkillRegistry.register, Dict.get?_set]
      rfl
    have hstep : (if ((register name skills rest).register (qualifiedSkill name skill)).get?
        skill.name = none then ((register name skills rest).register
          (qualifiedSkill name skill)).register skill
        else (register name skills rest).register (qualifiedSkill name skill)).get? key =
      ((register name skills rest).register (qualifiedSkill name skill)).get? key := by
      split_ifs
      · rw [SkillRegistry.register, Dict.get?_set, if_neg hne]
      · rfl
    rw [hstep, hset, hrest]
    split_ifs <;> rfl

theorem get?_register_of_not_slash (name : Text) (skills : SkillRegistry)
    (loaded : List SkillDefinition) (hkey : '/' ∉ key) :
    (∃ skill, skills.get? key = some skill ∧
        (register name skills loaded).get? key = some skill) ∨
      (skills.get? key = none ∧ ((register name skills loaded).get? key = none ∨
        ∃ skill ∈ loaded, skill.name = key ∧
          (register name skills loaded).get? key = some skill)) := by
  induction loaded using List.reverseRecOn with
  | nil =>
    cases hget : skills.get? key with
    | none => exact .inr ⟨rfl, .inl hget⟩
    | some skill => exact .inl ⟨skill, rfl, hget⟩
  | append_singleton rest skill ih =>
    have hne : key ≠ qualifiedName name skill.name := fun heq =>
      hkey (heq ▸ slash_mem_qualifiedName name skill.name)
    have hset (other : Text) (hother : '/' ∉ other) :
        ((register name skills rest).register (qualifiedSkill name skill)).get? other =
          (register name skills rest).get? other := by
      rw [SkillRegistry.register, Dict.get?_set, if_neg]
      intro heq
      exact hother (heq ▸ slash_mem_qualifiedName name skill.name)
    rw [register_concat, registerPackSkill]
    by_cases hfree : ((register name skills rest).register (qualifiedSkill name skill)).get?
        skill.name = none
    · rw [if_pos hfree, SkillRegistry.register, Dict.get?_set, hset key hkey]
      by_cases heq : key = skill.name
      · rw [← heq, hset key hkey] at hfree
        rw [if_pos heq]
        obtain ⟨other, -, hother⟩ | ⟨hnone, -⟩ := ih
        · rw [hfree] at hother
          cases hother
        · exact .inr ⟨hnone, .inr ⟨skill, by simp, heq.symm, rfl⟩⟩
      · rw [if_neg heq]
        obtain hkept | ⟨hnone, hnew | ⟨other, hother, hname, hget⟩⟩ := ih
        · exact .inl hkept
        · exact .inr ⟨hnone, .inl hnew⟩
        · exact .inr ⟨hnone, .inr ⟨other, mem_append_left _ hother, hname, hget⟩⟩
    · rw [if_neg hfree, hset key hkey]
      obtain hkept | ⟨hnone, hnew | ⟨other, hother, hname, hget⟩⟩ := ih
      · exact .inl hkept
      · exact .inr ⟨hnone, .inl hnew⟩
      · exact .inr ⟨hnone, .inr ⟨other, mem_append_left _ hother, hname, hget⟩⟩

theorem keys_prefix_register : skills.keys <+: (register name skills loaded).keys := by
  induction loaded using List.reverseRecOn with
  | nil => exact prefix_refl _
  | append_singleton rest skill ih =>
    rw [register_concat, registerPackSkill]
    have hset := (register name skills rest).keys_prefix_set (qualifiedName name skill.name)
      (qualifiedSkill name skill)
    split_ifs
    · exact (ih.trans hset).trans (Dict.keys_prefix_set _ _ _)
    · exact ih.trans hset

def Recorded (name : Text) (skills : SkillRegistry) (loaded : List SkillDefinition) : Prop :=
  ∀ skill ∈ loaded, skills.get? (qualifiedName name skill.name) = some (qualifiedSkill name skill) ∧
    skills.get? skill.name ≠ none

theorem register_eq_self (h : Recorded name skills loaded) :
    register name skills loaded = skills := by
  induction loaded using List.reverseRecOn with
  | nil => rfl
  | append_singleton rest skill ih =>
    obtain ⟨hqualified, htaken⟩ := h skill (by simp)
    rw [register_concat, ih fun other hother => h other (mem_append_left _ hother),
      registerPackSkill, SkillRegistry.register]
    have hset : skills.set (qualifiedSkill name skill).name (qualifiedSkill name skill) = skills :=
      Dict.set_eq_self hqualified
    rw [hset, if_neg htaken]

def LiesIn (within : Path → Path → Bool) (packDir : Path) (skills : SkillRegistry) (key : Text) :
    Prop :=
  ∃ skill base, skills.get? key = some skill ∧ skill.basePath = some base ∧
    within base packDir = true

variable {within : Path → Path → Bool} {packDir : Path} {entries : List PackSkillEntry}

variable {entry : PackSkillEntry} {pack : InstalledPack}

theorem removeAlias_of_liesIn (h : LiesIn within packDir skills entry.name) :
    removeAlias within packDir skills entry = skills.erase entry.name := by
  obtain ⟨skill, base, hget, hbase, hwithin⟩ := h
  simp [removeAlias, hget, hbase, hwithin]

theorem removeAlias_of_not_liesIn (h : ¬ LiesIn within packDir skills entry.name) :
    removeAlias within packDir skills entry = skills := by
  unfold removeAlias
  cases hget : skills.get? entry.name with
  | none => rfl
  | some skill =>
    cases hbase : skill.basePath with
    | none => simp [hbase]
    | some base =>
      have hwithin : ¬ within base packDir = true := fun hwithin =>
        h ⟨skill, base, hget, hbase, hwithin⟩
      simp [hbase, hwithin]

theorem get?_removeAlias_of_ne (hne : key ≠ entry.name) :
    (removeAlias within packDir skills entry).get? key = skills.get? key := by
  by_cases h : LiesIn within packDir skills entry.name
  · rw [removeAlias_of_liesIn h, Dict.get?_erase, if_neg hne]
  · rw [removeAlias_of_not_liesIn h]

theorem get?_removeAliases_of_notMem (hkey : ∀ entry ∈ entries, entry.name ≠ key) :
    (entries.foldl (removeAlias within packDir) skills).get? key = skills.get? key := by
  induction entries generalizing skills with
  | nil => rfl
  | cons entry rest ih =>
    rw [foldl_cons, ih fun other hother => hkey other (mem_cons_of_mem entry hother)]
    exact get?_removeAlias_of_ne (hkey entry mem_cons_self).symm

theorem get?_removeAliases_of_not_liesIn (h : ¬ LiesIn within packDir skills key) :
    (entries.foldl (removeAlias within packDir) skills).get? key = skills.get? key := by
  induction entries generalizing skills with
  | nil => rfl
  | cons entry rest ih =>
    have hstep : (removeAlias within packDir skills entry).get? key = skills.get? key := by
      by_cases hkey : key = entry.name
      · rw [removeAlias_of_not_liesIn (hkey ▸ h)]
      · exact get?_removeAlias_of_ne hkey
    rw [foldl_cons, ih, hstep]
    rw [LiesIn, hstep]
    exact h

theorem get?_removeAliases_of_liesIn (h : LiesIn within packDir skills key)
    (hkey : ∃ entry ∈ entries, entry.name = key) :
    (entries.foldl (removeAlias within packDir) skills).get? key = none := by
  induction entries generalizing skills with
  | nil => simp at hkey
  | cons entry rest ih =>
    rw [foldl_cons]
    by_cases hname : entry.name = key
    · subst hname
      have hgone : (removeAlias within packDir skills entry).get? entry.name = none := by
        rw [removeAlias_of_liesIn h, Dict.get?_erase, if_pos rfl]
      rw [get?_removeAliases_of_not_liesIn, hgone]
      rintro ⟨skill, base, hget, -⟩
      rw [hgone] at hget
      cases hget
    · have hsame : (removeAlias within packDir skills entry).get? key = skills.get? key :=
        get?_removeAlias_of_ne (Ne.symm hname)
      apply ih
      · rw [LiesIn, hsame]
        exact h
      · obtain ⟨other, hother, heq⟩ := hkey
        cases mem_cons.mp hother with
        | inl hfirst => exact absurd (hfirst ▸ heq) hname
        | inr hrest => exact ⟨other, hrest, heq⟩

theorem get?_foldl_erase (names : List Text) :
    (names.foldl Dict.erase skills).get? key = if key ∈ names then none else skills.get? key := by
  induction names generalizing skills with
  | nil => simp
  | cons first rest ih =>
    rw [foldl_cons, ih, Dict.get?_erase]
    by_cases hfirst : key = first
    · simp [hfirst]
    · simp [hfirst]

theorem keys_foldl_erase_sublist (names : List Text) :
    (names.foldl Dict.erase skills).keys.Sublist skills.keys := by
  induction names generalizing skills with
  | nil => exact List.Sublist.refl _
  | cons first rest ih => exact ih.trans (skills.keys_erase_sublist first)

theorem keys_removeAliases_sublist :
    (entries.foldl (removeAlias within packDir) skills).keys.Sublist skills.keys := by
  induction entries generalizing skills with
  | nil => exact List.Sublist.refl _
  | cons entry rest ih =>
    rw [foldl_cons]
    refine ih.trans ?_
    by_cases h : LiesIn within packDir skills entry.name
    · rw [removeAlias_of_liesIn h]
      exact skills.keys_erase_sublist entry.name
    · rw [removeAlias_of_not_liesIn h]

theorem get?_unregister_of_slash (hplain : ∀ entry ∈ pack.skills, '/' ∉ entry.name)
    (hkey : '/' ∈ key) : (unregisterPackSkills within skills pack).get? key =
      if key ∈ pack.loadedSkillNames then none else skills.get? key := by
  rw [unregisterPackSkills, get?_removeAliases_of_notMem, get?_foldl_erase]
  intro entry hentry heq
  exact hplain entry hentry (heq ▸ hkey)

/-- The bare names that registering takes are names of the manifest, and no other
skill that lies in the directory has such a name. -/
structure Clean (within : Path → Path → Bool) (packDir : Path) (skills : SkillRegistry)
    (entries : List PackSkillEntry) (loaded : List SkillDefinition) : Prop where
  named : ∀ skill ∈ loaded, skills.get? skill.name = none →
    ∃ entry ∈ entries, entry.name = skill.name
  apart : ∀ entry ∈ entries, ¬ LiesIn within packDir skills entry.name

theorem unregister_register
    (hnames : pack.loadedSkillNames = loaded.map fun skill => qualifiedName name skill.name)
    (hskills : ∀ skill ∈ loaded, '/' ∉ skill.name)
    (hentries : ∀ entry ∈ pack.skills, '/' ∉ entry.name)
    (hinside : ∀ skill ∈ loaded, ∃ base, skill.basePath = some base ∧
      within base pack.packDir = true)
    (hnew : ∀ skill ∈ loaded, skills.get? (qualifiedName name skill.name) = none)
    (hclean : Clean within pack.packDir skills pack.skills loaded) :
    unregisterPackSkills within (register name skills loaded) pack = skills := by
  have hkeys : (unregisterPackSkills within (register name skills loaded) pack).keys.Sublist
      (register name skills loaded).keys :=
    keys_removeAliases_sublist.trans (keys_foldl_erase_sublist _)
  refine Dict.eq_of_sublist (register name skills loaded).nodup hkeys
    keys_prefix_register.sublist fun key => ?_
  by_cases hkey : '/' ∈ key
  · rw [get?_unregister_of_slash hentries hkey, hnames, get?_register_of_slash hskills hkey]
    split_ifs with hmem
    · obtain ⟨skill, hskill, rfl⟩ := mem_map.mp hmem
      exact (hnew skill hskill).symm
    · rw [get?_packSkills_eq_none.mpr hmem]
      rfl
  · have herase : (pack.loadedSkillNames.foldl Dict.erase (register name skills loaded)).get? key =
        (register name skills loaded).get? key := by
      rw [get?_foldl_erase, if_neg]
      rw [hnames]
      intro hmem
      obtain ⟨skill, -, rfl⟩ := mem_map.mp hmem
      exact hkey (slash_mem_qualifiedName name skill.name)
    rw [unregisterPackSkills]
    obtain ⟨skill, hget, hkept⟩ | ⟨hget, hfree | ⟨skill, hskill, hname, htaken⟩⟩ :=
      get?_register_of_not_slash name skills loaded hkey
    · by_cases hentry : ∃ entry ∈ pack.skills, entry.name = key
      · obtain ⟨entry, hentry, rfl⟩ := hentry
        rw [get?_removeAliases_of_not_liesIn, herase, hkept, hget]
        rw [LiesIn, herase, hkept, ← hget]
        exact hclean.apart entry hentry
      · rw [get?_removeAliases_of_notMem fun entry hmem heq => hentry ⟨entry, hmem, heq⟩, herase,
          hkept, hget]
    · rw [get?_removeAliases_of_not_liesIn, herase, hfree, hget]
      rintro ⟨skill, base, hskill, -⟩
      rw [herase, hfree] at hskill
      cases hskill
    · obtain ⟨base, hbase, hwithin⟩ := hinside skill hskill
      rw [get?_removeAliases_of_liesIn, hget]
      · exact ⟨skill, base, by rw [herase, htaken], hbase, hwithin⟩
      · subst hname
        exact hclean.named skill hskill hget

end Agent33.Packs
