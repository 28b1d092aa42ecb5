import Agent33.Skills.Registry

/-!
# What a restart brings back

A registry against the one that a new process builds from the state store and the
same directories. Only the registration of a skill without a base path writes the
store, so that the two part when a skill is removed or promoted.
-/

namespace Agent33.Skills

open Library List Option EStateM Hoare Dict

mutual

def loads : Entry → List FileSkill
  | .file loaded => loaded.toList
  | .other => []
  | .skillDirectory loaded => loaded.toList
  | .directory entries => loadsAll entries

def loadsAll : List Entry → List FileSkill
  | [] => []
  | entry :: entries => loads entry ++ loadsAll entries

end

variable (directories : Directories)

def fileSkills (paths : List String) : List FileSkill :=
  paths.flatMap fun path => (directories path).elim [] loads

variable (skills : Dict String SkillDefinition)

def shadow (files : List FileSkill) : Dict String SkillDefinition :=
  files.foldl (fun skills file => skills.set file.val.name file.val) skills

def lastNamed (name : String) (files : List FileSkill) : Option SkillDefinition :=
  (files.reverse.find? fun file => file.val.name = name).map Subtype.val

variable {name : String}

theorem name_of_lastNamed (h : lastNamed name files = some skill) :
    skill.name = name ∧ skill.basePath ≠ none := by
  obtain ⟨file, hfile, rfl⟩ := map_eq_some_iff.mp h
  exact ⟨by simpa using find?_some hfile, file.property⟩

theorem lastNamed_eq_none : lastNamed name files = none ↔ ∀ file ∈ files, file.val.name ≠ name := by
  simp [lastNamed]

theorem shadow_append (files more : List FileSkill) :
    shadow skills (files ++ more) = shadow (shadow skills files) more :=
  foldl_append

theorem get?_shadow (files : List FileSkill)
    (name : String) :
    (shadow skills files).get? name = (lastNamed name files).or (skills.get? name) := by
  induction files using List.reverseRecOn with
  | nil => simp [shadow, lastNamed]
  | append_singleton files file ih =>
    rw [shadow_append]
    change ((shadow skills files).set file.val.name file.val).get? name = _
    rw [get?_set, ih]
    by_cases hname : name = file.val.name
    · simp [lastNamed, hname]
    · simp [lastNamed, hname, Ne.symm hname]

def Holds (saved : Option (List SkillDefinition)) (registry : SkillRegistry) : Prop :=
  registry.skills = skills ∧ registry.stateStore = saved

variable {skills : Dict String SkillDefinition} {saved : Option (List SkillDefinition)}

theorem recordLineage_spec : Hoare.Keeps (Holds skills saved) recordLineage := by
  refine keeps_get.bind fun registry => ?_
  refine Hoare.Keeps.bind (keeps_modify fun _ h => h) fun _ => ?_
  split_ifs
  · exact keeps_throw _
  · exact keeps_pure _

theorem setSkill_spec (name : String) (skill : SkillDefinition)
    {E : SkillError → SkillRegistry → Prop} :
    Hoare.Triple (Holds skills saved) (setSkill name skill)
      (fun _ => Holds (skills.set name skill) saved) E :=
  triple_modify fun _ h => ⟨congrArg (·.set name skill) h.1, h.2⟩

theorem registerFile_spec (file : FileSkill) :
    Hoare.Triple (Holds skills saved) (register file.val)
      (fun _ => Holds (shadow skills [file]) saved)
      fun _ => Holds (shadow skills [file]) saved := by
  refine Hoare.Triple.bind (setSkill_spec file.val.name file.val) fun _ => ?_
  refine Hoare.Keeps.bind recordLineage_spec fun _ => ?_
  rw [if_neg file.property]
  exact keeps_pure _

theorem registerLoaded_spec (loaded : Option FileSkill) :
    Hoare.Triple (Holds skills saved) (registerLoaded loaded)
      (fun _ => Holds (shadow skills loaded.toList) saved) fun _ _ => False := by
  cases loaded with
  | none => exact triple_pure fun _ h => h
  | some file =>
    have hregister : Hoare.Triple (Holds skills saved)
        (do
          register file.val
          return 1)
        (fun _ => Holds (shadow skills [file]) saved)
        fun _ => Holds (shadow skills [file]) saved :=
      (registerFile_spec file).bind fun _ => triple_pure fun _ h => h
    exact hregister.tryCatch fun _ => triple_pure fun _ h => h

mutual

theorem discoverPath_spec (entry : Entry) (skills : Dict String SkillDefinition) :
    Hoare.Triple (Holds skills saved) (discoverPath entry)
      (fun _ => Holds (shadow skills (loads entry)) saved) fun _ _ => False :=
  match entry with
  | .file loaded => registerLoaded_spec loaded
  | .other => triple_pure fun _ h => h
  | .skillDirectory loaded => registerLoaded_spec loaded
  | .directory entries => discoverEntries_spec entries skills

theorem discoverEntries_spec (entries : List Entry) (skills : Dict String SkillDefinition) :
    Hoare.Triple (Holds skills saved) (discoverEntries entries)
      (fun _ => Holds (shadow skills (loadsAll entries)) saved) fun _ _ => False :=
  match entries with
  | [] => triple_pure fun _ h => h
  | entry :: entries => by
    refine Hoare.Triple.bind (discoverPath_spec entry skills) fun _ => ?_
    refine Hoare.Triple.bind (discoverEntries_spec entries _) fun _ => ?_
    rw [loadsAll, shadow_append]
    exact triple_pure fun _ h => h

end

theorem discover_spec (path : String) :
    Hoare.Triple (Holds skills saved) (discover directories path)
      (fun _ => Holds (shadow skills (fileSkills directories [path])) saved) fun _ _ => False := by
  unfold discover fileSkills
  cases hpath : directories path with
  | none => exact triple_pure fun _ h => by simpa [hpath, shadow] using h
  | some entry => simpa [hpath] using discoverPath_spec entry skills

theorem discoverAll_spec (paths : List String) :
    Hoare.Triple (Holds skills saved) (discoverAll directories paths)
      (fun _ => Holds (shadow skills (fileSkills directories paths)) saved) fun _ _ => False := by
  induction paths generalizing skills with
  | nil => exact triple_pure fun _ h => h
  | cons path paths ih =>
    have hfiles : fileSkills directories (path :: paths) =
        fileSkills directories [path] ++ fileSkills directories paths := by
      simp [fileSkills]
    rw [hfiles, shadow_append]
    refine Hoare.Triple.bind
      (Q := fun _ => Holds (shadow skills (fileSkills directories [path])) saved) ?_ fun _ => ih
    exact (discover_spec directories path).discard

theorem fresh_skills (registry : SkillRegistry) (directories : Directories)
    (paths : List String) :
    (registry.fresh directories paths).skills =
      shadow (loadState (registry.stateStore.getD [])) (fileSkills directories paths) := by
  have hkeep : Hoare.Triple (Holds (loadState (registry.stateStore.getD [])) registry.stateStore)
      (discoverAll directories paths)
      (fun _ r => r.skills =
        shadow (loadState (registry.stateStore.getD [])) (fileSkills directories paths))
      (fun _ r => r.skills =
        shadow (loadState (registry.stateStore.getD [])) (fileSkills directories paths)) :=
    (discoverAll_spec directories paths).conseq (fun _ => id) (fun _ _ h => h.1)
      fun _ _ h => h.elim
  exact History.next_of_triple (discoverAll directories) hkeep ⟨rfl, rfl⟩

inductive Op
  | register (skill : SkillDefinition)
  | remove (name : String)
  | promote (name : String) (targetStatus : SkillStatus)
  | discover (path : String)

structure Live where
  registry : SkillRegistry
  loaded : List String := []

variable (directories : Directories)

def Op.body : Op → RegistryM Unit
  | .register skill => Skills.register skill
  | .remove name => discard (Skills.remove name)
  | .promote name targetStatus => discard (Skills.promote name targetStatus)
  | .discover path => discard (Skills.discover directories path)

def Live.next (s : Live) (op : Op) : Live where
  registry := History.next (Op.body directories) s.registry op
  loaded := match op with
    | .discover path => s.loaded ++ [path]
    | _ => s.loaded

def Transparent (s : Live) : Prop :=
  ∀ name, (s.registry.fresh directories s.loaded).skills.get? name = s.registry.skills.get? name

def SkillRegistry.Saves (registry : SkillRegistry) : Prop :=
  registry.lineageFaults.head? ≠ some true ∧ registry.stateStore.isSome ∧
    registry.storeFaults.head? ≠ some true

instance (registry : SkillRegistry) : Decidable registry.Saves :=
  inferInstanceAs (Decidable (_ ∧ _))

/-- A skill without a base path is saved, and no loaded file defines one of its name. Otherwise
a registration, a removal and a promotion change nothing. -/
def Recovers (s : Live) : Op → Prop
  | .register skill =>
    if skill.basePath = none ∧ s.registry.Saves then
      ∀ file ∈ fileSkills directories s.loaded, file.val.name ≠ skill.name
    else s.registry.skills.get? skill.name = some skill
  | .remove name => s.registry.skills.get? name = none
  | .promote name targetStatus => ∀ skill, s.registry.skills.get? name = some skill →
      skill.status = targetStatus
  | .discover _ => True

theorem transparent_iff (s : Live) : Transparent directories s ↔ ∀ name,
    (lastNamed name (fileSkills directories s.loaded)).or
      ((loadState (s.registry.stateStore.getD [])).get? name) = s.registry.skills.get? name := by
  simp only [Transparent, fresh_skills, get?_shadow]

structure Tracks (s : Live) : Prop where
  transparent : Transparent directories s
  names : ∀ name skill, s.registry.skills.get? name = some skill → skill.name = name
  saved : ∀ skill ∈ s.registry.stateStore.getD [], skill.basePath = none

theorem run_recordLineage (registry : SkillRegistry) :
    recordLineage.run registry =
      if registry.lineageFaults.head? = some true then
        .error .lineage { registry with lineageFaults := registry.lineageFaults.tail }
      else .ok ⟨⟩ { registry with lineageFaults := registry.lineageFaults.tail } := by
  unfold recordLineage
  simp only [run_bind, run_get, run_modify]
  split_ifs <;> rfl

theorem next_register (s : Live) (skill : SkillDefinition) :
    (s.next directories (.register skill)).registry.skills =
        s.registry.skills.set skill.name skill ∧
      (s.next directories (.register skill)).registry.stateStore =
        if skill.basePath = none ∧ s.registry.Saves then
          some ((s.registry.skills.set skill.name skill).values.filter (·.basePath = none))
        else s.registry.stateStore := by
  simp only [Live.next, Op.body, History.next, register, setSkill, run_bind,
    run_modify, run_recordLineage]
  by_cases hlineage : s.registry.lineageFaults.head? = some true
  · simp [hlineage, SkillRegistry.Saves]
  · by_cases hpath : skill.basePath = none
    · cases hstore : s.registry.stateStore with
      | none =>
        simp [hlineage, hpath, persistState, SkillRegistry.persisted, hstore, SkillRegistry.Saves]
      | some saved =>
        simp [hlineage, hpath, persistState, SkillRegistry.persisted, hstore, SkillRegistry.Saves,
          SkillRegistry.apiSkills]
        split_ifs <;> rfl
    · simp [hlineage, hpath]

theorem next_remove (s : Live) (name : String) :
    (s.next directories (.remove name)).registry =
      { s.registry with skills := s.registry.skills.erase name } := by
  simp only [Live.next, Op.body, History.next, run_discard]
  rfl

theorem next_promote (s : Live) (name : String) (targetStatus : SkillStatus) :
    (s.next directories (.promote name targetStatus)).registry.skills =
        ((s.registry.skills.get? name).elim s.registry.skills fun skill =>
          s.registry.skills.set name { skill with status := targetStatus }) ∧
      (s.next directories (.promote name targetStatus)).registry.stateStore =
        s.registry.stateStore := by
  simp only [Live.next, Op.body, History.next, run_discard, promote, run_bind,
    run_get]
  cases hget : s.registry.skills.get? name with
  | none => exact ⟨rfl, rfl⟩
  | some skill =>
    simp only [run_bind, setSkill, run_modify, run_recordLineage]
    split_ifs <;> exact ⟨rfl, rfl⟩

theorem next_discover (s : Live) (path : String) :
    (s.next directories (.discover path)).registry.skills =
        shadow s.registry.skills (fileSkills directories [path]) ∧
      (s.next directories (.discover path)).registry.stateStore = s.registry.stateStore := by
  have hspec : Hoare.Triple (Holds s.registry.skills s.registry.stateStore)
      (Op.body directories (.discover path))
      (fun _ => Holds (shadow s.registry.skills (fileSkills directories [path]))
        s.registry.stateStore)
      (fun _ => Holds (shadow s.registry.skills (fileSkills directories [path]))
        s.registry.stateStore) :=
    (discover_spec directories path).discard.conseq (fun _ => id) (fun _ _ => id)
      fun _ _ => False.elim
  exact History.next_of_triple (Op.body directories) hspec ⟨rfl, rfl⟩

variable {directories} {s t : Live}

theorem transparent_of_changed (hs : Transparent directories s)
    (hstore : t.registry.stateStore = s.registry.stateStore)
    (hskills : ∀ other, t.registry.skills.get? other =
      if other = name then skill else s.registry.skills.get? other)
    (hloaded : t.loaded = s.loaded) :
    Transparent directories t ↔ s.registry.skills.get? name = skill := by
  rw [transparent_iff] at hs ⊢
  rw [hloaded, hstore]
  constructor
  · intro h
    rw [← hs name, h name, hskills name, if_pos rfl]
  · intro h other
    rw [hs other, hskills other]
    split_ifs with hother
    · rw [hother, h]
    · rfl

section Saved

variable {registry : SkillRegistry}

section

variable (hnames : ∀ name skill, registry.skills.get? name = some skill → skill.name = name)
include hnames

theorem nodup_names_apiSkills : (registry.apiSkills.map SkillDefinition.name).Nodup := by
  have hvalues : registry.skills.values.map SkillDefinition.name = registry.skills.keys := by
    rw [values, Dict.keys, List.map_map]
    apply map_congr_left
    intro e he
    exact hnames e.1 e.2 ((mem_entries registry.skills e.1 e.2).mp he)
  have hnodup : registry.skills.keys.Nodup := registry.skills.nodup
  rw [← hvalues] at hnodup
  exact hnodup.sublist (filter_sublist.map _)

theorem mem_apiSkills {skill : SkillDefinition} : skill ∈ registry.apiSkills ↔
      registry.skills.get? skill.name = some skill ∧ skill.basePath = none := by
  rw [SkillRegistry.apiSkills, List.mem_filter, decide_eq_true_iff, mem_values]
  constructor
  · intro h
    obtain ⟨⟨name, hget⟩, hpath⟩ := h
    exact ⟨hnames name skill hget ▸ hget, hpath⟩
  · intro h
    exact ⟨⟨skill.name, h.1⟩, h.2⟩

theorem get?_loadState_apiSkills (name : String) : (loadState registry.apiSkills).get? name =
      (registry.skills.get? name).filter fun skill => skill.basePath = none := by
  have hnodup := nodup_names_apiSkills hnames
  ext skill
  rw [loadState, get?_ofList (by rw [List.map_map]; exact hnodup), List.mem_map,
    filter_eq_some_iff, decide_eq_true_iff]
  constructor
  · intro h
    obtain ⟨saved, hmem, heq⟩ := h
    obtain ⟨rfl, rfl⟩ := Prod.mk.inj heq
    exact (mem_apiSkills hnames).mp hmem
  · intro h
    have hname := hnames name skill h.1
    exact ⟨skill, (mem_apiSkills hnames).mpr ⟨hname ▸ h.1, h.2⟩, by rw [hname]⟩

end

end Saved

theorem basePath_of_loadState (hs : Tracks directories s)
    (h : (loadState (s.registry.stateStore.getD [])).get? name = some skill) :
    skill.basePath = none := by
  obtain ⟨saved, hmem, heq⟩ := List.mem_map.mp (mem_of_get?_ofList h)
  exact (Prod.mk.inj heq).2 ▸ hs.saved saved hmem

theorem names_set (hnames : ∀ name skill, skills.get? name = some skill → skill.name = name)
    (skill : SkillDefinition) (name : String) (other : SkillDefinition)
    (h : (skills.set skill.name skill).get? name = some other) : other.name = name := by
  rw [get?_set] at h
  split_ifs at h with hname
  · rw [hname, ← some.inj h]
  · exact hnames name other h

theorem transparent_register (hs : Tracks directories s) (skill : SkillDefinition) :
    Transparent directories (s.next directories (.register skill)) ↔
      Recovers directories s (.register skill) := by
  obtain ⟨hskills, hstore⟩ := next_register directories s skill
  simp only [Recovers]
  by_cases hsaves : skill.basePath = none ∧ s.registry.Saves
  · rw [if_pos hsaves] at hstore ⊢
    have hlive := (transparent_iff directories s).mp hs.transparent
    let live : SkillRegistry := { skills := s.registry.skills.set skill.name skill }
    have hsaved (name : String) : (loadState live.apiSkills).get? name =
        (live.skills.get? name).filter fun skill => skill.basePath = none :=
      get?_loadState_apiSkills (names_set hs.names skill) name
    rw [← lastNamed_eq_none, transparent_iff, hskills, hstore]
    constructor
    · intro h
      have hname := h skill.name
      rw [get?_set, if_pos rfl] at hname
      cases hfile : lastNamed skill.name (fileSkills directories s.loaded) with
      | none => rfl
      | some file =>
        change (lastNamed skill.name (fileSkills directories s.loaded)).or _ = _ at hname
        rw [hfile, some_or, some_inj] at hname
        exact absurd (hname ▸ hsaves.1) (name_of_lastNamed hfile).2
    · intro hfile name
      change (lastNamed name (fileSkills directories s.loaded)).or
        ((loadState _).get? name) = _
      rw [getD_some]
      refine (congrArg _ (hsaved name)).trans ?_
      rw [get?_set]
      split_ifs with hname
      · simp [hname, hfile, hsaves.1]
      · have hname := hlive name
        cases hlast : lastNamed name (fileSkills directories s.loaded) with
        | some file => simpa [hlast] using hname
        | none =>
          rw [hlast, none_or] at hname
          rw [none_or, ← hname]
          cases hload : (loadState (s.registry.stateStore.getD [])).get? name with
          | none => rfl
          | some saved => simp [basePath_of_loadState hs hload]
  · rw [if_neg hsaves] at hstore ⊢
    have hset (other : String) :
        (s.next directories (.register skill)).registry.skills.get? other =
          if other = skill.name then some skill else s.registry.skills.get? other := by
      rw [hskills, get?_set]
    exact transparent_of_changed hs.transparent hstore hset rfl

theorem transparent_next (hs : Tracks directories s) (op : Op) :
    Transparent directories (s.next directories op) ↔ Recovers directories s op := by
  cases op with
  | register skill => exact transparent_register hs skill
  | remove name =>
    have hregistry := next_remove directories s name
    have herase (other : String) :
        (s.next directories (.remove name)).registry.skills.get? other =
          if other = name then none else s.registry.skills.get? other := by
      rw [hregistry, get?_erase]
    exact transparent_of_changed hs.transparent (by rw [hregistry]) herase rfl
  | promote name targetStatus =>
    obtain ⟨hskills, hstore⟩ := next_promote directories s name targetStatus
    simp only [Recovers]
    cases hget : s.registry.skills.get? name with
    | none =>
      rw [hget, elim_none] at hskills
      have hsame (other : String) :
          (s.next directories (.promote name targetStatus)).registry.skills.get? other =
            if other = name then none else s.registry.skills.get? other := by
        rw [hskills]
        split_ifs with hother
        · rw [hother, hget]
        · rfl
      rw [transparent_of_changed hs.transparent hstore hsame rfl]
      simp [hget]
    | some skill =>
      rw [hget, elim_some] at hskills
      have hset (other : String) :
          (s.next directories (.promote name targetStatus)).registry.skills.get? other =
            if other = name then some { skill with status := targetStatus }
            else s.registry.skills.get? other := by
        rw [hskills, get?_set]
      rw [transparent_of_changed hs.transparent hstore hset rfl, hget, some_inj]
      constructor
      · intro h other hother
        rw [← some.inj hother, h]
      · intro h
        rw [← h skill rfl]
  | discover path =>
    obtain ⟨hskills, hstore⟩ := next_discover directories s path
    have hfiles : fileSkills directories (s.loaded ++ [path]) =
        fileSkills directories s.loaded ++ fileSkills directories [path] :=
      flatMap_append
    refine iff_of_true (fun name => ?_) trivial
    rw [fresh_skills, hskills, hstore]
    change (shadow _ (fileSkills directories (s.loaded ++ [path]))).get? name = _
    have hlive := hs.transparent name
    rw [fresh_skills] at hlive
    rw [hfiles, shadow_append, get?_shadow, hlive, ← get?_shadow]

theorem tracks_next (hs : Tracks directories s) (op : Op) (hop : Recovers directories s op) :
    Tracks directories (s.next directories op) := by
  refine ⟨(transparent_next hs op).mpr hop, ?_, ?_⟩
  · cases op with
    | register skill =>
      rw [(next_register directories s skill).1]
      exact names_set hs.names skill
    | remove name =>
      intro other skill h
      rw [next_remove, get?_erase] at h
      split_ifs at h
      exact hs.names other skill h
    | promote name targetStatus =>
      rw [(next_promote directories s name targetStatus).1]
      cases hget : s.registry.skills.get? name with
      | none => exact hs.names
      | some skill =>
        obtain rfl := hs.names name skill hget
        exact names_set hs.names { skill with status := targetStatus }
    | discover path =>
      intro other skill h
      rw [(next_discover directories s path).1, get?_shadow, or_eq_some_iff] at h
      rcases h with hfile | ⟨-, hget⟩
      · exact (name_of_lastNamed hfile).1
      · exact hs.names other skill hget
  · cases op with
    | register skill =>
      rw [(next_register directories s skill).2]
      split_ifs
      · intro saved hsaved
        simpa using (List.mem_filter.mp hsaved).2
      · exact hs.saved
    | remove name =>
      rw [next_remove]
      exact hs.saved
    | promote name targetStatus =>
      rw [(next_promote directories s name targetStatus).2]
      exact hs.saved
    | discover path =>
      rw [(next_discover directories s path).2]
      exact hs.saved

variable (saved : Option (List { skill : SkillDefinition // skill.basePath = none }))
  (lineageFaults storeFaults : List Bool)

def Live.start : Live where
  registry :=
    { skills := loadState ((saved.map (List.map Subtype.val)).getD [])
      stateStore := saved.map (List.map Subtype.val)
      lineageFaults := lineageFaults
      storeFaults := storeFaults }

theorem tracks_start : Tracks directories (Live.start saved lineageFaults storeFaults) := by
  refine ⟨fun name => ?_, fun name skill h => ?_, fun skill h => ?_⟩
  · rw [fresh_skills]
    rfl
  · obtain ⟨other, -, heq⟩ := List.mem_map.mp (mem_of_get?_ofList h)
    obtain ⟨rfl, rfl⟩ := Prod.mk.inj heq
    rfl
  · cases saved with
    | none => exact absurd h not_mem_nil
    | some saved =>
      obtain ⟨other, -, rfl⟩ := List.mem_map.mp h
      exact other.property

/-- A run's fresh registries hold what the live one does exactly when every operation is one
that the store or the directories recover. -/
theorem transparent_iff_recovers (ops : List Op) :
    History.Along (Live.next directories)
        (fun s op => Transparent directories (s.next directories op))
        (Live.start saved lineageFaults storeFaults) ops ↔
      History.Along (Live.next directories) (Recovers directories)
        (Live.start saved lineageFaults storeFaults) ops :=
  History.along_congr (I := Tracks directories) (fun _ op hs hop => tracks_next hs op hop)
    (fun _ op hs => transparent_next hs op) (tracks_start saved lineageFaults storeFaults) ops

/-- A removed skill comes back with the next process. -/
theorem removed_not_transparent :
    ¬ Transparent (fun _ => none)
      ([Op.register { name := "triage" }, Op.remove "triage"].foldl (Live.next fun _ => none)
        (Live.start (some []) [] [])) := by
  intro h
  have hname := h "triage"
  revert hname
  decide

end Agent33.Skills
