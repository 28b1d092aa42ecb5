import Agent33.Backup.RoundTrip

/-!
# All or nothing

A restoration leaves every target as it was when it raises, wherever it fails, exactly when it
gets to no replacement: the first replacement that begins can fail with the target gone.
-/

namespace Agent33.Backup

open Library List Option DirTree

namespace BackupService

variable {service : BackupService} {live : Disk} {backupId archiveRoot : Text}
  {archive : ArchiveFile} {confirm allowOverwrite : Bool} {members : List TarInfo}
  {asset : BackupAsset} {target : Parts}
  {plans : List RestoreAssetPlan}

def SameAt (live live' : Tree) (target : Parts) : Prop :=
  ∀ path, live'.node (target ++ path) = live.node (target ++ path)

/-- An execution that raises leaves every target as it was, and without `allow_overwrite` no
execution changes a target that exists. -/
structure AllOrNothing (service : BackupService) (live : Disk) (backupId : Text)
    (archive : ArchiveFile) (confirm allowOverwrite : Bool) : Prop where
  restored : ∀ live',
    Executes service live.tree backupId archive confirm allowOverwrite true live' →
    ∀ name target, service.resolveTargetPath name = some target → SameAt live.tree live' target
  kept : allowOverwrite = false → ∀ raised live',
    Executes service live.tree backupId archive confirm allowOverwrite raised live' →
      ∀ name target, service.resolveTargetPath name = some target →
        live.tree.node target ≠ none → SameAt live.tree live' target

/-- The replacement of a target begins: it is staged, no file is above it, and the target exists
or is of the kind that is staged; or a directory that is made above it belongs to a target. -/
def Touches (service : BackupService) (members : List TarInfo) (archiveRoot : Text) (live : Tree)
    (asset : BackupAsset) (target : Parts) : Prop :=
  ∃ staged, stageAsset members archiveRoot asset.relativePath = .ok staged ∧
    (∀ q, q <+: target → q ≠ target → live.file? q = none) ∧
      (live.node target ≠ none ∨
        staged.node [] ≠ none ∧ staged.isDir [] = asset.isDirectory ∨
        ∃ q name owner, q <+: target ∧ q ≠ target ∧ live.node q = none ∧
          service.resolveTargetPath name = some owner ∧ owner <+: q)

/-- The execution is confirmed, its plan goes through, and the first asset that it restores
touches a target. -/
def Begins (service : BackupService) (live : Disk) (backupId : Text) (archive : ArchiveFile)
    (confirm allowOverwrite : Bool) : Prop :=
  ∃ members archiveRoot manifest plan asset target,
    Starts service live.tree backupId archive confirm allowOverwrite members archiveRoot manifest
      plan ∧
    plan.assetsToRestore.findSome? (service.restoredBy (included manifest)) =
      some (asset, target) ∧
    Touches service members archiveRoot live.tree asset target

theorem node_of_mkdirs_dropLast {t made : Tree} (htarget : target ≠ [])
    (h : t.mkdirs target.dropLast = some made) (q : Parts) :
    made.node q = t.node q ∨ t.node q = none ∧ q <+: target ∧ q ≠ target := by
  have hnode := node_mkdirs h q
  split_ifs at hnode with hnew
  · have := (dropLast_prefix_iff htarget).mp hnew.2
    exact .inr ⟨hnew.1, this.1, this.2⟩
  · exact .inl hnode

theorem partlyMade_blocked (h : PartlyMade t target.dropLast made)
    (hf : f <+: target) (hfile : t.file? f ≠ none) (q : Parts) : made.node q = t.node q := by
  obtain ⟨content, hcontent⟩ := ne_none_iff_exists'.mp hfile
  have hnode := file?_eq_some.mp hcontent
  rcases h q with heq | ⟨hnone, hq, hdir⟩
  · exact heq
  · have hmade : made.node f = some (.file content) := by
      rcases h f with heq | ⟨hfnone, -, -⟩
      · rw [heq, hnode]
      · rw [hfnone] at hnode
        cases hnode
    have hne : q ≠ f := by
      rintro rfl
      rw [hnone] at hnode
      cases hnode
    rcases prefix_or_prefix_of_prefix (hq.trans (List.dropLast_prefix target)) hf with h | h
    · have := node_of_prefix (by rw [hnode]; exact some_ne_none _) h hne
      rw [hnone] at this
      cases this
    · have := node_of_prefix (by rw [hdir]; exact some_ne_none _) h hne.symm
      rw [hmade] at this
      cases this

theorem sameAt_of_failed {live live' staged : Tree} (hroot : live.node [] = some .dir)
    (hstaged : stageAsset members archiveRoot asset.relativePath = .ok staged)
    (htouches : ¬ Touches service members archiveRoot live asset target)
    (h : FailedReplacement live staged target asset.isDirectory live') {name : Text}
    {owner : Parts} (howner : service.resolveTargetPath name = some owner) :
    SameAt live live' owner := by
  by_cases hclear : ∀ q, q <+: target → q ≠ target → live.file? q = none
  · have hnone : live.node target = none := by
      by_contra hfound
      exact htouches ⟨staged, hstaged, hclear, .inl hfound⟩
    have hkind : ¬ (staged.node [] ≠ none ∧ staged.isDir [] = asset.isDirectory) := fun hkind =>
      htouches ⟨staged, hstaged, hclear, .inr (.inl hkind)⟩
    have houtside : ∀ q, q <+: target → q ≠ target → live.node q = none → ¬ owner <+: q :=
      fun q hq hne hqnone hprefix => htouches ⟨staged, hstaged, hclear,
        .inr (.inr ⟨q, name, owner, hq, hne, hqnone, howner, hprefix⟩)⟩
    have htarget : target ≠ [] := by
      rintro rfl
      rw [hroot] at hnone
      cases hnone
    have hmade : ∀ {made}, live.mkdirs target.dropLast = some made → SameAt live made owner := by
      intro made hmade path
      rcases node_of_mkdirs_dropLast htarget hmade (owner ++ path) with heq | ⟨hnew, hq, hne⟩
      · exact heq
      · exact absurd (prefix_append owner path) (houtside _ hq hne hnew)
    cases h with
    | parents hpartly =>
      intro path
      rcases hpartly (owner ++ path) with heq | ⟨hnew, hq, -⟩
      · exact heq
      · have hq := (dropLast_prefix_iff htarget).mp hq
        exact absurd (prefix_append owner path) (houtside _ hq.1 hq.2 hnew)
    | removal hsome hfound _ =>
      rcases node_of_mkdirs_dropLast htarget hsome target with heq | ⟨-, -, hne⟩
      · rw [heq] at hfound
        exact absurd hnone hfound
      · exact absurd rfl hne
    | @kind made hsome _ =>
      intro path
      change (if target <+: owner ++ path then none else made.node (owner ++ path)) = _
      split_ifs with hprefix
      · obtain ⟨rest, hrest⟩ := hprefix
        rw [← hrest]
        by_contra hfound
        cases rest with
        | nil =>
          rw [append_nil] at hfound
          exact hfound hnone.symm
        | cons part rest =>
          have := live.parents target _ (cons_ne_nil part rest) (Ne.symm hfound)
          rw [hnone] at this
          cases this
      · exact hmade hsome path
    | copy _ hfound hsame _ => exact absurd ⟨hfound, hsame⟩ hkind
  · push Not at hclear
    obtain ⟨f, hf, hne, hfile⟩ := hclear
    have hblocked : live.mkdirs target.dropLast = none := by
      by_contra hsome
      have htarget : target ≠ [] := by
        rintro rfl
        exact hne (prefix_nil.mp hf)
      exact hfile (mkdirs_isSome_iff.mp (isSome_iff_ne_none.mpr hsome) f
        ((dropLast_prefix_iff htarget).mpr ⟨hf, hne⟩))
    cases h with
    | parents hpartly => exact fun path => partlyMade_blocked hpartly hf hfile _
    | removal hsome _ _ =>
      rw [hblocked] at hsome
      cases hsome
    | kind hsome _ =>
      rw [hblocked] at hsome
      cases hsome
    | copy hsome _ _ _ =>
      rw [hblocked] at hsome
      cases hsome

theorem touches_of_replaced {live staged replaced : Tree}
    (hstaged : stageAsset members archiveRoot asset.relativePath = .ok staged)
    (h : replaceTarget live staged target asset.isDirectory = (.ok (), replaced)) :
    Touches service members archiveRoot live asset target := by
  have hkind : staged.node [] ≠ none ∧ staged.isDir [] = asset.isDirectory := by
    unfold replaceTarget at h
    split at h
    · cases h
    · dsimp only at h
      split_ifs at h with hkind
      · cases h
      · exact ⟨fun hnone => hkind (.inl hnone), not_not.mp fun hne => hkind (.inr hne)⟩
  by_cases htarget : target = []
  · refine ⟨staged, hstaged, ?_, .inr (.inl hkind)⟩
    rintro q hq hne
    rw [htarget] at hq hne
    exact absurd (prefix_nil.mp hq) hne
  · exact ⟨staged, hstaged, fun q hq hne => above_of_replaceTarget htarget h hq hne,
      .inr (.inl hkind)⟩

theorem sameAt_of_planRuns {live live' : Tree} {raised : Bool}
    (h : PlanRuns service members archiveRoot assets plans live raised live')
    (hroot : live.node [] = some .dir)
    (hfirst : ∀ asset target, plans.findSome? (service.restoredBy assets) =
      some (asset, target) → ¬ Touches service members archiveRoot live asset target)
    {name : Text} {owner : Parts} (howner : service.resolveTargetPath name = some owner) :
    SameAt live live' owner := by
  induction h with
  | done => exact fun path => rfl
  | skipped hnone _ ih =>
    apply ih hroot
    intro asset target hsome
    apply hfirst asset target
    rw [findSome?_cons, hnone]
    exact hsome
  | unstaged _ => exact fun path => rfl
  | failed hsome hstaged hfailed =>
    refine sameAt_of_failed hroot hstaged (hfirst _ _ ?_) hfailed howner
    rw [findSome?_cons, hsome]
  | restored hsome hstaged hreplaced _ _ =>
    refine absurd (touches_of_replaced hstaged hreplaced) (hfirst _ _ ?_)
    rw [findSome?_cons, hsome]

theorem allOrNothing_of_not_begins
    (h : ¬ Begins service live backupId archive confirm allowOverwrite) :
    AllOrNothing service live backupId archive confirm allowOverwrite := by
  have hsame : ∀ raised live',
      Executes service live.tree backupId archive confirm allowOverwrite raised live' →
        ∀ name target, service.resolveTargetPath name = some target →
          SameAt live.tree live' target := by
    intro raised live' hexecutes name target htarget
    cases hexecutes with
    | refused => exact fun path => rfl
    | planned hstarts hruns =>
      refine sameAt_of_planRuns hruns live.root (fun asset target hfirst htouches => h ?_) htarget
      exact ⟨_, _, _, _, asset, target, hstarts, hfirst, htouches⟩
  exact ⟨hsame true, fun _ raised live' hexecutes name target htarget _ =>
    hsame raised live' hexecutes name target htarget⟩

theorem planRuns_of_first {live live' staged : Tree}
    (hfirst : plans.findSome? (service.restoredBy assets) = some (asset, target))
    (hstaged : stageAsset members archiveRoot asset.relativePath = .ok staged)
    (hfailed : FailedReplacement live staged target asset.isDirectory live') :
    PlanRuns service members archiveRoot assets plans live true live' := by
  induction plans with
  | nil => cases hfirst
  | cons plan rest ih =>
    rw [findSome?_cons] at hfirst
    cases hplan : service.restoredBy assets plan with
    | none =>
      rw [hplan] at hfirst
      exact .skipped hplan (ih hfirst)
    | some found =>
      rw [hplan] at hfirst
      cases hfirst
      exact .failed hplan hstaged hfailed

theorem target_of_first (hfirst : plans.findSome? (service.restoredBy assets) =
    some (asset, target)) : service.resolveTargetPath asset.relativePath = some target := by
  obtain ⟨plan, -, hplan⟩ := exists_of_findSome?_eq_some hfirst
  unfold restoredBy at hplan
  split_ifs at hplan
  obtain ⟨found, -, hfound⟩ := bind_eq_some_iff.mp hplan
  obtain ⟨_, hsome, heq⟩ := map_eq_some_iff.mp hfound
  cases heq
  exact hsome

def emptyDir : Tree where
  node path := if path.isEmpty then some .dir else none
  listing := [[]]
  listed := by
    intro path h
    cases path with
    | nil => exact mem_singleton_self []
    | cons part path => exact absurd rfl h
  parents := by
    intro p q hq h
    cases p with
    | nil => rfl
    | cons part p => exact absurd rfl h

def firstCopied (staged : Tree) : Tree :=
  if staged.isDir [] then emptyDir else DirTree.single []

theorem partlyCopied_first (hfound : staged.node [] ≠ none)
    (hp : ∀ q, q <+: target → q ≠ target → t.node q = some .dir) :
    PartlyCopied t staged target (t.graft target (firstCopied staged) hp) := by
  constructor
  · intro q hq
    rw [node_graft, if_neg hq]
  · intro path
    rw [node_graft, if_pos (prefix_append target path), drop_left, firstCopied]
    cases path with
    | cons part path =>
      left
      split_ifs <;> rfl
    | nil =>
      right
      by_cases hdir : staged.isDir [] = true
      · rw [if_pos hdir]
        exact .inl ⟨isDir_iff.mp hdir, rfl⟩
      · rw [if_neg hdir]
        cases hnode : staged.node [] with
        | none => exact absurd hnode hfound
        | some node =>
          cases node with
          | dir => exact absurd (isDir_iff.mpr hnode) hdir
          | file content => exact .inr ⟨content, [], rfl, nil_prefix, rfl⟩

theorem exists_failed {live staged : Tree} (hroot : live.node [] = some .dir)
    (htarget : service.resolveTargetPath asset.relativePath = some target)
    (hclear : ∀ q, q <+: target → q ≠ target → live.file? q = none)
    (hbegins : live.node target ≠ none ∨
      staged.node [] ≠ none ∧ staged.isDir [] = asset.isDirectory ∨
      ∃ q name owner, q <+: target ∧ q ≠ target ∧ live.node q = none ∧
        service.resolveTargetPath name = some owner ∧ owner <+: q) :
    ∃ live' name owner, FailedReplacement live staged target asset.isDirectory live' ∧
      service.resolveTargetPath name = some owner ∧ ¬ SameAt live live' owner := by
  obtain ⟨made, hmade, hdirs⟩ : ∃ made, live.mkdirs target.dropLast = some made ∧
      ∀ q, q <+: target → q ≠ target → made.node q = some .dir := by
    by_cases hnil : target = []
    · have hsome : (live.mkdirs target.dropLast).isSome := by
        apply mkdirs_isSome_iff.mpr
        intro q hq
        rw [hnil] at hq
        rw [prefix_nil.mp hq]
        exact file?_of_dir hroot
      obtain ⟨made, hmade⟩ := isSome_iff_exists.mp hsome
      refine ⟨made, hmade, fun q hq hne => ?_⟩
      rw [hnil] at hq hne
      exact absurd (prefix_nil.mp hq) hne
    · have hsome : (live.mkdirs target.dropLast).isSome := by
        apply mkdirs_isSome_iff.mpr
        intro q hq
        exact hclear q ((dropLast_prefix_iff hnil).mp hq).1 ((dropLast_prefix_iff hnil).mp hq).2
      obtain ⟨made, hmade⟩ := isSome_iff_exists.mp hsome
      exact ⟨made, hmade, fun q hq hne => node_mkdirs_of_prefix hmade
        ((dropLast_prefix_iff hnil).mpr ⟨hq, hne⟩)⟩
  have hremoved : FailedReplacement live staged target asset.isDirectory
      (made.remove target) := by
    by_cases hkind : staged.node [] ≠ none ∧ staged.isDir [] = asset.isDirectory
    · refine .copy hmade hkind.1 hkind.2 ⟨fun q _ => rfl, fun path => .inl ?_⟩
      exact if_pos (prefix_append target path)
    · refine .kind hmade ?_
      by_contra hneither
      exact hkind ⟨fun hnone => hneither (.inl hnone),
        not_not.mp fun hne => hneither (.inr hne)⟩
  by_cases hfound : live.node target = none
  · rcases hbegins with hexists | ⟨hstagedFound, hkind⟩ | hbelow
    · exact absurd hfound hexists
    · -- the copy fails after its first operation
      have habove : ∀ q, q <+: target → q ≠ target →
          (made.remove target).node q = some .dir := by
        intro q hq hne
        change (if target <+: q then none else made.node q) = _
        rw [if_neg, hdirs q hq hne]
        exact fun hprefix => hne (hq.eq_of_length (le_antisymm hq.length_le hprefix.length_le))
      refine ⟨_, asset.relativePath, target, .copy hmade hstagedFound hkind
        (partlyCopied_first hstagedFound habove), htarget, fun hsame => ?_⟩
      have hnode := hsame []
      rw [append_nil, hfound, node_graft, if_pos prefix_rfl, drop_length,
        firstCopied] at hnode
      split_ifs at hnode <;> cases hnode
    · obtain ⟨q, name, owner, hq, hne, hnone, howner, rest, rfl⟩ := hbelow
      refine ⟨_, name, owner, hremoved, howner, fun hsame => ?_⟩
      have hnode := hsame rest
      change (if target <+: owner ++ rest then none else made.node (owner ++ rest)) = _ at hnode
      rw [if_neg, hdirs _ hq hne, hnone] at hnode
      · cases hnode
      · exact fun hprefix => hne (hq.eq_of_length (le_antisymm hq.length_le hprefix.length_le))
  · refine ⟨_, asset.relativePath, target, hremoved, htarget, fun hsame => hfound ?_⟩
    have hnode := hsame []
    rw [append_nil] at hnode
    rw [← hnode]
    exact if_pos prefix_rfl

theorem not_allOrNothing_of_begins
    (h : Begins service live backupId archive confirm allowOverwrite) :
    ¬ AllOrNothing service live backupId archive confirm allowOverwrite := by
  intro hall
  obtain ⟨members, archiveRoot, manifest, plan, asset, target, hstarts, hfirst, staged, hstaged,
    hclear, hbegins⟩ := h
  obtain ⟨live', name, owner, hfailed, howner, hchanged⟩ :=
    exists_failed live.root (target_of_first hfirst) hclear hbegins
  apply hchanged
  apply hall.restored live' _ name owner howner
  exact .planned hstarts (planRuns_of_first hfirst hstaged hfailed)

theorem begins_plainDisk : ∃ members, (sampleService plainDisk).create plainDisk.tree .full
    sampleStamp.backupId (buildArchiveStem sampleStamp .full) = some members ∧
      Begins (sampleService plainDisk) changedDisk sampleStamp.backupId (.tar members) true
        true := by
  have hmanifest := loadManifest_sampleService plainDisk
  have hstem := isName_buildArchiveStem sampleStamp .full
  obtain ⟨staged, result, hcreate, hstaged, hverify, hvalid⟩ :=
    verify_create digests_sampleDigest hmanifest
  obtain ⟨htops, hload⟩ := loadArchiveManifest_writeTarGz hstem hstaged hmanifest
  have hplan := @plan_of_valid _ _ _ _ hverify
    (hvalid.mpr directoriesAgree_plainDisk) sampleStamp.backupId hload changedDisk.tree
  have hasset := skills_mem plainDisk
  generalize hskills : (sampleService plainDisk).materializeAsset plainDisk.tree .full
    (configCandidate sampleSettings "config/skills" "skills") = skills at hasset
  have hincluded : skills.included = true := by
    rw [← hskills]
    decide +kernel
  have honly : ((sampleService plainDisk).inventory plainDisk.tree .full).filter
      BackupAsset.included = [skills] := by
    have hnames := relativePath_inventory (sampleService plainDisk) plainDisk.tree .full ▸
      nodup_assetNames
    refine perm_singleton.mp ((perm_ext_iff_of_nodup ((Nodup.of_map _ hnames).filter _)
      (nodup_singleton _)).mpr fun asset => ?_)
    rw [List.mem_filter, mem_singleton]
    constructor
    · rintro ⟨hmem, hin⟩
      exact inj_on_of_nodup_map hnames hmem hasset
        ((path_sample hmem hin).1.trans (path_sample hasset hincluded).1.symm)
    · rintro rfl
      exact ⟨hasset, hincluded⟩
  have htarget := (includes_of_mem hasset hincluded).target
  have hsource := sourcePath_sample hasset hincluded
  have hchanged : ¬ Unchanged (sampleService plainDisk) changedDisk.tree skills := by
    intro hunchanged
    have hnone : Restored plainDisk.tree changedDisk.tree [] changedDisk.tree :=
      ⟨fun _ h => absurd h not_mem_nil, fun _ _ => rfl⟩
    have hfile := (hnone.skip digests_sampleDigest (includes_of_mem hasset hincluded)
      hunchanged).restored skills mem_cons_self ["a".toList, "x".toList]
    rw [hsource] at hfile
    revert hfile
    decide +kernel
  obtain ⟨copied, hcopied, -⟩ := stageAsset_writeTarGz hstem hstaged hasset hincluded
  refine ⟨_, hcreate, _, _, _, _, unsourced skills, skills.sourcePath,
    ⟨rfl, hplan, blockingConflicts_overwrite _, rfl, hload, htops⟩, ?_, copied, hcopied, ?_, ?_⟩
  · rw [assetsToRestore_written, included_written, honly]
    have hnodup : ([skills].map BackupAsset.relativePath).Nodup := nodup_singleton _
    have hrestored := restoredBy_planAsset hnodup mem_cons_self htarget hchanged
    simp only [map_singleton] at hrestored ⊢
    rw [findSome?_cons, hrestored]
  · intro q hq hne
    rw [hsource] at hq hne
    rcases prefix_cons_iff.mp hq with rfl | ⟨r, rfl, hr⟩
    · exact file?_of_dir changedDisk.root
    · rw [prefix_nil.mp hr] at hne
      exact absurd rfl hne
  · left
    rw [hsource]
    decide +kernel

/-- The disk is full when the changed skill has been removed: the restoration raises and the
skill is gone. -/
theorem not_allOrNothing_plainDisk : ∃ members, (sampleService plainDisk).create plainDisk.tree
    .full sampleStamp.backupId (buildArchiveStem sampleStamp .full) = some members ∧
      ¬ AllOrNothing (sampleService plainDisk) changedDisk sampleStamp.backupId (.tar members)
        true true := by
  obtain ⟨members, hcreate, hbegins⟩ := begins_plainDisk
  exact ⟨members, hcreate, not_allOrNothing_of_begins hbegins⟩

/-- A restoration is all or nothing exactly when its first replacement never begins. -/
theorem allOrNothing_iff (service : BackupService) (live : Disk) (backupId : Text)
    (archive : ArchiveFile) (confirm allowOverwrite : Bool) :
    AllOrNothing service live backupId archive confirm allowOverwrite ↔
      ¬ Begins service live backupId archive confirm allowOverwrite :=
  ⟨fun hall hbegins => not_allOrNothing_of_begins hbegins hall, allOrNothing_of_not_begins⟩

end BackupService

end Agent33.Backup
