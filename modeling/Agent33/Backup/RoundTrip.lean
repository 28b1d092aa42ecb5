import Agent33.Backup.Staging

/-!
# The round trip of a backup

A backup that was just made verifies, and its restoration gives every asset its files back, when
the two orders of the files of each directory agree and no file is above a target.
-/

namespace Agent33.Backup

open Library List Option DirTree

namespace BackupService

variable {service : BackupService} {disk live : Disk} {mode : BackupMode}
  {asset : BackupAsset}

theorem notMem_value (mode : BackupMode) : '/' ∉ mode.value ∧ '\x00' ∉ mode.value := by
  cases mode <;> decide +kernel

theorem isName_buildArchiveStem (stamp : BackupStamp) (mode : BackupMode) :
    IsName (buildArchiveStem stamp mode) := by
  have hname : '/' ∉ "agent33-backup-".toList ∧ '\x00' ∉ "agent33-backup-".toList := by
    decide +kernel
  have hcreated : '/' ∉ stamp.created ∧ '\x00' ∉ stamp.created :=
    ⟨fun h => (stamp.plain _ (mem_append_left _ h)).1 rfl,
      fun h => (stamp.plain _ (mem_append_left _ h)).2 rfl⟩
  have hshort : '/' ∉ stamp.shortId ∧ '\x00' ∉ stamp.shortId :=
    ⟨fun h => (stamp.plain _ (mem_append_right _ h)).1 rfl,
      fun h => (stamp.plain _ (mem_append_right _ h)).2 rfl⟩
  have hvalue := notMem_value mode
  have hhead : (buildArchiveStem stamp mode).head? = some 'a' := rfl
  refine ⟨?_, ?_, ?_, ?_, ?_⟩
  · intro h
    rw [h] at hhead
    cases hhead
  · unfold buildArchiveStem
    generalize "agent33-backup-".toList = name at hname
    simp only [mem_append, mem_singleton, hname.1, hcreated.1, hvalue.1, hshort.1,
      or_false, false_or]
    decide
  · unfold buildArchiveStem
    generalize "agent33-backup-".toList = name at hname
    simp only [mem_append, mem_singleton, hname.2, hcreated.2, hvalue.2, hshort.2,
      or_false, false_or]
    decide
  · intro h
    rw [h] at hhead
    cases hhead
  · intro h
    rw [h] at hhead
    cases hhead

theorem file?_eq_of_computeChecksum (hdigests : Digests service.sha256)
    (ht : NamedTree t) (hs : NamedTree s) (hkind : t.isDir [] = s.isDir [])
    (htfound : t.node [] ≠ none) (hsfound : s.node [] ≠ none)
    (h : computeChecksum service.sha256 t = computeChecksum service.sha256 s) (path : Parts) :
    t.file? path = s.file? path := by
  have hroot : ∀ {t : Tree}, t.isDir [] = true → t.file? [] = none := fun hdir =>
    file?_of_dir (isDir_iff.mp hdir)
  cases hdir : t.isDir [] with
  | true =>
    have hsdir : s.isDir [] = true := hkind ▸ hdir
    unfold computeChecksum at h
    rw [hroot hdir, hroot hsdir] at h
    have hzero : ∀ {t : Tree}, NamedTree t → ∀ entry ∈ (sortedFiles t).map fun entry =>
        (asPosix entry.1, entry.2), '\x00' ∉ entry.1 := by
      intro t ht entry hentry
      obtain ⟨source, hsource, rfl⟩ := List.mem_map.mp hentry
      refine zero_notMem_asPosix (ht source.1 ?_)
      rw [file?_eq_some.mp (mem_sortedFiles.mp hsource).2]
      exact some_ne_none _
    have hentries := digestEntries_inj hdigests (hzero ht) (hzero hs) h
    have htransfer : ∀ {t s : Tree}, NamedTree t → NamedTree s → t.file? [] = none →
        (sortedFiles t).map (fun entry => (asPosix entry.1, entry.2)) =
          (sortedFiles s).map (fun entry => (asPosix entry.1, entry.2)) →
        ∀ {content}, t.file? path = some content → s.file? path = some content := by
      intro t s ht hs htroot hentries content hfile
      have hmem : (path, content) ∈ sortedFiles t := by
        refine mem_sortedFiles.mpr ⟨?_, hfile⟩
        rintro rfl
        rw [htroot] at hfile
        cases hfile
      have hother := List.mem_map_of_mem (f := fun entry : Parts × Bytes =>
        (asPosix entry.1, entry.2)) hmem
      rw [hentries] at hother
      obtain ⟨entry, hentry, heq⟩ := List.mem_map.mp hother
      have hentryFile := (mem_sortedFiles.mp hentry).2
      have hpath : entry.1 = path := by
        refine asPosix_inj (hs _ ?_) (ht _ ?_) (Prod.mk.inj heq).1
        · rw [file?_eq_some.mp hentryFile]
          exact some_ne_none _
        · rw [file?_eq_some.mp hfile]
          exact some_ne_none _
      rw [← hpath, hentryFile, (Prod.mk.inj heq).2]
    apply Option.ext
    intro content
    exact ⟨htransfer ht hs (hroot hdir) hentries, htransfer hs ht (hroot hsdir) hentries.symm⟩
  | false =>
    have hfile : ∀ {t : Tree}, t.isDir [] = false → t.node [] ≠ none →
        ∃ content, t.file? [] = some content := by
      intro t hdir hfound
      apply ne_none_iff_exists'.mp
      intro hnone
      rw [isDir_iff.mpr (node_of_file?_none hnone hfound)] at hdir
      cases hdir
    obtain ⟨content, hcontent⟩ := hfile hdir htfound
    obtain ⟨content', hcontent'⟩ := hfile (hkind ▸ hdir) hsfound
    unfold computeChecksum at h
    rw [hcontent, hcontent'] at h
    have hbelow : ∀ {t : Tree} {content}, t.file? [] = some content →
        ∀ path, path ≠ [] → t.file? path = none := by
      intro t content hfile path hpath
      apply file?_of_none
      by_contra hnode
      have hdir := t.parents [] path hpath hnode
      rw [file?_eq_some.mp hfile] at hdir
      cases hdir
    by_cases hpath : path = []
    · rw [hpath, hcontent, hcontent', hdigests.injective h]
    · rw [hbelow hcontent path hpath, hbelow hcontent' path hpath]

def unsourced (asset : BackupAsset) : BackupAsset := { asset with sourcePath := [] }

variable {tree : Tree} {done assets rest : List BackupAsset} {result : VerifyResult}
    {members : List TarInfo} {manifest : BackupManifest}

theorem find?_unsourced (hnodup : (assets.map BackupAsset.relativePath).Nodup)
    (hasset : asset ∈ assets) : (assets.map unsourced).reverse.find? (fun other =>
      other.relativePath = asset.relativePath) = some (unsourced asset) := by
  have hmem : unsourced asset ∈ (assets.map unsourced).reverse :=
    mem_reverse.mpr (List.mem_map_of_mem hasset)
  refine find?_eq_of_nodup (f := BackupAsset.relativePath) ?_ hmem
  rw [map_reverse, nodup_reverse, List.map_map]
  exact hnodup

theorem relativePath_planAsset (tree : Tree) (asset : BackupAsset) :
    (service.planAsset tree asset).1.relativePath = asset.relativePath := by
  unfold planAsset
  dsimp only
  split
  · rfl
  · split_ifs <;> rfl

def Unchanged (service : BackupService) (tree : Tree) (asset : BackupAsset) : Prop :=
  tree.node asset.sourcePath ≠ none ∧ tree.isDir asset.sourcePath = asset.isDirectory ∧
    computeChecksum service.sha256 (tree.sub asset.sourcePath) = asset.checksum

theorem action_planAsset
    (htarget : service.resolveTargetPath asset.relativePath = some asset.sourcePath) :
    (service.planAsset tree (unsourced asset)).1.action = .skip ↔
      Unchanged service tree asset := by
  have htarget' : service.resolveTargetPath (unsourced asset).relativePath =
    some asset.sourcePath := htarget
  unfold planAsset Unchanged
  dsimp only
  rw [htarget']
  dsimp only
  split_ifs with hnone hkind hchecksum
  · exact iff_of_false nofun fun h => h.1 hnone
  · exact iff_of_false nofun fun h => hkind h.2.1
  · exact iff_of_true rfl ⟨hnone, not_not.mp hkind, hchecksum⟩
  · exact iff_of_false nofun fun h => hchecksum h.2.2

structure Restored (backup before : Tree) (done : List BackupAsset) (live : Tree) : Prop where
  restored : ∀ asset ∈ done, ∀ path,
    live.file? (asset.sourcePath ++ path) = backup.file? (asset.sourcePath ++ path)
  others : ∀ q, (∀ asset ∈ done, ¬ asset.sourcePath <+: q) → live.file? q = before.file? q

def Clear (before : Tree) (done : List BackupAsset) (asset : BackupAsset) : Prop :=
  ∀ q, q <+: asset.sourcePath → q ≠ asset.sourcePath → before.file? q ≠ none →
    ∃ other ∈ done, other.sourcePath <+: q

def ClearAfter (before : Tree) : List BackupAsset → List BackupAsset → Prop
  | _, [] => True
  | done, asset :: rest => Clear before done asset ∧ ClearAfter before (done ++ [asset]) rest

theorem clearAfter_of_forall
    (h : ∀ asset ∈ rest, ∀ q, q <+: asset.sourcePath → q ≠ asset.sourcePath →
      before.file? q = none) :
    ClearAfter before done rest := by
  induction rest generalizing done with
  | nil => trivial
  | cons asset rest ih =>
    constructor
    · intro q hq hne hfile
      exact absurd (h asset mem_cons_self q hq hne) hfile
    · exact ih fun other hother => h other (mem_cons_of_mem _ hother)

theorem Restored.append (h : Restored backup before done tree)
    (hself : ∀ path,
      tree'.file? (asset.sourcePath ++ path) = backup.file? (asset.sourcePath ++ path))
    (hother : ∀ q, ¬ asset.sourcePath <+: q → tree'.file? q = tree.file? q) :
    Restored backup before (done ++ [asset]) tree' := by
  constructor
  · intro other hdone path
    by_cases hprefix : asset.sourcePath <+: other.sourcePath ++ path
    · obtain ⟨rest, hrest⟩ := hprefix
      rw [← hrest]
      exact hself rest
    · rw [hother _ hprefix]
      rcases mem_append.mp hdone with hdone | hlast
      · exact h.restored other hdone path
      · rw [mem_singleton.mp hlast] at hprefix
        exact absurd (prefix_append _ _) hprefix
  · intro q hq
    rw [hother q (hq asset (mem_append_right _ (mem_singleton_self asset)))]
    exact h.others q fun other hdone => hq other (mem_append_left _ hdone)

section

variable (h : Restored disk.tree live.tree done tree)
include h

theorem Restored.skip
    (hdigests : Digests service.sha256) (hincludes : Includes service disk.tree asset)
    (hunchanged : Unchanged service live.tree asset) :
    Restored disk.tree live.tree (done ++ [asset]) tree := by
  have hsame : ∀ path, live.tree.file? (asset.sourcePath ++ path) =
      disk.tree.file? (asset.sourcePath ++ path) := by
    intro path
    have hnamed : ∀ disk : Disk, NamedTree (disk.tree.sub asset.sourcePath) :=
      fun disk q hq => (disk.named _ hq).right
    have hroot : ∀ t : Tree, (t.sub asset.sourcePath).node [] = t.node asset.sourcePath := by
      intro t
      change t.node (asset.sourcePath ++ []) = _
      rw [append_nil]
    have hkind : ∀ t : Tree, (t.sub asset.sourcePath).isDir [] = t.isDir asset.sourcePath := by
      intro t
      rw [isDir, isDir, hroot]
    refine file?_eq_of_computeChecksum hdigests (hnamed live) (hnamed disk) ?_ ?_ ?_ ?_ path
    · rw [hkind, hkind, hunchanged.2.1, hincludes.isDirectory]
    · rw [hroot]
      exact hunchanged.1
    · rw [hroot]
      exact hincludes.found
    · rw [hunchanged.2.2, hincludes.checksum]
  refine h.append ?_ fun q _ => rfl
  intro path
  by_cases hdone : ∃ other ∈ done, other.sourcePath <+: asset.sourcePath ++ path
  · obtain ⟨other, hother, rest, hrest⟩ := hdone
    rw [← hrest]
    exact h.restored other hother rest
  · rw [h.others _ fun other hother hprefix => hdone ⟨other, hother, hprefix⟩, hsame]

theorem Restored.above
    (hincludes : Includes service disk.tree asset) (hclear : Clear live.tree done asset)
    (hq : q <+: asset.sourcePath) (hne : q ≠ asset.sourcePath) : tree.file? q = none := by
  by_cases hdone : ∃ other ∈ done, other.sourcePath <+: q
  · obtain ⟨other, hother, rest, rfl⟩ := hdone
    rw [h.restored other hother]
    exact file?_of_dir (DirTree.node_of_prefix hincludes.found hq hne)
  · rw [h.others q fun other hother hprefix => hdone ⟨other, hother, hprefix⟩]
    by_contra hfile
    exact hdone (hclear q hq hne hfile)

theorem Restored.clear
    (habove : ∀ q, q <+: asset.sourcePath → q ≠ asset.sourcePath → tree.file? q = none) :
    Clear live.tree done asset := by
  intro q hq hne hfile
  by_contra hdone
  rw [← h.others q fun other hother hprefix => hdone ⟨other, hother, hprefix⟩] at hfile
  exact hfile (habove q hq hne)

end

theorem restoredBy_planAsset (hnodup : (assets.map BackupAsset.relativePath).Nodup)
    (hasset : asset ∈ assets)
    (htarget : service.resolveTargetPath asset.relativePath = some asset.sourcePath)
    (hchanged : ¬ Unchanged service tree asset) :
    service.restoredBy (assets.map unsourced) (service.planAsset tree (unsourced asset)).1 =
      some (unsourced asset, asset.sourcePath) := by
  unfold restoredBy
  rw [if_neg (mt (action_planAsset htarget).mp hchanged), relativePath_planAsset]
  change ((assets.map unsourced).reverse.find? fun other =>
    other.relativePath = asset.relativePath).bind _ = _
  rw [find?_unsourced hnodup hasset, bind_some]
  change (service.resolveTargetPath asset.relativePath).map _ = _
  rw [htarget]
  rfl

theorem restoredBy_unchanged
    (htarget : service.resolveTargetPath asset.relativePath = some asset.sourcePath)
    (hunchanged : Unchanged service tree asset) :
    service.restoredBy assets (service.planAsset tree (unsourced asset)).1 = none := by
  unfold restoredBy
  rw [if_pos ((action_planAsset htarget).mpr hunchanged)]

theorem executePlan_spec (hdigests : Digests service.sha256) (hstem : IsName archiveStem)
    (hstaged : Staged service disk.tree mode backupId staged)
    (hassets : ∀ asset ∈ assets, asset ∈ service.inventory disk.tree mode ∧ asset.included = true)
    (hnodup : (assets.map BackupAsset.relativePath).Nodup) (hrest : ∀ asset ∈ rest, asset ∈ assets)
    (h : Restored disk.tree live.tree done tree) (restored skipped : List RestoreAssetPlan) :
    (ClearAfter live.tree done rest →
      ∃ result tree', service.executePlan (writeTarGz archiveStem staged) archiveStem
        (assets.map unsourced) (rest.map fun asset =>
          (service.planAsset live.tree (unsourced asset)).1) restored skipped tree =
            (.ok result, tree') ∧ Restored disk.tree live.tree (done ++ rest) tree') ∧
    ∀ result tree', service.executePlan (writeTarGz archiveStem staged) archiveStem
      (assets.map unsourced) (rest.map fun asset =>
        (service.planAsset live.tree (unsourced asset)).1) restored skipped tree =
          (.ok result, tree') → ClearAfter live.tree done rest := by
  induction rest generalizing done tree restored skipped with
  | nil =>
    refine ⟨fun _ => ⟨_, tree, rfl, ?_⟩, fun _ _ _ => trivial⟩
    rw [append_nil]
    exact h
  | cons asset rest ih =>
    have hasset := hrest asset mem_cons_self
    obtain ⟨hinventory, hincluded⟩ := hassets asset hasset
    have hincludes := includes_of_mem hinventory hincluded
    have hlater : ∀ other ∈ rest, other ∈ assets := fun other hother =>
      hrest other (mem_cons_of_mem _ hother)
    have hne : asset.sourcePath ≠ [] := by
      intro hnil
      exact hincludes.outside (hnil ▸ nil_prefix)
    rw [map_cons]
    unfold executePlan
    by_cases hunchanged : Unchanged service live.tree asset
    · rw [restoredBy_unchanged hincludes.target hunchanged]
      dsimp only
      have hclear : Clear live.tree done asset := by
        intro q hq hqne hfile
        exact absurd (file?_of_dir (DirTree.node_of_prefix hunchanged.1 hq hqne)) hfile
      obtain ⟨hforward, hbackward⟩ := ih hlater (h.skip hdigests hincludes hunchanged) restored
        (skipped ++ [(service.planAsset live.tree (unsourced asset)).1])
      rw [append_assoc] at hforward
      exact ⟨fun hall => hforward hall.2, fun result tree' heq =>
        ⟨hclear, hbackward result tree' heq⟩⟩
    · rw [restoredBy_planAsset hnodup hasset hincludes.target hunchanged]
      dsimp only
      obtain ⟨copied, hcopied, hnode⟩ :=
        stageAsset_writeTarGz hstem hstaged hinventory hincluded
      have hroot : copied.node [] = disk.tree.node asset.sourcePath := by
        rw [hnode, append_nil]
      have hkind : copied.isDir [] = (unsourced asset).isDirectory := by
        change _ = asset.isDirectory
        rw [hincludes.isDirectory, isDir, isDir, hroot]
      have hreplace : restoreAsset (writeTarGz archiveStem staged) archiveStem tree
          (unsourced asset) asset.sourcePath =
            replaceTarget tree copied asset.sourcePath (unsourced asset).isDirectory := by
        unfold restoreAsset
        rw [show (unsourced asset).relativePath = asset.relativePath from rfl, hcopied]
      rw [hreplace]
      by_cases hclear : Clear live.tree done asset
      · obtain ⟨replaced, hok, hfile⟩ := replaceTarget_spec hne
          (by rw [hroot]; exact hincludes.found) hkind
          fun q hq hqne => h.above hincludes hclear hq hqne
        rw [hok]
        dsimp only
        have hnext : Restored disk.tree live.tree (done ++ [asset]) replaced := h.append
          (fun path => by
            rw [hfile, if_pos (prefix_append _ _), drop_left]
            exact file?_congr (hnode path))
          fun q hq => by rw [hfile, if_neg hq]
        obtain ⟨hforward, hbackward⟩ := ih hlater hnext
          (restored ++ [(service.planAsset live.tree (unsourced asset)).1]) skipped
        rw [append_assoc] at hforward
        exact ⟨fun hall => hforward hall.2, fun result tree' heq =>
          ⟨hclear, hbackward result tree' heq⟩⟩
      · refine ⟨fun hall => absurd hall.1 hclear, fun result tree' heq => ?_⟩
        cases hreplaced : replaceTarget tree copied asset.sourcePath
            (unsourced asset).isDirectory with
        | mk outcome replaced =>
          rw [hreplaced] at heq
          cases outcome with
          | error error => cases heq
          | ok _ =>
            exact absurd (h.clear fun q hq hqne => above_of_replaceTarget hne hreplaced hq hqne)
              hclear

/-- The archive of a backup that was just made verifies, and whatever becomes of the live files,
its confirmed restoration gives each asset the files it had. -/
def RoundTrips (service : BackupService) (mode : BackupMode) (stamp : BackupStamp)
    (disk live : Disk) : Prop :=
  ∃ members, service.create disk.tree mode stamp.backupId (buildArchiveStem stamp mode) =
      some members ∧
    (∃ result, service.verify (.tar members) = .ok result ∧ result.valid = true) ∧
    ∃ result tree, service.execute live.tree stamp.backupId (.tar members) true true =
        (.ok result, tree) ∧
      ∀ asset ∈ service.inventory disk.tree mode, asset.included = true → ∀ path,
        tree.file? (asset.sourcePath ++ path) = disk.tree.file? (asset.sourcePath ++ path)

theorem included_written (disk : Disk) (mode : BackupMode) (backupId : Text) :
    included (service.manifest disk.tree mode backupId).written =
      ((service.inventory disk.tree mode).filter BackupAsset.included).map unsourced := by
  unfold included BackupManifest.written manifest
  rw [List.filter_map]
  rfl

theorem assetsToRestore_written (service : BackupService) (disk live : Disk) (mode : BackupMode)
    (backupId : Text) : (service.planManifest live.tree backupId
      (service.manifest disk.tree mode backupId).written).assetsToRestore =
        ((service.inventory disk.tree mode).filter BackupAsset.included).map fun asset =>
          (service.planAsset live.tree (unsourced asset)).1 := by
  unfold planManifest
  dsimp only
  rw [included_written, List.map_map, List.map_map]
  rfl

theorem loadArchiveManifest_writeTarGz (hstem : IsName archiveStem)
    (hstaged : Staged service disk.tree mode backupId staged)
    (hmanifest : service.loadManifest (service.dumpManifest
      (service.manifest disk.tree mode backupId)) =
        .ok (service.manifest disk.tree mode backupId).written) :
    (topLevels (writeTarGz archiveStem staged)).map List.dedup = some [archiveStem] ∧
      service.loadArchiveManifest (writeTarGz archiveStem staged) =
        .ok (service.manifest disk.tree mode backupId).written := by
  obtain ⟨parts, hparts, hroot⟩ := topLevels_writeTarGz hstem hstaged
  have htops : (topLevels (writeTarGz archiveStem staged)).map List.dedup =
      some [archiveStem] := by
    rw [hparts, map_some, hroot]
  refine ⟨htops, ?_⟩
  unfold loadArchiveManifest
  rw [htops]
  dsimp only
  rw [readManifest_writeTarGz hstem hstaged, hmanifest]
  rfl

theorem blockingConflicts_overwrite (conflicts : List RestoreConflict) :
    blockingConflicts conflicts true = [] := by
  simp [blockingConflicts]

section

variable (hverify : service.verify (.tar members) = .ok result) (hvalid : result.valid = true)
include hverify hvalid

theorem plan_of_valid (hload : service.loadArchiveManifest members = .ok manifest)
    (tree : Tree) : service.plan tree backupId (.tar members) =
      .ok (service.planManifest tree backupId manifest) := by
  unfold plan
  rw [hverify]
  dsimp only
  rw [if_pos hvalid, hload]
  rfl

theorem execute_of_valid (htops : (topLevels members).map List.dedup = some [archiveStem])
    (hload : service.loadArchiveManifest members = .ok manifest) (tree : Tree) :
    (∀ restored skipped tree', service.executePlan members archiveStem (included manifest)
      (service.planManifest tree backupId manifest).assetsToRestore [] [] tree =
        (.ok (restored, skipped), tree') →
      service.execute tree backupId (.tar members) true true = (.ok ⟨backupId, restored, skipped,
        (service.planManifest tree backupId manifest).conflicts⟩, tree')) ∧
    ∀ outcome tree', service.execute tree backupId (.tar members) true true =
        (.ok outcome, tree') →
      ∃ lists, service.executePlan members archiveStem (included manifest)
        (service.planManifest tree backupId manifest).assetsToRestore [] [] tree =
          (.ok lists, tree') := by
  unfold execute
  rw [if_pos rfl, plan_of_valid hverify hvalid hload]
  dsimp only
  rw [blockingConflicts_overwrite, if_neg (not_not_intro rfl), hload, htops]
  constructor
  · intro restored skipped tree' h
    dsimp only
    rw [h]
  · intro outcome tree' h
    dsimp only at h
    split at h
    · cases h
    · rename_i hlists
      cases h
      exact ⟨_, hlists⟩

end

/-- In every directory of the backup the files come in the same order by their paths and by
their paths as they are written out. -/
def DirectoriesAgree (service : BackupService) (mode : BackupMode) (disk : Disk) : Prop :=
  ∀ asset ∈ service.inventory disk.tree mode, asset.included = true →
    asset.isDirectory = true → OrdersAgree (disk.tree.sub asset.sourcePath)

def TargetsClear (service : BackupService) (mode : BackupMode) (disk live : Disk) : Prop :=
  ClearAfter live.tree [] ((service.inventory disk.tree mode).filter BackupAsset.included)

theorem verify_create (hdigests : Digests service.sha256)
    (hmanifest : service.loadManifest (service.dumpManifest
      (service.manifest disk.tree mode stamp.backupId)) =
        .ok (service.manifest disk.tree mode stamp.backupId).written) :
    ∃ staged result, service.create disk.tree mode stamp.backupId (buildArchiveStem stamp mode) =
        some (writeTarGz (buildArchiveStem stamp mode) staged) ∧
      Staged service disk.tree mode stamp.backupId staged ∧
      service.verify (.tar (writeTarGz (buildArchiveStem stamp mode) staged)) = .ok result ∧
      (result.valid = true ↔ DirectoriesAgree service mode disk) := by
  have hstem := isName_buildArchiveStem stamp mode
  obtain ⟨staged, hcreate, hstaged⟩ :=
    create_spec service disk mode stamp.backupId (buildArchiveStem stamp mode)
  have hchecksum : ∀ asset ∈ service.inventory disk.tree mode, asset.included = true →
      ∃ checksum, computeArchiveChecksum service.sha256
        (writeTarGz (buildArchiveStem stamp mode) staged) (buildArchiveStem stamp mode) asset =
          .ok checksum ∧ (checksum = asset.checksum ↔
            (asset.isDirectory = true → OrdersAgree (disk.tree.sub asset.sourcePath))) := by
    intro asset hasset hincluded
    cases hdirectory : asset.isDirectory with
    | false =>
      exact ⟨_, computeArchiveChecksum_file hstem hstaged hasset hincluded hdirectory,
        iff_of_true rfl nofun⟩
    | true =>
      obtain ⟨checksum, hok, hiff⟩ := computeArchiveChecksum_directory hstem hstaged hasset
        hincluded hdigests hdirectory
      exact ⟨checksum, hok, hiff.trans ⟨fun h _ => h, fun h => h rfl⟩⟩
  obtain ⟨result, hverify, hvalid⟩ := verify_writeTarGz hmanifest hstem hstaged
    fun asset hasset hincluded => by
      obtain ⟨checksum, hok, -⟩ := hchecksum asset hasset hincluded
      exact ⟨matching_ne_nil hstem hstaged hasset hincluded, checksum, hok⟩
  refine ⟨staged, result, hcreate, hstaged, hverify, ?_⟩
  rw [hvalid]
  refine forall_congr' fun asset => forall_congr' fun hasset => forall_congr' fun hincluded => ?_
  obtain ⟨checksum, hok, hiff⟩ := hchecksum asset hasset hincluded
  rw [hok, Except.ok.injEq, hiff]

theorem execute_written (hdigests : Digests service.sha256) (hstem : IsName archiveStem)
    (hmanifest : service.loadManifest
      (service.dumpManifest (service.manifest disk.tree mode backupId)) =
        .ok (service.manifest disk.tree mode backupId).written)
    (hstaged : Staged service disk.tree mode backupId staged)
    (hverify : service.verify (.tar (writeTarGz archiveStem staged)) = .ok result)
    (hvalid : result.valid = true) :
    (TargetsClear service mode disk live → ∃ outcome tree, service.execute live.tree backupId
        (.tar (writeTarGz archiveStem staged)) true true = (.ok outcome, tree) ∧
      Restored disk.tree live.tree
        ((service.inventory disk.tree mode).filter BackupAsset.included) tree) ∧
    ∀ outcome tree, service.execute live.tree backupId
      (.tar (writeTarGz archiveStem staged)) true true = (.ok outcome, tree) →
        TargetsClear service mode disk live := by
  obtain ⟨htops, hload⟩ := loadArchiveManifest_writeTarGz hstem hstaged hmanifest
  have hplans := assetsToRestore_written service disk live mode backupId
  have hnodup : (((service.inventory disk.tree mode).filter BackupAsset.included).map
      BackupAsset.relativePath).Nodup := by
    have hall := nodup_assetNames
    rw [← relativePath_inventory service disk.tree mode] at hall
    exact hall.sublist (filter_sublist.map _)
  have hstart : Restored disk.tree live.tree [] live.tree := ⟨by simp, fun q _ => rfl⟩
  obtain ⟨hforward, hbackward⟩ := executePlan_spec hdigests hstem hstaged
    (fun asset hasset => List.mem_filter.mp hasset) hnodup (fun asset hasset => hasset)
    hstart [] []
  rw [← hplans, ← included_written disk mode backupId] at hforward hbackward
  obtain ⟨hok, hlists⟩ := execute_of_valid hverify hvalid htops hload live.tree
  constructor
  · intro hclear
    obtain ⟨⟨restored, skipped⟩, tree, hplan, hrestored⟩ := hforward hclear
    exact ⟨_, tree, hok restored skipped tree hplan, hrestored⟩
  · intro outcome tree hexecute
    obtain ⟨lists, hplan⟩ := hlists outcome tree hexecute
    exact hbackward lists tree hplan

def sampleDigit (n : ℕ) : Char := Char.ofNat ('a'.toNat + n % 16)

def sampleDigest (bytes : Bytes) : Text :=
  bytes.flatMap fun byte => [sampleDigit (byte.toNat / 16), sampleDigit byte.toNat]

theorem sampleDigit_inj : ∀ m < 16, ∀ n < 16, sampleDigit m = sampleDigit n → m = n := by
  decide

theorem sampleDigit_ne_zero : ∀ n < 16, sampleDigit n ≠ '\x00' := by
  decide

theorem sampleDigit_mod (n : ℕ) : sampleDigit n = sampleDigit (n % 16) := by
  simp [sampleDigit]

theorem digests_sampleDigest : Digests sampleDigest := by
  constructor
  · intro bytes bytes' h
    induction bytes generalizing bytes' with
    | nil =>
      cases bytes' with
      | nil => rfl
      | cons byte' bytes' => cases h
    | cons byte bytes ih =>
      cases bytes' with
      | nil => cases h
      | cons byte' bytes' =>
        have hlt := byte.toNat_lt
        have hlt' := byte'.toNat_lt
        simp only [sampleDigest, flatMap_cons, cons_append, nil_append,
          cons.injEq] at h
        obtain ⟨hhigh, hlow, hrest⟩ := h
        rw [sampleDigit_mod byte.toNat, sampleDigit_mod byte'.toNat] at hlow
        have hhigh := sampleDigit_inj _ (by omega) _ (by omega) hhigh
        have hlow := sampleDigit_inj _ (by omega) _ (by omega) hlow
        have hbyte : byte = byte' := UInt8.toNat_inj.mp (by omega)
        rw [hbyte, ih hrest]
  · intro bytes hzero
    obtain ⟨byte, -, hdigit⟩ := mem_flatMap.mp hzero
    have hlt := byte.toNat_lt
    rcases mem_cons.mp hdigit with hhigh | hlow
    · exact sampleDigit_ne_zero _ (by omega) hhigh.symm
    · rw [sampleDigit_mod] at hlow
      exact sampleDigit_ne_zero _ (by omega) (mem_singleton.mp hlow).symm

def sampleText (asset : BackupAsset) : Text :=
  "\x7b\"asset_type\": \"".toList ++ asset.assetType ++ "\", \"checksum\": \"".toList ++
    asset.checksum ++ "\", \"relative_path\": \"".toList ++ asset.relativePath ++
    "\", \"included\": ".toList ++ (if asset.included then "true" else "false").toList ++
    "\x7d".toList

def sampleDump (manifest : BackupManifest) : Bytes :=
  utf8 ("\x7b\"assets\": [".toList ++ [',', ' '].intercalate (manifest.assets.map sampleText) ++
    "], \"backup_id\": \"".toList ++ manifest.backupId ++ "\", \"runtime_version\": \"".toList ++
    manifest.runtimeVersion ++ "\", \"schema_version\": \"".toList ++ manifest.schemaVersion ++
    "\"\x7d".toList)

def sampleSettings (name : Text) : Option Parts :=
  if name = "config/skills".toList then some ["skills".toList] else none

def sampleStamp : BackupStamp where
  created := "20260101-000000".toList
  shortId := "0f3a9c".toList
  plain c hc := by
    constructor
    · rintro rfl
      exact absurd hc (by decide +kernel)
    · rintro rfl
      exact absurd hc (by decide +kernel)

def sampleReader (loadManifest : Bytes → Except Text BackupManifest) : BackupService where
  sha256 := sampleDigest
  dumpManifest := sampleDump
  loadManifest
  keyError name := "filename ".toList ++ name ++ " not found".toList
  settings := sampleSettings
  backupDir := ["backups".toList]

theorem manifest_sampleReader (loadManifest loadManifest' : Bytes → Except Text BackupManifest)
    (tree : Tree) (mode : BackupMode) (backupId : Text) :
    (sampleReader loadManifest).manifest tree mode backupId =
      (sampleReader loadManifest').manifest tree mode backupId := rfl

def sampleManifest (disk : Disk) : BackupManifest :=
  (sampleReader fun _ => .error []).manifest disk.tree .full sampleStamp.backupId

def sampleService (disk : Disk) : BackupService :=
  sampleReader fun bytes =>
    if bytes = sampleDump (sampleManifest disk) then .ok (sampleManifest disk).written
    else .error "Invalid JSON".toList

theorem loadManifest_sampleService (disk : Disk) :
    (sampleService disk).loadManifest ((sampleService disk).dumpManifest
      ((sampleService disk).manifest disk.tree .full sampleStamp.backupId)) =
        .ok ((sampleService disk).manifest disk.tree .full sampleStamp.backupId).written := by
  have hmanifest : (sampleService disk).manifest disk.tree .full sampleStamp.backupId =
      sampleManifest disk := manifest_sampleReader _ _ _ _ _
  have hload : ∀ bytes, (sampleService disk).loadManifest bytes =
      if bytes = sampleDump (sampleManifest disk) then .ok (sampleManifest disk).written
      else .error "Invalid JSON".toList := fun bytes => rfl
  have hdump : (sampleService disk).dumpManifest = sampleDump := rfl
  rw [hmanifest, hdump, hload, if_pos (Eq.refl _)]

def skillTree (files : List (Parts × Bytes)) : Tree :=
  let skills : Tree := ((DirTree.empty : Tree).mkdirs ["skills".toList, "a".toList]).getD .empty
  files.foldl (fun tree entry => (tree.writeFile entry.1 entry.2).getD tree) skills

def plainDisk : Disk where
  tree := skillTree [(["skills".toList, "a".toList, "x".toList], [1])]
  root := by decide +kernel
  named p hp := (by decide +kernel : ∀ p ∈ (skillTree
    [(["skills".toList, "a".toList, "x".toList], [1])]).listing, Named p) p
      (DirTree.listed _ p hp)

def changedDisk : Disk where
  tree := skillTree [(["skills".toList, "a".toList, "x".toList], [9, 9])]
  root := by decide +kernel
  named p hp := (by decide +kernel : ∀ p ∈ (skillTree
    [(["skills".toList, "a".toList, "x".toList], [9, 9])]).listing, Named p) p
      (DirTree.listed _ p hp)

theorem path_sample (hasset : asset ∈ (sampleService disk).inventory disk.tree .full)
    (hincluded : asset.included = true) :
    asset.relativePath = "config/skills".toList ∧ asset.sourcePath = ["skills".toList] := by
  have htarget := (includes_of_mem hasset hincluded).target
  obtain ⟨candidate, hcandidate, rfl⟩ := List.mem_map.mp hasset
  rw [relativePath_materializeAsset] at htarget ⊢
  rw [resolveTargetPath_of_mem hcandidate, sourcePath_of_mem hcandidate] at htarget
  change sampleSettings _ = _ at htarget
  rw [sampleSettings] at htarget
  split_ifs at htarget with hname
  exact ⟨hname, (some.inj htarget).symm⟩

theorem sourcePath_sample (hasset : asset ∈ (sampleService disk).inventory disk.tree .full)
    (hincluded : asset.included = true) : asset.sourcePath = ["skills".toList] :=
  (path_sample hasset hincluded).2

theorem directoriesAgree_plainDisk :
    DirectoriesAgree (sampleService plainDisk) .full plainDisk := by
  intro asset hasset hincluded _ p q hp hq hlt
  rw [sourcePath_sample hasset hincluded] at hp hq
  have honly : ∀ p ∈ (plainDisk.tree.sub ["skills".toList]).listing,
      ((plainDisk.tree.sub ["skills".toList]).file? p).isSome →
        p = ["a".toList, "x".toList] := by
    decide +kernel
  have hlisted : ∀ {p}, ((plainDisk.tree.sub ["skills".toList]).file? p).isSome →
      p = ["a".toList, "x".toList] := by
    intro p hp
    refine honly p (listed _ p fun hnone => ?_) hp
    rw [file?_of_none hnone] at hp
    cases hp
  rw [hlisted hp, hlisted hq] at hlt
  exact absurd hlt (lt_irrefl _)

/-- A backup makes its round trip exactly when the orders of the files agree in each directory
and no file is above a target. -/
theorem roundTrips_iff (service : BackupService) (mode : BackupMode) (stamp : BackupStamp)
    (disk live : Disk) (hdigests : Digests service.sha256)
    (hmanifest : service.loadManifest (service.dumpManifest
      (service.manifest disk.tree mode stamp.backupId)) =
        .ok (service.manifest disk.tree mode stamp.backupId).written) :
    RoundTrips service mode stamp disk live ↔
      DirectoriesAgree service mode disk ∧ TargetsClear service mode disk live := by
  obtain ⟨staged, result, hcreate, hstaged, hverify, hvalid⟩ := verify_create hdigests hmanifest
  have hstem := isName_buildArchiveStem stamp mode
  constructor
  · rintro ⟨members, hmembers, ⟨result', hverify', hresult⟩, outcome, tree, hexecute, -⟩
    rw [hcreate] at hmembers
    cases hmembers
    rw [hverify] at hverify'
    cases hverify'
    exact ⟨hvalid.mp hresult,
      (execute_written hdigests hstem hmanifest hstaged hverify hresult).2 outcome tree hexecute⟩
  · rintro ⟨hagree, hclear⟩
    have hresult := hvalid.mpr hagree
    obtain ⟨outcome, tree, hexecute, hrestored⟩ :=
      (execute_written hdigests hstem hmanifest hstaged hverify hresult).1 hclear
    refine ⟨_, hcreate, ⟨result, hverify, hresult⟩, outcome, tree, hexecute, ?_⟩
    intro asset hasset hincluded
    exact hrestored.restored asset (List.mem_filter.mpr ⟨hasset, hincluded⟩)

/-- The content of a file changes, and comes back. -/
theorem roundTrips_plainDisk : RoundTrips (sampleService plainDisk) .full sampleStamp
    plainDisk changedDisk :=
  (roundTrips_iff _ .full sampleStamp plainDisk changedDisk digests_sampleDigest
    (loadManifest_sampleService plainDisk)).mpr ⟨directoriesAgree_plainDisk, by
      apply clearAfter_of_forall
      intro asset hasset q hq hne
      obtain ⟨hasset, hincluded⟩ := List.mem_filter.mp hasset
      rw [sourcePath_sample hasset hincluded] at hq hne
      rcases prefix_cons_iff.mp hq with rfl | ⟨r, rfl, hr⟩
      · exact DirTree.file?_of_dir changedDisk.root
      · rw [prefix_nil.mp hr] at hne
        exact absurd rfl hne⟩

def sampleDisk : Disk where
  tree := skillTree [(["skills".toList, "a".toList, "x".toList], [1]),
    (["skills".toList, "a.txt".toList], [2])]
  root := by decide +kernel
  named p hp := (by decide +kernel : ∀ p ∈ (skillTree
    [(["skills".toList, "a".toList, "x".toList], [1]),
      (["skills".toList, "a.txt".toList], [2])]).listing, Named p) p (DirTree.listed _ p hp)

theorem skills_mem (disk : Disk) : (sampleService disk).materializeAsset disk.tree .full
    (configCandidate sampleSettings "config/skills" "skills") ∈
      (sampleService disk).inventory disk.tree .full :=
  List.mem_map_of_mem (mem_append_left _ (mem_append_left _
    (.tail _ (.tail _ (.tail _ (.head _))))))

/-- The archive of the skills does not verify: the two orders of its files differ. -/
theorem not_roundTrips_sampleDisk :
    ¬ RoundTrips (sampleService sampleDisk) .full sampleStamp sampleDisk sampleDisk := by
  rintro ⟨members, hmembers, ⟨result, hresult, hvalid⟩, -⟩
  obtain ⟨staged, result', hcreate, -, hverify, hiff⟩ := verify_create
    (digests_sampleDigest) (loadManifest_sampleService sampleDisk)
  rw [hcreate] at hmembers
  cases hmembers
  rw [hverify] at hresult
  cases hresult
  have hagree := hiff.mp hvalid _ (skills_mem sampleDisk) (by decide +kernel) (by decide +kernel)
  have hle := hagree ["a".toList, "x".toList] ["a.txt".toList] (by decide +kernel)
    (by decide +kernel) (by decide +kernel)
  revert hle
  decide +kernel

end BackupService

end Agent33.Backup
