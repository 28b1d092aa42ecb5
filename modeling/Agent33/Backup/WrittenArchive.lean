import Agent33.Backup.RestorePlanner

/-!
# The archive that is written

The assets are staged at separate paths, so that each of them is in the archive as it is on the
disk, next to the manifest.
-/

namespace Agent33.Backup

open Library List Option DirTree

def NamedTree (t : Tree) : Prop := ∀ p, t.node p ≠ none → Named p

structure Disk where
  tree : Tree
  root : tree.node [] = some .dir
  named : NamedTree tree

def Separate (p q : Parts) : Prop := ¬ p <+: q ∧ ¬ q <+: p

instance (p q : Parts) : Decidable (Separate p q) :=
  inferInstanceAs (Decidable (¬ _ ∧ ¬ _))

theorem Separate.symm (h : Separate p q) : Separate q p := ⟨h.2, h.1⟩

theorem Separate.append (h : Separate p q) (r : Parts) : Separate (p ++ r) q := by
  constructor
  · exact fun hpq => h.1 ((prefix_append p r).trans hpq)
  · intro hq
    rcases prefix_or_prefix_of_prefix hq (prefix_append p r) with hqp | hpq
    · exact h.2 hqp
    · exact h.1 hpq

namespace BackupService

variable {service : BackupService} {t t' source : Tree} {p q : Parts}

def assetNames : List Text := (assetCandidates fun _ => none).map AssetCandidate.relativePath

theorem relativePath_assetCandidates (settings : Text → Option Parts) :
    (assetCandidates settings).map AssetCandidate.relativePath = assetNames := rfl

/-- The names are spelled out first, so that what is decided is about lists of characters. -/
theorem spelled_assetNames : ∃ names, Forall₂ Eq assetNames names ∧
    (names.map partsOf).Pairwise Separate ∧ ∀ parts ∈ names.map partsOf,
      (∀ part ∈ parts, IsName part) ∧ parts ≠ [] ∧ Separate parts [manifestFilename] := by
  constructor
  constructor
  · simp only [assetNames, assetCandidates, databaseAssetCandidates, configCandidate,
      stateCandidate, map_cons, map_nil, cons_append, nil_append, -String.reduceToList]
    repeat' first | apply Forall₂.cons | exact String.toList_ofList | exact .nil
  · decide +kernel

theorem pairwise_assetNames :
    assetNames.Pairwise fun name name' => Separate (partsOf name) (partsOf name') := by
  obtain ⟨names, hnames, hpairwise, -⟩ := spelled_assetNames
  rw [forall₂_eq_eq_eq] at hnames
  exact hnames ▸ pairwise_map.mp hpairwise

theorem named_assetNames : ∀ name ∈ assetNames, (∀ part ∈ partsOf name, IsName part) ∧
    partsOf name ≠ [] ∧ Separate (partsOf name) [manifestFilename] := by
  obtain ⟨names, hnames, -, hnamed⟩ := spelled_assetNames
  rw [forall₂_eq_eq_eq] at hnames
  exact fun name hname => hnamed _ (mem_map_of_mem (hnames ▸ hname))

theorem relativePath_materializeAsset (tree : Tree) (mode : BackupMode)
    (candidate : AssetCandidate) :
    (service.materializeAsset tree mode candidate).relativePath = candidate.relativePath := by
  unfold materializeAsset
  split
  · rfl
  · dsimp only
    split_ifs <;> rfl

theorem relativePath_inventory (service : BackupService) (tree : Tree) (mode : BackupMode) :
    (service.inventory tree mode).map BackupAsset.relativePath = assetNames := by
  rw [← relativePath_assetCandidates service.settings, inventory, List.map_map]
  exact map_congr_left fun candidate _ => relativePath_materializeAsset tree mode candidate

structure Includes (service : BackupService) (tree : Tree) (asset : BackupAsset) : Prop where
  target : service.resolveTargetPath asset.relativePath = some asset.sourcePath
  found : tree.node asset.sourcePath ≠ none
  outside : ¬ asset.sourcePath <+: service.backupDir
  checksum : asset.checksum = computeChecksum service.sha256 (tree.sub asset.sourcePath)
  isDirectory : asset.isDirectory = tree.isDir asset.sourcePath

theorem find?_eq_of_nodup {α β : Type*} [DecidableEq β] {f : α → β} {l : List α} {a : α}
    (h : (l.map f).Nodup) (ha : a ∈ l) : l.find? (fun b => f b = f a) = some a := by
  induction l with
  | nil => cases ha
  | cons b l ih =>
    rw [map_cons, nodup_cons] at h
    rcases mem_cons.mp ha with rfl | ha
    · exact find?_cons_of_pos (decide_eq_true rfl)
    · rw [find?_cons_of_neg, ih h.2 ha]
      intro heq
      exact h.1 (of_decide_eq_true heq ▸ List.mem_map_of_mem ha)

theorem nodup_assetNames : assetNames.Nodup := by
  apply pairwise_assetNames.imp
  rintro name name' hseparate rfl
  exact hseparate.1 prefix_rfl

theorem sourcePath_of_mem {settings : Text → Option Parts}
    (h : candidate ∈ assetCandidates settings) :
    candidate.sourcePath = settings candidate.relativePath := by
  have hsame : (assetCandidates settings).map AssetCandidate.sourcePath =
      (assetCandidates settings).map fun candidate => settings candidate.relativePath := rfl
  exact List.map_inj_left.mp hsame candidate h

theorem resolveTargetPath_of_mem (h : candidate ∈ assetCandidates service.settings) :
    service.resolveTargetPath candidate.relativePath = candidate.sourcePath := by
  unfold resolveTargetPath
  rw [find?_eq_of_nodup (relativePath_assetCandidates service.settings ▸ nodup_assetNames) h,
    bind_some]

variable {tree : Tree} {mode : BackupMode} {asset : BackupAsset}

theorem includes_of_mem (h : asset ∈ service.inventory tree mode)
    (hincluded : asset.included = true) : Includes service tree asset := by
  obtain ⟨candidate, hcandidate, rfl⟩ := List.mem_map.mp h
  have htarget := resolveTargetPath_of_mem hcandidate
  unfold materializeAsset at hincluded ⊢
  cases hsource : candidate.sourcePath with
  | none =>
    rw [hsource] at hincluded
    cases hincluded
  | some source =>
    rw [hsource] at hincluded htarget
    dsimp only at hincluded ⊢
    split_ifs at hincluded ⊢ with hmode hnone hbackup
    exact ⟨htarget, hnone, fun hprefix => hbackup (List.isPrefixOf_iff_prefix.mpr hprefix),
      rfl, rfl⟩

theorem relativePath_mem (h : asset ∈ service.inventory tree mode) :
    asset.relativePath ∈ assetNames := by
  rw [← relativePath_inventory service tree mode]
  exact List.mem_map_of_mem h

def place (asset : BackupAsset) : Parts := partsOf asset.relativePath

theorem named_place (h : asset ∈ service.inventory tree mode) : Named (place asset) :=
  (named_assetNames _ (relativePath_mem h)).1

theorem place_ne_nil (h : asset ∈ service.inventory tree mode) : place asset ≠ [] :=
  (named_assetNames _ (relativePath_mem h)).2.1

theorem pairwise_place (tree : Tree) (mode : BackupMode) :
    (service.inventory tree mode).Pairwise fun asset asset' =>
      Separate (place asset) (place asset') := by
  have h := pairwise_assetNames
  rw [← relativePath_inventory service tree mode, pairwise_map] at h
  exact h

def Free (t : Tree) (p : Parts) : Prop :=
  ∀ q, t.node q ≠ none → ¬ p <+: q ∧ (q <+: p → t.node q = some .dir)

theorem dropLast_prefix_iff (hp : p ≠ []) : q <+: p.dropLast ↔ q <+: p ∧ q ≠ p := by
  constructor
  · intro h
    refine ⟨h.trans (List.dropLast_prefix p), ?_⟩
    rintro rfl
    have := h.length_le
    have := length_pos_iff.mpr hp
    rw [length_dropLast] at *
    omega
  · rintro ⟨h, hne⟩
    have hlast := dropLast_append_getLast hp
    rw [← hlast] at h
    rcases prefix_concat_iff.mp h with heq | h
    · exact absurd (heq.trans hlast) hne
    · exact h

theorem copy_free (source : Tree) (hp : p ≠ []) (hfree : Free t p) :
    ∃ made placed, t.mkdirs p.dropLast = some made ∧ copy made p source = some placed ∧
      ∀ q, placed.node q = if p <+: q then source.node (q.drop p.length)
        else if t.node q = none ∧ q <+: p then some .dir else t.node q := by
  have hsome : (t.mkdirs p.dropLast).isSome := by
    apply mkdirs_isSome_iff.mpr
    intro q hq
    by_cases hnode : t.node q = none
    · exact file?_of_none hnode
    · exact file?_of_dir ((hfree q hnode).2 ((dropLast_prefix_iff hp).mp hq).1)
  obtain ⟨made, hmade⟩ := isSome_iff_exists.mp hsome
  have hnode := node_mkdirs hmade
  have habove : ∀ q ∈ p.inits, q ≠ p → made.isDir q = true := by
    intro q hq hne
    exact isDir_iff.mpr (DirTree.node_mkdirs_of_prefix hmade
      ((dropLast_prefix_iff hp).mpr ⟨(mem_inits q p).mp hq, hne⟩))
  have hnone : made.node p = none := by
    rw [hnode, if_neg fun h => ((dropLast_prefix_iff hp).mp h.2).2 rfl]
    by_contra h
    exact (hfree p h).1 prefix_rfl
  refine ⟨made, made.graft p source fun q hq hne =>
    isDir_iff.mp (habove q ((mem_inits q p).mpr hq) hne), hmade, ?_, ?_⟩
  · unfold copy
    rw [dif_pos habove, if_neg]
    rintro (hdir | ⟨-, hfound⟩)
    · rw [isDir_iff, hnone] at hdir
      cases hdir
    · exact hfound hnone
  · intro q
    rw [node_graft]
    by_cases hpq : p <+: q
    · rw [if_pos hpq, if_pos hpq]
    · rw [if_neg hpq, if_neg hpq, hnode]
      apply if_congr _ rfl rfl
      rw [dropLast_prefix_iff hp]
      refine and_congr_right fun _ => ⟨And.left, fun hq => ⟨hq, ?_⟩⟩
      rintro rfl
      exact hpq prefix_rfl

theorem Free.copied (h : Free t q) (hseparate : Separate p q)
    (hnode : ∀ r, t'.node r = if p <+: r then source.node (r.drop p.length)
      else if t.node r = none ∧ r <+: p then some .dir else t.node r) : Free t' q := by
  intro r hr
  rw [hnode] at hr ⊢
  split_ifs at hr ⊢ with hp hnew
  · constructor
    · intro hq
      rcases prefix_or_prefix_of_prefix hp hq with hpq | hqp
      · exact hseparate.1 hpq
      · exact hseparate.2 hqp
    · exact fun hrq => absurd (hp.trans hrq) hseparate.1
  · exact ⟨fun hq => hseparate.2 (hq.trans hnew.2), fun _ => rfl⟩
  · exact h r hr

theorem stage_spec (disk : Disk) (hroot : t.node [] = some .dir)
    (hnamed : NamedTree t)
    (hassets : ∀ asset ∈ assets, Named (place asset) ∧ place asset ≠ [] ∧ Free t (place asset))
    (hseparate : assets.Pairwise fun asset asset' => Separate (place asset) (place asset')) :
    ∃ staged, stage disk.tree assets t = some staged ∧ staged.node [] = some .dir ∧
      NamedTree staged ∧
      (∀ asset ∈ assets, asset.included = true → ∀ r,
        staged.node (place asset ++ r) = disk.tree.node (asset.sourcePath ++ r)) ∧
      ∀ q, (∀ asset ∈ assets, Separate (place asset) q) → staged.node q = t.node q := by
  induction assets generalizing t with
  | nil => exact ⟨t, rfl, hroot, hnamed, by simp, fun q _ => rfl⟩
  | cons asset rest ih =>
    rw [pairwise_cons] at hseparate
    obtain ⟨hname, hne, hfree⟩ := hassets asset mem_cons_self
    unfold stage
    by_cases hincluded : asset.included = true
    · rw [if_pos hincluded]
      obtain ⟨made, placed, hmade, hcopy, hnode⟩ :=
        copy_free (disk.tree.sub asset.sourcePath) hne hfree
      have hplaced : placed.node [] = some .dir := by
        rw [hnode, if_neg (by simpa using hne), hroot, if_neg (by simp)]
      have hplacedNamed : NamedTree placed := by
        intro q hq
        rw [hnode] at hq
        split_ifs at hq with hprefix hnew
        · obtain ⟨r, rfl⟩ := hprefix
          rw [drop_left] at hq
          exact hname.append (disk.named _ hq).right
        · obtain ⟨r, hr⟩ := hnew.2
          exact (hr ▸ hname : Named (q ++ r)).left
        · exact hnamed q hq
      obtain ⟨staged, hstaged, hstagedRoot, hstagedNamed, hrest, hframe⟩ := ih hplaced hplacedNamed
        (fun other hother => by
          obtain ⟨hothername, hotherne, hotherfree⟩ :=
            hassets other (mem_cons_of_mem _ hother)
          exact ⟨hothername, hotherne, hotherfree.copied (hseparate.1 other hother) hnode⟩)
        hseparate.2
      refine ⟨staged, ?_, hstagedRoot, hstagedNamed, ?_, ?_⟩
      · change ((t.mkdirs (place asset).dropLast).bind fun made =>
          (copy made (place asset) (disk.tree.sub asset.sourcePath)).bind
            (stage disk.tree rest)) = _
        rw [hmade, bind_some, hcopy, bind_some, hstaged]
      · intro other hother hotherincluded r
        rcases mem_cons.mp hother with rfl | hother
        · rw [hframe, hnode, if_pos (prefix_append _ r), drop_left]
          · rfl
          · exact fun later hlater => ((hseparate.1 later hlater).append r).symm
        · exact hrest other hother hotherincluded r
      · intro q hq
        have hself := hq asset mem_cons_self
        rw [hframe q fun other hother => hq other (mem_cons_of_mem _ hother), hnode,
          if_neg hself.1, if_neg fun hnew => hself.2 hnew.2]
    · rw [if_neg hincluded]
      obtain ⟨staged, hstaged, hstagedRoot, hstagedNamed, hrest, hframe⟩ := ih hroot hnamed
        (fun other hother => hassets other (mem_cons_of_mem _ hother)) hseparate.2
      refine ⟨staged, hstaged, hstagedRoot, hstagedNamed, ?_, ?_⟩
      · intro other hother hotherincluded r
        rcases mem_cons.mp hother with rfl | hother
        · exact absurd hotherincluded hincluded
        · exact hrest other hother hotherincluded r
      · exact fun q hq => hframe q fun other hother => hq other (mem_cons_of_mem _ hother)

structure Staged (service : BackupService) (tree : Tree) (mode : BackupMode) (backupId : Text)
    (staged : Tree) : Prop where
  root : staged.node [] = some .dir
  named : NamedTree staged
  manifest : staged.node [manifestFilename] =
    some (.file (service.dumpManifest (service.manifest tree mode backupId)))
  asset : ∀ asset ∈ service.inventory tree mode, asset.included = true → ∀ r,
    staged.node (place asset ++ r) = tree.node (asset.sourcePath ++ r)

theorem isName_manifestFilename : IsName manifestFilename := by
  decide +kernel

theorem create_spec (service : BackupService) (disk : Disk) (mode : BackupMode)
    (backupId archiveStem : Text) :
    ∃ staged, service.create disk.tree mode backupId archiveStem =
      some (writeTarGz archiveStem staged) ∧
        Staged service disk.tree mode backupId staged := by
  obtain ⟨root, hroot⟩ := isSome_iff_exists.mp (mkdirs_isSome_iff.mpr fun q _ =>
    rfl : ((empty : Tree).mkdirs []).isSome)
  have hrootNode : ∀ q, root.node q = if q = [] then some .dir else none := by
    intro q
    rw [node_mkdirs hroot]
    by_cases hq : q = []
    · simp [hq, empty]
    · simp [hq, empty]
  obtain ⟨staged, hstaged, hstagedRoot, hnamed, hassets, hframe⟩ := stage_spec disk
    (t := root) (by simp [hrootNode] : root.node [] = some .dir)
    (fun p hp => by
      rw [hrootNode] at hp
      split_ifs at hp with hnil
      · rw [hnil]
        exact fun _ h => absurd h not_mem_nil
      · exact absurd rfl hp)
    (fun asset hasset => ⟨named_place hasset, place_ne_nil hasset, fun q hq => by
      rw [hrootNode] at hq ⊢
      split_ifs at hq ⊢ with hnil
      · rw [hnil]
        exact ⟨fun h => place_ne_nil hasset (prefix_nil.mp h), fun _ => rfl⟩
      · exact absurd rfl hq⟩)
    (pairwise_place disk.tree mode)
  have hnone : staged.node [manifestFilename] = none := by
    rw [hframe _ fun asset hasset => (named_assetNames _ (relativePath_mem hasset)).2.2,
      hrootNode, if_neg (cons_ne_nil _ _)]
  have habove : ∀ q ∈ [manifestFilename].inits, q ≠ [manifestFilename] →
      staged.isDir q = true := by
    intro q hq hne
    rcases prefix_cons_iff.mp ((mem_inits q _).mp hq) with rfl | ⟨r, rfl, hr⟩
    · exact isDir_iff.mpr hstagedRoot
    · rw [prefix_nil.mp hr] at hne
      exact absurd rfl hne
  obtain ⟨written, hwritten⟩ : ∃ written, staged.writeFile [manifestFilename]
      (service.dumpManifest (service.manifest disk.tree mode backupId)) = some written := by
    unfold writeFile
    rw [dif_pos habove, if_neg]
    · exact ⟨_, rfl⟩
    · rw [isDir_iff, hnone]
      rintro ⟨⟩
  have hnode := node_writeFile hwritten
  refine ⟨written, ?_, ?_, ?_, ?_, ?_⟩
  · unfold create
    rw [hroot]
    change (stage disk.tree (service.inventory disk.tree mode) root).bind _ = _
    rw [hstaged, bind_some, hwritten]
    rfl
  · rw [hnode, if_neg (by simp), hstagedRoot]
  · intro p hp
    rw [hnode] at hp
    split_ifs at hp with hprefix
    · obtain ⟨r, rfl⟩ := hprefix
      rw [drop_left] at hp
      cases r with
      | nil =>
        intro name hname
        rw [mem_singleton.mp hname]
        exact isName_manifestFilename
      | cons part r => exact absurd rfl hp
    · exact hnamed p hp
  · rw [hnode, if_pos prefix_rfl]
    rfl
  · intro asset hasset hincluded r
    rw [hnode, if_neg, hassets asset hasset hincluded r]
    exact (((named_assetNames _ (relativePath_mem hasset)).2.2).append r).2

end BackupService

end Agent33.Backup
