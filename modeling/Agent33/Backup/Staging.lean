import Agent33.Backup.Verification

/-!
# Staging an asset and putting it in place

An asset of a written archive is staged as it was on the disk. It takes the place of its target
when no file is where a directory above the target has to be.
-/

namespace Agent33.Backup

open Library List Option

namespace BackupService

variable {disk : Disk}
  {staged t t' s : Tree}

def Within (t s : Tree) : Prop := ∀ q, t.node q ≠ none → t.node q = s.node q

theorem writeFile_within (h : Within t s) (hpath : s.node path = some (.file content))
    (habove : ∀ q, q <+: path → q ≠ path → t.node q = some .dir) :
    ∃ t', t.writeFile path content = some t' ∧ Within t' s ∧ t'.node path ≠ none ∧
      ∀ q, t.node q ≠ none → t'.node q ≠ none := by
  have hbelow : ∀ rest, rest ≠ [] → s.node (path ++ rest) = none := by
    intro rest hrest
    by_contra hnode
    rw [s.parents path rest hrest hnode] at hpath
    cases hpath
  have hfile : t.isDir path = false := by
    rw [Bool.eq_false_iff, ne_eq, DirTree.isDir_iff]
    intro hdir
    rw [h path (by rw [hdir]; exact some_ne_none _), hpath] at hdir
    cases hdir
  have hall : ∀ q ∈ path.inits, q ≠ path → t.isDir q = true := fun q hq hne =>
    DirTree.isDir_iff.mpr (habove q ((mem_inits q path).mp hq) hne)
  obtain ⟨t', ht'⟩ : ∃ t', t.writeFile path content = some t' := by
    unfold DirTree.writeFile
    rw [dif_pos hall, hfile]
    exact ⟨_, rfl⟩
  have hnode := DirTree.node_writeFile ht'
  have hsingle : ∀ rest, (DirTree.single content : Tree).node rest = s.node (path ++ rest) := by
    intro rest
    cases rest with
    | nil =>
      rw [append_nil, hpath]
      rfl
    | cons name rest =>
      rw [hbelow _ (cons_ne_nil name rest)]
      rfl
  refine ⟨t', ht', ?_, ?_, ?_⟩
  · intro q hq
    rw [hnode] at hq ⊢
    split_ifs at hq ⊢ with hprefix
    · obtain ⟨rest, rfl⟩ := hprefix
      rw [drop_left, hsingle]
    · exact h q hq
  · rw [hnode, if_pos prefix_rfl, drop_length]
    exact some_ne_none _
  · intro q hq
    rw [hnode]
    split_ifs with hprefix
    · obtain ⟨rest, rfl⟩ := hprefix
      rw [drop_left, hsingle, ← h _ hq]
      exact hq
    · exact hq

theorem mkdirs_within (h : Within t s) (q : Parts) (hdirs : ∀ r, r <+: q → s.node r = some .dir) :
    ∃ made, t.mkdirs q = some made ∧ Within made s ∧ (∀ r, r <+: q → made.node r = some .dir) ∧
      ∀ r, t.node r ≠ none → made.node r ≠ none := by
  have hsome : (t.mkdirs q).isSome := by
    apply DirTree.mkdirs_isSome_iff.mpr
    intro r hr
    by_cases hnone : t.node r = none
    · exact DirTree.file?_of_none hnone
    · exact DirTree.file?_of_dir ((h r hnone).trans (hdirs r hr))
  obtain ⟨made, hmade⟩ := isSome_iff_exists.mp hsome
  have hnode := DirTree.node_mkdirs hmade
  refine ⟨made, hmade, ?_, fun r hr => DirTree.node_mkdirs_of_prefix hmade hr, ?_⟩
  · intro r hr
    rw [hnode] at hr ⊢
    split_ifs at hr ⊢ with hnew
    · exact (hdirs r hnew.2).symm
    · exact h r hr
  · intro r hr
    rw [hnode, if_neg fun hnew => hr hnew.1]
    exact hr

theorem stageMember_within (h : Within t s) (hpath : s.node path = some node) :
    ∃ t', stageMember t path (payloadOf node) = some t' ∧ Within t' s ∧ t'.node path ≠ none ∧
      ∀ q, t.node q ≠ none → t'.node q ≠ none := by
  have hfound : s.node path ≠ none := by
    rw [hpath]
    exact some_ne_none node
  cases node with
  | dir =>
    obtain ⟨made, hmade, hwithin, hdirs, hmono⟩ := mkdirs_within h path fun r hr => by
      by_cases heq : r = path
      · rw [heq, hpath]
      · exact DirTree.node_of_prefix hfound hr heq
    refine ⟨made, hmade, hwithin, ?_, hmono⟩
    rw [hdirs path prefix_rfl]
    exact some_ne_none _
  | file content =>
    unfold stageMember payloadOf
    dsimp only
    by_cases hnil : path = []
    · rw [if_pos hnil]
      apply writeFile_within h hpath
      intro q hq hne
      rw [hnil] at hq hne
      exact absurd (prefix_nil.mp hq) hne
    · rw [if_neg hnil]
      obtain ⟨made, hmade, hwithin, hdirs, hmono⟩ := mkdirs_within h path.dropLast
        fun r hr => DirTree.node_of_prefix hfound ((dropLast_prefix_iff hnil).mp hr).1
          ((dropLast_prefix_iff hnil).mp hr).2
      obtain ⟨t', ht', hwithin', hnew, hmono'⟩ := writeFile_within hwithin hpath fun q hq hne =>
        hdirs q ((dropLast_prefix_iff hnil).mpr ⟨hq, hne⟩)
      refine ⟨t', ?_, hwithin', hnew, fun q hq => hmono' q (hmono q hq)⟩
      rw [hmade]
      exact ht'

theorem stageMembers_within (h : Within t s)
    (hentries : ∀ entry ∈ entries, ∃ node, s.node entry.1 = some node ∧
      entry.2 = payloadOf node) :
    ∃ t', stageMembers entries t = some t' ∧ Within t' s ∧
      (∀ entry ∈ entries, t'.node entry.1 ≠ none) ∧ ∀ q, t.node q ≠ none → t'.node q ≠ none := by
  induction entries generalizing t with
  | nil => exact ⟨t, rfl, h, by simp, fun q hq => hq⟩
  | cons entry entries ih =>
    obtain ⟨path, payload⟩ := entry
    obtain ⟨node, hnode, hpayload⟩ := hentries (path, payload) mem_cons_self
    obtain ⟨made, hmade, hwithin, hnew, hmono⟩ := stageMember_within h hnode
    obtain ⟨t', ht', hwithin', hrest, hmono'⟩ := ih hwithin fun other hother =>
      hentries other (mem_cons_of_mem _ hother)
    refine ⟨t', ?_, hwithin', ?_, fun q hq => hmono' q (hmono q hq)⟩
    · unfold stageMembers
      change payload = payloadOf node at hpayload
      rw [hpayload, hmade]
      exact ht'
    · intro other hother
      rcases mem_cons.mp hother with rfl | hother
      · exact hmono' path hnew
      · exact hrest other hother

section Written

variable (hstem : IsName archiveStem) (hstaged : Staged service disk.tree mode backupId staged)
  (hasset : asset ∈ service.inventory disk.tree mode) (hincluded : asset.included = true)

include hstem hstaged hasset hincluded

theorem mem_membersBelow {entry : Parts × Payload} :
    entry ∈ membersBelow (writeTarGz archiveStem staged) (archiveStem :: place asset)
        [archiveStem, manifestFilename] ↔
      ∃ node, disk.tree.node (asset.sourcePath ++ entry.1) = some node ∧
        entry.2 = payloadOf node := by
  unfold membersBelow
  rw [mem_filterMap]
  constructor
  · rintro ⟨member, hmember, hentry⟩
    obtain ⟨path, node, hnode, rfl⟩ := mem_writeTarGz.mp hmember
    have hpath := hstaged.named path (by rw [hnode]; exact some_ne_none node)
    dsimp only at hentry
    rw [partsOf_asPosix (named_cons hstem hpath)] at hentry
    split_ifs at hentry with hbelow
    obtain ⟨rest, hrest⟩ := hbelow.2
    rw [cons_append, cons.injEq] at hrest
    rw [← hrest.2] at hentry hnode
    cases hentry
    refine ⟨node, ?_, rfl⟩
    rw [length_cons, drop_succ_cons, drop_left]
    exact (hstaged.asset asset hasset hincluded rest).symm.trans hnode
  · rintro ⟨node, hnode, hpayload⟩
    have hplaced := (hstaged.asset asset hasset hincluded entry.1).trans hnode
    have hpath := hstaged.named _ (by rw [hplaced]; exact some_ne_none node)
    refine ⟨_, mem_writeTarGz.mpr ⟨_, node, hplaced, rfl⟩, ?_⟩
    dsimp only
    rw [partsOf_asPosix (named_cons hstem hpath), if_pos]
    · rw [length_cons, drop_succ_cons, drop_left, ← hpayload]
    · constructor
      · intro heq
        have hseparate := (named_assetNames _ (relativePath_mem hasset)).2.2
        exact hseparate.1 ((cons.inj heq).2 ▸ prefix_append _ _)
      · rw [← cons_append]
        exact prefix_append _ _

theorem stageAsset_writeTarGz : ∃ result,
    stageAsset (writeTarGz archiveStem staged) archiveStem asset.relativePath = .ok result ∧
      ∀ q, result.node q = disk.tree.node (asset.sourcePath ++ q) := by
  have hsafe : (writeTarGz archiveStem staged).find? (fun member =>
      !isSafeArchiveMember member.name) = none := by
    rw [find?_eq_none]
    intro member hmember
    obtain ⟨path, node, hnode, rfl⟩ := mem_writeTarGz.mp hmember
    have hpath := hstaged.named path (by rw [hnode]; exact some_ne_none node)
    rw [isSafeArchiveMember_asPosix (named_cons hstem hpath)]
    exact Bool.false_ne_true
  have hmem : ∀ entry, entry ∈ membersBelow (writeTarGz archiveStem staged)
      (archiveStem :: place asset) [archiveStem, manifestFilename] ↔
        ∃ node, disk.tree.node (asset.sourcePath ++ entry.1) = some node ∧
          entry.2 = payloadOf node := fun entry =>
    mem_membersBelow hstem hstaged hasset hincluded
  obtain ⟨result, hresult, hwithin, hall, -⟩ := stageMembers_within
    (t := DirTree.empty) (s := disk.tree.sub asset.sourcePath) (fun q hq => absurd rfl hq)
    fun entry hentry => (hmem entry).mp hentry
  refine ⟨result, ?_, ?_⟩
  · unfold stageAsset
    have hplace : partsOf asset.relativePath = place asset := rfl
    rw [hsafe]
    dsimp only
    rw [hplace, if_neg, hresult]
    obtain ⟨node, hnode⟩ := ne_none_iff_exists'.mp (includes_of_mem hasset hincluded).found
    apply ne_nil_of_mem (a := ([], payloadOf node))
    exact (hmem _).mpr ⟨node, by rw [append_nil, hnode], rfl⟩
  · intro q
    by_cases hq : disk.tree.node (asset.sourcePath ++ q) = none
    · rw [hq]
      by_contra hnode
      exact hnode ((hwithin q hnode).trans hq)
    · obtain ⟨node, hnode⟩ := ne_none_iff_exists'.mp hq
      exact hwithin q (hall (q, payloadOf node) ((hmem _).mpr ⟨node, hnode, rfl⟩))

end Written

open DirTree in
theorem replaceTarget_spec
    (htarget : target ≠ []) (hfound : s.node [] ≠ none) (hdir : s.isDir [] = isDirectory)
    (habove : ∀ q, q <+: target → q ≠ target → live.file? q = none) :
    ∃ live', replaceTarget live s target isDirectory = (.ok (), live') ∧
      ∀ q, live'.file? q =
        if target <+: q then s.file? (q.drop target.length) else live.file? q := by
  have hsome : (live.mkdirs target.dropLast).isSome := by
    apply mkdirs_isSome_iff.mpr
    intro q hq
    exact habove q ((dropLast_prefix_iff htarget).mp hq).1
      ((dropLast_prefix_iff htarget).mp hq).2
  obtain ⟨made, hmade⟩ := isSome_iff_exists.mp hsome
  have hremoved : ∀ q, (made.remove target).node q =
      if target <+: q then none else made.node q := fun q => rfl
  have hdirs : ∀ q ∈ target.inits, q ≠ target → (made.remove target).isDir q = true := by
    intro q hq hne
    have hq := (mem_inits q target).mp hq
    rw [isDir_iff, hremoved, if_neg]
    · exact node_mkdirs_of_prefix hmade ((dropLast_prefix_iff htarget).mpr ⟨hq, hne⟩)
    · exact fun hprefix => hne (hq.eq_of_length (le_antisymm hq.length_le hprefix.length_le))
  have hnone : (made.remove target).node target = none := by
    rw [hremoved, if_pos prefix_rfl]
  refine ⟨(made.remove target).graft target s fun q hq hne =>
    isDir_iff.mp (hdirs q ((mem_inits q target).mpr hq) hne), ?_, ?_⟩
  · unfold replaceTarget copy
    rw [hmade]
    dsimp only
    rw [if_neg (by simp [hfound, hdir]), dif_pos hdirs, if_neg]
    rintro (hisDir | ⟨-, hsomeNode⟩)
    · rw [isDir_iff, hnone] at hisDir
      cases hisDir
    · exact hsomeNode hnone
  · intro q
    split_ifs with hprefix
    · apply file?_congr
      rw [node_graft, if_pos hprefix]
    · rw [← file?_mkdirs hmade q]
      apply file?_congr
      rw [node_graft, if_neg hprefix, hremoved, if_neg hprefix]

theorem above_of_replaceTarget (htarget : target ≠ [])
    (h : replaceTarget live s target isDirectory = (.ok (), live'))
    (hq : q <+: target) (hne : q ≠ target) : live.file? q = none := by
  unfold replaceTarget at h
  cases hmade : live.mkdirs target.dropLast with
  | none =>
    rw [hmade] at h
    cases h
  | some made =>
    exact DirTree.mkdirs_isSome_iff.mp (by rw [hmade]; rfl) q
      ((dropLast_prefix_iff htarget).mpr ⟨hq, hne⟩)

end BackupService

end Agent33.Backup
