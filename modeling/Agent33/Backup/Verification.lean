import Agent33.Backup.WrittenArchive
import Mathlib.Data.List.Perm.Basic

/-!
# Verifying a written archive

An archive that was just written passes every check but for the digests of directories, which
agree exactly when two orders of their files agree: that of the paths, part by part, and that of
the paths as they are written out.
-/

namespace Agent33.Backup

open Library

namespace BackupService

variable {service : BackupService} {disk : Disk}


theorem mem_writeTarGz {member : TarInfo} :
    member ∈ writeTarGz archiveStem staged ↔ ∃ path node, staged.node path = some node ∧
      member = ⟨asPosix (archiveStem :: path), payloadOf node⟩ := by
  unfold writeTarGz
  rw [List.mem_filterMap]
  constructor
  · rintro ⟨path, _, hmember⟩
    obtain ⟨node, hnode, rfl⟩ := Option.map_eq_some_iff.mp hmember
    exact ⟨path, node, hnode, rfl⟩
  · rintro ⟨path, node, hnode, rfl⟩
    refine ⟨path, List.mem_mergeSort.mpr (DirTree.mem_paths.mpr ?_), ?_⟩
    · rw [hnode]
      exact Option.some_ne_none node
    · rw [hnode]
      rfl

variable {t : Tree}

section

variable (hstem : IsName archiveStem)
include hstem

theorem named_cons (h : Named path) : Named (archiveStem :: path) := by
  intro name hname
  rcases List.mem_cons.mp hname with rfl | hname
  · exact hstem
  · exact h name hname

theorem stripArchiveRoot_asPosix (h : Named path) :
    stripArchiveRoot (asPosix (archiveStem :: path)) archiveStem = path := by
  unfold stripArchiveRoot
  rw [partsOf_asPosix (named_cons hstem h)]
  exact if_pos rfl

theorem strip_writeTarGz (hnamed : NamedTree staged) :
    (writeTarGz archiveStem staged).map (fun member =>
      stripArchiveRoot member.name archiveStem) = staged.paths.mergeSort (· ≤ ·) := by
  unfold writeTarGz
  rw [List.map_filterMap]
  conv_rhs => rw [← List.filterMap_some (l := staged.paths.mergeSort (· ≤ ·))]
  apply List.filterMap_congr
  intro path hpath
  have hnode := DirTree.mem_paths.mp (List.mem_mergeSort.mp hpath)
  obtain ⟨node, hsome⟩ := Option.ne_none_iff_exists'.mp hnode
  rw [hsome, Option.map_some, Option.map_some, stripArchiveRoot_asPosix hstem (hnamed path hnode)]

theorem nodup_strip (hnamed : NamedTree staged) :
    ((writeTarGz archiveStem staged).map fun member =>
      stripArchiveRoot member.name archiveStem).Nodup := by
  rw [strip_writeTarGz hstem hnamed]
  exact (List.mergeSort_perm _ _).nodup_iff.mpr staged.nodup_paths

end

theorem findDuplicates_of_nodup (h : items.Nodup)
    (hseen : ∀ item ∈ items, item ∉ seen) : findDuplicates seen items = [] := by
  induction items generalizing seen with
  | nil => rfl
  | cons item items ih =>
    rw [List.nodup_cons] at h
    unfold findDuplicates
    rw [if_neg fun hfound => hseen item List.mem_cons_self hfound.1]
    apply ih h.2
    intro other hother hmem
    rcases List.mem_cons.mp hmem with rfl | hmem
    · exact h.1 hother
    · exact hseen other (List.mem_cons_of_mem _ hother) hmem

theorem mapM_eq_some_map {α β : Type*} {f : α → Option β} {g : α → β} {l : List α}
    (h : ∀ a ∈ l, f a = some (g a)) : l.mapM f = some (l.map g) := by
  induction l with
  | nil => rfl
  | cons a l ih =>
    rw [List.mapM_cons, h a List.mem_cons_self,
      ih fun b hb => h b (List.mem_cons_of_mem _ hb)]
    rfl

theorem topLevels_writeTarGz (hstem : IsName archiveStem)
    (hstaged : Staged service disk.tree mode backupId staged) :
    ∃ parts, topLevels (writeTarGz archiveStem staged) = some parts ∧
      parts.dedup = [archiveStem] := by
  refine ⟨_, mapM_eq_some_map (g := fun _ => archiveStem) ?_, ?_⟩
  · intro member hmember
    obtain ⟨path, node, hnode, rfl⟩ := mem_writeTarGz.mp (List.mem_filter.mp hmember).1
    have hpath := hstaged.named path (by rw [hnode]; exact Option.some_ne_none node)
    dsimp only
    rw [partsOf_asPosix (named_cons hstem hpath)]
    rfl
  · rw [List.map_const']
    apply List.replicate_dedup
    intro hlength
    have hmem : (⟨asPosix [archiveStem], .dir⟩ : TarInfo) ∈ (writeTarGz archiveStem staged).filter
        fun member => member.name ≠ [] := by
      refine List.mem_filter.mpr ⟨mem_writeTarGz.mpr ⟨[], .dir, hstaged.root, rfl⟩, ?_⟩
      rw [asPosix_singleton]
      exact decide_eq_true hstem.ne_nil
    rw [List.length_eq_zero_iff.mp hlength] at hmem
    cases hmem

theorem manifestName (archiveStem : Text) : archiveStem ++ ['/'] ++ manifestFilename =
    asPosix [archiveStem, manifestFilename] := by
  rw [show [archiveStem, manifestFilename] = [archiveStem] ++ [manifestFilename] from rfl,
    asPosix_append (List.cons_ne_nil _ _) (List.cons_ne_nil _ _), asPosix_singleton,
    asPosix_singleton, List.append_assoc, List.singleton_append]

theorem readManifest_writeTarGz (hstem : IsName archiveStem)
    (hstaged : Staged service disk.tree mode backupId staged) :
    service.readManifest (writeTarGz archiveStem staged) archiveStem =
      service.loadManifest (service.dumpManifest (service.manifest disk.tree mode backupId)) := by
  unfold readManifest
  dsimp only
  rw [manifestName]
  cases hmember : getmember (writeTarGz archiveStem staged)
      (asPosix [archiveStem, manifestFilename]) with
  | none =>
    have hnone := List.find?_eq_none.mp hmember
    refine absurd (decide_eq_true rfl) (hnone ⟨asPosix [archiveStem, manifestFilename], _⟩
      (List.mem_reverse.mpr (mem_writeTarGz.mpr ⟨_, _, hstaged.manifest, rfl⟩)))
  | some member =>
    unfold getmember at hmember
    have hname : member.name = asPosix [archiveStem, manifestFilename] := by
      simpa using List.find?_some hmember
    obtain ⟨path, node, hnode, rfl⟩ :=
      mem_writeTarGz.mp (List.mem_reverse.mp (List.mem_of_find?_eq_some hmember))
    have hpath := hstaged.named path (by rw [hnode]; exact Option.some_ne_none node)
    have hcons := asPosix_inj (named_cons hstem hpath) (named_cons hstem fun name hname => by
      rw [List.mem_singleton.mp hname]; exact isName_manifestFilename) hname
    rw [(List.cons.inj hcons).2, hstaged.manifest] at hnode
    rw [← Option.some.inj hnode]
    rfl

theorem verifyAssets_spec (service : BackupService) (archiveStem : Text) (assets : List BackupAsset)
    (h : ∀ asset ∈ assets, asset.included = true →
      matchingAssetMembers members archiveStem asset.relativePath ≠ [] ∧
        ∃ checksum, computeArchiveChecksum service.sha256 members archiveStem asset =
          .ok checksum) :
    ∃ checks, service.verifyAssets members archiveStem assets = (checks, none) ∧
      (checks.all VerifyCheck.passed = true ↔ ∀ asset ∈ assets, asset.included = true →
        computeArchiveChecksum service.sha256 members archiveStem asset =
          .ok asset.checksum) := by
  induction assets with
  | nil => exact ⟨[], rfl, by simp⟩
  | cons asset assets ih =>
    obtain ⟨checks, hchecks, hiff⟩ := ih fun other hother =>
      h other (List.mem_cons_of_mem _ hother)
    unfold verifyAssets
    by_cases hincluded : asset.included = true
    · obtain ⟨hpresent, checksum, hchecksum⟩ := h asset List.mem_cons_self hincluded
      rw [if_pos hincluded]
      dsimp only
      rw [if_pos (decide_eq_true hpresent), hchecksum, hchecks]
      refine ⟨_, rfl, ?_⟩
      simp only [List.all_cons, Bool.and_eq_true, decide_eq_true_eq, hiff, List.forall_mem_cons,
        hincluded, forall_const, hchecksum, Except.ok.injEq]
      exact ⟨fun hall => hall.2, fun hall => ⟨hpresent, hall⟩⟩
    · rw [if_neg hincluded, hchecks]
      refine ⟨checks, rfl, ?_⟩
      rw [hiff, List.forall_mem_cons]
      exact ⟨fun hall => ⟨fun h => absurd h hincluded, hall⟩, And.right⟩

theorem verify_writeTarGz (hmanifest : service.loadManifest (service.dumpManifest
      (service.manifest disk.tree mode backupId)) =
        .ok (service.manifest disk.tree mode backupId).written)
    (hstem : IsName archiveStem) (hstaged : Staged service disk.tree mode backupId staged)
    (hassets : ∀ asset ∈ service.inventory disk.tree mode, asset.included = true →
      matchingAssetMembers (writeTarGz archiveStem staged) archiveStem asset.relativePath ≠ [] ∧
        ∃ checksum, computeArchiveChecksum service.sha256 (writeTarGz archiveStem staged)
          archiveStem asset = .ok checksum) :
    ∃ result, service.verify (.tar (writeTarGz archiveStem staged)) = .ok result ∧
      (result.valid = true ↔ ∀ asset ∈ service.inventory disk.tree mode,
        asset.included = true → computeArchiveChecksum service.sha256
          (writeTarGz archiveStem staged) archiveStem asset = .ok asset.checksum) := by
  have hsafe : (writeTarGz archiveStem staged).all (fun member =>
      isSafeArchiveMember member.name) = true := by
    rw [List.all_eq_true]
    intro member hmember
    obtain ⟨path, node, hnode, rfl⟩ := mem_writeTarGz.mp hmember
    have hpath := hstaged.named path (by rw [hnode]; exact Option.some_ne_none node)
    exact isSafeArchiveMember_asPosix (named_cons hstem hpath)
  obtain ⟨parts, hparts, hroot⟩ := topLevels_writeTarGz hstem hstaged
  have hduplicates : findDuplicates [] ((((writeTarGz archiveStem staged).map fun member =>
      stripArchiveRoot member.name archiveStem).filter (· ≠ [])).map asPosix) = [] := by
    refine findDuplicates_of_nodup ?_ fun item _ => List.not_mem_nil
    apply ((nodup_strip hstem hstaged.named).filter _).map_on
    intro path hpath path' hpath' heq
    rw [strip_writeTarGz hstem hstaged.named] at hpath hpath'
    have hnamed : ∀ path ∈ ((staged.paths.mergeSort (· ≤ ·)).filter (· ≠ [])), Named path :=
      fun path hpath => hstaged.named path (DirTree.mem_paths.mp
        (List.mem_mergeSort.mp (List.mem_filter.mp hpath).1))
    exact asPosix_inj (hnamed path hpath) (hnamed path' hpath') heq
  obtain ⟨checks, hchecks, hiff⟩ := verifyAssets_spec service archiveStem
    (service.manifest disk.tree mode backupId).written.assets (by
      intro asset hasset hincluded
      obtain ⟨original, horiginal, rfl⟩ := List.mem_map.mp hasset
      exact hassets original horiginal hincluded)
  unfold verify
  dsimp only
  rw [if_pos hsafe, hparts]
  dsimp only
  rw [hroot]
  refine ⟨_, rfl, ?_⟩
  unfold verifyContents
  dsimp only
  rw [hduplicates, readManifest_writeTarGz hstem hstaged, hmanifest]
  dsimp only
  have hschema : (service.manifest disk.tree mode backupId).written.schemaVersion ∈
      supportedSchemaVersions := List.mem_singleton_self _
  rw [hchecks, decide_eq_true hschema, if_pos rfl, hsafe]
  dsimp only
  simp only [check, List.all_append, List.all_cons, List.all_nil, decide_true, Bool.and_true,
    Bool.true_and]
  rw [hiff]
  constructor
  · intro hall asset hasset hincluded
    exact hall { asset with sourcePath := [] } (List.mem_map.mpr ⟨asset, hasset, rfl⟩) hincluded
  · intro hall asset hasset hincluded
    obtain ⟨original, horiginal, rfl⟩ := List.mem_map.mp hasset
    exact hall original horiginal hincluded

theorem mem_filesOf {paths : List Parts} :
    entry ∈ filesOf t paths ↔ entry.1 ∈ paths ∧ t.file? entry.1 = some entry.2 := by
  unfold filesOf
  rw [List.mem_filterMap]
  constructor
  · rintro ⟨path, hpath, hentry⟩
    obtain ⟨content, hcontent, rfl⟩ := Option.map_eq_some_iff.mp hentry
    exact ⟨hpath, hcontent⟩
  · rintro ⟨hpath, hcontent⟩
    exact ⟨entry.1, hpath, by rw [hcontent]; rfl⟩

theorem mem_sortedFiles :
    entry ∈ sortedFiles t ↔ entry.1 ≠ [] ∧ t.file? entry.1 = some entry.2 := by
  unfold sortedFiles
  rw [mem_filesOf, List.mem_mergeSort, List.mem_filter, decide_eq_true_iff]
  refine ⟨fun h => ⟨h.1.2, h.2⟩, fun h => ⟨⟨DirTree.mem_paths.mpr ?_, h.1⟩, h.2⟩⟩
  rw [DirTree.file?_eq_some.mp h.2]
  exact Option.some_ne_none _

theorem pairwise_sortedFiles (t : Tree) :
    (sortedFiles t).Pairwise fun entry entry' => entry.1 < entry'.1 := by
  have hsorted := List.pairwise_mergeSort' (· ≤ ·) (t.paths.filter (· ≠ []))
  have hnodup : ((t.paths.filter (· ≠ [])).mergeSort (· ≤ ·)).Nodup :=
    (List.mergeSort_perm _ _).nodup_iff.mpr (t.nodup_paths.filter _)
  unfold sortedFiles filesOf
  rw [List.pairwise_filterMap]
  apply (hsorted.and hnodup).imp
  rintro path path' ⟨hle, hne⟩ entry hentry entry' hentry'
  obtain ⟨_, _, rfl⟩ := Option.map_eq_some_iff.mp hentry
  obtain ⟨_, _, rfl⟩ := Option.map_eq_some_iff.mp hentry'
  exact lt_of_le_of_ne hle hne

def OrdersAgree (t : Tree) : Prop :=
  ∀ p q, (t.file? p).isSome → (t.file? q).isSome → p < q → asPosix p ≤ asPosix q

theorem pairwise_asPosix_iff (hdir : t.file? [] = none) :
    (sortedFiles t).Pairwise (fun entry entry' => asPosix entry.1 ≤ asPosix entry'.1) ↔
      OrdersAgree t := by
  constructor
  · intro h p q hp hq hlt
    obtain ⟨content, hp⟩ := Option.isSome_iff_exists.mp hp
    obtain ⟨content', hq⟩ := Option.isSome_iff_exists.mp hq
    have hmem : ∀ {path content}, t.file? path = some content →
        (path, content) ∈ sortedFiles t := by
      intro path content hfile
      refine mem_sortedFiles.mpr ⟨?_, hfile⟩
      rintro rfl
      rw [hdir] at hfile
      cases hfile
    have hboth := (pairwise_sortedFiles t).and h
    obtain ⟨i, hi, hip⟩ := List.getElem_of_mem (hmem hp)
    obtain ⟨j, hj, hjq⟩ := List.getElem_of_mem (hmem hq)
    rcases lt_trichotomy i j with hij | hij | hij
    · have := (List.pairwise_iff_getElem.mp hboth i j hi hj hij).2
      rw [hip, hjq] at this
      exact this
    · subst hij
      rw [hip] at hjq
      rw [(Prod.mk.inj hjq).1] at hlt
      exact absurd hlt (lt_irrefl q)
    · have := (List.pairwise_iff_getElem.mp hboth j i hj hi hij).1
      rw [hip, hjq] at this
      exact absurd hlt (lt_asymm this)
  · intro h
    apply (pairwise_sortedFiles t).imp_of_mem
    intro entry entry' hentry hentry' hlt
    exact h _ _ (by rw [(mem_sortedFiles.mp hentry).2]; rfl)
      (by rw [(mem_sortedFiles.mp hentry').2]; rfl) hlt

end BackupService

end Agent33.Backup

/-!
## The digests of assets

A file has in the archive the digest it has on the disk. A directory has it when its files come
in the same order in both.
-/

namespace Agent33.Backup

open Library

namespace BackupService

variable {service : BackupService} {disk : Disk} {backupId archiveStem : Text}
  {asset : BackupAsset}

def memberOf (archiveStem : Text) (asset : BackupAsset) (entry : Parts × Bytes) : TarInfo :=
  ⟨asPosix (archiveStem :: (place asset ++ entry.1)), .file entry.2⟩

theorem named_entry (h : entry ∈ sortedFiles (disk.tree.sub asset.sourcePath)) : Named entry.1 := by
  have hfile := DirTree.file?_eq_some.mp (mem_sortedFiles.mp h).2
  refine (disk.named (asset.sourcePath ++ entry.1) ?_).right
  change (disk.tree.sub asset.sourcePath).node entry.1 ≠ none
  rw [hfile]
  exact Option.some_ne_none _

theorem memberOf_inj (hstem : IsName archiveStem)
    (hasset : asset ∈ service.inventory disk.tree mode)
    (h : entry ∈ sortedFiles (disk.tree.sub asset.sourcePath))
    (h' : entry' ∈ sortedFiles (disk.tree.sub asset.sourcePath))
    (hname : (memberOf archiveStem asset entry).name = (memberOf archiveStem asset entry').name) :
    entry = entry' := by
  have hplace := named_place hasset
  have hcons := asPosix_inj (named_cons hstem (hplace.append (named_entry h)))
    (named_cons hstem (hplace.append (named_entry h'))) hname
  have hpath : entry.1 = entry'.1 := List.append_cancel_left (List.cons.inj hcons).2
  have hcontent := (mem_sortedFiles.mp h).2
  rw [hpath, (mem_sortedFiles.mp h').2] at hcontent
  exact Prod.ext hpath (Option.some.inj hcontent).symm

theorem memberOf_le_iff (h : entry.1 ≠ []) (h' : entry'.1 ≠ []) :
    (memberOf archiveStem asset entry).name ≤ (memberOf archiveStem asset entry').name ↔
      asPosix entry.1 ≤ asPosix entry'.1 := by
  have hmono : StrictMono fun name : Text =>
      (asPosix (archiveStem :: place asset) ++ ['/']) ++ name :=
    fun x y hxy => List.Lex.append_left _ hxy _
  have hsplit : ∀ {path : Parts}, path ≠ [] → asPosix (archiveStem :: (place asset ++ path)) =
      (asPosix (archiveStem :: place asset) ++ ['/']) ++ asPosix path := by
    intro path hpath
    rw [← List.cons_append, asPosix_append (List.cons_ne_nil _ _) hpath, List.append_assoc]
    rfl
  unfold memberOf
  rw [hsplit h, hsplit h']
  exact hmono.le_iff_le

theorem archiveEntry_memberOf (hstem : IsName archiveStem)
    (hasset : asset ∈ service.inventory disk.tree mode)
    (h : entry ∈ sortedFiles (disk.tree.sub asset.sourcePath)) :
    archiveEntry archiveStem asset (memberOf archiveStem asset entry) =
      some (asPosix entry.1, entry.2) := by
  have hpath := (named_place hasset).append (named_entry h)
  unfold archiveEntry memberOf
  dsimp only
  rw [stripArchiveRoot_asPosix hstem hpath]
  change some (asPosix ((place asset ++ entry.1).drop (place asset).length), entry.2) = _
  rw [List.drop_left]

section Written

variable (hstem : IsName archiveStem) (hstaged : Staged service disk.tree mode backupId staged)
  (hasset : asset ∈ service.inventory disk.tree mode) (hincluded : asset.included = true)

include hstem hstaged hasset hincluded

theorem mem_matching {member : TarInfo} :
    member ∈ matchingAssetMembers (writeTarGz archiveStem staged) archiveStem
        asset.relativePath ↔
      ∃ path node, disk.tree.node (asset.sourcePath ++ path) = some node ∧
        member = ⟨asPosix (archiveStem :: (place asset ++ path)), payloadOf node⟩ := by
  unfold matchingAssetMembers
  rw [List.mem_filter, mem_writeTarGz]
  dsimp only
  rw [decide_eq_true_iff]
  constructor
  · rintro ⟨⟨path, node, hnode, rfl⟩, -, hprefix⟩
    have hpath := hstaged.named path (by rw [hnode]; exact Option.some_ne_none node)
    rw [stripArchiveRoot_asPosix hstem hpath] at hprefix
    obtain ⟨rest, rfl⟩ := hprefix
    exact ⟨rest, node, (hstaged.asset asset hasset hincluded rest).symm.trans hnode, rfl⟩
  · rintro ⟨path, node, hnode, rfl⟩
    have hplaced := (hstaged.asset asset hasset hincluded path).trans hnode
    have hpath := hstaged.named _ (by rw [hplaced]; exact Option.some_ne_none node)
    refine ⟨⟨_, node, hplaced, rfl⟩, ?_⟩
    rw [stripArchiveRoot_asPosix hstem hpath]
    refine ⟨fun hnil => place_ne_nil hasset (List.append_eq_nil_iff.mp hnil).1, ?_⟩
    exact List.prefix_append _ _

theorem matching_ne_nil : matchingAssetMembers (writeTarGz archiveStem staged) archiveStem
    asset.relativePath ≠ [] := by
  obtain ⟨node, hnode⟩ := Option.ne_none_iff_exists'.mp (includes_of_mem hasset hincluded).found
  apply List.ne_nil_of_mem (mem_matching hstem hstaged hasset hincluded |>.mpr ⟨[], node, ?_, rfl⟩)
  rw [List.append_nil, hnode]

theorem computeArchiveChecksum_file (hfile : asset.isDirectory = false) :
    computeArchiveChecksum service.sha256 (writeTarGz archiveStem staged) archiveStem asset =
      .ok asset.checksum := by
  have hincludes := includes_of_mem hasset hincluded
  obtain ⟨content, hcontent⟩ : ∃ content, disk.tree.file? asset.sourcePath = some content := by
    apply Option.ne_none_iff_exists'.mp
    intro hnone
    have hdir := DirTree.node_of_file?_none hnone hincludes.found
    rw [hincludes.isDirectory, DirTree.isDir_iff.mpr hdir] at hfile
    cases hfile
  have hnode := DirTree.file?_eq_some.mp hcontent
  unfold computeArchiveChecksum
  dsimp only
  rw [if_neg (by rw [hfile]; exact Bool.false_ne_true)]
  cases hfound : (matchingAssetMembers (writeTarGz archiveStem staged) archiveStem
      asset.relativePath).findSome? TarInfo.file? with
  | none =>
    have hmember := (mem_matching hstem hstaged hasset hincluded).mpr
      ⟨[], .file content, by rw [List.append_nil, hnode], rfl⟩
    have := List.findSome?_eq_none_iff.mp hfound _ hmember
    cases this
  | some found =>
    obtain ⟨member, hmember, hmemberFile⟩ := List.exists_of_findSome?_eq_some hfound
    obtain ⟨path, node, hbelow, rfl⟩ :=
      (mem_matching hstem hstaged hasset hincluded).mp hmember
    have hpath : path = [] := by
      by_contra hne
      have hdir := disk.tree.parents asset.sourcePath path hne
        (by rw [hbelow]; exact Option.some_ne_none node)
      rw [hnode] at hdir
      cases hdir
    rw [hpath, List.append_nil, hnode] at hbelow
    rw [← Option.some.inj hbelow] at hmemberFile
    have hchecksum : asset.checksum = service.sha256 content := by
      rw [hincludes.checksum, computeChecksum]
      have hsub : (disk.tree.sub asset.sourcePath).file? [] = some content := by
        apply DirTree.file?_eq_some.mpr
        change disk.tree.node (asset.sourcePath ++ []) = _
        rw [List.append_nil, hnode]
      rw [hsub]
    rw [hchecksum]
    cases hmemberFile
    rfl

theorem files_perm (hdir : disk.tree.isDir asset.sourcePath = true) :
    ((matchingAssetMembers (writeTarGz archiveStem staged) archiveStem
      asset.relativePath).filter fun member => member.file?.isSome).Perm
        ((sortedFiles (disk.tree.sub asset.sourcePath)).map (memberOf archiveStem asset)) := by
  have hnodup : (sortedFiles (disk.tree.sub asset.sourcePath)).Nodup := by
    apply (pairwise_sortedFiles _).imp
    rintro entry entry' hlt rfl
    exact lt_irrefl _ hlt
  refine (List.perm_ext_iff_of_nodup ?_ ?_).mpr ?_
  · exact ((nodup_strip hstem hstaged.named).of_map.filter _).filter _
  · apply hnodup.map_on
    intro entry hentry entry' hentry' heq
    exact memberOf_inj hstem hasset hentry hentry' (congrArg TarInfo.name heq)
  · intro member
    rw [List.mem_filter, mem_matching hstem hstaged hasset hincluded, List.mem_map]
    constructor
    · rintro ⟨⟨path, node, hnode, rfl⟩, hfile⟩
      cases node with
      | dir => cases hfile
      | file content =>
        refine ⟨(path, content), mem_sortedFiles.mpr ⟨?_, DirTree.file?_eq_some.mpr hnode⟩, rfl⟩
        rintro rfl
        rw [List.append_nil, DirTree.isDir_iff.mp hdir] at hnode
        cases hnode
    · rintro ⟨entry, hentry, rfl⟩
      exact ⟨⟨entry.1, _, DirTree.file?_eq_some.mp (mem_sortedFiles.mp hentry).2, rfl⟩, rfl⟩

open List in
theorem computeArchiveChecksum_directory (hdigests : Digests service.sha256)
    (hdirectory : asset.isDirectory = true) :
    ∃ checksum, computeArchiveChecksum service.sha256 (writeTarGz archiveStem staged)
        archiveStem asset = .ok checksum ∧
      (checksum = asset.checksum ↔ OrdersAgree (disk.tree.sub asset.sourcePath)) := by
  have hincludes := includes_of_mem hasset hincluded
  have hdir : disk.tree.isDir asset.sourcePath = true := hincludes.isDirectory ▸ hdirectory
  have hroot : (disk.tree.sub asset.sourcePath).file? [] = none := by
    apply DirTree.file?_of_dir
    change disk.tree.node (asset.sourcePath ++ []) = _
    rw [append_nil, DirTree.isDir_iff.mp hdir]
  have hperm := files_perm hstem hstaged hasset hincluded hdir
  unfold computeArchiveChecksum
  dsimp only
  rw [if_pos hdirectory]
  refine ⟨_, rfl, ?_⟩
  generalize hfiles : (filter _ _ : List TarInfo) = files at hperm ⊢
  have hsorted : (files.mergeSort fun member member' => member.name ≤ member'.name).Pairwise
      fun member member' => member.name ≤ member'.name := by
    have := @List.pairwise_mergeSort _
      (fun member member' : TarInfo => decide (member.name ≤ member'.name))
      (by simpa using fun _ _ _ => le_trans) (by simpa using fun _ _ => le_total _ _) files
    simpa using this
  have hsortedPerm := (mergeSort_perm files fun member member' =>
    member.name ≤ member'.name).trans hperm
  generalize mergeSort files _ = sorted at hsorted hsortedPerm ⊢
  have hmem : ∀ member ∈ sorted, ∃ entry ∈ sortedFiles (disk.tree.sub asset.sourcePath),
      member = memberOf archiveStem asset entry := by
    intro member hmember
    obtain ⟨entry, hentry, rfl⟩ := mem_map.mp (hsortedPerm.mem_iff.mp hmember)
    exact ⟨entry, hentry, rfl⟩
  rw [hincludes.checksum, computeChecksum, hroot, ← pairwise_asPosix_iff hroot]
  dsimp only
  constructor
  · intro heq
    have hentries := digestEntries_inj hdigests (fun entry hentry => by
        obtain ⟨member, hmember, hsome⟩ := mem_filterMap.mp hentry
        obtain ⟨source, hsource, rfl⟩ := hmem member hmember
        rw [archiveEntry_memberOf hstem hasset hsource] at hsome
        cases hsome
        exact zero_notMem_asPosix (named_entry hsource))
      (fun entry hentry => by
        obtain ⟨source, hsource, rfl⟩ := mem_map.mp hentry
        exact zero_notMem_asPosix (named_entry hsource)) heq
    have hpairwise : (sorted.filterMap (archiveEntry archiveStem asset)).Pairwise
        fun entry entry' => entry.1 ≤ entry'.1 := by
      rw [pairwise_filterMap]
      apply hsorted.imp_of_mem
      intro member member' hmember hmember' hle entry hentry entry' hentry'
      obtain ⟨source, hsource, rfl⟩ := hmem member hmember
      obtain ⟨source', hsource', rfl⟩ := hmem member' hmember'
      rw [archiveEntry_memberOf hstem hasset hsource] at hentry
      rw [archiveEntry_memberOf hstem hasset hsource'] at hentry'
      cases hentry
      cases hentry'
      exact (memberOf_le_iff (mem_sortedFiles.mp hsource).1 (mem_sortedFiles.mp hsource').1).mp hle
    rw [hentries, pairwise_map] at hpairwise
    exact hpairwise
  · intro hagree
    have hmembers : ((sortedFiles (disk.tree.sub asset.sourcePath)).map
        (memberOf archiveStem asset)).Pairwise fun member member' =>
          member.name ≤ member'.name := by
      rw [pairwise_map]
      apply hagree.imp_of_mem
      intro entry entry' hentry hentry' hle
      exact (memberOf_le_iff (mem_sortedFiles.mp hentry).1 (mem_sortedFiles.mp hentry').1).mpr hle
    have heq := List.Perm.eq_of_pairwise (fun member member' hmember hmember' hle hle' => by
      obtain ⟨entry, hentry, rfl⟩ := hmem member hmember
      obtain ⟨entry', hentry', rfl⟩ := mem_map.mp hmember'
      rw [memberOf_inj hstem hasset hentry hentry' (le_antisymm hle hle')])
      hsorted hmembers hsortedPerm
    rw [heq, filterMap_map]
    congr 1
    rw [← filterMap_eq_map]
    apply filterMap_congr
    intro entry hentry
    exact archiveEntry_memberOf hstem hasset hentry

end Written

end BackupService

end Agent33.Backup
