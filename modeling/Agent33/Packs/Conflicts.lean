import Agent33.Packs.Version

/-!
# Overlapping constraints

Whether two constraints can be met together is decided by trying the versions whose
components are small. A constraint that meets all versions overlaps with everything.
-/

namespace Agent33.Packs

open Library List VersionRange

def probedVersions : List Version :=
  (List.range 21).flatMap fun major => (List.range 21).flatMap fun minor =>
    (List.range 6).map fun patch => ⟨major, minor, patch⟩

def constraintsOverlap (a b : VersionConstraint) : Bool :=
  if a.ranges.isEmpty || b.ranges.isEmpty then true
  else probedVersions.any fun v => a.satisfies v && b.satisfies v

theorem mem_probedVersions {v : Version} :
    v ∈ probedVersions ↔ v.major ≤ 20 ∧ v.minor ≤ 20 ∧ v.patch ≤ 5 := by
  simp only [probedVersions, mem_flatMap, mem_map, mem_range]
  constructor
  · rintro ⟨major, hmajor, minor, hminor, patch, hpatch, rfl⟩
    dsimp only
    omega
  · rintro ⟨hmajor, hminor, hpatch⟩
    exact ⟨v.major, by omega, v.minor, by omega, v.patch, by omega, rfl⟩

namespace Version

def nextPatch (v : Version) : Version := ⟨v.major, v.minor, v.patch + 1⟩

theorem lt_iff_nextPatch_le {u v : Version} : u < v ↔ u.nextPatch ≤ v := by
  rw [← not_le, le_iff, le_iff]
  simp only [nextPatch]
  omega

def zero : Version := ⟨0, 0, 0⟩

theorem zero_le (v : Version) : zero ≤ v := by
  rw [le_iff]
  simp only [zero]
  omega

end Version

/-- The lowest version that the comparison leaves from below. -/
def VersionRange.floor (r : VersionRange) : Version :=
  match r.operator with
  | .ge | .eq => r.version
  | .gt => r.version.nextPatch
  | .le | .lt => Version.zero

variable {v : Version} {r : VersionRange} {ranges : List VersionRange}

theorem VersionRange.floor_le (h : r.contains v = true) : r.floor ≤ v := by
  obtain ⟨operator, version⟩ := r
  cases operator with
  | ge => exact of_decide_eq_true h
  | le => exact v.zero_le
  | gt => exact Version.lt_iff_nextPatch_le.mp (of_decide_eq_true h)
  | lt => exact v.zero_le
  | eq => exact (of_decide_eq_true h).ge

/-- A version between the lowest one and one that meets the comparison meets it. -/
theorem VersionRange.contains_of_floor_le (hfloor : r.floor ≤ u) (huv : u ≤ v)
    (h : r.contains v = true) : r.contains u = true := by
  obtain ⟨operator, version⟩ := r
  simp only [floor] at hfloor
  cases operator with
  | ge => simpa [contains] using hfloor
  | le => simpa [contains] using huv.trans (of_decide_eq_true h)
  | gt => simpa [contains, Version.lt_iff_nextPatch_le] using hfloor
  | lt => simpa [contains] using huv.trans_lt (of_decide_eq_true h)
  | eq =>
    have hv : v = version := of_decide_eq_true h
    simpa [contains] using (huv.trans_eq hv).antisymm hfloor

def lowest (ranges : List VersionRange) : Version :=
  (ranges.map VersionRange.floor).foldr max Version.zero

theorem lowest_le_iff (ranges : List VersionRange) (v : Version) :
    lowest ranges ≤ v ↔ ∀ r ∈ ranges, r.floor ≤ v := by
  induction ranges with
  | nil => simpa [lowest] using v.zero_le
  | cons r ranges ih =>
    rw [lowest, map_cons, foldr_cons, max_le_iff, forall_mem_cons]
    exact and_congr_right fun _ => ih

theorem satisfied_lowest (h : ∀ r ∈ ranges, r.contains v = true) :
    ∀ r ∈ ranges, r.contains (lowest ranges) = true := by
  have hle : lowest ranges ≤ v :=
    (lowest_le_iff ranges v).mpr fun r hr => floor_le (h r hr)
  intro r hr
  have hfloor := (lowest_le_iff ranges (lowest ranges)).mp le_rfl r hr
  exact contains_of_floor_le hfloor hle (h r hr)

theorem parseSingleConstraint_ne_nil (h : parseSingleConstraint part = .ok ranges) :
    ranges ≠ [] := by
  have hmap {rest : Text} {f : Version → List VersionRange} (hf : ∀ v, f v ≠ [])
      (h : (Version.parse rest).map f = .ok ranges) : ranges ≠ [] := by
    cases hparse : Version.parse rest with
    | error e =>
      rw [hparse] at h
      cases h
    | ok v =>
      rw [hparse] at h
      cases h
      exact hf v
  unfold parseSingleConstraint at h
  split at h <;> exact hmap (fun v => cons_ne_nil _ _) h

namespace VersionConstraint

theorem ranges_eq_nil_iff {raw : Text} (h : parse raw = .ok c) :
    c.ranges = [] ↔ Text.strip raw = ['*'] := by
  rw [parse] at h
  split_ifs at h with hraw
  · cases h
    exact iff_of_true rfl hraw
  · refine iff_of_false ?_ hraw
    cases hparts : (Text.strip raw).splitOn ',' with
    | nil => exact absurd hparts (splitOn_ne_nil _ _)
    | cons part parts =>
      rw [hparts, mapM_cons] at h
      cases hpart : parseSingleConstraint (Text.strip part) with
      | error e =>
        rw [hpart] at h
        cases h
      | ok ranges =>
        cases hrest : parts.mapM fun p => parseSingleConstraint (Text.strip p) with
        | error e =>
          rw [hpart, hrest] at h
          cases h
        | ok rest =>
          rw [hpart, hrest] at h
          cases h
          intro hnil
          exact parseSingleConstraint_ne_nil hpart (flatten_eq_nil_iff.mp hnil _ (by simp))

theorem satisfies_iff {c : VersionConstraint} {v : Version} :
    c.satisfies v = true ↔ ∀ r ∈ c.ranges, r.contains v = true := all_eq_true

end VersionConstraint

theorem constraintsOverlap_eq_true_iff (a b : VersionConstraint) :
    constraintsOverlap a b = true ↔ a.ranges = [] ∨ b.ranges = [] ∨
      ∃ v ∈ probedVersions, a.satisfies v = true ∧ b.satisfies v = true := by
  rw [constraintsOverlap]
  split_ifs with h
  · simp only [Bool.or_eq_true, List.isEmpty_iff] at h
    tauto
  · simp only [Bool.or_eq_true, List.isEmpty_iff] at h
    simp only [any_eq_true, Bool.and_eq_true]
    tauto

/-- The patch that two constraints require exactly is too high to be tried. -/
theorem not_overlap_sixthPatch :
    ∃ c, VersionConstraint.parse "1.0.6".toList = .ok c ∧ constraintsOverlap c c = false ∧
      c.satisfies ⟨1, 0, 6⟩ = true :=
  ⟨⟨"1.0.6".toList, [⟨.eq, ⟨1, 0, 6⟩⟩]⟩, by decide +kernel, by decide +kernel, by decide⟩

/-- Two constraints overlap just when one of them is `*` or one of the versions that are tried
meets both; unless one is `*`, this is exact when the lowest version above the bounds of both
is tried. -/
theorem constraintsOverlap_iff {rawA rawB : Text} {a b : VersionConstraint}
    (ha : VersionConstraint.parse rawA = .ok a) (hb : VersionConstraint.parse rawB = .ok b) :
    (constraintsOverlap a b = true ↔ Text.strip rawA = ['*'] ∨ Text.strip rawB = ['*'] ∨
      ∃ v : Version, (v.major ≤ 20 ∧ v.minor ≤ 20 ∧ v.patch ≤ 5) ∧
        a.satisfies v = true ∧ b.satisfies v = true) ∧
    (Text.strip rawA ≠ ['*'] → Text.strip rawB ≠ ['*'] →
      lowest (a.ranges ++ b.ranges) ∈ probedVersions →
      (constraintsOverlap a b = true ↔
        ∃ v, a.satisfies v = true ∧ b.satisfies v = true)) := by
  have hiff := constraintsOverlap_eq_true_iff a b
  rw [VersionConstraint.ranges_eq_nil_iff ha, VersionConstraint.ranges_eq_nil_iff hb] at hiff
  refine ⟨by simpa only [mem_probedVersions] using hiff, fun hrawA hrawB hlowest => ?_⟩
  rw [hiff, or_iff_right hrawA, or_iff_right hrawB]
  constructor
  · rintro ⟨v, -, hv⟩
    exact ⟨v, hv⟩
  · rintro ⟨v, hva, hvb⟩
    rw [VersionConstraint.satisfies_iff] at hva hvb
    have hboth := satisfied_lowest (forall_mem_append.mpr ⟨hva, hvb⟩)
    obtain ⟨hlowa, hlowb⟩ := forall_mem_append.mp hboth
    exact ⟨_, hlowest, VersionConstraint.satisfies_iff.mpr hlowa,
      VersionConstraint.satisfies_iff.mpr hlowb⟩

theorem constraintsOverlap_iff_caret :
    ∃ a b, constraintsOverlap a b = true ∧
      (constraintsOverlap a b = true ↔ ∃ v, a.satisfies v = true ∧ b.satisfies v = true) :=
  ⟨⟨"^1.2.3".toList, [⟨.ge, ⟨1, 2, 3⟩⟩, ⟨.lt, ⟨2, 0, 0⟩⟩]⟩,
    ⟨"<1.3.0".toList, [⟨.lt, ⟨1, 3, 0⟩⟩]⟩, by decide +kernel,
    (@constraintsOverlap_iff "^1.2.3".toList "<1.3.0".toList _ _ (by decide +kernel)
      (by decide +kernel)).2 (by decide) (by decide) (by decide +kernel)⟩

end Agent33.Packs
