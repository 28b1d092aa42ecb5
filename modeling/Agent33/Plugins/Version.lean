import Agent33.Packs.Version

/-!
# Version constraints of plugins

The dependencies of plugins have a matcher of their own. It reads the components of a
version with `int`, and passes what it cannot read. On what the packs read as well, it
answers as they do.
-/

namespace Agent33.Plugins

open Library List Option Text
open Packs (Version VersionConstraint VersionRange parseSingleConstraint)

/-- `int` of a text, which refuses more digits than the limit of conversions. -/
def int (text : Text) : Option ℤ :=
  if text.countP (fun c => (Text.digitValue c).isSome) ≤ 4300 then Text.parseInt text else none

/-- "Invalid SemVer format", with the text and what is wrong with it. -/
structure VersionError where
  version : Text
  detail : Text

abbrev Numbers := ℤ ×ₗ ℤ ×ₗ ℤ

def parseVersion (version : Text) : Except VersionError Numbers :=
  match (Text.strip version).splitOn '.' with
  | [major, minor, patch] =>
    match int major, int minor, int patch with
    | some major, some minor, some patch => .ok (toLex (major, toLex (minor, patch)))
    | _, _, _ => .error ⟨version, Text.ofString "(non-integer component)"⟩
  | _ => .error ⟨version, Text.ofString "(expected X.Y.Z)"⟩

/-- An exact version that cannot be read is met by everything. -/
def satisfiesRequired (actual : Numbers) (constraint : Text) : Except VersionError Bool :=
  match constraint with
  | '>' :: '=' :: rest => (parseVersion rest).map fun required => decide (required ≤ actual)
  | '<' :: '=' :: rest => (parseVersion rest).map fun required => decide (actual ≤ required)
  | '>' :: rest => (parseVersion rest).map fun required => decide (required < actual)
  | '<' :: rest => (parseVersion rest).map fun required => decide (actual < required)
  | '^' :: rest => (parseVersion rest).map fun required =>
    decide ((ofLex actual).1 = (ofLex required).1 ∧ required ≤ actual)
  | '~' :: rest => (parseVersion rest).map fun required =>
    decide ((ofLex actual).1 = (ofLex required).1 ∧
      (ofLex (ofLex actual).2).1 = (ofLex (ofLex required).2).1 ∧ required ≤ actual)
  | _ =>
    match parseVersion constraint with
    | .ok required => .ok (decide (actual = required))
    | .error _ => .ok true

def satisfiesConstraint (version constraint : Text) : Except VersionError Bool :=
  let constraint := Text.strip constraint
  if constraint = ['*'] then .ok true
  else
    match parseVersion version with
    | .error _ => .ok true
    | .ok actual => satisfiesRequired actual constraint

section Reading

theorem not_isSpace_of_digitValue (h : digitValue c = some d) : isSpace c = false := by
  have hzeros : ∀ z ∈ digitZeros, ∀ k < 10, ¬ (0x09 ≤ z + k ∧ z + k ≤ 0x0d ∨
      0x1c ≤ z + k ∧ z + k ≤ 0x20 ∨ 0x2000 ≤ z + k ∧ z + k ≤ 0x200a ∨
      z + k ∈ [0x85, 0xa0, 0x1680, 0x2028, 0x2029, 0x202f, 0x205f, 0x3000]) := by decide
  obtain ⟨z, hz, -⟩ := map_eq_some_iff.mp h
  have hbounds := find?_some hz
  simp only [Bool.and_eq_true, decide_eq_true_iff] at hbounds
  have hspace := hzeros z (mem_of_find?_eq_some hz) (c.toNat - z) (by omega)
  rw [Nat.add_sub_cancel' hbounds.1] at hspace
  exact decide_eq_false hspace

variable {text : Text}

theorem digitValue_of_mem (h : Version.number text = some n) :
    ∀ c ∈ text, (digitValue c).isSome = true := by
  have hfold : ∀ (text : Text) (value : ℕ), (text.foldlM
      (fun value c => (digitValue c).map fun d => 10 * value + d) value) = some n →
        ∀ c ∈ text, (digitValue c).isSome = true := by
    intro text
    induction text with
    | nil => exact fun _ _ => forall_mem_nil _
    | cons c rest ih =>
      intro value h
      rw [foldlM_cons] at h
      obtain ⟨next, hnext, hrest⟩ := bind_eq_some_iff.mp h
      obtain ⟨d, hd, -⟩ := map_eq_some_iff.mp hnext
      exact forall_mem_cons.mpr ⟨isSome_of_eq_some hd, ih next hrest⟩
  cases text with
  | nil => exact forall_mem_nil _
  | cons c rest => exact hfold _ 0 h

theorem parseDigits_of_foldlM
    (h : (text.foldlM (fun value c => (digitValue c).map fun d => 10 * value + d) value) =
      some n) :
    parseDigits value text = some n := by
  induction text generalizing value with
  | nil => exact h
  | cons c rest ih =>
    rw [foldlM_cons] at h
    obtain ⟨next, hnext, hrest⟩ := bind_eq_some_iff.mp h
    obtain ⟨d, hd, rfl⟩ := map_eq_some_iff.mp hnext
    have hunderscore : digitValue '_' = none := by decide
    have hc : c ≠ '_' := by
      rintro rfl
      rw [hunderscore] at hd
      cases hd
    rw [parseDigits]
    · rw [hd]
      exact ih hrest
    · exact fun _ _ heq => absurd heq hc

theorem parseInt_of_number (h : Version.number text = some n) :
    parseInt text = some (n : ℤ) := by
  have hdigit := digitValue_of_mem h
  have hstrip : strip text = text := strip_of_noSpace fun c hc => by
    obtain ⟨d, hd⟩ := isSome_iff_exists.mp (hdigit c hc)
    exact not_isSpace_of_digitValue hd
  cases text with
  | nil => cases h
  | cons c rest =>
    have hc := hdigit c mem_cons_self
    obtain ⟨next, hnext, hrest⟩ := bind_eq_some_iff.mp h
    obtain ⟨d, hd, rfl⟩ := map_eq_some_iff.mp hnext
    have hnat : parseNat (c :: rest) = some n := by
      rw [parseNat, hd]
      rw [Nat.mul_zero, Nat.zero_add] at hrest
      exact parseDigits_of_foldlM hrest
    rw [parseInt, hstrip]
    split
    · rename_i heq
      obtain ⟨rfl, -⟩ := cons.inj heq
      exact absurd hc (by decide)
    · rename_i heq
      obtain ⟨rfl, -⟩ := cons.inj heq
      exact absurd hc (by decide)
    · rw [hnat]
      rfl

/-- No number of the text has more digits than a conversion takes. -/
def Readable (text : Text) : Prop :=
  ∀ digits, digits <:+: text → (∀ c ∈ digits, (Text.digitValue c).isSome = true) →
    digits.length ≤ 4300

theorem int_of_number (hread : Readable text) (hpart : part <:+: text)
    (h : Version.number part = some n) : int part = some (n : ℤ) := by
  have hdigits := digitValue_of_mem h
  rw [int, if_pos (by rw [countP_eq_length.mpr hdigits]; exact hread part hpart hdigits)]
  exact parseInt_of_number h

theorem strip_within (text : Text) : strip text <:+: text :=
  (List.rdropWhile_prefix isSpace (lstrip text)).isInfix.trans
    (dropWhile_suffix isSpace).isInfix

def numbers (v : Version) : Numbers := toLex ((v.major : ℤ), toLex ((v.minor : ℤ), (v.patch : ℤ)))

theorem parseVersion_of_parse (hread : Readable text)
    (h : Version.parse text = .ok v) :
    parseVersion text = .ok (numbers v) := by
  have hjoined : ['.'].intercalate ((strip text).splitOn '.') = strip text :=
    intercalate_splitOn '.'
  rw [Version.parse] at h
  rw [parseVersion]
  split at h
  · rename_i major minor patch hsplit
    rw [hsplit] at hjoined
    have hwithin {part : Text} (hpart : part <:+: ['.'].intercalate [major, minor, patch]) :
        part <:+: text := by
      rw [hjoined] at hpart
      exact hpart.trans (strip_within text)
    split at h
    · rename_i i j k hi hj hk
      cases h
      have hmajor := int_of_number hread (hwithin ⟨[], '.' :: (minor ++ '.' :: patch), by
        simp [List.intercalate, List.intersperse]⟩) hi
      have hminor := int_of_number hread (hwithin ⟨major ++ ['.'], '.' :: patch, by
        simp [List.intercalate, List.intersperse]⟩) hj
      have hpatch := int_of_number hread (hwithin ⟨major ++ '.' :: (minor ++ ['.']), [], by
        simp [List.intercalate, List.intersperse]⟩) hk
      simp only [hsplit, hmajor, hminor, hpatch, numbers]
    · cases h
  · cases h

theorem numbers_le {u v : Version} : numbers u ≤ numbers v ↔ u ≤ v := by
  rw [Version.le_iff, numbers, numbers, Prod.Lex.toLex_le_toLex, Prod.Lex.toLex_le_toLex]
  dsimp only
  omega

theorem numbers_inj {u v : Version} : numbers u = numbers v ↔ u = v := by
  rw [le_antisymm_iff, numbers_le, numbers_le, ← le_antisymm_iff]

theorem numbers_lt {u v : Version} : numbers u < numbers v ↔ u < v := by
  rw [← not_le, numbers_le, not_le]

end Reading

/-- Compare what the two matchers make of the text after an operator. -/
theorem agree_of_rest {rest constraint : Text} {c : List VersionRange} {v : Version}
    {f : Version → List VersionRange} {g : Numbers → Bool} (hread : Readable constraint)
    (hrest : rest <:+: constraint) (h : (Version.parse rest).map f = .ok c)
    (hfg : ∀ u, g (numbers u) = (f u).all fun r => r.contains v) :
    (parseVersion rest).map g = .ok (c.all fun r => r.contains v) := by
  cases hparse : Version.parse rest with
  | error e =>
    rw [hparse] at h
    cases h
  | ok u =>
    rw [hparse] at h
    cases h
    have hreadable : Readable rest := fun digits hdigits => hread digits (hdigits.trans hrest)
    rw [parseVersion_of_parse hreadable hparse, ← hfg]
    rfl

theorem numbers_caret (u v : Version) :
    decide ((ofLex (numbers v)).1 = (ofLex (numbers u)).1 ∧ numbers u ≤ numbers v) =
      (decide (u ≤ v) && decide (v < ⟨u.major + 1, 0, 0⟩)) := by
  rw [← Bool.decide_and, decide_eq_decide, numbers_le, ← not_le, Version.le_iff, Version.le_iff]
  simp only [numbers, ofLex_toLex]
  omega

theorem numbers_tilde (u v : Version) :
    decide ((ofLex (numbers v)).1 = (ofLex (numbers u)).1 ∧
        (ofLex (ofLex (numbers v)).2).1 = (ofLex (ofLex (numbers u)).2).1 ∧
        numbers u ≤ numbers v) =
      (decide (u ≤ v) && decide (v < ⟨u.major, u.minor + 1, 0⟩)) := by
  rw [← Bool.decide_and, decide_eq_decide, numbers_le, ← not_le, Version.le_iff, Version.le_iff]
  simp only [numbers, ofLex_toLex]
  omega

theorem satisfiesRequired_eq {ranges : List VersionRange} {v : Version}
    (hread : Readable text) (hstrip : strip text = text)
    (h : parseSingleConstraint text = .ok ranges) (hform : text.head? ≠ some '=') :
    satisfiesRequired (numbers v) text = .ok (ranges.all fun r => r.contains v) := by
  have hrest (operator rest : Text) : rest <:+: operator ++ rest :=
    (suffix_append operator rest).isInfix
  rw [parseSingleConstraint, hstrip] at h
  split at h
  · rename_i rest
    refine agree_of_rest hread (hrest ['^'] rest) h fun u => ?_
    simpa [VersionRange.contains] using numbers_caret u v
  · rename_i rest
    refine agree_of_rest hread (hrest ['~'] rest) h fun u => ?_
    simpa [VersionRange.contains] using numbers_tilde u v
  · rename_i rest
    refine agree_of_rest hread (hrest ['>', '='] rest) h fun u => ?_
    simp [VersionRange.contains, numbers_le]
  · rename_i rest
    refine agree_of_rest hread (hrest ['<', '='] rest) h fun u => ?_
    simp [VersionRange.contains, numbers_le]
  · rename_i rest hge
    rw [satisfiesRequired]
    · refine agree_of_rest hread (hrest ['>'] rest) h fun u => ?_
      simp [VersionRange.contains, numbers_lt]
    · exact hge
  · rename_i rest hle
    rw [satisfiesRequired]
    · refine agree_of_rest hread (hrest ['<'] rest) h fun u => ?_
      simp [VersionRange.contains, numbers_lt]
    · exact hle
  · exact absurd rfl hform
  · rename_i hcaret htilde hge hle hgt hlt heq
    rw [satisfiesRequired]
    · have hexact : (parseVersion text).map (fun required => decide (numbers v = required)) =
          .ok (ranges.all fun r => r.contains v) := by
        refine agree_of_rest hread infix_rfl h fun u => ?_
        simp [VersionRange.contains, numbers_inj]
      cases hparse : parseVersion text with
      | error e =>
        rw [hparse] at hexact
        cases hexact
      | ok required =>
        rw [hparse] at hexact
        exact hexact
    · exact hge
    · exact hle
    · exact hgt
    · exact hlt
    · exact hcaret
    · exact htilde

/-- On a version and a single constraint that the packs can read and that is not written with
`=`, the matcher of the plugins answers as that of the packs. -/
theorem satisfiesConstraint_eq {version constraint : Text} {v : Version} {c : VersionConstraint}
    (hreadv : Readable version) (hreadc : Readable constraint)
    (hv : Version.parse version = .ok v) (hc : VersionConstraint.parse constraint = .ok c)
    (hsingle : ',' ∉ constraint) (hform : (Text.strip constraint).head? ≠ some '=') :
    satisfiesConstraint version constraint = .ok (c.satisfies v) := by
  have hstripped := strip_within constraint
  rw [VersionConstraint.parse] at hc
  rw [satisfiesConstraint]
  split_ifs at hc with hall
  · cases hc
    rw [if_pos hall]
    rfl
  · have hcomma : ',' ∉ Text.strip constraint := fun hmem => hsingle (hstripped.subset hmem)
    rw [if_neg hall, parseVersion_of_parse hreadv hv]
    rw [splitOn_eq_singleton hcomma, mapM_cons, mapM_nil, Text.strip_strip] at hc
    cases hranges : parseSingleConstraint (Text.strip constraint) with
    | error e =>
      rw [hranges] at hc
      cases hc
    | ok ranges =>
      rw [hranges] at hc
      cases hc
      have hread : Readable (Text.strip constraint) :=
        fun digits hdigits => hreadc digits (hdigits.trans hstripped)
      simp only [VersionConstraint.satisfies, flatten_cons, flatten_nil,
        append_nil]
      exact satisfiesRequired_eq hread (Text.strip_strip constraint) hranges hform

theorem satisfiesConstraint_eq_caret :
    satisfiesConstraint "1.4.0".toList "^1.2.3".toList = .ok true := by
  have hread (text : Text) (hlength : text.length ≤ 4300) : Readable text :=
    fun digits hdigits _ => hdigits.length_le.trans hlength
  exact satisfiesConstraint_eq (c := ⟨"^1.2.3".toList, [⟨.ge, ⟨1, 2, 3⟩⟩, ⟨.lt, ⟨2, 0, 0⟩⟩]⟩)
    (hread _ (by decide)) (hread _ (by decide)) (v := ⟨1, 4, 0⟩) (by decide +kernel)
    (by decide +kernel) (by decide) (by decide)

end Agent33.Plugins
