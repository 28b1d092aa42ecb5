import Agent33.Library.Dict
import Agent33.Library.Ranking
import Agent33.Library.Text
import Mathlib.Data.Prod.Lex

/-!
# Versions, version constraints and dependency resolution

A version is compared component by component. A constraint is a list of
comparisons, all of which a version has to meet. The resolver takes the
requirements in their order and gives each pack the highest available version
that meets the first constraint listed for it. It never looks at what the
chosen version depends on and never takes a choice back, so that it is right
about a catalogue exactly when the constraints listed for a pack agree on the
version and the chosen versions meet each other's dependencies, or when a
required pack has no version that meets all of its constraints.
-/

namespace Agent33.Packs

open Library List Text

@[ext]
structure Version where
  major : ℕ
  minor : ℕ
  patch : ℕ
deriving DecidableEq

namespace Version

def components (v : Version) : ℕ ×ₗ ℕ ×ₗ ℕ := toLex (v.major, toLex (v.minor, v.patch))

theorem components_injective : Function.Injective components := by
  intro u v h
  simp only [components, EmbeddingLike.apply_eq_iff_eq, Prod.mk.injEq] at h
  exact Version.ext h.1 h.2.1 h.2.2

instance : LinearOrder Version := LinearOrder.lift' components components_injective

theorem le_iff {u v : Version} : u ≤ v ↔ u.major < v.major ∨ u.major = v.major ∧
    (u.minor < v.minor ∨ u.minor = v.minor ∧ u.patch ≤ v.patch) := by
  change u.components ≤ v.components ↔ _
  simp only [components, Prod.Lex.toLex_le_toLex]

def str (v : Version) : Text :=
  ['.'].intercalate [Text.ofNat v.major, Text.ofNat v.minor, Text.ofNat v.patch]

def number : Text → Option ℕ
  | [] => none
  | c :: rest =>
    (c :: rest).foldlM (fun value c => (Text.digitValue c).map fun d => 10 * value + d) 0

def invalidSemver (raw : Text) : Text :=
  Text.ofString "Invalid semver: '" ++ raw ++ Text.ofString "' (expected MAJOR.MINOR.PATCH)"

def parse (raw : Text) : Except Text Version :=
  match (Text.strip raw).splitOn '.' with
  | [major, minor, patch] =>
    match number major, number minor, number patch with
    | some major, some minor, some patch => .ok ⟨major, minor, patch⟩
    | _, _, _ => .error (invalidSemver raw)
  | _ => .error (invalidSemver raw)

theorem number_of_isDigit (hne : text ≠ []) (h : ∀ c ∈ text, c.isDigit = true) :
    number text = some (Nat.ofDigitChars 10 text 0) := by
  have hfold : ∀ value, text.foldlM
      (fun value c => (digitValue c).map fun d => 10 * value + d) value =
        some (Nat.ofDigitChars 10 text value) := by
    clear hne
    induction text with
    | nil => intro value; rfl
    | cons c rest ih =>
      intro value
      rw [foldlM_cons, digitValue_of_isDigit (h c mem_cons_self),
        Nat.ofDigitChars_cons]
      exact ih (fun d hd => h d (mem_cons_of_mem c hd)) _
  cases text with
  | nil => exact absurd rfl hne
  | cons c rest => exact hfold 0

theorem number_ofNat (n : ℕ) : number (ofNat n) = some n := by
  rw [number_of_isDigit (ofNat_ne_nil n) fun c => isDigit_of_mem_ofNat]
  exact congrArg some Nat.ofDigitChars_ten_toDigits

theorem isSpace_of_mem_str {v : Version} {c : Char} (hc : c ∈ v.str) :
    isSpace c = false := by
  have hcases : c = '.' ∨ c.isDigit = true := by
    simp only [str, List.intercalate, List.intersperse, flatten_cons, flatten_nil,
      mem_append, mem_singleton, not_mem_nil, or_false] at hc
    rcases hc with h | h | h | h | h
    · exact .inr (isDigit_of_mem_ofNat h)
    · exact .inl h
    · exact .inr (isDigit_of_mem_ofNat h)
    · exact .inl h
    · exact .inr (isDigit_of_mem_ofNat h)
  cases hcases with
  | inl h => subst h; decide
  | inr h => exact isSpace_of_isDigit h

theorem strip_str (v : Version) : strip v.str = v.str :=
  strip_of_noSpace fun _ => isSpace_of_mem_str

theorem parse_str (v : Version) : parse v.str = .ok v := by
  have hdot (n : ℕ) : '.' ∉ ofNat n := fun h =>
    absurd (isDigit_of_mem_ofNat h) (by decide)
  have hsplit : v.str.splitOn '.' =
      [ofNat v.major, ofNat v.minor, ofNat v.patch] := by
    apply splitOn_intercalate
    · simp [hdot]
    · simp
  simp only [parse, strip_str, hsplit, number_ofNat]

theorem str_injective : Function.Injective str := by
  intro u v h
  have hparse := parse_str u
  rw [h, parse_str] at hparse
  exact (Except.ok.inj hparse).symm

end Version

inductive Comparison where
  | ge
  | le
  | gt
  | lt
  | eq
deriving DecidableEq

structure VersionRange where
  operator : Comparison
  version : Version
deriving DecidableEq

def VersionRange.contains (r : VersionRange) (v : Version) : Bool :=
  match r.operator with
  | .ge => decide (r.version ≤ v)
  | .le => decide (v ≤ r.version)
  | .gt => decide (r.version < v)
  | .lt => decide (v < r.version)
  | .eq => decide (v = r.version)

theorem VersionRange.isInterval_contains (r : VersionRange) : IsInterval r.contains := by
  unfold IsInterval
  cases h : r.operator with
  | ge =>
    have hset : {v | r.contains v = true} = Set.Ici r.version := by
      simp [VersionRange.contains, h, Set.Ici]
    exact hset ▸ Set.ordConnected_Ici
  | le =>
    have hset : {v | r.contains v = true} = Set.Iic r.version := by
      simp [VersionRange.contains, h, Set.Iic]
    exact hset ▸ Set.ordConnected_Iic
  | gt =>
    have hset : {v | r.contains v = true} = Set.Ioi r.version := by
      simp [VersionRange.contains, h, Set.Ioi]
    exact hset ▸ Set.ordConnected_Ioi
  | lt =>
    have hset : {v | r.contains v = true} = Set.Iio r.version := by
      simp [VersionRange.contains, h, Set.Iio]
    exact hset ▸ Set.ordConnected_Iio
  | eq =>
    have hset : {v | r.contains v = true} = {r.version} := by
      ext v
      simp [VersionRange.contains, h]
    exact hset ▸ Set.ordConnected_singleton

structure VersionConstraint where
  raw : Text
  ranges : List VersionRange
deriving DecidableEq

def parseSingleConstraint (part : Text) : Except Text (List VersionRange) :=
  match Text.strip part with
  | '^' :: rest => (Version.parse rest).map fun ver =>
    [⟨.ge, ver⟩, ⟨.lt, ⟨ver.major + 1, 0, 0⟩⟩]
  | '~' :: rest => (Version.parse rest).map fun ver =>
    [⟨.ge, ver⟩, ⟨.lt, ⟨ver.major, ver.minor + 1, 0⟩⟩]
  | '>' :: '=' :: rest => (Version.parse rest).map fun ver => [⟨.ge, ver⟩]
  | '<' :: '=' :: rest => (Version.parse rest).map fun ver => [⟨.le, ver⟩]
  | '>' :: rest => (Version.parse rest).map fun ver => [⟨.gt, ver⟩]
  | '<' :: rest => (Version.parse rest).map fun ver => [⟨.lt, ver⟩]
  | '=' :: rest => (Version.parse rest).map fun ver => [⟨.eq, ver⟩]
  | rest => (Version.parse rest).map fun ver => [⟨.eq, ver⟩]

namespace VersionConstraint

def satisfies (c : VersionConstraint) (version : Version) : Bool :=
  c.ranges.all fun r => r.contains version

theorem isInterval_satisfies (c : VersionConstraint) : IsInterval c.satisfies := by
  have hall : ∀ ranges : List VersionRange,
      IsInterval fun v => ranges.all fun r => r.contains v := by
    intro ranges
    induction ranges with
    | nil => exact isInterval_true
    | cons r rest ih => exact r.isInterval_contains.and ih
  exact hall c.ranges

def parse (raw : Text) : Except Text VersionConstraint :=
  let raw := Text.strip raw
  if raw = ['*'] then .ok ⟨raw, []⟩
  else
    ((raw.splitOn ',').mapM fun p => parseSingleConstraint (Text.strip p)).map fun ranges =>
      ⟨raw, ranges.flatten⟩

end VersionConstraint

structure Requirement where
  name : Text
  constraint : Text
deriving DecidableEq

def Requirement.meets (req : Requirement) (v : Version) : Bool :=
  match VersionConstraint.parse req.constraint with
  | .ok constraint => constraint.satisfies v
  | .error _ => false

theorem Requirement.isInterval_meets (req : Requirement) : IsInterval req.meets := by
  unfold Requirement.meets
  cases VersionConstraint.parse req.constraint with
  | ok constraint => exact constraint.isInterval_satisfies
  | error e =>
    refine ⟨fun u hu => ?_⟩
    simp at hu

structure ConflictDetail where
  package : Text
  requiredBy : Dict Text Text
  availableVersions : List Text
  reason : Text

structure ResolutionResult where
  resolved : Option (Dict Text Text)
  conflicts : List ConflictDetail
  graph : Dict Text (List Text)

def ResolutionResult.success (result : ResolutionResult) : Bool :=
  result.resolved.isSome && result.conflicts.isEmpty

structure DependencyResolver where
  available : Dict Text (List Version)
  sorted : ∀ name, (available.getD name []).SortedGE

namespace DependencyResolver

def parseAll (versions : List Text) : Except Text (List Version) := versions.mapM Version.parse

def assign (r : DependencyResolver) (name : Text) (versions : List Version) :
    DependencyResolver where
  available := r.available.set name (versions.insertionSort (· ≥ ·))
  sorted := by
    intro other
    rw [Dict.getD_set]
    split_ifs
    · exact sortedGE_insertionSort
    · exact r.sorted other

def empty : DependencyResolver := ⟨.empty, fun _ => List.Pairwise.nil.sortedGE⟩

def init (availablePacks : Dict Text (List Text)) : Except Text DependencyResolver :=
  availablePacks.entries.foldlM (fun r pack => (parseAll pack.2).map (r.assign pack.1)) empty

def addAvailable (r : DependencyResolver) (name version : Text) : Except Text DependencyResolver :=
  (Version.parse version).map fun ver =>
    if ver ∈ r.available.getD name [] then r
    else r.assign name (r.available.getD name [] ++ [ver])

/-- What `resolve` keeps while it works. A conflict names its package and
shows, in the end, what the constraints kept for that package have become. -/
structure Resolution where
  resolved : Dict Text Text
  constraintsByName : Dict Text (Dict Text Text)
  graph : Dict Text (List Text)
  conflicts : List (Text × List Text × Text)
  visited : List Text

namespace Resolution

def addConflict (s : Resolution) (package : Text) (availableVersions : List Text)
    (reason : Text) : Resolution :=
  { s with conflicts := s.conflicts ++ [(package, availableVersions, reason)] }

def track (s : Resolution) (name requirer constraint : Text) : Resolution :=
  { s with
    constraintsByName := s.constraintsByName.set name
      ((s.constraintsByName.getD name .empty).set requirer constraint) }

def visit (s : Resolution) (name : Text) : Resolution := { s with visited := name :: s.visited }

def choose (s : Resolution) (requirer name : Text) (ver : Version) : Resolution :=
  { s with
    resolved := s.resolved.set name ver.str
    graph := s.graph.set requirer (s.graph.getD requirer [] ++ [name]) }

end Resolution

def circular (requirer name : Text) : Text :=
  Text.ofString "Circular dependency detected: " ++ requirer ++ Text.ofString " -> " ++ name

def versionConflict (existing requirer constraint : Text) : Text :=
  Text.ofString "Version conflict: already resolved to " ++ existing ++
    Text.ofString " but " ++ requirer ++ Text.ofString " requires " ++ constraint

def notFound (name : Text) : Text :=
  Text.ofString "Pack '" ++ name ++ Text.ofString "' not found in any registry"

def listText (versions : List Text) : Text :=
  Text.ofString "[" ++
    (Text.ofString ", ").intercalate (versions.map fun v => ['\''] ++ v ++ ['\'']) ++
    Text.ofString "]"

def noVersion (name constraint : Text) (versions : List Text) : Text :=
  Text.ofString "No version of '" ++ name ++ Text.ofString "' satisfies constraint '" ++
    constraint ++ Text.ofString "' (available: " ++ listText versions ++ Text.ofString ")"

def resolveOne (r : DependencyResolver) (requirer : Text) (s : Resolution) (req : Requirement) :
    Except Text Resolution :=
  let available := r.available.getD req.name []
  let versions := available.map Version.str
  if req.name ∈ s.visited ∧ s.resolved.get? req.name = none then
    .ok (s.addConflict req.name versions (circular requirer req.name))
  else
    let s := s.visit req.name
    match VersionConstraint.parse req.constraint with
    | .error e => .error e
    | .ok constraint =>
      match s.resolved.get? req.name with
      | some existing =>
        match Version.parse existing with
        | .error e => .error e
        | .ok existingVer =>
          if constraint.satisfies existingVer then .ok s
          else
            .ok ((s.track req.name requirer req.constraint).addConflict req.name versions
              (versionConflict existing requirer req.constraint))
      | none =>
        if available = [] then
          .ok ((s.track req.name requirer req.constraint).addConflict req.name []
            (notFound req.name))
        else
          match available.find? constraint.satisfies with
          | some ver => .ok (s.choose requirer req.name ver)
          | none =>
            .ok ((s.track req.name requirer req.constraint).addConflict req.name versions
              (noVersion req.name req.constraint versions))

def root : Text := Text.ofString "root"

def start (requirements : List Requirement) : Resolution :=
  requirements.foldl (fun s req => s.track req.name root req.constraint)
    ⟨.empty, .empty, .empty, [], []⟩

def finish (s : Resolution) : ResolutionResult :=
  if s.conflicts = [] then ⟨some s.resolved, [], s.graph⟩
  else
    ⟨none, s.conflicts.map fun c => ⟨c.1, s.constraintsByName.getD c.1 .empty, c.2.1, c.2.2⟩,
      s.graph⟩

def resolve (r : DependencyResolver) (requirements : List Requirement) :
    Except Text ResolutionResult :=
  (requirements.foldlM (r.resolveOne root) (start requirements)).map finish

end DependencyResolver

end Agent33.Packs
