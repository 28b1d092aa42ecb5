import Mathlib.Data.List.Dedup
import Mathlib.Data.List.Infix
import Mathlib.Data.List.Lex
import Mathlib.Data.List.Sort
import Mathlib.Order.Lex

/-!
# Directory trees

What is at each path below a root, with finitely many paths at which there is something. A path
lists its components from the root on, and everything that exists lies in a directory.
-/

namespace Agent33.Library

open List Option

inductive TreeNode (γ : Type*)
  | dir
  | file (content : γ)
  deriving DecidableEq

structure DirTree (ν γ : Type*) where
  node : List ν → Option (TreeNode γ)
  listing : List (List ν)
  listed : ∀ p, node p ≠ none → p ∈ listing
  parents : ∀ p q, q ≠ [] → node (p ++ q) ≠ none → node p = some .dir

namespace DirTree

variable {ν γ : Type*} {t t' s : DirTree ν γ} {p q : List ν}

def empty : DirTree ν γ where
  node _ := none
  listing := []
  listed _ h := absurd rfl h
  parents _ _ _ h := absurd rfl h

def single (content : γ) : DirTree ν γ where
  node p := if p.isEmpty then some (.file content) else none
  listing := [[]]
  listed := by
    intro p h
    cases p with
    | nil => exact mem_singleton_self []
    | cons name p => exact absurd rfl h
  parents := by
    intro p q hq h
    cases p with
    | nil =>
      cases q with
      | nil => exact absurd rfl hq
      | cons name q => exact absurd rfl h
    | cons name p => exact absurd rfl h

def sub [DecidableEq ν] (t : DirTree ν γ) (p : List ν) : DirTree ν γ where
  node q := t.node (p ++ q)
  listing := (t.listing.filter fun q => p.isPrefixOf q).map fun q => q.drop p.length
  listed := by
    intro q h
    refine mem_map.mpr ⟨p ++ q, List.mem_filter.mpr ⟨t.listed _ h, ?_⟩, drop_left⟩
    exact isPrefixOf_iff_prefix.mpr (prefix_append p q)
  parents := by
    intro q r hr h
    rw [← append_assoc] at h
    exact t.parents (p ++ q) r hr h

def isDir (t : DirTree ν γ) (p : List ν) : Bool :=
  match t.node p with
  | some .dir => true
  | _ => false

theorem isDir_iff : t.isDir p = true ↔ t.node p = some .dir := by
  unfold isDir
  split
  · rename_i h
    exact iff_of_true rfl h
  · rename_i h
    exact iff_of_false Bool.false_ne_true h

def file? (t : DirTree ν γ) (p : List ν) : Option γ :=
  match t.node p with
  | some (.file content) => some content
  | _ => none

theorem file?_eq_some {content : γ} :
    t.file? p = some content ↔ t.node p = some (.file content) := by
  unfold file?
  constructor
  · intro h
    split at h
    · rename_i hnode
      cases h
      exact hnode
    · cases h
  · intro h
    rw [h]

theorem file?_of_dir (h : t.node p = some .dir) : t.file? p = none := by
  rw [file?, h]

theorem file?_of_none (h : t.node p = none) : t.file? p = none := by
  rw [file?, h]

theorem file?_congr (h : t.node p = s.node q) : t.file? p = s.file? q := by
  rw [file?, file?, h]

theorem node_of_file?_none (h : t.file? p = none) (hnode : t.node p ≠ none) :
    t.node p = some .dir := by
  cases hp : t.node p with
  | none => exact absurd hp hnode
  | some node =>
    cases node with
    | dir => rfl
    | file content =>
      rw [file?_eq_some.mpr hp] at h
      cases h

def paths [DecidableEq ν] (t : DirTree ν γ) : List (List ν) :=
  t.listing.dedup.filter fun p => (t.node p).isSome

theorem mem_paths [DecidableEq ν] : p ∈ t.paths ↔ t.node p ≠ none := by
  rw [paths, List.mem_filter, mem_dedup, Option.isSome_iff_ne_none]
  exact ⟨fun h => h.2, fun h => ⟨t.listed p h, h⟩⟩

theorem nodup_paths [DecidableEq ν] (t : DirTree ν γ) : t.paths.Nodup :=
  (nodup_dedup _).filter _

theorem node_of_prefix (hnode : t.node q ≠ none) (hp : p <+: q) (hne : p ≠ q) :
    t.node p = some .dir := by
  obtain ⟨r, rfl⟩ := hp
  refine t.parents p r ?_ hnode
  rintro rfl
  exact hne (append_nil p).symm

/-- Make a directory and those above it; a file in the way is refused. -/
def mkdirs [DecidableEq ν] (t : DirTree ν γ) (p : List ν) : Option (DirTree ν γ) :=
  if h : ∀ q ∈ p.inits, t.file? q = none then
    some {
      node q := if t.node q = none ∧ q <+: p then some .dir else t.node q
      listing := t.listing ++ p.inits
      listed := by
        intro q hq
        split_ifs at hq with hnew
        · exact mem_append_right _ ((mem_inits q p).mpr hnew.2)
        · exact mem_append_left _ (t.listed q hq)
      parents := by
        intro a q hq hnode
        have hdir : t.node a = some .dir ∨ t.node a = none ∧ a <+: p := by
          split_ifs at hnode with hnew
          · have hprefix : a <+: p := (prefix_append a q).trans hnew.2
            by_cases ha : t.node a = none
            · exact .inr ⟨ha, hprefix⟩
            · exact .inl (node_of_file?_none (h a ((mem_inits a p).mpr hprefix)) ha)
          · exact .inl (t.parents a q hq hnode)
        rcases hdir with hdir | hnew
        · rw [if_neg fun hnew => by simp [hdir] at hnew, hdir]
        · rw [if_pos hnew] }
  else none

theorem mkdirs_isSome_iff [DecidableEq ν] :
    (t.mkdirs p).isSome ↔ ∀ q, q <+: p → t.file? q = none := by
  unfold mkdirs
  split_ifs with h
  · exact iff_of_true rfl fun q hq => h q ((mem_inits q p).mpr hq)
  · refine iff_of_false Bool.false_ne_true fun hall => h fun q hq => ?_
    exact hall q ((mem_inits q p).mp hq)

theorem node_mkdirs [DecidableEq ν] (h : t.mkdirs p = some t') (q : List ν) :
    t'.node q = if t.node q = none ∧ q <+: p then some .dir else t.node q := by
  unfold mkdirs at h
  split_ifs at h
  rw [← some.inj h]

theorem file?_mkdirs [DecidableEq ν] (h : t.mkdirs p = some t') (q : List ν) :
    t'.file? q = t.file? q := by
  have hnode := node_mkdirs h q
  split_ifs at hnode with hnew
  · rw [file?_of_dir hnode, file?_of_none hnew.1]
  · exact file?_congr hnode

theorem node_mkdirs_of_prefix [DecidableEq ν] (h : t.mkdirs p = some t') (hq : q <+: p) :
    t'.node q = some .dir := by
  have hfile := mkdirs_isSome_iff.mp (h ▸ rfl : (t.mkdirs p).isSome) q hq
  rw [node_mkdirs h]
  split_ifs with hnew
  · rfl
  · exact node_of_file?_none hfile fun hnone => hnew ⟨hnone, hq⟩

def remove [DecidableEq ν] (t : DirTree ν γ) (p : List ν) : DirTree ν γ where
  node q := if p <+: q then none else t.node q
  listing := t.listing
  listed := by
    intro q hq
    split_ifs at hq
    · exact absurd rfl hq
    · exact t.listed q hq
  parents := by
    intro a q hq hnode
    split_ifs at hnode with hp
    · exact absurd rfl hnode
    · rw [if_neg fun ha => hp (ha.trans (prefix_append a q))]
      exact t.parents a q hq hnode

/-- A tree takes the place of what is at a path inside directories. -/
def graft [DecidableEq ν] (t : DirTree ν γ) (p : List ν) (s : DirTree ν γ)
    (hp : ∀ q, q <+: p → q ≠ p → t.node q = some .dir) : DirTree ν γ where
  node q := if p <+: q then s.node (q.drop p.length) else t.node q
  listing := t.listing ++ s.listing.map (p ++ ·)
  listed := by
    intro q hq
    split_ifs at hq with hprefix
    · obtain ⟨r, rfl⟩ := hprefix
      rw [drop_left] at hq
      exact mem_append_right _ (mem_map_of_mem (s.listed r hq))
    · exact mem_append_left _ (t.listed q hq)
  parents := by
    intro a q hq hnode
    by_cases ha : p <+: a
    · rw [if_pos (ha.trans (prefix_append a q))] at hnode
      obtain ⟨r, rfl⟩ := ha
      rw [if_pos (prefix_append p r), drop_left]
      rw [append_assoc, drop_left] at hnode
      exact s.parents r q hq hnode
    · rw [if_neg ha]
      split_ifs at hnode with haq
      · have hap : a <+: p := (List.prefix_or_prefix_of_prefix haq
          (prefix_append a q)).resolve_left ha
        exact hp a hap fun heq => ha (heq ▸ prefix_rfl)
      · exact t.parents a q hq hnode

theorem node_graft [DecidableEq ν] (hp : ∀ q, q <+: p → q ≠ p → t.node q = some .dir)
    (q : List ν) :
    (t.graft p s hp).node q = if p <+: q then s.node (q.drop p.length) else t.node q := rfl

def writeFile [DecidableEq ν] (t : DirTree ν γ) (p : List ν) (content : γ) : Option (DirTree ν γ) :=
  if h : ∀ q ∈ p.inits, q ≠ p → t.isDir q = true then
    if t.isDir p then none
    else some (t.graft p (single content) fun q hq hne =>
      isDir_iff.mp (h q ((mem_inits q p).mpr hq) hne))
  else none

theorem node_writeFile [DecidableEq ν] (h : t.writeFile p content = some t')
    (q : List ν) : t'.node q =
      if p <+: q then (single content).node (q.drop p.length) else t.node q := by
  unfold writeFile at h
  split_ifs at h
  rw [← some.inj h, node_graft]

end DirTree

end Agent33.Library
