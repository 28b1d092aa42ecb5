import Mathlib.Algebra.BigOperators.Group.List.Basic
import Mathlib.Data.List.Infix
import Mathlib.Tactic.Linarith
import Mathlib.Tactic.Ring

/-!
# Dropping elements until the rest fits

Elements are taken from the front of a list while a running count is over a target. Each is
taken off the count with its weight and a surcharge, so the count falls behind what is left,
and the result is the longest suffix that fits just when the difference never matters.
-/

namespace Agent33.Library

variable {α : Type}

def weight (w : α → ℕ) (l : List α) : ℕ := (l.map w).sum

section Weight

variable (w : α → ℕ)

@[simp]
theorem weight_nil : weight w [] = 0 := rfl

@[simp]
theorem weight_cons (a : α) (l : List α) : weight w (a :: l) = w a + weight w l := by
  simp [weight]

@[simp]
theorem weight_append (l l' : List α) : weight w (l ++ l') = weight w l + weight w l' := by
  simp [weight]

theorem weight_suffix_le (h : l <:+ l') : weight w l ≤ weight w l' := by
  obtain ⟨front, rfl⟩ := h
  simp

theorem weight_drop_le (l : List α) (j : ℕ) : weight w (l.drop j) ≤ weight w l :=
  weight_suffix_le w (List.drop_suffix j l)

end Weight

/-- Drop elements from the front while the running count is over the target. -/
def dropOver (w : α → ℕ) (surcharge : ℕ) (target : Int) : Int → List α → List α
  | _, [] => []
  | running, a :: l =>
    if target < running then dropOver w surcharge target (running - (w a + surcharge)) l
    else a :: l

/-- A suffix over the target is over it by more than the surcharges for the elements before
it. -/
def ClearOf (w : α → ℕ) (surcharge : ℕ) (base target : Int) (l : List α) : Prop :=
  ∀ j < l.length, target < base + weight w (l.drop j) →
    target + surcharge * j < base + weight w (l.drop j)

section Drop

variable {w : α → ℕ} {surcharge : ℕ} {base target : Int}

theorem dropOver_suffix (running : Int) (l : List α) :
    dropOver w surcharge target running l <:+ l := by
  induction l generalizing running with
  | nil => exact List.suffix_rfl
  | cons a l ih =>
    rw [dropOver]
    split_ifs
    · exact (ih _).trans (List.suffix_cons a l)
    · exact List.suffix_rfl

theorem length_le_dropOver (hrunning : running ≤ base + weight w l)
    (hs : s <:+ l) (hfits : base + weight w s ≤ target) :
    s.length ≤ (dropOver w surcharge target running l).length := by
  induction l generalizing running with
  | nil =>
    rw [List.suffix_nil.mp hs]
    exact Nat.zero_le _
  | cons a l ih =>
    rw [dropOver]
    split_ifs with hover
    · rcases List.suffix_cons_iff.mp hs with rfl | hs
      · omega
      · apply ih _ hs
        rw [weight_cons, Nat.cast_add] at hrunning
        omega
    · exact hs.length_le

variable (w surcharge base target)

theorem fits_dropOver_iff (behind : ℕ) (l : List α) :
    (base + weight w (dropOver w surcharge target (base + weight w l - behind) l) ≤ target ∨
      dropOver w surcharge target (base + weight w l - behind) l = []) ↔
    ∀ j < l.length, target < base + weight w (l.drop j) →
      target + behind + surcharge * j < base + weight w (l.drop j) := by
  induction l generalizing behind with
  | nil => simp [dropOver]
  | cons a l ih =>
    rw [dropOver]
    split_ifs with hover
    · have hrunning : base + weight w (a :: l) - behind - (w a + surcharge) =
          base + weight w l - (behind + surcharge : ℕ) := by
        rw [weight_cons]
        push_cast
        omega
      rw [hrunning, ih (behind + surcharge)]
      constructor
      · intro h j hj hj'
        cases j with
        | zero =>
          rw [List.drop_zero]
          simp only [Nat.cast_zero, mul_zero]
          omega
        | succ j =>
          have hrest := h j (Nat.lt_of_succ_lt_succ hj) hj'
          rw [List.drop_succ_cons]
          push_cast at hrest ⊢
          linarith
      · intro h j hj hj'
        have hrest := h (j + 1) (Nat.succ_lt_succ hj) hj'
        rw [List.drop_succ_cons] at hrest
        push_cast at hrest ⊢
        linarith
    · constructor
      · rintro (hfits | hnil) j - hj'
        · have hle := weight_drop_le w (a :: l) j
          omega
        · exact hnil.elim
      · intro h
        by_contra hnot
        have hfirst := h 0 (Nat.zero_lt_succ _)
        rw [List.drop_zero] at hfirst
        simp only [Nat.cast_zero, mul_zero] at hfirst
        obtain ⟨hbase, -⟩ := not_or.mp hnot
        have hbehind := hfirst (not_le.mp hbase)
        omega

theorem fits_dropOver (l : List α) :
    (base + weight w (dropOver w surcharge target (base + weight w l) l) ≤ target ∨
      dropOver w surcharge target (base + weight w l) l = []) ↔
    ClearOf w surcharge base target l := by
  have hfits := fits_dropOver_iff w surcharge base target 0 l
  simp only [Nat.cast_zero, sub_zero, add_zero] at hfits
  exact hfits

end Drop

end Agent33.Library

/-!
## Packing a list into groups

Elements with weights are put into groups in order. A group that the next element would bring
over the budget is closed, and the next one begins with as many elements of its end as an
overlap has room for.
-/

namespace Agent33.Library

variable {α : Type}

/-- The elements of `back`, the last of a list first, that are kept in front of `kept` as long as
the total stays within the overlap. -/
def keepFrom (w : α → ℕ) (o : ℤ) : List α → List α → ℕ → List α × ℕ
  | [], kept, total => (kept, total)
  | a :: back, kept, total =>
    if o < total + w a then (kept, total) else keepFrom w o back (a :: kept) (total + w a)

def keepLast (w : α → ℕ) (o : ℤ) (l : List α) : List α := (keepFrom w o l.reverse [] 0).1

structure Packing (α : Type) where
  groups : List (List α)
  current : List α

namespace Packing

def nil : Packing α := ⟨[], []⟩

def add (w : α → ℕ) (c : ℕ) (o : ℤ) (p : Packing α) (a : α) : Packing α :=
  if c < weight w p.current + w a ∧ p.current ≠ [] then
    ⟨p.groups ++ [p.current], keepLast w o p.current ++ [a]⟩
  else ⟨p.groups, p.current ++ [a]⟩

def flush (p : Packing α) : List (List α) :=
  if p.current = [] then p.groups else p.groups ++ [p.current]

end Packing

def pack (w : α → ℕ) (c : ℕ) (o : ℤ) (l : List α) : List (List α) :=
  (l.foldl (Packing.add w c o) Packing.nil).flush

section Keep

variable {w : α → ℕ}

theorem keepFrom_total (back kept : List α) :
    (keepFrom w o back kept (weight w kept)).2 =
      weight w (keepFrom w o back kept (weight w kept)).1 := by
  induction back generalizing kept with
  | nil => rfl
  | cons a back ih =>
    rw [keepFrom]
    split
    · rfl
    · rw [show weight w kept + w a = weight w (a :: kept) by rw [weight_cons, Nat.add_comm]]
      exact ih (a :: kept)

theorem keepFrom_suffix (back kept : List α) (total : ℕ) :
    (keepFrom w o back kept total).1 <:+ back.reverse ++ kept := by
  induction back generalizing kept total with
  | nil => exact List.suffix_rfl
  | cons a back ih =>
    rw [keepFrom, List.reverse_cons, List.append_assoc]
    split
    · exact (List.suffix_cons a kept).trans (List.suffix_append _ _)
    · exact ih (a :: kept) _

theorem keepFrom_le (hkept : kept = [] ∨ (weight w kept : ℤ) ≤ o)
    (back : List α) :
    (keepFrom w o back kept (weight w kept)).1 = [] ∨
      (weight w (keepFrom w o back kept (weight w kept)).1 : ℤ) ≤ o := by
  induction back generalizing kept with
  | nil => exact hkept
  | cons a back ih =>
    rw [keepFrom]
    split
    · exact hkept
    · rw [show weight w kept + w a = weight w (a :: kept) by rw [weight_cons, Nat.add_comm]]
      apply ih
      right
      rw [weight_cons]
      omega

theorem suffix_keepFrom (hs : s <:+ back.reverse ++ kept)
    (hfits : (weight w s : ℤ) ≤ o) : s <:+ (keepFrom w o back kept (weight w kept)).1 := by
  induction back generalizing kept with
  | nil => exact hs
  | cons a back ih =>
    rw [List.reverse_cons, List.append_assoc] at hs
    rw [keepFrom]
    split
    · rename_i hover
      have hcons : ((a :: kept) : List α) <:+ back.reverse ++ (a :: kept) :=
        List.suffix_append _ _
      have hheavy : ¬ (a :: kept) <:+ s := by
        intro hle
        have hweight := weight_suffix_le w hle
        rw [weight_cons] at hweight
        omega
      rcases List.suffix_cons_iff.mp
        ((List.suffix_or_suffix_of_suffix hs hcons).resolve_right hheavy) with rfl | hs
      · exact absurd List.suffix_rfl hheavy
      · exact hs
    · rw [show weight w kept + w a = weight w (a :: kept) by rw [weight_cons, Nat.add_comm]]
      exact ih hs

theorem keepLast_total (l : List α) :
    keepFrom w o l.reverse [] 0 = (keepLast w o l, weight w (keepLast w o l)) :=
  Prod.ext rfl (keepFrom_total l.reverse [])

theorem keepLast_suffix (l : List α) : keepLast w o l <:+ l := by
  have h := keepFrom_suffix (w := w) (o := o) l.reverse [] 0
  rwa [List.reverse_reverse, List.append_nil] at h

theorem keepLast_le (l : List α) : keepLast w o l = [] ∨ (weight w (keepLast w o l) : ℤ) ≤ o :=
  keepFrom_le (.inl rfl) l.reverse

theorem suffix_keepLast (hs : s <:+ l) (hfits : (weight w s : ℤ) ≤ o) : s <:+ keepLast w o l :=
  suffix_keepFrom (by simpa using hs) hfits

theorem keepLast_of_neg (ho : o < 0) (l : List α) : keepLast w o l = [] := by
  rcases keepLast_le (w := w) (o := o) l with h | h
  · exact h
  · omega

end Keep

namespace Packing

variable {w : α → ℕ} {o : ℤ}

theorem groups_add (p : Packing α) (a : α) : p.groups <+: (p.add w c o a).groups := by
  rw [add]
  split
  · exact List.prefix_append _ _
  · exact List.prefix_rfl

theorem groups_foldl_add (p : Packing α) (l : List α) :
    p.groups <+: (l.foldl (add w c o) p).groups := by
  induction l generalizing p with
  | nil => exact List.prefix_rfl
  | cons a l ih => exact (groups_add p a).trans (ih _)

theorem current_add_ne (p : Packing α) (a : α) : (p.add w c o a).current ≠ [] := by
  rw [add]
  split <;> exact List.append_ne_nil_of_right_ne_nil _ (List.cons_ne_nil _ _)

variable {p : Packing α}

theorem current_foldl_add_ne (hl : l ≠ []) (p : Packing α) :
    (l.foldl (add w c o) p).current ≠ [] := by
  rw [← List.dropLast_append_getLast hl, List.foldl_append]
  exact current_add_ne _ _

theorem mem_flush : g ∈ p.flush ↔ g ∈ p.groups ∨ g = p.current ∧ g ≠ [] := by
  rw [flush]
  split
  · rename_i hnone
    simp [hnone]
  · rename_i hsome
    rw [List.mem_append, List.mem_singleton]
    constructor
    · rintro (hg | rfl)
      · exact .inl hg
      · exact .inr ⟨rfl, hsome⟩
    · rintro (hg | ⟨rfl, -⟩)
      · exact .inl hg
      · exact .inr rfl

theorem mem_flush_of_mem_groups (hg : g ∈ p.groups) (l : List α) :
    g ∈ (l.foldl (add w c o) p).flush :=
  mem_flush.mpr (.inl ((groups_foldl_add p l).subset hg))

theorem mem_flush_of_over (hover : c < weight w p.current) (hcurrent : p.current ≠ [])
    (l : List α) :
    p.current ∈ (l.foldl (add w c o) p).flush := by
  cases l with
  | nil => exact mem_flush.mpr (.inr ⟨rfl, hcurrent⟩)
  | cons a l =>
    have hclosed : p.current ∈ (p.add w c o a).groups := by
      rw [add, if_pos ⟨by omega, hcurrent⟩]
      exact List.mem_append_right _ List.mem_cons_self
    exact mem_flush_of_mem_groups hclosed l

theorem foldl_add_of_le (hle : weight w l ≤ c) : l.foldl (add w c o) nil = ⟨[], l⟩ := by
  induction l using List.reverseRecOn with
  | nil => rfl
  | append_singleton l a ih =>
    rw [weight_append, weight_cons, weight_nil] at hle
    rw [List.foldl_append, ih (by omega), List.foldl_cons, List.foldl_nil, add]
    apply if_neg
    rintro ⟨hover, -⟩
    simp only at hover
    omega

theorem exists_over (h : c < weight w l) :
    ∃ before a after, l = before ++ a :: after ∧ weight w before ≤ c ∧
      c < weight w before + w a := by
  induction l using List.reverseRecOn with
  | nil => exact absurd h (Nat.not_lt_zero c)
  | append_singleton l a ih =>
    rcases Nat.lt_or_ge c (weight w l) with hover | hle
    · obtain ⟨before, b, after, rfl, hbefore, hb⟩ := ih hover
      exact ⟨before, b, after ++ [a], by simp, hbefore, hb⟩
    · exact ⟨l, a, [], rfl, hle, by simpa using h⟩

/-- Of the elements that are packed, the last ones are in the current group, and of these all that
the overlap has room for. -/
structure Holds (w : α → ℕ) (o : ℤ) (done : List α) (p : Packing α) : Prop where
  suffix : p.current <:+ done
  keeps : ∀ s, s <:+ done → (weight w s : ℤ) ≤ o → s <:+ p.current

theorem Holds.add (h : Holds w o done p) (a : α) : Holds w o (done ++ [a]) (p.add w c o a) := by
  have hconcat : ∀ {l l' : List α}, l <:+ l' → l ++ [a] <:+ l' ++ [a] := by
    rintro l l' ⟨front, rfl⟩
    exact ⟨front, by simp⟩
  have hlast : ∀ s, s <:+ done ++ [a] → (weight w s : ℤ) ≤ o →
      s = [] ∨ ∃ s', s = s' ++ [a] ∧ s' <:+ done ∧ (weight w s' : ℤ) ≤ o := by
    intro s hs hfits
    rcases List.suffix_concat_iff.mp hs with rfl | ⟨s', rfl, hs'⟩
    · exact .inl rfl
    · rw [weight_append] at hfits
      exact .inr ⟨s', rfl, hs', by omega⟩
  rw [Packing.add]
  split
  · refine ⟨hconcat ((keepLast_suffix _).trans h.suffix), fun s hs hfits => ?_⟩
    rcases hlast s hs hfits with rfl | ⟨s', rfl, hs', hfits'⟩
    · exact List.nil_suffix
    · exact hconcat (suffix_keepLast (h.keeps s' hs' hfits') hfits')
  · refine ⟨hconcat h.suffix, fun s hs hfits => ?_⟩
    rcases hlast s hs hfits with rfl | ⟨s', rfl, hs', hfits'⟩
    · exact List.nil_suffix
    · exact hconcat (h.keeps s' hs' hfits')

theorem holds_foldl (l : List α) : Holds w o l (l.foldl (add w c o) nil) := by
  induction l using List.reverseRecOn with
  | nil => exact ⟨List.suffix_rfl, fun s hs _ => hs⟩
  | append_singleton l a ih =>
    rw [List.foldl_append]
    exact ih.add a

end Packing

section Fits

variable {w : α → ℕ} {o : ℤ} {Fits : List α → Prop}

/-- Each element fits, together with any elements right before it that the overlap has room
for. -/
def CarriesWithin (w : α → ℕ) (o : ℤ) (Fits : List α → Prop) (l : List α) : Prop :=
  ∀ kept a, kept ++ [a] <:+: l → kept = [] ∨ (weight w kept : ℤ) ≤ o → Fits (kept ++ [a])

def Packing.AllFit (Fits : List α → Prop) (p : Packing α) : Prop :=
  (∀ g ∈ p.groups, Fits g) ∧ (p.current ≠ [] → Fits p.current)

theorem allFit_foldl (hbudget : ∀ g, weight w g ≤ c → Fits g)
    (h : CarriesWithin w o Fits l) : (l.foldl (Packing.add w c o) .nil).AllFit Fits := by
  induction l using List.reverseRecOn with
  | nil => exact ⟨fun g hg => absurd hg List.not_mem_nil, fun hne => absurd rfl hne⟩
  | append_singleton l a ih =>
    obtain ⟨hgroups, hcurrent⟩ := ih fun kept b hblock =>
      h kept b (hblock.trans (List.prefix_append l [a]).isInfix)
    have hlast : ∀ kept, kept <:+ l → kept = [] ∨ (weight w kept : ℤ) ≤ o →
        Fits (kept ++ [a]) := by
      rintro kept ⟨front, rfl⟩
      exact h kept a ⟨front, [], by simp⟩
    have hholds := Packing.holds_foldl (w := w) (c := c) (o := o) l
    rw [List.foldl_append, List.foldl_cons, List.foldl_nil, Packing.add]
    split
    · rename_i hclose
      refine ⟨fun g hg => ?_, fun _ => ?_⟩
      · rcases List.mem_append.mp hg with hg | hg
        · exact hgroups g hg
        · rw [List.mem_singleton.mp hg]
          exact hcurrent hclose.2
      · exact hlast _ ((keepLast_suffix _).trans hholds.suffix) (keepLast_le _)
    · rename_i hopen
      refine ⟨hgroups, fun _ => ?_⟩
      by_cases hnone : (l.foldl (Packing.add w c o) .nil).current = []
      · rw [hnone]
        exact hlast [] List.nil_suffix (.inl rfl)
      · apply hbudget
        rw [weight_append, weight_cons, weight_nil]
        have hle : ¬ c < _ := fun hover => hopen ⟨hover, hnone⟩
        omega

theorem forall_pack_iff (hbudget : ∀ g, weight w g ≤ c → Fits g)
    (hsuffix : ∀ g g', g <:+ g' → g ≠ [] → Fits g' → Fits g) (l : List α) :
    (∀ g ∈ pack w c o l, Fits g) ↔ CarriesWithin w o Fits l := by
  constructor
  · rintro h kept a ⟨front, after, rfl⟩ hkept
    rcases Nat.lt_or_ge c (weight w (kept ++ [a])) with hover | hle
    · have hholds := Packing.holds_foldl (w := w) (c := c) (o := o) (front ++ kept)
      rw [pack, show front ++ (kept ++ [a]) ++ after = (front ++ kept) ++ a :: after by simp,
        List.foldl_append, List.foldl_cons] at h
      generalize (front ++ kept).foldl (Packing.add w c o) Packing.nil = p at h hholds
      have hsub : kept <:+ p.current := by
        rcases hkept with rfl | hkept
        · exact List.nil_suffix
        · exact hholds.keeps kept (List.suffix_append _ _) hkept
      have hadd : kept ++ [a] <:+ (p.add w c o a).current := by
        have hconcat : ∀ {l : List α}, kept <:+ l → kept ++ [a] <:+ l ++ [a] := by
          rintro l ⟨front, rfl⟩
          exact ⟨front, by simp⟩
        rw [Packing.add]
        split
        · rcases hkept with rfl | hkept
          · exact List.suffix_append _ _
          · exact hconcat (suffix_keepLast hsub hkept)
        · exact hconcat hsub
      have hweight := weight_suffix_le w hadd
      exact hsuffix _ _ hadd (by simp)
        (h _ (Packing.mem_flush_of_over (by omega) (Packing.current_add_ne p a) after))
    · exact hbudget _ hle
  · intro h g hg
    obtain ⟨hgroups, hcurrent⟩ := allFit_foldl hbudget h
    rcases Packing.mem_flush.mp hg with hg | ⟨rfl, hne⟩
    · exact hgroups g hg
    · exact hcurrent hne

end Fits

section Fill

variable {w : α → ℕ}

/-- Groups of a number of elements, the first of which has some already. -/
def fill (k : ℕ) : List α → List α → List (List α)
  | current, [] => [current]
  | current, a :: l =>
    if current.length < k then fill k (current ++ [a]) l else current :: fill k [a] l

theorem flatten_pack (ho : o < 0) (l : List α) : (pack w c o l).flatten = l := by
  have hdone : ∀ p : Packing α, p.flush.flatten = p.groups.flatten ++ p.current := by
    intro p
    rw [Packing.flush]
    split
    · rename_i hnone
      rw [hnone, List.append_nil]
    · simp
  rw [pack, hdone]
  induction l using List.reverseRecOn with
  | nil => rfl
  | append_singleton l a ih =>
    rw [List.foldl_append, List.foldl_cons, List.foldl_nil, Packing.add]
    have hnext := congrArg (· ++ [a]) ih
    split
    · simpa [keepLast_of_neg ho] using hnext
    · simpa using hnext

theorem weight_of_const (h : ∀ a ∈ l, w a = m) : weight w l = m * l.length := by
  induction l with
  | nil => rfl
  | cons a l ih =>
    obtain ⟨ha, hl⟩ := List.forall_mem_cons.mp h
    rw [weight_cons, ha, ih hl, List.length_cons, Nat.mul_succ, Nat.add_comm]

theorem flush_foldl_add (hm : 0 < m) (ho : o < 0) (hl : ∀ a ∈ l, w a = m)
    (groups : List (List α)) (hne : current ≠ [])
    (hcurrent : ∀ a ∈ current, w a = m) :
    (l.foldl (Packing.add w c o) ⟨groups, current⟩).flush =
      groups ++ fill (max 1 (c / m)) current l := by
  induction l generalizing groups current with
  | nil => exact if_neg hne
  | cons a l ih =>
    obtain ⟨ha, hl⟩ := List.forall_mem_cons.mp hl
    have hweight := weight_of_const hcurrent
    have hpos : 0 < current.length := List.length_pos_iff.mpr hne
    have hsize : c < weight w current + w a ↔ ¬ current.length < max 1 (c / m) := by
      rw [hweight, ha, ← Nat.mul_succ, Nat.mul_comm, ← Nat.div_lt_iff_lt_mul hm]
      omega
    rw [List.foldl_cons, Packing.add, fill]
    by_cases hroom : current.length < max 1 (c / m)
    · rw [if_neg fun h => hsize.mp h.1 hroom, if_pos hroom]
      apply ih hl _ (by simp)
      intro b hb
      rcases List.mem_append.mp hb with hb | hb
      · exact hcurrent b hb
      · rw [List.mem_singleton.mp hb, ha]
    · rw [if_pos ⟨hsize.mpr hroom, hne⟩, if_neg hroom, keepLast_of_neg ho,
        ih hl _ (by simp) (by simp [ha]), List.append_assoc]
      rfl

theorem pack_const (hm : 0 < m) (ho : o < 0) (ha : w a = m)
    (hl : ∀ b ∈ l, w b = m) : pack w c o (a :: l) = fill (max 1 (c / m)) [a] l := by
  rw [pack, List.foldl_cons, Packing.add, if_neg fun h => h.2 rfl]
  exact flush_foldl_add hm ho hl [] (List.cons_ne_nil a []) (by simpa [Packing.nil] using ha)

end Fill

section Overlapping

variable {w : α → ℕ}

/-- The groups cover a list in order. Each begins with some of the end of the one before it, and
goes on with what comes next. -/
inductive Overlapping : List α → List (List α) → List α → Prop
  | nil : Overlapping [] [] []
  | snoc {done groups last kept news} : Overlapping done groups last → kept <:+ last → news ≠ [] →
      Overlapping (done ++ news) (groups ++ [kept ++ news]) (kept ++ news)

/-- The groups that are closed cover what is packed up to the new elements of the current one. -/
def Packing.Covering (done : List α) (p : Packing α) : Prop :=
  ∃ covered last kept news, Overlapping covered p.groups last ∧ kept <:+ last ∧
    p.current = kept ++ news ∧ done = covered ++ news ∧ (news = [] → kept = [])

theorem Packing.Covering.add {done : List α} {p : Packing α} (h : p.Covering done) (a : α) :
    (p.add w c o a).Covering (done ++ [a]) := by
  obtain ⟨covered, last, kept, news, hgroups, hkept, hcurrent, rfl, hnone⟩ := h
  rw [Packing.add]
  split
  · rename_i hclose
    have hnews : news ≠ [] := fun hnews =>
      hclose.2 (by rw [hcurrent, hnews, hnone hnews]; rfl)
    refine ⟨covered ++ news, kept ++ news, keepLast w o p.current, [a], ?_, ?_, rfl, rfl, by simp⟩
    · rw [hcurrent]
      exact .snoc hgroups hkept hnews
    · rw [← hcurrent]
      exact keepLast_suffix _
  · refine ⟨covered, last, kept, news ++ [a], hgroups, hkept, ?_, ?_, by simp⟩
    · rw [hcurrent, List.append_assoc]
    · rw [List.append_assoc]

theorem pack_overlapping (w : α → ℕ) (c : ℕ) (o : ℤ) (l : List α) :
    ∃ last, Overlapping l (pack w c o l) last := by
  have hcovering : (l.foldl (Packing.add w c o) .nil).Covering l := by
    induction l using List.reverseRecOn with
    | nil => exact ⟨[], [], [], [], .nil, List.suffix_rfl, rfl, rfl, fun _ => rfl⟩
    | append_singleton l a ih =>
      rw [List.foldl_append]
      exact ih.add a
  rw [pack]
  generalize l.foldl (Packing.add w c o) Packing.nil = p at hcovering
  obtain ⟨covered, last, kept, news, hgroups, hkept, hcurrent, hdone, hnone⟩ := hcovering
  rw [Packing.flush, hcurrent]
  by_cases hnews : news = []
  · rw [if_pos (by rw [hnews, hnone hnews]; rfl), hdone, hnews, List.append_nil]
    exact ⟨last, hgroups⟩
  · rw [if_neg (List.append_ne_nil_of_right_ne_nil _ hnews)]
    have hsnoc := Overlapping.snoc hgroups hkept hnews
    rw [← hdone] at hsnoc
    exact ⟨_, hsnoc⟩

end Overlapping

end Agent33.Library
