import Mathlib.Data.List.Sort
import Mathlib.Order.Interval.Set.OrdConnected

/-!
# Rankings

A list in the order of the scores of its elements, the highest first and equal ones in the order
in which they come, and the first elements of it.
-/

namespace Agent33.Library.Ranking

open List

variable {α β : Type*} [LinearOrder β]

def ranked (score : α → β) (xs : List α) : List α :=
  xs.insertionSort fun a b => score b ≤ score a

def top (score : α → β) (k : ℕ) (xs : List α) : List α := (ranked score xs).take k

variable (score : α → β) (k : ℕ) (xs : List α)

theorem ranked_perm : (ranked score xs).Perm xs := perm_insertionSort ..

theorem mem_ranked {x : α} : x ∈ ranked score xs ↔ x ∈ xs := (ranked_perm score xs).mem_iff

theorem pairwise_ranked : (ranked score xs).Pairwise fun a b => score b ≤ score a := by
  have htotal : Std.Total fun a b : α => score b ≤ score a :=
    ⟨fun a b => le_total (score b) (score a)⟩
  have htrans : IsTrans α fun a b => score b ≤ score a := ⟨fun a b c hab hbc => hbc.trans hab⟩
  exact pairwise_insertionSort _ xs

/-- The first element of the ranking that meets a condition has the highest score, and is the
first one with this score in the list. -/
theorem find?_ranked (h : (ranked score xs).find? p = some x) :
    xs.find? (fun y => p y && decide (score y = score x)) = some x ∧
      ∀ y ∈ xs, p y = true → score y ≤ score x := by
  obtain ⟨hx, before, after, heq, hbefore⟩ := find?_eq_some_iff_append.mp h
  constructor
  · have hfilter : xs.filter (fun y => p y && decide (score y = score x)) =
        (ranked score xs).filter fun y => p y && decide (score y = score x) := by
      have hsame : ∀ y ∈ xs.filter (fun y => p y && decide (score y = score x)),
          score y = score x := by
        intro y hy
        have hmem := (List.mem_filter.mp hy).2
        simp only [Bool.and_eq_true, decide_eq_true_eq] at hmem
        exact hmem.2
      have hpairwise : (xs.filter fun y => p y && decide (score y = score x)).Pairwise
          fun a b => score b ≤ score a :=
        pairwise_of_forall_mem_list fun a ha b hb => (hsame b hb).trans (hsame a ha).symm |>.le
      have hsublist := (sublist_insertionSort hpairwise filter_sublist).filter
        fun y => p y && decide (score y = score x)
      rw [filter_filter] at hsublist
      simp only [Bool.and_self] at hsublist
      apply hsublist.eq_of_length
      exact ((ranked_perm score xs).symm.filter _).length_eq
    have hnone : before.find? (fun y => p y && decide (score y = score x)) = none := by
      refine find?_eq_none.mpr fun y hy => ?_
      have hnot := hbefore y hy
      simp only [Bool.not_eq_true'] at hnot
      simp [hnot]
    rw [← head?_filter, hfilter, head?_filter, heq, find?_append, hnone]
    simp [hx]
  · intro y hy hpy
    have hmem := (mem_ranked score xs).mpr hy
    have hpairwise := pairwise_ranked score xs
    rw [heq, mem_append] at hmem
    rw [heq, pairwise_append] at hpairwise
    rcases hmem with hmem | hmem
    · have hnot := hbefore y hmem
      simp [hpy] at hnot
    · rcases mem_cons.mp hmem with rfl | hmem
      · exact le_rfl
      · exact (pairwise_cons.mp hpairwise.2.1).1 y hmem

theorem length_top : (top score k xs).length = min k xs.length := by
  rw [top, length_take, (ranked_perm score xs).length_eq]

theorem pairwise_top : (top score k xs).Pairwise fun a b => score b ≤ score a :=
  (pairwise_ranked score xs).sublist (take_sublist k _)

variable {score k xs}

theorem mem_of_mem_top (h : x ∈ top score k xs) : x ∈ xs :=
  (mem_ranked score xs).mp (mem_of_mem_take h)

theorem mem_top_of_lt (hx : x ∈ xs) (hy : y ∈ top score k xs)
    (hlt : score y < score x) : x ∈ top score k xs := by
  have hranked := pairwise_ranked score xs
  rw [← take_append_drop k (ranked score xs), pairwise_append] at hranked
  have hmem := (mem_ranked score xs).mpr hx
  rw [← take_append_drop k (ranked score xs), mem_append] at hmem
  rcases hmem with hmem | hmem
  · exact hmem
  · exact absurd (hranked.2.2 y hy x hmem) (not_le.mpr hlt)

theorem top_perm_of_length_le (h : xs.length ≤ k) : (top score k xs).Perm xs := by
  rw [top, take_of_length_le]
  · exact ranked_perm score xs
  · rwa [(ranked_perm score xs).length_eq]

end Agent33.Library.Ranking

/-!
## The highest candidate that meets a condition

Candidates are listed from the highest on, so that the first one that meets a
condition is the highest one that does. Conditions are intervals: what lies
between two values that meet a condition meets it too. Then, of the values that
a family of conditions selects, the lowest one meets all the conditions as soon
as some candidate does.
-/

namespace Agent33.Library

variable {α : Type*} [LinearOrder α] {candidates : List α} {p q : α → Bool} {u v w : α}

/-- What lies between two values that meet the condition meets it. -/
def IsInterval (p : α → Bool) : Prop := Set.OrdConnected {v | p v = true}

theorem IsInterval.between (h : IsInterval p) (hu : p u) (hw : p w) (huv : u ≤ v) (hvw : v ≤ w) :
    p v :=
  Set.OrdConnected.out h hu hw ⟨huv, hvw⟩

theorem IsInterval.and (hp : IsInterval p) (hq : IsInterval q) :
    IsInterval fun v => p v && q v := by
  have hinter : {v | (p v && q v) = true} = {v | p v = true} ∩ {v | q v = true} := by
    ext v
    simp
  unfold IsInterval
  rw [hinter]
  exact Set.OrdConnected.inter hp hq

theorem isInterval_true : IsInterval fun _ : α => true := by
  unfold IsInterval
  simpa using Set.ordConnected_univ

section

variable (hsorted : candidates.SortedGE)
include hsorted

theorem le_of_find? (h : candidates.find? p = some v)
    (hw : w ∈ candidates) (hpw : p w) : w ≤ v := by
  induction candidates with
  | nil => simp at hw
  | cons first rest ih =>
    have hfirst := List.pairwise_cons.mp hsorted.pairwise
    cases hp : p first with
    | true =>
      rw [List.find?_cons_of_pos hp, Option.some.injEq] at h
      subst h
      cases List.mem_cons.mp hw with
      | inl heq => exact heq.le
      | inr hrest => exact hfirst.1 w hrest
    | false =>
      rw [List.find?_cons_of_neg (by simp [hp])] at h
      cases List.mem_cons.mp hw with
      | inl heq => simp [heq ▸ hpw] at hp
      | inr hrest => exact ih hfirst.2.sortedGE h hrest

theorem exists_find? (hw : w ∈ candidates) (hpw : p w) :
    ∃ v, candidates.find? p = some v ∧ w ≤ v := by
  cases h : candidates.find? p with
  | none => simp [List.find?_eq_none.mp h w hw] at hpw
  | some v => exact ⟨v, rfl, le_of_find? hsorted h hw hpw⟩

theorem find?_agree (hv : candidates.find? p = some v)
    (hw : candidates.find? q = some w) (hqv : q v) (hpw : p w) : v = w := by
  apply le_antisymm
  · exact le_of_find? hsorted hw (List.mem_of_find?_eq_some hv) hqv
  · exact le_of_find? hsorted hv (List.mem_of_find?_eq_some hw) hpw

theorem exists_lowest_find?
    (hne : conditions ≠ []) (hu : u ∈ candidates) (hall : ∀ p ∈ conditions, p u) :
    ∃ p ∈ conditions, ∃ v, candidates.find? p = some v ∧
      ∀ q ∈ conditions, ∃ w, candidates.find? q = some w ∧ v ≤ w := by
  induction conditions with
  | nil => exact absurd rfl hne
  | cons p rest ih =>
    obtain ⟨v, hv, -⟩ := exists_find? hsorted hu (hall p List.mem_cons_self)
    by_cases hrest : rest = []
    · subst hrest
      exact ⟨p, List.mem_cons_self, v, hv, by simpa using ⟨v, hv, le_rfl⟩⟩
    obtain ⟨q, hq, w, hw, hlowest⟩ := ih hrest fun q hq => hall q (List.mem_cons_of_mem p hq)
    by_cases hvw : v ≤ w
    · refine ⟨p, List.mem_cons_self, v, hv, fun r hr => ?_⟩
      cases List.mem_cons.mp hr with
      | inl heq => exact ⟨v, heq ▸ hv, le_rfl⟩
      | inr hr =>
        obtain ⟨x, hx, hwx⟩ := hlowest r hr
        exact ⟨x, hx, hvw.trans hwx⟩
    · refine ⟨q, List.mem_cons_of_mem p hq, w, hw, fun r hr => ?_⟩
      cases List.mem_cons.mp hr with
      | inl heq => exact ⟨v, heq ▸ hv, (not_le.mp hvw).le⟩
      | inr hr => exact hlowest r hr

theorem exists_find?_common (hne : conditions ≠ []) (hinterval : ∀ p ∈ conditions, IsInterval p)
    (hu : u ∈ candidates) (hall : ∀ p ∈ conditions, p u) :
    ∃ p ∈ conditions, ∃ v, candidates.find? p = some v ∧ ∀ q ∈ conditions, q v := by
  obtain ⟨p, hp, v, hv, hlowest⟩ := exists_lowest_find? hsorted hne hu hall
  refine ⟨p, hp, v, hv, fun q hq => ?_⟩
  obtain ⟨w, hw, hvw⟩ := hlowest q hq
  have huv : u ≤ v := le_of_find? hsorted hv hu (hall p hp)
  exact (hinterval q hq).between (hall q hq) (List.find?_some hw) huv hvw

end

end Agent33.Library
