import Mathlib.Data.List.Basic

/-!
# Questions and answers in a sequence

Some elements of a sequence ask, each for answers under a number of keys, and some
answer under a key. A sequence is paired when each answer belongs to the nearest
asking element before it, and what an element asks is answered right after it.
A sequence is closed when nothing in it answers to what came before it; cutting
off the front of a paired sequence leaves a paired one just when the rest is
closed.
-/

namespace Agent33.Library.Pairing

open List

universe u v

/-- The keys that an element asks for, and the key that it answers under. -/
structure Dialogue (α : Type u) (κ : Type v) where
  asks : α → List κ
  answer : α → Option κ

variable {α : Type u} {κ : Type v} (D : Dialogue α κ)

def Dialogue.answers : List α → List κ
  | [] => []
  | x :: rest =>
    match D.answer x with
    | none => []
    | some k => k :: answers rest

/-- Paired, when the nearest asking element before asks for the keys `opened`. -/
def Dialogue.PairedFrom : List κ → List α → Prop
  | _, [] => True
  | opened, x :: rest =>
    (∀ k, D.answer x = some k → k ∈ opened) ∧ (∀ k ∈ D.asks x, k ∈ D.answers rest) ∧
      PairedFrom (if (D.asks x).isEmpty then opened else D.asks x) rest

def Dialogue.Paired (xs : List α) : Prop := D.PairedFrom [] xs

def Dialogue.Closed : List α → Prop
  | [] => True
  | x :: rest => D.answer x = none ∧ (D.asks x = [] → Closed rest)

def Dialogue.Inert (x : α) : Prop := D.asks x = [] ∧ D.answer x = none

instance decidableClosed [DecidableEq κ] : (xs : List α) → Decidable (D.Closed xs)
  | [] => .isTrue trivial
  | x :: rest =>
    have := decidableClosed rest
    inferInstanceAs (Decidable (D.answer x = none ∧ (D.asks x = [] → D.Closed rest)))

instance decidablePairedFrom [DecidableEq κ] :
    (opened : List κ) → (xs : List α) → Decidable (D.PairedFrom opened xs)
  | _, [] => .isTrue trivial
  | opened, x :: rest =>
    have := decidablePairedFrom (if (D.asks x).isEmpty then opened else D.asks x) rest
    inferInstanceAs (Decidable ((∀ k, D.answer x = some k → k ∈ opened) ∧
      (∀ k ∈ D.asks x, k ∈ D.answers rest) ∧ _))

instance [DecidableEq κ] (xs : List α) : Decidable (D.Paired xs) :=
  decidablePairedFrom D [] xs

variable {D}

theorem answers_append_left (h : k ∈ D.answers xs) : k ∈ D.answers (xs ++ ys) := by
  induction xs with
  | nil => cases h
  | cons x rest ih =>
    rw [Dialogue.answers] at h
    rw [cons_append, Dialogue.answers]
    cases hx : D.answer x with
    | none =>
      rw [hx] at h
      cases h
    | some k' =>
      rw [hx] at h
      rcases mem_cons.mp h with rfl | hk
      · exact mem_cons_self
      · exact mem_cons_of_mem _ (ih hk)

theorem Dialogue.PairedFrom.reopen (h : D.PairedFrom opened xs) (hclosed : D.Closed xs)
    (opened' : List κ) : D.PairedFrom opened' xs := by
  induction xs generalizing opened opened' with
  | nil => trivial
  | cons x rest ih =>
    obtain ⟨-, hasks, hrest⟩ := h
    obtain ⟨hanswer, hclosed⟩ := hclosed
    refine ⟨fun k hk => ?_, hasks, ?_⟩
    · rw [hanswer] at hk
      cases hk
    · cases hx : D.asks x with
      | nil =>
        rw [hx] at hrest
        exact ih hrest (hclosed hx) _
      | cons k ks =>
        rw [hx] at hrest
        exact hrest

theorem Dialogue.Paired.closed (h : D.Paired xs) : D.Closed xs := by
  induction xs with
  | nil => trivial
  | cons x rest ih =>
    obtain ⟨hanswer, -, hrest⟩ := h
    refine ⟨?_, fun hasks => ih ?_⟩
    · cases hx : D.answer x with
      | none => rfl
      | some k => exact absurd (hanswer k hx) not_mem_nil
    · rw [hasks] at hrest
      exact hrest

theorem Dialogue.PairedFrom.rest (h : D.PairedFrom opened (xs ++ ys)) :
    ∃ opened', D.PairedFrom opened' ys := by
  induction xs generalizing opened with
  | nil => exact ⟨opened, h⟩
  | cons x xs ih => exact ih h.2.2

theorem Dialogue.PairedFrom.paired_rest_iff (h : D.PairedFrom opened (xs ++ ys)) :
    D.Paired ys ↔ D.Closed ys := by
  obtain ⟨opened', hrest⟩ := h.rest
  exact ⟨Dialogue.Paired.closed, fun hclosed => hrest.reopen hclosed []⟩

theorem Dialogue.PairedFrom.append (hxs : D.PairedFrom opened xs) (hys : D.Paired ys) :
    D.PairedFrom opened (xs ++ ys) := by
  induction xs generalizing opened with
  | nil => exact Dialogue.PairedFrom.reopen hys hys.closed opened
  | cons x xs ih =>
    obtain ⟨hanswer, hasks, hrest⟩ := hxs
    exact ⟨hanswer, fun k hk => answers_append_left (hasks k hk), ih hrest⟩

theorem pairedFrom_inert_append (h : ∀ x ∈ xs, D.Inert x) (hys : D.PairedFrom opened ys) :
    D.PairedFrom opened (xs ++ ys) := by
  induction xs with
  | nil => exact hys
  | cons x xs ih =>
    obtain ⟨hasks, hanswer⟩ := h x mem_cons_self
    refine ⟨fun k hk => ?_, fun k hk => ?_, ?_⟩
    · rw [hanswer] at hk
      cases hk
    · rw [hasks] at hk
      cases hk
    · rw [hasks]
      exact ih fun y hy => h y (mem_cons_of_mem _ hy)

theorem pairedFrom_of_inert (h : ∀ x ∈ xs, D.Inert x) : D.PairedFrom opened xs := by
  have hnil : D.PairedFrom opened (xs ++ []) := pairedFrom_inert_append h trivial
  rwa [append_nil] at hnil

theorem pairedFrom_append_iff_of_silent (h : ∀ x ∈ xs, D.asks x = []) :
    D.PairedFrom opened (xs ++ ys) ↔ D.PairedFrom opened xs ∧ D.PairedFrom opened ys := by
  induction xs with
  | nil => exact ⟨fun h => ⟨trivial, h⟩, fun h => h.2⟩
  | cons x xs ih =>
    have hx := h x mem_cons_self
    have ih := ih fun y hy => h y (mem_cons_of_mem _ hy)
    simp only [cons_append, Dialogue.PairedFrom, hx, isEmpty_nil, if_true, ih,
      not_mem_nil, false_implies, implies_true, true_and, and_assoc]

theorem Dialogue.PairedFrom.insert (hxs : D.PairedFrom opened xs)
    (h : D.PairedFrom opened (xs ++ ys)) (hx : D.Inert x) :
    D.PairedFrom opened (xs ++ x :: ys) := by
  induction xs generalizing opened with
  | nil =>
    refine ⟨fun k hk => ?_, fun k hk => ?_, ?_⟩
    · rw [hx.2] at hk
      cases hk
    · rw [hx.1] at hk
      cases hk
    · rw [hx.1]
      exact h
  | cons y xs ih =>
    obtain ⟨hanswer, hasks, hrest⟩ := hxs
    exact ⟨hanswer, fun k hk => answers_append_left (hasks k hk), ih hrest h.2.2⟩

theorem answers_filter (h : ∀ x ∈ xs, p x = false → D.Inert x)
    (hk : k ∈ D.answers xs) : k ∈ D.answers (xs.filter p) := by
  induction xs with
  | nil => cases hk
  | cons x xs ih =>
    rw [Dialogue.answers] at hk
    cases hx : D.answer x with
    | none =>
      rw [hx] at hk
      cases hk
    | some k' =>
      have hp : p x = true := by
        cases hp : p x with
        | true => rfl
        | false => exact absurd ((h x mem_cons_self hp).2.symm.trans hx) nofun
      rw [hx] at hk
      rw [filter_cons_of_pos hp, Dialogue.answers, hx]
      rcases mem_cons.mp hk with rfl | hk
      · exact mem_cons_self
      · exact mem_cons_of_mem _ (ih (fun y hy => h y (mem_cons_of_mem _ hy)) hk)

theorem Dialogue.PairedFrom.filter (hxs : D.PairedFrom opened xs)
    (h : ∀ x ∈ xs, p x = false → D.Inert x) : D.PairedFrom opened (xs.filter p) := by
  induction xs generalizing opened with
  | nil => trivial
  | cons x xs ih =>
    obtain ⟨hanswer, hasks, hrest⟩ := hxs
    have htail : ∀ y ∈ xs, p y = false → D.Inert y := fun y hy => h y (mem_cons_of_mem _ hy)
    cases hp : p x with
    | true =>
      rw [filter_cons_of_pos hp]
      exact ⟨hanswer, fun k hk => answers_filter htail (hasks k hk), ih hrest htail⟩
    | false =>
      rw [filter_cons_of_neg (by simp [hp])]
      rw [(h x mem_cons_self hp).1] at hrest
      exact ih hrest htail

theorem closed_filter_iff (h : ∀ x ∈ xs, p x = false → D.Inert x) :
    D.Closed (xs.filter p) ↔ D.Closed xs := by
  induction xs with
  | nil => rfl
  | cons x xs ih =>
    have hrest := ih fun y hy => h y (mem_cons_of_mem _ hy)
    cases hp : p x with
    | true =>
      rw [filter_cons_of_pos hp, Dialogue.Closed, Dialogue.Closed, hrest]
    | false =>
      obtain ⟨hasks, hanswer⟩ := h x mem_cons_self hp
      rw [filter_cons_of_neg (by simp [hp]), hrest, Dialogue.Closed]
      exact ⟨fun hclosed => ⟨hanswer, fun _ => hclosed⟩, fun hclosed => hclosed.2 hasks⟩

theorem closed_append_of_inert (h : ∀ x ∈ xs, D.Inert x) : D.Closed (xs ++ ys) ↔ D.Closed ys := by
  induction xs with
  | nil => rfl
  | cons x xs ih =>
    obtain ⟨hasks, hanswer⟩ := h x mem_cons_self
    rw [cons_append, Dialogue.Closed, ih fun y hy => h y (mem_cons_of_mem _ hy)]
    exact ⟨fun hclosed => hclosed.2 hasks, fun hclosed => ⟨hanswer, fun _ => hclosed⟩⟩

end Agent33.Library.Pairing
