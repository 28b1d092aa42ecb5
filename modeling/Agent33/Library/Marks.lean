import Agent33.Library.Hoare

/-!
# All or nothing

Programs that run one after another until one of them fails, and a mark that some
of them leave on the state. A sequence is all or nothing when it leaves no mark
unless it goes through.
-/

namespace Agent33.Library.Marks

open Hoare List

universe u

variable {ε σ α β : Type u}

def runAll : List (EStateM ε σ PUnit) → EStateM ε σ PUnit
  | [] => pure ⟨⟩
  | x :: xs => do
    x
    runAll xs

def GoesThrough : List (EStateM ε σ PUnit) → σ → Prop
  | [], _ => True
  | x :: xs, s =>
    match x.run s with
    | .ok _ s' => GoesThrough xs s'
    | .error _ _ => False

def AllOrNothing (marked : σ → Prop) (x : EStateM ε σ α) (s : σ) : Prop :=
  match x.run s with
  | .ok _ _ => True
  | .error _ s' => ¬ marked s'

variable {marked : σ → Prop}

theorem runAll_append (xs ys : List (EStateM ε σ PUnit)) :
    runAll (xs ++ ys) = (do runAll xs; runAll ys) := by
  induction xs with
  | nil => rfl
  | cons x xs ih =>
    rw [cons_append, runAll, ih, runAll]
    simp only [bind_assoc]

variable {xs : List (EStateM ε σ PUnit)}

theorem keeps_runAll (hkeeps : ∀ x ∈ xs, Keeps marked x) : Keeps marked (runAll xs) := by
  induction xs with
  | nil => exact triple_pure fun _ => id
  | cons x xs ih =>
    have hrest := ih fun y hy => hkeeps y (mem_cons_of_mem _ hy)
    exact Triple.bind (hkeeps x mem_cons_self) fun _ => hrest

theorem goesThrough_iff {s : σ} : GoesThrough xs s ↔ ∃ s', (runAll xs).run s = .ok ⟨⟩ s' := by
  induction xs generalizing s with
  | nil => exact iff_of_true trivial ⟨s, rfl⟩
  | cons x xs ih =>
    rw [GoesThrough, runAll, EStateM.run_bind]
    cases x.run s with
    | ok _ s' => exact ih
    | error e s' => simp

theorem allOrNothing_of_marked (hkeeps : ∀ x ∈ xs, Keeps marked x) (hs : marked s) :
    AllOrNothing marked (runAll xs) s ↔ GoesThrough xs s := by
  have hmark := keeps_runAll hkeeps s hs
  rw [goesThrough_iff, AllOrNothing]
  cases hrun : (runAll xs).run s with
  | ok _ s' => simp
  | error e s' =>
    rw [hrun] at hmark
    simp only [reduceCtorEq, exists_false, iff_false, not_not]
    exact hmark

variable (marked) [DecidablePred marked]

/-- Until the first mark a program may fail, if it leaves no mark itself. From the
first mark on all programs go through. -/
def StopsInTime : List (EStateM ε σ PUnit) → σ → Prop
  | [], _ => True
  | x :: xs, s =>
    match x.run s with
    | .ok _ s' => if marked s' then GoesThrough xs s' else StopsInTime xs s'
    | .error _ s' => ¬ marked s'

variable {marked}

theorem allOrNothing_runAll_iff (hkeeps : ∀ x ∈ xs, Keeps marked x) {s : σ} :
    AllOrNothing marked (runAll xs) s ↔ StopsInTime marked xs s := by
  induction xs generalizing s with
  | nil => exact iff_of_true trivial trivial
  | cons x xs ih =>
    have hrest : ∀ y ∈ xs, Keeps marked y := fun y hy => hkeeps y (mem_cons_of_mem _ hy)
    rw [StopsInTime, AllOrNothing, runAll, EStateM.run_bind]
    cases x.run s with
    | error e s' => rfl
    | ok _ s' =>
      by_cases hs : marked s'
      · simp only [if_pos hs]
        exact allOrNothing_of_marked hrest hs
      · simp only [if_neg hs]
        exact ih hrest

end Agent33.Library.Marks
