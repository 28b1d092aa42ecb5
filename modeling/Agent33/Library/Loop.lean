import Agent33.Library.Hoare

/-!
# Loops that may stop

A loop over a list that stops after a step when it is in a state in which it goes no
further. Its turns are the items that it comes to, with the states that it finds.
Two loops over the same list that differ in when they stop and in what they do at an item
come to the same if and only if they do not part at a turn.
-/

namespace Agent33.Library.Loop

open List

variable {ι κ σ : Type*}

def loop (stop : σ → Bool) (step : ι → σ → σ) : List ι → σ → σ
  | [], s => s
  | i :: is, s => if stop (step i s) then step i s else loop stop step is (step i s)

def turns (stop : σ → Bool) (step : ι → σ → σ) : List ι → σ → List (ι × σ)
  | [], _ => []
  | i :: is, s => (i, s) :: if stop (step i s) then [] else turns stop step is (step i s)

variable {step step' : ι → σ → σ} {s : σ}

theorem loop_map (f : κ → ι) (is : List κ) (s : σ) :
    loop stop step (is.map f) s = loop stop (fun i => step (f i)) is s := by
  induction is generalizing s with
  | nil => rfl
  | cons i is ih => simp only [map_cons, loop, ih]

theorem turns_map (f : κ → ι) (is : List κ) (s : σ) :
    turns stop step (is.map f) s = (turns stop (fun i => step (f i)) is s).map (Prod.map f id) := by
  induction is generalizing s with
  | nil => rfl
  | cons i is ih =>
    simp only [map_cons, turns, ih]
    split_ifs <;> rfl

variable {I : List ι → σ → Prop}

theorem mem_of_mem_turns (ht : t ∈ turns stop step is s) : t.1 ∈ is := by
  induction is generalizing s with
  | nil => exact absurd ht not_mem_nil
  | cons i is ih =>
    rw [turns, mem_cons] at ht
    rcases ht with rfl | ht
    · exact mem_cons_self
    · split_ifs at ht
      · exact absurd ht not_mem_nil
      · exact mem_cons_of_mem i (ih ht)

theorem stop_of_mem_turns (hs : stop s = false) (ht : t ∈ turns stop step is s) :
    stop t.2 = false := by
  induction is generalizing s with
  | nil => exact absurd ht not_mem_nil
  | cons i is ih =>
    rw [turns, mem_cons] at ht
    rcases ht with rfl | ht
    · exact hs
    · split_ifs at ht with hends
      · exact absurd ht not_mem_nil
      · exact ih (Bool.eq_false_iff.mpr hends) ht

theorem loop_induction {Turn : ι → σ → Prop} {all done : List ι}
    (h : ∀ {done i rest s}, all = done ++ i :: rest → Turn i s → I done s →
      I (done ++ [i]) (step i s))
    (hall : all = done ++ is) (hturns : ∀ t ∈ turns stop step is s, Turn t.1 t.2) (hs : I done s) :
    ∃ done, I done (loop stop step is s) := by
  induction is generalizing done s with
  | nil => exact ⟨done, hs⟩
  | cons i is ih =>
    rw [turns, forall_mem_cons] at hturns
    have hnext := h hall hturns.1 hs
    rw [loop]
    split_ifs with hends
    · exact ⟨_, hnext⟩
    · have hrest := hturns.2
      rw [if_neg hends] at hrest
      refine ih ?_ hrest hnext
      rw [hall, append_assoc]
      rfl

theorem loop_invariant {all done : List ι} (hgo : ∀ {done s}, I done s → stop s = false)
    (h : ∀ {done i rest s}, all = done ++ i :: rest → I done s → I (done ++ [i]) (step i s))
    (hall : all = done ++ is) (hs : I done s) : I all (loop stop step is s) := by
  induction is generalizing done s with
  | nil =>
    rw [hall, append_nil]
    exact hs
  | cons i is ih =>
    have hnext := h hall hs
    rw [loop, hgo hnext, if_neg Bool.false_ne_true]
    exact ih (by rw [hall, append_assoc]; rfl) hnext

theorem loop_append {js : List ι} (h : stop (loop stop step is s) = false) :
    loop stop step (is ++ js) s = loop stop step js (loop stop step is s) := by
  induction is generalizing s with
  | nil => rfl
  | cons i is ih =>
    rw [cons_append, loop, loop]
    rw [loop] at h
    split_ifs at h ⊢ with hends
    · rw [hends] at h
      exact absurd h.symm Bool.false_ne_true
    · exact ih h

theorem loop_simulates {τ : Type*} {Rel : σ → τ → Prop} {stop' : τ → Bool} {step' : ι → τ → τ}
    {t : τ} (hstop : ∀ s t, Rel s t → stop s = stop' t)
    (h : ∀ i ∈ is, ∀ s t, Rel s t → Rel (step i s) (step' i t)) (hst : Rel s t) :
    Rel (loop stop step is s) (loop stop' step' is t) := by
  induction is generalizing s t with
  | nil => exact hst
  | cons i is ih =>
    obtain ⟨hi, his⟩ := forall_mem_cons.mp h
    have hnext := hi s t hst
    rw [loop, loop, hstop _ _ hnext]
    split_ifs
    · exact hnext
    · exact ih his hnext

/-- Two loops come to the same when at every turn of the first the second is still going
and does the same. -/
theorem loop_congr (hstop : ∀ s, stop s = true → stop' s = true)
    (h : ∀ t ∈ turns stop step is s, stop' t.2 = false ∧ step' t.1 t.2 = step t.1 t.2) :
    loop stop' step' is s = loop stop step is s := by
  induction is generalizing s with
  | nil => rfl
  | cons i is ih =>
    rw [turns, forall_mem_cons] at h
    obtain ⟨⟨-, hhere⟩, hrest⟩ := h
    rw [loop, loop, hhere]
    cases hends : stop (step i s) with
    | true => rw [if_pos (hstop _ hends), if_pos rfl]
    | false =>
      rw [hends, if_neg Bool.false_ne_true] at hrest
      rw [if_neg Bool.false_ne_true]
      cases is with
      | nil => exact ite_self _
      | cons j is =>
        have hgoes := (hrest _ mem_cons_self).1
        rw [hgoes, if_neg Bool.false_ne_true]
        exact ih hrest

/-- Two steps are compared by what they put on record, of which every step adds some. From
the states of an invariant they either do the same at an item or part for good. -/
structure Compared (step step' : ι → σ → σ) (Ext : σ → σ → Prop) (I : σ → Prop)
    (Agree : ι → σ → Prop) (all : List ι) : Prop where
  refl : ∀ s, Ext s s
  trans : ∀ {s s' s''}, Ext s s' → Ext s' s'' → Ext s s''
  extends_left : ∀ i s, Ext s (step i s)
  extends_right : ∀ i s, Ext s (step' i s)
  adds : ∀ i s, ¬Ext (step i s) s
  keeps : ∀ {i s}, I s → I (step i s)
  agree : ∀ {i s}, i ∈ all → Agree i s → step' i s = step i s
  part : ∀ {i s s'}, i ∈ all → I s → ¬Agree i s → Ext (step i s) s' → ¬Ext (step' i s) s'

section Compared

variable {Ext : σ → σ → Prop}

section

variable (hrefl : ∀ s, Ext s s) (htrans : ∀ {s s' s''}, Ext s s' → Ext s' s'' → Ext s s'')
  (hstep : ∀ i s, Ext s (step i s))
include hrefl htrans hstep

theorem ext_loop (is : List ι) (s : σ) : Ext s (loop stop step is s) := by
  induction is generalizing s with
  | nil => exact hrefl s
  | cons i is ih =>
    rw [loop]
    split_ifs
    · exact hstep i s
    · exact htrans (hstep i s) (ih _)

theorem ext_loop_cons
    (i : ι) (is : List ι) (s : σ) : Ext (step i s) (loop stop step (i :: is) s) := by
  rw [loop]
  split_ifs
  · exact hrefl _
  · exact ext_loop hrefl htrans hstep is _

end

theorem Compared.agree_of_same {I : σ → Prop} {Agree : ι → σ → Prop} {all : List ι}
    (c : Compared step step' Ext I Agree all) (his : is ⊆ all) (hs : I s) (hgo : stop' s = false)
    (h : Ext (loop stop step is s) (loop stop' step' is s))
    (h' : Ext (loop stop' step' is s) (loop stop step is s)) :
    ∀ t ∈ turns stop step is s, stop' t.2 = false ∧ Agree t.1 t.2 := by
  induction is generalizing s with
  | nil => exact nofun
  | cons i is ih =>
    obtain ⟨hi, his⟩ := cons_subset.mp his
    have hhere : Agree i s := by
      by_contra hnot
      have hfirst : Ext (step i s) (loop stop step (i :: is) s) :=
        ext_loop_cons c.refl c.trans c.extends_left i is s
      have hsecond : Ext (step' i s) (loop stop' step' (i :: is) s) :=
        ext_loop_cons c.refl c.trans c.extends_right i is s
      exact c.part hi hs hnot hfirst (c.trans hsecond h')
    rw [loop, loop, c.agree hi hhere] at h h'
    rw [turns, forall_mem_cons]
    refine ⟨⟨hgo, hhere⟩, ?_⟩
    cases hends : stop (step i s) with
    | true => exact nofun
    | false =>
      rw [hends, if_neg Bool.false_ne_true] at h h'
      rw [if_neg Bool.false_ne_true]
      cases hends' : stop' (step i s) with
      | false =>
        rw [hends', if_neg Bool.false_ne_true] at h h'
        exact ih his (c.keeps hs) hends' h h'
      | true =>
        rw [hends', if_pos rfl] at h
        cases is with
        | nil => exact nofun
        | cons j is =>
          have hmore : Ext (step j (step i s)) (loop stop step (j :: is) (step i s)) :=
            ext_loop_cons c.refl c.trans c.extends_left j is _
          exact absurd (c.trans hmore h) (c.adds j (step i s))

end Compared

end Agent33.Library.Loop

/-!
## Loops whose body ends them

A body that returns nothing is run again. It comes to an end when some number gets
less with each run.
-/

namespace Agent33.Library.Hoare

universe u

variable {ε σ ρ : Type u}

def iterate (body : EStateM ε σ (Option ρ)) : ℕ → EStateM ε σ (Option ρ)
  | 0 => pure none
  | n + 1 => do
    match ← body with
    | some r => pure (some r)
    | none => iterate body n

variable {body : EStateM ε σ (Option ρ)} {I : σ → Prop} {Q : ρ → σ → Prop} {E : ε → σ → Prop}

theorem iterate_run_succ (n : ℕ) (s : σ) :
    (iterate body (n + 1)).run s = match body.run s with
      | .ok (some r) s' => .ok (some r) s'
      | .ok none s' => (iterate body n).run s'
      | .error e s' => .error e s' := by
  rw [iterate, EStateM.run_bind]
  cases body.run s with
  | ok r s' => cases r <;> rfl
  | error e s' => rfl

/-- A run of the body returns, raises, or goes on with less to do. -/
def Advances (measure : σ → ℕ) (I : σ → Prop) (body : EStateM ε σ (Option ρ))
    (Q : ρ → σ → Prop) (E : ε → σ → Prop) : Prop :=
  ∀ s, I s → match body.run s with
    | .ok (some r) s' => Q r s'
    | .ok none s' => I s' ∧ measure s' < measure s
    | .error e s' => E e s'

theorem Advances.iterate {measure : σ → ℕ} (hbody : Advances measure I body Q E) (n : ℕ) :
    Triple (fun s => I s ∧ measure s < n) (iterate body n)
      (fun r s => ∃ a, r = some a ∧ Q a s) E := by
  induction n with
  | zero => exact fun s hs => absurd hs.2 (Nat.not_lt_zero _)
  | succ n ih =>
    intro s hs
    have h := hbody s hs.1
    rw [iterate_run_succ]
    cases hrun : body.run s with
    | error e s' =>
      rw [hrun] at h
      exact h
    | ok r s' =>
      rw [hrun] at h
      cases r with
      | some a => exact ⟨a, rfl, h⟩
      | none => exact ih s' ⟨h.1, by omega⟩

end Agent33.Library.Hoare
