import Agent33.Library.Hoare

/-!
# Histories of accepted operations

A component takes operations one after another. It accepts or refuses each of
them, and the history keeps the accepted ones with the states around them.
What happened "since the last time that" is the end of the history.
-/

namespace Agent33.Library.History

open List

universe u

variable {σ ε α : Type u} {ο : Type*}

structure Event (σ : Type u) (ο : Type*) where
  before : σ
  op : ο
  after : σ

structure Run (σ : Type u) (ο : Type*) where
  state : σ
  events : List (Event σ ο)

variable (step : ο → EStateM ε σ α)

def Run.advance (r : Run σ ο) (op : ο) : Run σ ο :=
  match (step op).run r.state with
  | .ok _ s => ⟨s, r.events ++ [⟨r.state, op, s⟩]⟩
  | .error _ s => ⟨s, r.events⟩

def run (s : σ) (ops : List ο) : Run σ ο := ops.foldl (Run.advance step) ⟨s, []⟩

/-- What holds of the empty history and is kept by every operation, accepted or
refused, holds after every sequence of operations. -/
theorem run_induction {P : Run σ ο → Prop} (hinit : P ⟨s, []⟩)
    (hok : ∀ r op a s', P r → (step op).run r.state = .ok a s' →
      P ⟨s', r.events ++ [⟨r.state, op, s'⟩]⟩)
    (herror : ∀ r op e s', P r → (step op).run r.state = .error e s' → P ⟨s', r.events⟩)
    (ops : List ο) : P (run step s ops) := by
  have key : ∀ r : Run σ ο, P r → P (ops.foldl (Run.advance step) r) := by
    induction ops with
    | nil => exact fun r hr => hr
    | cons op ops ih =>
      intro r hr
      refine ih _ ?_
      rw [Run.advance]
      cases hrun : (step op).run r.state with
      | ok a s' => exact hok r op a s' hr hrun
      | error e s' => exact herror r op e s' hr hrun
  exact key _ hinit

def next (s : σ) (op : ο) : σ :=
  match (step op).run s with
  | .ok _ s' => s'
  | .error _ s' => s'

theorem next_of_ok (op : ο) (h : (step op).run s = .ok a s') : next step s op = s' := by
  rw [next, h]

theorem next_of_error (op : ο) (h : (step op).run s = .error e s') : next step s op = s' := by
  rw [next, h]

theorem next_of_triple {P Q : σ → Prop}
    (h : Hoare.Triple P (step op) (fun _ => Q) fun _ => Q) (hs : P s) : Q (next step s op) := by
  have hrun := h s hs
  rw [next]
  cases hr : (step op).run s with
  | ok a s' => simpa [hr] using hrun
  | error e s' => simpa [hr] using hrun

def Along (next : σ → ο → σ) (P : σ → ο → Prop) : σ → List ο → Prop
  | _, [] => True
  | s, op :: ops => P s op ∧ Along next P (next s op) ops

instance decidableAlong {next : σ → ο → σ} {P : σ → ο → Prop} [inst : ∀ s op, Decidable (P s op)] :
    (s : σ) → (ops : List ο) → Decidable (Along next P s ops)
  | _, [] => .isTrue trivial
  | s, op :: ops => @instDecidableAnd _ _ (inst s op) (decidableAlong (next s op) ops)

/-- From one thing to another along a run, with an invariant that the operations keep
where a third thing holds of them. -/
theorem Along.imp {next : σ → ο → σ} {I : σ → Prop} {P Q R : σ → ο → Prop}
    (hkeep : ∀ s op, I s → R s op → P s op → I (next s op))
    (hstep : ∀ s op, I s → R s op → P s op → Q s op) (hI : I s)
    (hR : Along next R s ops) (hP : Along next P s ops) : Along next Q s ops := by
  induction ops generalizing s with
  | nil => trivial
  | cons op ops ih =>
    exact ⟨hstep s op hI hR.1 hP.1, ih (hkeep s op hI hR.1 hP.1) hR.2 hP.2⟩

theorem along_of_invariant {next : σ → ο → σ} {I : σ → Prop} {Q : σ → ο → Prop}
    (hkeep : ∀ s op, I s → I (next s op)) (hstep : ∀ s op, I s → Q s op) (hI : I s)
    (ops : List ο) : Along next Q s ops := by
  induction ops generalizing s with
  | nil => trivial
  | cons op ops ih => exact ⟨hstep s op hI, ih (hkeep s op hI)⟩

theorem along_congr {next : σ → ο → σ} {I : σ → Prop} {P Q : σ → ο → Prop}
    (hkeep : ∀ s op, I s → Q s op → I (next s op)) (hstep : ∀ s op, I s → (P s op ↔ Q s op))
    (hI : I s) (ops : List ο) : Along next P s ops ↔ Along next Q s ops := by
  induction ops generalizing s with
  | nil => exact Iff.rfl
  | cons op ops ih =>
    constructor
    · intro h
      have hQ := (hstep s op hI).mp h.1
      exact ⟨hQ, (ih (hkeep s op hI hQ)).mp h.2⟩
    · intro h
      exact ⟨(hstep s op hI).mpr h.1, (ih (hkeep s op hI h.1)).mpr h.2⟩

/-- If an operation keeps the invariant exactly when something holds of it, then
a run keeps it exactly when that holds at every operation. -/
theorem along_iff_of_step_iff {next : σ → ο → σ} {I : σ → Prop} {Q : σ → ο → Prop}
    (hstep : ∀ s op, I s → (I (next s op) ↔ Q s op)) (hI : I s) (ops : List ο) :
    Along next (fun s op => I (next s op)) s ops ↔ Along next Q s ops := by
  induction ops generalizing s with
  | nil => exact Iff.rfl
  | cons op ops ih =>
    constructor
    · intro h
      exact ⟨(hstep s op hI).mp h.1, (ih h.1).mp h.2⟩
    · intro h
      have hnext := (hstep s op hI).mpr h.1
      exact ⟨hnext, (ih hnext).mpr h.2⟩

/-- The events after the last one that satisfies `p`. -/
def since (p : Event σ ο → Bool) (events : List (Event σ ο)) : List (Event σ ο) :=
  events.rtakeWhile (fun e => !p e)

variable {step}

theorem since_concat_of_not (h : p e = false) : since p (events ++ [e]) = since p events ++ [e] :=
  rtakeWhile_concat_pos _ _ _ (by simp [h])

theorem mem_since_concat (h : p e = false) (he : e' ∈ since p events) :
    e' ∈ since p (events ++ [e]) := by
  rw [since_concat_of_not h]
  exact mem_append_left _ he

theorem last_mem_since (events : List (Event σ ο)) (h : p e = false) :
    e ∈ since p (events ++ [e]) := by
  rw [since_concat_of_not h]
  exact mem_append_right _ (mem_singleton_self e)

theorem split_concat (h : xs ++ [x] = pre ++ y :: post) :
    (xs = pre ∧ x = y ∧ post = []) ∨ ∃ post', post = post' ++ [x] ∧ xs = pre ++ y :: post' := by
  rcases eq_nil_or_concat post with rfl | ⟨post', z, rfl⟩
  · obtain ⟨hxs, hx⟩ := append_inj' h rfl
    exact .inl ⟨hxs, singleton_inj.mp hx, rfl⟩
  · rw [concat_eq_append, ← cons_append, ← append_assoc] at h
    obtain ⟨hxs, hx⟩ := append_inj' h rfl
    obtain rfl := singleton_inj.mp hx
    exact .inr ⟨post', concat_eq_append, hxs⟩

end Agent33.Library.History

/-!
## Simulation of computations

A computation simulates another one when related states lead to the same value, or
to the same exception, and to related states.
-/

namespace Agent33.Library.Hoare

universe u

variable {ε ε' σ τ α β : Type u} {R : σ → τ → Prop} {raise : ε' → ε}

variable (R raise) in
def Simulates (x : EStateM ε σ α) (y : EStateM ε' τ α) : Prop :=
  ∀ s t, R s t → match y.run t with
    | .ok a t' => ∃ s', x.run s = .ok a s' ∧ R s' t'
    | .error e t' => ∃ s', x.run s = .error (raise e) s' ∧ R s' t'

theorem simulates_pure (a : α) : Simulates R raise (pure a) (pure a) := fun s _ h => ⟨s, rfl, h⟩

theorem Simulates.bind (hx : Simulates R raise x y) (hf : ∀ a, Simulates R raise (f a) (g a)) :
    Simulates R raise (x >>= f) (y >>= g) := by
  intro s t hst
  have h := hx s t hst
  rw [EStateM.run_bind]
  cases hrun : y.run t with
  | ok a t' =>
    rw [hrun] at h
    obtain ⟨s', hs', hst'⟩ := h
    rw [EStateM.run_bind, hs']
    exact hf a s' t' hst'
  | error e t' =>
    rw [hrun] at h
    obtain ⟨s', hs', hst'⟩ := h
    rw [EStateM.run_bind, hs']
    exact ⟨s', rfl, hst'⟩

theorem Simulates.map (hx : Simulates R raise x y) (h : α → β) :
    Simulates R raise (h <$> x) (h <$> y) := by
  rw [map_eq_pure_bind, map_eq_pure_bind]
  exact hx.bind fun a => simulates_pure (h a)

theorem simulates_throw (e : ε') :
    Simulates R raise (throw (raise e) : EStateM ε σ α) (throw e : EStateM ε' τ α) :=
  fun s _ h => ⟨s, rfl, h⟩

theorem simulates_get {f : σ → EStateM ε σ β} {g : τ → EStateM ε' τ β}
    (h : ∀ s t, R s t → Simulates R raise (f s) (g t)) :
    Simulates R raise (get >>= f) (get >>= g) := fun s t hst => h s t hst s t hst

theorem simulates_modify {f : σ → σ} {g : τ → τ} (h : ∀ s t, R s t → R (f s) (g t)) :
    Simulates R raise (modify f : EStateM ε σ PUnit) (modify g : EStateM ε' τ PUnit) :=
  fun s t hst => ⟨f s, rfl, h s t hst⟩

end Agent33.Library.Hoare
