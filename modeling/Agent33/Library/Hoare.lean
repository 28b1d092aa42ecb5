import Agent33.Library.Text

/-!
# Triples for computations with state and exceptions

A triple says what holds after a computation that starts where its precondition
holds: one postcondition for the value it returns, one for the exception it
raises. A computation keeps a predicate when it leaves it true either way.
-/

namespace Agent33.Library.Hoare

universe u

variable {ε σ τ α β : Type u}

def Triple (P : σ → Prop) (x : EStateM ε σ α) (Q : α → σ → Prop) (E : ε → σ → Prop) : Prop :=
  ∀ s, P s → match x.run s with
    | .ok a s' => Q a s'
    | .error e s' => E e s'

def Keeps (I : σ → Prop) (x : EStateM ε σ α) : Prop := Triple I x (fun _ => I) (fun _ => I)

def zoom (get : σ → τ) (set : τ → σ → σ) (x : EStateM ε τ α) : EStateM ε σ α := fun s =>
  match x.run (get s) with
  | .ok a t => .ok a (set t s)
  | .error e t => .error e (set t s)

theorem zoom_run (get : σ → τ) (set : τ → σ → σ) (x : EStateM ε τ α) (s : σ) :
    (zoom get set x).run s =
      match x.run (get s) with
      | .ok a t => .ok a (set t s)
      | .error e t => .error e (set t s) := rfl

section Lens

variable {get : σ → τ} {set : τ → σ → σ}

theorem zoom_pure (hset : ∀ s, set (get s) s = s) (a : α) :
    zoom get set (pure a : EStateM ε τ α) = pure a := by
  funext s
  change EStateM.Result.ok a (set (get s) s) = .ok a s
  rw [hset]

theorem zoom_throw (hset : ∀ s, set (get s) s = s) (e : ε) :
    zoom get set (throw e : EStateM ε τ α) = throw e := by
  funext s
  change EStateM.Result.error e (set (get s) s) = .error e s
  rw [hset]

theorem zoom_bind (hget : ∀ t s, get (set t s) = t) (hset : ∀ t t' s, set t' (set t s) = set t' s)
    (x : EStateM ε τ α) (f : α → EStateM ε τ β) :
    zoom get set (x >>= f) = zoom get set x >>= fun a => zoom get set (f a) := by
  funext s
  change (zoom get set (x >>= f)).run s = (zoom get set x >>= fun a => zoom get set (f a)).run s
  rw [zoom_run, EStateM.run_bind, EStateM.run_bind, zoom_run]
  cases x.run (get s) with
  | ok a t =>
    simp only [zoom_run, hget]
    cases (f a).run t <;> simp only [hset]
  | error e t => rfl

end Lens

theorem run_bind_ok_iff {x : EStateM ε σ α} {f : α → EStateM ε σ β} {s s'' : σ} {b : β} :
    (x >>= f).run s = .ok b s'' ↔ ∃ a s', x.run s = .ok a s' ∧ (f a).run s' = .ok b s'' := by
  rw [EStateM.run_bind]
  cases x.run s with
  | ok a s' => simp
  | error e s' => simp

theorem run_discard (x : EStateM ε σ α) (s : σ) :
    (discard x).run s = match x.run s with
      | .ok _ s' => .ok ⟨⟩ s'
      | .error e s' => .error e s' := by
  change EStateM.map _ x s = _
  rw [EStateM.map, EStateM.run]
  cases x s <;> rfl

theorem run_tryCatch (x : EStateM ε σ α) (handler : ε → EStateM ε σ α) (s : σ) :
    (tryCatch x handler).run s = match x.run s with
      | .ok a s' => .ok a s'
      | .error e s' => (handler e).run s' := by
  simp only [EStateM.run, tryCatch, tryCatchThe, MonadExceptOf.tryCatch, EStateM.tryCatch]
  cases x s <;> rfl

variable {Q Q' : α → σ → Prop} {R : β → σ → Prop}
  {x : EStateM ε σ α}

theorem Triple.bind (hx : Triple P x Q E) (hf : ∀ a, Triple (Q a) (f a) R E) :
    Triple P (x >>= f) R E := by
  intro s hs
  have h := hx s hs
  rw [EStateM.run_bind]
  cases hrun : x.run s with
  | ok a s' =>
    rw [hrun] at h
    exact hf a s' h
  | error e s' =>
    rw [hrun] at h
    exact h

theorem Triple.discard {Q : σ → Prop} (hx : Triple P x (fun _ => Q) E) :
    Triple P (discard x) (fun _ => Q) E :=
  hx.bind fun _ _ h => h

theorem Triple.tryCatch (hx : Triple P x Q E')
    (hhandler : ∀ e, Triple (E' e) (handler e) Q E) : Triple P (tryCatch x handler) Q E := by
  intro s hs
  have h := hx s hs
  rw [run_tryCatch]
  cases hrun : x.run s with
  | ok a s' =>
    rw [hrun] at h
    exact h
  | error e s' =>
    rw [hrun] at h
    exact hhandler e s' h

theorem Triple.conseq (hx : Triple P x Q E) (hP : ∀ s, P' s → P s) (hQ : ∀ a s, Q a s → Q' a s)
    (hE : ∀ e s, E e s → E' e s) : Triple P' x Q' E' := by
  intro s hs
  have h := hx s (hP s hs)
  cases hrun : x.run s with
  | ok a s' =>
    rw [hrun] at h
    exact hQ a s' h
  | error e s' =>
    rw [hrun] at h
    exact hE e s' h

theorem Triple.pre (hx : Triple P x Q E) (hP : ∀ s, P' s → P s) : Triple P' x Q E :=
  hx.conseq hP (fun _ _ h => h) fun _ _ h => h

theorem Triple.and (hx : Triple P x Q E) (hx' : Triple P' x Q' E') :
    Triple (fun s => P s ∧ P' s) x (fun a s => Q a s ∧ Q' a s) fun e s => E e s ∧ E' e s := by
  intro s hs
  have h := hx s hs.1
  have h' := hx' s hs.2
  cases hrun : x.run s with
  | ok a t => exact ⟨by rwa [hrun] at h, by rwa [hrun] at h'⟩
  | error e t => exact ⟨by rwa [hrun] at h, by rwa [hrun] at h'⟩

theorem Triple.of_fact {p : Prop} (h : p → Triple P x Q E) : Triple (fun s => P s ∧ p) x Q E :=
  fun s hs => h hs.2 s hs.1

theorem triple_pure (h : ∀ s, P s → Q a s) : Triple P (pure a : EStateM ε σ α) Q E := h

theorem triple_throw (h : ∀ s, P s → E e s) :
    Triple P (throw e : EStateM ε σ α) Q E := h

theorem triple_get {Q : σ → σ → Prop} (h : ∀ s, P s → Q s s) :
    Triple P (get : EStateM ε σ σ) Q E := h

theorem triple_true (x : EStateM ε σ α) : Triple P x (fun _ _ => True) fun _ _ => True := by
  intro s _
  cases x.run s <;> trivial

theorem triple_at (h : match x.run s with
      | .ok a s' => Q a s'
      | .error e s' => E e s') : Triple (fun t => t = s) x Q E := by
  rintro _ rfl
  exact h

theorem Triple.get_bind {f : σ → EStateM ε σ β}
    (h : ∀ s, P s → Triple (fun s' => s' = s) (f s) R E) : Triple P (get >>= f) R E :=
  fun s hs => h s hs s rfl

theorem triple_modify {Q : PUnit → σ → Prop} (h : ∀ s, P s → Q ⟨⟩ (g s)) :
    Triple P (modify g : EStateM ε σ PUnit) Q E := h

theorem Triple.zoom {get : σ → τ} {set : τ → σ → σ} {y : EStateM ε τ α}
    (h : ∀ s, P s → match y.run (get s) with
      | .ok a t => Q a (set t s)
      | .error e t => E e (set t s)) : Triple P (zoom get set y) Q E := by
  intro s hs
  have h := h s hs
  rw [zoom_run]
  cases hrun : y.run (get s) with
  | ok a t =>
    rw [hrun] at h
    exact h
  | error e t =>
    rw [hrun] at h
    exact h

theorem Triple.exists_ok (hx : Triple P x Q fun _ _ => False) (hs : P s) :
    ∃ a s', x.run s = .ok a s' ∧ Q a s' := by
  have h := hx s hs
  cases hrun : x.run s with
  | ok a s' =>
    rw [hrun] at h
    exact ⟨a, s', rfl, h⟩
  | error e s' =>
    rw [hrun] at h
    exact h.elim

theorem Keeps.bind (hx : Keeps I x) (hf : ∀ a, Keeps I (f a)) : Keeps I (x >>= f) :=
  Triple.bind hx hf

theorem Keeps.of_ok (hx : Keeps I x) (hs : I s) (hrun : x.run s = .ok a s') : I s' := by
  have h := hx s hs
  rwa [hrun] at h

theorem keeps_pure (a : α) : Keeps I (pure a : EStateM ε σ α) := fun _ h => h

theorem keeps_throw (e : ε) : Keeps I (throw e : EStateM ε σ α) := fun _ h => h

theorem keeps_get : Keeps I (get : EStateM ε σ σ) := fun _ h => h

theorem keeps_modify (h : ∀ s, I s → I (g s)) :
    Keeps I (modify g : EStateM ε σ PUnit) := h

/-- From each state the computation goes to one that the relation allows. -/
def Steps (R : σ → σ → Prop) (x : EStateM ε σ α) : Prop :=
  ∀ s, Triple (fun t => t = s) x (fun _ => R s) fun _ => R s

section Steps

variable {R : σ → σ → Prop}

theorem Steps.keeps (hx : Steps R x) (hI : ∀ s t, I s → R s t → I t) : Keeps I x := by
  intro s hs
  have h := hx s s rfl
  cases hrun : x.run s with
  | ok a t => exact hI s t hs (by rwa [hrun] at h)
  | error e t => exact hI s t hs (by rwa [hrun] at h)

theorem steps_of_keeps (hrefl : ∀ s, R s s) (hx : ∀ s, Keeps (R s) x) : Steps R x :=
  fun s t ht => hx s t (ht ▸ hrefl s)

theorem Steps.bind (htrans : ∀ s t u, R s t → R t u → R s u) (hx : Steps R x)
    (hf : ∀ a, Steps R (f a)) : Steps R (x >>= f) :=
  fun s => (hx s).bind fun a => (hf a).keeps (htrans s)

theorem Steps.tryCatch (htrans : ∀ s t u, R s t → R t u → R s u)
    (hx : Steps R x) (hhandler : ∀ e, Steps R (handler e)) :
    Steps R (MonadExcept.tryCatch x handler) :=
  fun s => (hx s).tryCatch fun e => (hhandler e).keeps (htrans s)

theorem steps_pure (hrefl : ∀ s, R s s) (a : α) : Steps R (pure a : EStateM ε σ α) :=
  fun s _ ht => ht ▸ hrefl s

theorem steps_throw (hrefl : ∀ s, R s s) (e : ε) : Steps R (throw e : EStateM ε σ α) :=
  fun s _ ht => ht ▸ hrefl s

end Steps

end Agent33.Library.Hoare

/-!
## Computations that return

What holds when a computation returns from a given state. A computation that
raises returns nothing, so that the statement is about both at once.
-/

namespace Agent33.Library.Hoare

universe u

variable {ε σ τ α β : Type u}

def Returns (x : EStateM ε σ α) (s : σ) (Q : α → σ → Prop) : Prop :=
  match x.run s with
  | .ok a s' => Q a s'
  | .error _ _ => False

def Total (x : EStateM ε σ α) : Prop := ∀ s, Returns x s fun _ _ => True

variable {x : EStateM ε σ α} {Q Q' : α → σ → Prop}


theorem returns_of_ok (h : x.run s = .ok a s') : Returns x s Q ↔ Q a s' := by
  rw [Returns, h]

theorem not_returns_of_error (h : x.run s = .error e s') : ¬ Returns x s Q := by
  rw [Returns, h]
  exact not_false

theorem returns_iff_exists : Returns x s Q ↔ ∃ a s', x.run s = .ok a s' ∧ Q a s' := by
  rw [Returns]
  cases x.run s with
  | ok a s' => simp
  | error e s' => simp

theorem returns_bind : Returns (x >>= f) s R ↔ Returns x s fun a s' => Returns (f a) s' R := by
  rw [Returns, Returns, EStateM.run_bind]
  cases x.run s with
  | ok a s' => rfl
  | error e s' => rfl

theorem returns_pure {a : α} : Returns (pure a : EStateM ε σ α) s Q ↔ Q a s := Iff.rfl

theorem returns_throw {e : ε} : Returns (throw e : EStateM ε σ α) s Q ↔ False := Iff.rfl

theorem returns_get {Q : σ → σ → Prop} : Returns (get : EStateM ε σ σ) s Q ↔ Q s s := Iff.rfl

theorem returns_zoom {get : σ → τ} {set : τ → σ → σ} {y : EStateM ε τ α} :
    Returns (zoom get set y) s Q ↔ Returns y (get s) fun a t => Q a (set t s) := by
  rw [Returns, Returns, zoom_run]
  cases y.run (get s) with
  | ok a t => rfl
  | error e t => rfl

theorem returns_iff : Returns x s Q ↔
    Returns x s (fun _ _ => True) ∧ ∀ a s', x.run s = .ok a s' → Q a s' := by
  cases hrun : x.run s with
  | ok a s' => simp [returns_of_ok hrun]
  | error e s' => simp [not_returns_of_error hrun]

theorem returns_congr (h : ∀ a s', x.run s = .ok a s' → (Q a s' ↔ Q' a s')) :
    Returns x s Q ↔ Returns x s Q' := by
  rw [returns_iff, returns_iff (Q := Q')]
  refine and_congr_right fun _ => forall_congr' fun a => forall_congr' fun s' => ?_
  exact forall_congr' fun hrun => h a s' hrun

theorem returns_and : Returns x s (fun a s' => Q a s' ∧ Q' a s') ↔
    Returns x s Q ∧ ∀ a s', x.run s = .ok a s' → Q' a s' := by
  cases hrun : x.run s with
  | ok a s' => simp [returns_of_ok hrun]
  | error e s' => simp [not_returns_of_error hrun]

theorem Total.returns_iff (hx : Total x) : Returns x s Q ↔ ∀ a s', x.run s = .ok a s' → Q a s' := by
  rw [Hoare.returns_iff]
  exact and_iff_right (hx s)

theorem total_of_triple {P : σ → Prop} (hx : Triple P x Q fun _ _ => False) (hP : ∀ s, P s) :
    Total x := by
  intro s
  obtain ⟨a, s', hrun, _⟩ := hx.exists_ok (hP s)
  exact returns_iff_exists.mpr ⟨a, s', hrun, trivial⟩

theorem Total.triple (hx : Total x) :
    Triple (fun _ => True) x (fun _ _ => True) fun _ _ => False := by
  intro s _
  exact hx s

theorem Total.bind (hx : Total x) (hf : ∀ a, Total (f a)) : Total (x >>= f) :=
  total_of_triple (hx.triple.bind fun a => (hf a).triple) fun _ => trivial

theorem total_pure (a : α) : Total (pure a : EStateM ε σ α) := fun _ => trivial

theorem total_get : Total (get : EStateM ε σ σ) := fun _ => trivial

theorem total_modify (g : σ → σ) : Total (modify g : EStateM ε σ PUnit) := fun _ => trivial

theorem total_zoom {get : σ → τ} {set : τ → σ → σ} (hy : Total y) :
    Total (zoom get set y) := fun s => returns_zoom.mpr (hy (get s))

theorem returns_bind_of_keeps {I : σ → Prop} (hR : ∀ b s, R b s → I s)
    (hf : ∀ a, Keeps (fun s => ¬ I s) (f a)) : Returns (x >>= f) s R ↔
      Returns x s (fun _ => I) ∧ ∀ a s', x.run s = .ok a s' → Returns (f a) s' R := by
  rw [returns_bind, ← returns_and]
  apply returns_congr
  intro a s' _
  refine ⟨fun h => ⟨?_, h⟩, And.right⟩
  by_contra hI
  obtain ⟨b, s'', hrun, hend⟩ := returns_iff_exists.mp h
  have hspoilt := hf a s' hI
  rw [hrun] at hspoilt
  exact hspoilt (hR b s'' hend)

end Agent33.Library.Hoare
