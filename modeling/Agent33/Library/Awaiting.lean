import Agent33.Library.History

/-!
# Tasks that await answers

A task acts on a shared state and awaits answers from outside, what a callback
returns for one. Between two answers it runs undisturbed; while it waits, other
tasks take their turns. Seen from outside, a task is what each of its turns does
and asks next; runs of the tasks and runs of what is seen of them agree.
-/

namespace Agent33.Library

open List

inductive Awaiting (σ Q A α : Type)
  | done (a : α)
  | act (f : σ → σ) (k : σ → Awaiting σ Q A α)
  | ask (q : Q) (k : A → Awaiting σ Q A α)

namespace Awaiting

variable {σ Q A α β ε ι : Type}

def bind : Awaiting σ Q A α → (α → Awaiting σ Q A β) → Awaiting σ Q A β
  | done a, g => g a
  | act f k, g => act f fun s => bind (k s) g
  | ask q k, g => ask q fun a => bind (k a) g

instance : Monad (Awaiting σ Q A) where
  pure := done
  bind := bind

def read : Awaiting σ Q A σ := act id done

def modify (f : σ → σ) : Awaiting σ Q A Unit := act f fun _ => done ()

def await (q : Q) : Awaiting σ Q A A := ask q done

def perform (x : EStateM ε σ α) : ExceptT ε (Awaiting σ Q A) α :=
  ExceptT.mk <| act
    (fun s => match x.run s with
      | .ok _ s' => s'
      | .error _ s' => s')
    fun s => match x.run s with
      | .ok a _ => done (.ok a)
      | .error e _ => done (.error e)

inductive Pause (σ Q A α : Type)
  | ended (a : α)
  | asks (q : Q) (k : A → Awaiting σ Q A α)

def turn : Awaiting σ Q A α → σ → Pause σ Q A α × σ
  | done a, s => (.ended a, s)
  | act f k, s => turn (k s) (f s)
  | ask q k, s => (.asks q k, s)

def alone (answers : Q → A) : Awaiting σ Q A α → σ → α × σ
  | done a, s => (a, s)
  | act f k, s => alone answers (k s) (f s)
  | ask q k, s => alone answers (k (answers q)) s

def Keeps (I : σ → Prop) : Awaiting σ Q A α → Prop
  | done _ => True
  | act f k => ∀ s, I s → I (f s) ∧ Keeps I (k s)
  | ask _ k => ∀ a, Keeps I (k a)

section Keeps

theorem Keeps.bind' (ht : Keeps I t) (hg : ∀ a, Keeps I (g a)) : Keeps I (t.bind g) := by
  induction t with
  | done a => exact hg a
  | act f k ih => exact fun s hs => ⟨(ht s hs).1, ih s (ht s hs).2⟩
  | ask q k ih => exact fun a => ih a (ht a)

theorem Keeps.alone (ht : Keeps I t) (answers : Q → A) (hs : I s) : I (t.alone answers s).2 := by
  induction t generalizing s with
  | done a => exact hs
  | act f k ih => exact ih s (ht s hs).2 (ht s hs).1
  | ask q k ih => exact ih (answers q) (ht (answers q)) hs

theorem keeps_modify (h : ∀ s, I s → I (f s)) : Keeps I (modify f : Awaiting σ Q A Unit) :=
  fun s hs => ⟨h s hs, trivial⟩

theorem keeps_await (q : Q) : Keeps I (await q : Awaiting σ Q A A) := fun _ => trivial

theorem keeps_pure (a : α) : Keeps I (pure a : Awaiting σ Q A α) := trivial

variable {f : α → ExceptT ε (Awaiting σ Q A) β}
  {h : ε → ExceptT ε (Awaiting σ Q A) α}

theorem Keeps.bind (hx : Keeps I x.run) (hf : ∀ a, Keeps I (f a).run) : Keeps I (x >>= f).run := by
  refine Keeps.bind' hx fun r => ?_
  cases r with
  | ok a => exact hf a
  | error e => exact trivial

theorem Keeps.tryCatch (hx : Keeps I x.run) (hh : ∀ e, Keeps I (h e).run) :
    Keeps I (tryCatch x h).run := by
  refine Keeps.bind' hx fun r => ?_
  cases r with
  | ok a => exact trivial
  | error e => exact hh e

theorem keeps_perform (hy : Hoare.Keeps I y) :
    Keeps I (perform y : ExceptT ε (Awaiting σ Q A) α).run := by
  intro s hs
  have h := hy s hs
  cases hrun : y.run s with
  | ok a s' =>
    simp only [hrun] at h ⊢
    exact ⟨h, trivial⟩
  | error e s' =>
    simp only [hrun] at h ⊢
    exact ⟨h, trivial⟩

theorem Keeps.lift (ht : Keeps I t) : Keeps I (ExceptT.lift t : ExceptT ε (Awaiting σ Q A) α).run :=
  Keeps.bind' ht fun _ => trivial

end Keeps

/-- What a turn does: from how it ends and the state it ends in. -/
abbrev Effect (σ Q α : Type) := α ⊕ Q → σ → Prop

/-- The turn that is under way has the effect `T`, and the turn after an answer has the
effect that `R` gives it; `post` is of the result, the state and the effect of the turn that
comes to the end. -/
def wp (R : Q → A → σ → Effect σ Q β) :
    Awaiting σ Q A α → σ → Effect σ Q β → (α → σ → Effect σ Q β → Prop) → Prop
  | done a, s, T, post => post a s T
  | act f k, s, T, post => wp R (k s) (f s) T post
  | ask q k, s, T, post => T (.inr q) s ∧ ∀ a s', wp R (k a) s' (R q a s') post

def Obeys (R : Q → A → σ → Effect σ Q α) (t : Awaiting σ Q A α) (s : σ) (T : Effect σ Q α) : Prop :=
  wp R t s T fun a s T => T (.inl a) s

section Wp

theorem wp_bind {γ : Type} (t : Awaiting σ Q A α) (g : α → Awaiting σ Q A γ)
    (post : γ → σ → Effect σ Q β → Prop) :
    wp R (t >>= g) s T post ↔ wp R t s T fun a s T => wp R (g a) s T post := by
  induction t generalizing s T with
  | done a => exact Iff.rfl
  | act f k ih => exact ih s
  | ask q k ih => exact and_congr_right fun _ => forall_congr' fun a => forall_congr' fun _ => ih a

theorem wp_mono
    (h : wp R t s T post) (hpost : ∀ a s T, post a s T → post' a s T) : wp R t s T post' := by
  induction t generalizing s T with
  | done a => exact hpost a s T h
  | act f k ih => exact ih s h
  | ask q k ih => exact ⟨h.1, fun a s' => ih a (h.2 a s')⟩

theorem wp_congr {t : Awaiting σ Q A α}
    (hpost : ∀ a s T, post a s T ↔ post' a s T) : wp R t s T post ↔ wp R t s T post' :=
  ⟨fun h => wp_mono h fun a s T => (hpost a s T).mp,
    fun h => wp_mono h fun a s T => (hpost a s T).mpr⟩

@[simp] theorem wp_run_pure (a : α) :
    wp R (pure a : ExceptT ε (Awaiting σ Q A) α).run s T post ↔ post (.ok a) s T := Iff.rfl

@[simp] theorem wp_run_bind {γ : Type} (f : α → ExceptT ε (Awaiting σ Q A) γ)
    (post : Except ε γ → σ → Effect σ Q β → Prop) :
    wp R (x >>= f).run s T post ↔
      wp R x.run s T fun r s T =>
        match r with
        | .ok a => wp R (f a).run s T post
        | .error e => post (.error e) s T := by
  refine (wp_bind x.run _ _).trans (wp_congr fun r s T => ?_)
  cases r with
  | ok a => exact Iff.rfl
  | error e => exact Iff.rfl

@[simp] theorem wp_run_tryCatch (h : ε → ExceptT ε (Awaiting σ Q A) α) :
    wp R (tryCatch x h).run s T post ↔
      wp R x.run s T fun r s T =>
        match r with
        | .ok a => post (.ok a) s T
        | .error e => wp R (h e).run s T post := by
  refine (wp_bind x.run _ _).trans (wp_congr fun r s T => ?_)
  cases r with
  | ok a => exact Iff.rfl
  | error e => exact Iff.rfl

@[simp] theorem wp_run_mk (t : Awaiting σ Q A (Except ε α)) :
    wp R (ExceptT.mk t).run s T post ↔ wp R t s T post := Iff.rfl

@[simp] theorem wp_run_read {post : Except ε σ → σ → Effect σ Q β → Prop} :
    wp R (ExceptT.lift read : ExceptT ε (Awaiting σ Q A) σ).run s T post ↔ post (.ok s) s T :=
  Iff.rfl

@[simp] theorem wp_run_modify (f : σ → σ) {post : Except ε Unit → σ → Effect σ Q β → Prop} :
    wp R (ExceptT.lift (modify f) : ExceptT ε (Awaiting σ Q A) Unit).run s T post ↔
      post (.ok ()) (f s) T :=
  Iff.rfl

@[simp] theorem wp_run_await (q : Q) {post : Except ε A → σ → Effect σ Q β → Prop} :
    wp R (ExceptT.lift (await q) : ExceptT ε (Awaiting σ Q A) A).run s T post ↔
      T (.inr q) s ∧ ∀ a s', post (.ok a) s' (R q a s') :=
  Iff.rfl

@[simp] theorem wp_run_perform (y : EStateM ε σ α) :
    wp R (perform y : ExceptT ε (Awaiting σ Q A) α).run s T post ↔
      match y.run s with
      | .ok a s' => post (.ok a) s' T
      | .error e s' => post (.error e) s' T := by
  change wp R (act _ _) s T post ↔ _
  rw [wp]
  cases y.run s <;> exact Iff.rfl

@[simp] theorem wp_pure (a : α) {post : α → σ → Effect σ Q β → Prop} :
    wp R (pure a : Awaiting σ Q A α) s T post ↔ post a s T := Iff.rfl

@[simp] theorem wp_await (q : Q) {post : A → σ → Effect σ Q β → Prop} :
    wp R (await q : Awaiting σ Q A A) s T post ↔ T (.inr q) s ∧ ∀ a s', post a s' (R q a s') :=
  Iff.rfl

end Wp

theorem Obeys.turn {R : Q → A → σ → Effect σ Q α} {T : Effect σ Q α} (h : Obeys R t s T) :
    match t.turn s with
    | (.ended a, s') => T (.inl a) s'
    | (.asks q k, s') => T (.inr q) s' ∧ ∀ a s'', Obeys R (k a) s'' (R q a s'') := by
  induction t generalizing s with
  | done a => exact h
  | act f k ih => exact ih s h
  | ask q k => exact h

structure Waiting (ι σ Q A α : Type) where
  task : ι
  question : Q
  rest : A → Awaiting σ Q A α

/-- The shared state, the tasks that wait, and the results of those that have ended. -/
structure Config (ι σ Q A α : Type) where
  shared : σ
  waiting : List (Waiting ι σ Q A α) := []
  ended : List (ι × α) := []

inductive Choice (ι A : Type)
  | start (i : ι)
  | answer (n : ℕ) (a : A)

def Config.settle (c : Config ι σ Q A α) (i : ι) : Pause σ Q A α × σ → Config ι σ Q A α
  | (.ended a, s) => { c with shared := s, ended := c.ended ++ [(i, a)] }
  | (.asks q k, s) => { c with shared := s, waiting := c.waiting ++ [⟨i, q, k⟩] }

def Config.next (program : ι → Awaiting σ Q A α) (c : Config ι σ Q A α) :
    Choice ι A → Config ι σ Q A α
  | .start i => c.settle i ((program i).turn c.shared)
  | .answer n a =>
    match c.waiting[n]? with
    | none => c
    | some w => { c with waiting := c.waiting.eraseIdx n }.settle w.task ((w.rest a).turn c.shared)

section Kept

variable {I : σ → Prop} {c : Config ι σ Q A α}

/-- The invariant holds, and what the waiting tasks still do keeps it. -/
structure Config.Kept (I : σ → Prop) (c : Config ι σ Q A α) : Prop where
  shared : I c.shared
  waiting : ∀ w ∈ c.waiting, ∀ a, Keeps I (w.rest a)

theorem Keeps.turn (ht : Keeps I t) (hs : I s) :
    I (t.turn s).2 ∧ ∀ q k, (t.turn s).1 = .asks q k → ∀ a, Keeps I (k a) := by
  induction t generalizing s with
  | done a => exact ⟨hs, nofun⟩
  | act f k ih => exact ih s (ht s hs).2 (ht s hs).1
  | ask q k =>
    refine ⟨hs, ?_⟩
    rintro _ _ ⟨⟩
    exact ht

theorem Config.Kept.settle {i : ι} (hc : c.Kept I) (ht : Keeps I t) :
    (c.settle i (t.turn c.shared)).Kept I := by
  obtain ⟨hs, hrest⟩ := ht.turn hc.shared
  cases hturn : t.turn c.shared with
  | mk pause s' =>
    rw [hturn] at hs hrest
    cases pause with
    | ended a => exact ⟨hs, hc.waiting⟩
    | asks q k =>
      refine ⟨hs, fun w hw => ?_⟩
      rcases mem_append.mp hw with hw | hw
      · exact hc.waiting w hw
      · obtain rfl := mem_singleton.mp hw
        exact hrest q k rfl

theorem Config.Kept.run (hprogram : ∀ i, Keeps I (program i)) (hc : c.Kept I)
    (choices : List (Choice ι A)) : (choices.foldl (Config.next program) c).Kept I := by
  induction choices generalizing c with
  | nil => exact hc
  | cons choice choices ih =>
    refine ih ?_
    cases choice with
    | start i => exact hc.settle (hprogram i)
    | answer n a =>
      rw [next]
      cases hw : c.waiting[n]? with
      | none => exact hc
      | some w =>
        refine settle ⟨hc.shared, fun v hv => hc.waiting v (mem_of_mem_eraseIdx hv)⟩ ?_
        exact hc.waiting w (mem_of_getElem? hw) a

end Kept

section Many

variable (R : ι → Q → A → σ → Effect σ Q α)

/-- What the waiting tasks still do has the effects that are given for it. -/
def Config.Obedient (c : Config ι σ Q A α) : Prop :=
  ∀ w ∈ c.waiting, ∀ a s, Obeys (R w.task) (w.rest a) s (R w.task w.question a s)

def Config.asked (c : Config ι σ Q A α) : List (ι × Q) :=
  c.waiting.map fun w => (w.task, w.question)

/-- What a turn that ends so adds to the questions and the results. -/
structure Config.Adds (c : Config ι σ Q A α) (i : ι) (outcome : α ⊕ Q) (c' : Config ι σ Q A α) :
    Prop where
  asked : c'.asked = c.asked ++ (outcome.getRight?.map fun q => (i, q)).toList
  ended : c'.ended = c.ended ++ (outcome.getLeft?.map fun a => (i, a)).toList

variable {R} {c : Config ι σ Q A α}

theorem Config.settle_spec {T : Effect σ Q α}
    (hc : c.Obedient R) (ht : Obeys (R i) t c.shared T) :
    (c.settle i (t.turn c.shared)).Obedient R ∧
      ∃ outcome, T outcome (c.settle i (t.turn c.shared)).shared ∧
        c.Adds i outcome (c.settle i (t.turn c.shared)) := by
  have h := ht.turn
  cases hturn : t.turn c.shared with
  | mk pause s' =>
    rw [hturn] at h
    cases pause with
    | ended a =>
      exact ⟨hc, .inl a, h, ⟨by simp [settle, asked], by simp [settle]⟩⟩
    | asks q k =>
      refine ⟨fun w hw => ?_, .inr q, h.1, ⟨by simp [settle, asked], by simp [settle]⟩⟩
      rcases mem_append.mp hw with hw | hw
      · exact hc w hw
      · obtain rfl := mem_singleton.mp hw
        exact h.2

variable (program : ι → Awaiting σ Q A α)

theorem Config.next_start {T : Effect σ Q α} (hc : c.Obedient R)
    (ht : Obeys (R i) (program i) c.shared T) :
    (c.next program (.start i)).Obedient R ∧
      ∃ outcome, T outcome (c.next program (.start i)).shared ∧
        c.Adds i outcome (c.next program (.start i)) :=
  settle_spec hc ht

theorem Config.next_answer (a : A) (hc : c.Obedient R)
    (hw : c.waiting[n]? = some w) :
    (c.next program (.answer n a)).Obedient R ∧
      ∃ outcome, R w.task w.question a c.shared outcome (c.next program (.answer n a)).shared ∧
        Adds { c with waiting := c.waiting.eraseIdx n } w.task outcome
          (c.next program (.answer n a)) := by
  rw [next, hw]
  refine settle_spec (c := { c with waiting := c.waiting.eraseIdx n })
    (fun v hv => hc v (mem_of_mem_eraseIdx hv)) ?_
  exact hc w (mem_of_getElem? hw) a c.shared

end Many

end Awaiting

end Agent33.Library
