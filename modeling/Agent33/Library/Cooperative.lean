import Agent33.Library.History

/-!
# Cooperative scheduling

Tasks share a state and one lock. A task that the scheduler picks runs until it
suspends, waits for the lock or ends; a free lock is acquired without
suspension. When no task suspends while it holds the lock, the lock is free
whenever the scheduler picks a task, and a turn is the plain run of its actions.
-/

namespace Agent33.Library.Cooperative

open List

universe u

/-- A task: what it does to the shared state, where it takes and gives back the
lock, and where it suspends. The continuation of an action may read the state
that the action found. -/
inductive Coroutine (σ α : Type u) : Type u
  | done (a : α)
  | act (f : σ → σ) (k : σ → Coroutine σ α)
  | acquire (k : Coroutine σ α)
  | release (k : Coroutine σ α)
  | suspend (k : Coroutine σ α)

inductive Outcome (σ α : Type u) : Type u
  | finished (a : α)
  | waiting (k : Coroutine σ α)

structure World (σ : Type u) where
  shared : σ
  locked : Bool

variable {σ α β : Type u}

namespace Coroutine

def bind : Coroutine σ α → (α → Coroutine σ β) → Coroutine σ β
  | done a, g => g a
  | act f k, g => act f fun s => bind (k s) g
  | acquire k, g => acquire (bind k g)
  | release k, g => release (bind k g)
  | suspend k, g => suspend (bind k g)

instance : Monad (Coroutine σ) where
  pure := done
  bind := bind

def read : Coroutine σ σ := act id done

def modify (f : σ → σ) : Coroutine σ PUnit := act f fun _ => done ⟨⟩

def modifyGet (f : σ → α × σ) : Coroutine σ α := act (fun s => (f s).2) fun s => done (f s).1

def locked (body : Coroutine σ α) : Coroutine σ α :=
  acquire (bind body fun a => release (done a))

def pause : Coroutine σ PUnit := suspend (done ⟨⟩)

def turn : Coroutine σ α → World σ → Outcome σ α × World σ
  | done a, w => (.finished a, w)
  | act f k, w => turn (k w.shared) { w with shared := f w.shared }
  | acquire k, w =>
    if w.locked then (.waiting (acquire k), w) else turn k { w with locked := true }
  | release k, w => turn k { w with locked := false }
  | suspend k, w => (.waiting k, w)

def segment : Coroutine σ α → σ → Outcome σ α × σ
  | done a, s => (.finished a, s)
  | act f k, s => segment (k s) (f s)
  | acquire k, s => segment k s
  | release k, s => segment k s
  | suspend k, s => (.waiting k, s)

/-- The task takes and gives back the lock in turn and never suspends between. -/
def Sections : Bool → Coroutine σ α → Prop
  | held, done _ => held = false
  | held, act _ k => ∀ s, Sections held (k s)
  | held, acquire k => held = false ∧ Sections true k
  | held, release k => held = true ∧ Sections false k
  | held, suspend k => held = false ∧ Sections false k

theorem turn_of_sections (t : Coroutine σ α) (h : Sections held t) (s : σ) :
    t.turn ⟨s, held⟩ = ((t.segment s).1, ⟨(t.segment s).2, false⟩) := by
  induction t generalizing held s with
  | done a =>
    obtain rfl : held = false := h
    rfl
  | act f k ih => exact ih s (h s) (f s)
  | acquire k ih =>
    obtain ⟨rfl, hk⟩ := h
    exact ih hk s
  | release k ih =>
    obtain ⟨rfl, hk⟩ := h
    exact ih hk s
  | suspend k =>
    obtain ⟨rfl, _⟩ := h
    rfl

theorem sections_of_waiting (t : Coroutine σ α) (h : Sections held t)
    (hk : (t.segment s).1 = .waiting k) : Sections false k := by
  induction t generalizing held s with
  | done a => cases hk
  | act f k' ih => exact ih s (h s) hk
  | acquire k' ih => exact ih h.2 hk
  | release k' ih => exact ih h.2 hk
  | suspend k' =>
    cases hk
    exact h.2

@[simp] theorem segment_pure (a : α) (s : σ) :
    segment (pure a : Coroutine σ α) s = (.finished a, s) := rfl

@[simp] theorem segment_read (s : σ) : (read : Coroutine σ σ).segment s = (.finished s, s) := rfl

@[simp] theorem segment_modify (f : σ → σ) (s : σ) :
    (modify f).segment s = (.finished ⟨⟩, f s) := rfl

@[simp] theorem segment_modifyGet (f : σ → α × σ) (s : σ) :
    (modifyGet f).segment s = (.finished (f s).1, (f s).2) := rfl

@[simp] theorem segment_pause (s : σ) :
    (pause : Coroutine σ PUnit).segment s = (.waiting (.done ⟨⟩), s) := rfl

theorem segment_bind' (t : Coroutine σ α) (g : α → Coroutine σ β) (s : σ) :
    (bind t g).segment s =
      match t.segment s with
      | (.finished a, s) => (g a).segment s
      | (.waiting k, s) => (.waiting (bind k g), s) := by
  induction t generalizing s with
  | done a => rfl
  | act f k ih => exact ih s (f s)
  | acquire k ih => exact ih s
  | release k ih => exact ih s
  | suspend k => rfl

@[simp] theorem segment_bind (t : Coroutine σ α) (g : α → Coroutine σ β) (s : σ) :
    (t >>= g).segment s =
      match t.segment s with
      | (.finished a, s) => (g a).segment s
      | (.waiting k, s) => (.waiting (k >>= g), s) :=
  segment_bind' t g s

@[simp] theorem segment_locked (t : Coroutine σ α) (s : σ) :
    (locked t).segment s =
      match t.segment s with
      | (.finished a, s) => (.finished a, s)
      | (.waiting k, s) => (.waiting (bind k fun a => release (done a)), s) := by
  rw [locked, segment, segment_bind']
  cases t.segment s with
  | mk o s' => cases o <;> rfl

theorem sections_bind (ht : Sections held t) (hg : ∀ a, Sections false (g a)) :
    Sections held (bind t g) := by
  induction t generalizing held with
  | done a =>
    obtain rfl : held = false := ht
    exact hg a
  | act f k ih => exact fun s => ih s (ht s)
  | acquire k ih => exact ⟨ht.1, ih ht.2⟩
  | release k ih => exact ⟨ht.1, ih ht.2⟩
  | suspend k ih => exact ⟨ht.1, ih ht.2⟩

/-- The task only acts: it neither suspends nor touches the lock. -/
def Plain : Coroutine σ α → Prop
  | done _ => True
  | act _ k => ∀ s, Plain (k s)
  | acquire _ => False
  | release _ => False
  | suspend _ => False

theorem plain_bind (ht : Plain t) (hg : ∀ a, Plain (g a)) : Plain (t >>= g) := by
  induction t with
  | done a => exact hg a
  | act f k ih => exact fun s => ih s (ht s)
  | acquire k => exact ht.elim
  | release k => exact ht.elim
  | suspend k => exact ht.elim

theorem plain_read : Plain (read : Coroutine σ σ) := fun _ => trivial

theorem plain_modify (f : σ → σ) : Plain (modify f) := fun _ => trivial

theorem plain_modifyGet (f : σ → α × σ) : Plain (modifyGet f) := fun _ => trivial

theorem sections_of_plain (h : Plain t) : Sections false t := by
  induction t with
  | done a => rfl
  | act f k ih => exact fun s => ih s (h s)
  | acquire k => exact h.elim
  | release k => exact h.elim
  | suspend k => exact h.elim

theorem sections_locked (h : Plain t) : Sections false (locked t) := by
  refine ⟨rfl, ?_⟩
  induction t with
  | done a => exact ⟨rfl, rfl⟩
  | act f k ih => exact fun s => ih s (h s)
  | acquire k => exact h.elim
  | release k => exact h.elim
  | suspend k => exact h.elim

/-- A task whose turns all pass without a change of the shared state. -/
def Idle : Coroutine σ α → Prop
  | done _ => True
  | act f k => ∀ s, f s = s ∧ Idle (k s)
  | acquire k => Idle k
  | release k => Idle k
  | suspend k => Idle k

theorem segment_of_idle (t : Coroutine σ α) (h : Idle t) (s : σ) :
    (t.segment s).2 = s ∧ ∀ k, (t.segment s).1 = .waiting k → Idle k := by
  induction t generalizing s with
  | done a => exact ⟨rfl, fun k hk => by cases hk⟩
  | act f k ih =>
    rw [segment, (h s).1]
    exact ih s (h s).2 s
  | acquire k ih => exact ih h s
  | release k ih => exact ih h s
  | suspend k => exact ⟨rfl, fun k' hk => by cases hk; exact h⟩

end Coroutine

structure Config (σ : Type u) where
  world : World σ
  pool : List (Coroutine σ PUnit)

inductive Choice (ι : Type*)
  | start (i : ι)
  | resume (n : ℕ)

variable {ι : Type*} (program : ι → Coroutine σ PUnit)

def starts (choices : List (Choice ι)) : List ι :=
  choices.filterMap fun
    | .start i => some i
    | .resume _ => none

/-- The part of a decision that concerns the shared state, when it starts a task. -/
def startEvent : History.Event (Config σ) (Choice ι) → Option (History.Event σ ι)
  | ⟨before, .start i, after⟩ => some ⟨before.world.shared, i, after.world.shared⟩
  | ⟨_, .resume _, _⟩ => none

def sharedRun (r : History.Run (Config σ) (Choice ι)) : History.Run σ ι :=
  ⟨r.state.world.shared, r.events.filterMap startEvent⟩

def atomic (i : ι) : EStateM PUnit σ PUnit := fun s => .ok ⟨⟩ ((program i).segment s).2

def Config.start (c : Config σ) (t : Coroutine σ PUnit) : Config σ :=
  match t.turn c.world with
  | (.finished _, w) => ⟨w, c.pool⟩
  | (.waiting k, w) => ⟨w, c.pool ++ [k]⟩

def Config.resume (c : Config σ) (n : ℕ) (t : Coroutine σ PUnit) : Config σ :=
  match t.turn c.world with
  | (.finished _, w) => ⟨w, c.pool.eraseIdx n⟩
  | (.waiting k, w) => ⟨w, c.pool.set n k⟩

/-- One decision of the scheduler; resuming a task that is not there is refused. -/
def schedule : Choice ι → EStateM PUnit (Config σ) PUnit
  | .start i => fun c => .ok ⟨⟩ (c.start (program i))
  | .resume n => fun c =>
    match c.pool[n]? with
    | none => .error ⟨⟩ c
    | some t => .ok ⟨⟩ (c.resume n t)

/-- Between turns the lock is free, and the waiting tasks neither hold it nor have
anything left to do to the shared state. -/
structure Quiet (c : Config σ) : Prop where
  unlocked : c.world.locked = false
  pool : ∀ t ∈ c.pool, Coroutine.Sections false t ∧ Coroutine.Idle t

theorem turn_of_quiet (hc : Quiet c) (ht : Coroutine.Sections false t) :
    t.turn c.world = ((t.segment c.world.shared).1, ⟨(t.segment c.world.shared).2, false⟩) := by
  rw [← Coroutine.turn_of_sections t ht, ← hc.unlocked]

theorem Quiet.start (hc : Quiet c) (ht : Coroutine.Sections false t)
    (hidle : ∀ k, (t.segment c.world.shared).1 = .waiting k → Coroutine.Idle k) :
    Quiet (c.start t) ∧ (c.start t).world.shared = (t.segment c.world.shared).2 := by
  rw [Config.start, turn_of_quiet hc ht]
  cases hseg : (t.segment c.world.shared).1 with
  | finished a => exact ⟨⟨rfl, hc.pool⟩, rfl⟩
  | waiting k =>
    refine ⟨⟨rfl, fun t' ht' => ?_⟩, rfl⟩
    rcases mem_append.mp ht' with ht' | ht'
    · exact hc.pool t' ht'
    · obtain rfl := mem_singleton.mp ht'
      exact ⟨Coroutine.sections_of_waiting t ht hseg, hidle t' hseg⟩

theorem Quiet.resume (hc : Quiet c) (ht : c.pool[n]? = some t) :
    Quiet (c.resume n t) ∧ (c.resume n t).world.shared = c.world.shared := by
  obtain ⟨hsec, hidle⟩ := hc.pool t (mem_of_getElem? ht)
  obtain ⟨hsame, hrest⟩ := Coroutine.segment_of_idle t hidle c.world.shared
  rw [Config.resume, turn_of_quiet hc hsec]
  cases hseg : (t.segment c.world.shared).1 with
  | finished a => exact ⟨⟨rfl, fun t' ht' => hc.pool t' (mem_of_mem_eraseIdx ht')⟩, hsame⟩
  | waiting k =>
    refine ⟨⟨rfl, fun t' ht' => ?_⟩, hsame⟩
    rcases mem_or_eq_of_mem_set ht' with ht' | rfl
    · exact hc.pool t' ht'
    · exact ⟨Coroutine.sections_of_waiting t hsec hseg, hrest t' hseg⟩

/-- When no task suspends with the lock and nothing is left to do after a
suspension, every schedule does what its tasks do as atomic operations in the
order in which they start. -/
theorem run_eq_atomic (hsec : ∀ i, Coroutine.Sections false (program i))
    (hidle : ∀ i s k, ((program i).segment s).1 = .waiting k → Coroutine.Idle k)
    (s : σ) (choices : List (Choice ι)) :
    sharedRun (History.run (schedule program) ⟨⟨s, false⟩, []⟩ choices) =
      History.run (atomic program) s (starts choices) := by
  have key : ∀ (choices : List (Choice ι)) (r : History.Run (Config σ) (Choice ι)),
      Quiet r.state → sharedRun (choices.foldl (History.Run.advance (schedule program)) r) =
        (starts choices).foldl (History.Run.advance (atomic program)) (sharedRun r) := by
    intro choices
    induction choices with
    | nil => exact fun r _ => rfl
    | cons choice choices ih =>
      intro r hq
      cases choice with
      | start i =>
        obtain ⟨hq', hs'⟩ := hq.start (hsec i) (hidle i _)
        refine (ih _ hq').trans (congrArg ((starts choices).foldl _) ?_)
        simp [sharedRun, History.Run.advance, schedule, atomic, EStateM.run, startEvent, hs']
      | resume n =>
        cases ht : r.state.pool[n]? with
        | none =>
          have : r.advance (schedule program) (.resume n) = r := by
            simp [History.Run.advance, schedule, EStateM.run, ht]
          rw [foldl_cons, this]
          exact ih _ hq
        | some t =>
          obtain ⟨hq', hs'⟩ := hq.resume ht
          have : r.advance (schedule program) (.resume n) =
              ⟨r.state.resume n t, r.events ++ [⟨r.state, .resume n, r.state.resume n t⟩]⟩ := by
            simp [History.Run.advance, schedule, EStateM.run, ht]
          rw [foldl_cons, this]
          refine (ih _ hq').trans (congrArg ((starts choices).foldl _) ?_)
          simp [sharedRun, startEvent, hs']
  exact key choices _ ⟨rfl, by simp⟩

end Agent33.Library.Cooperative
