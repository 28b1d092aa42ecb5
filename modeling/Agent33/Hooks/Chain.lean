import Agent33.Library.Async
import Mathlib.Data.List.Sort

/-!
# Hook chains

Each enabled hook runs in a link that gives it the context and the next link. A
link times its hook out and goes on without a hook that fails, or aborts the
chain, by the mode of the runner. Contexts are objects that the hooks and the
links change in place. The events of a run say which hooks were executed and
which left an aborted context.
-/

namespace Agent33.Hooks

open Library List Option

structure HookResult where
  hookName : String
  success : Bool
  error : String := ""
  durationMs : ℕ

structure HookContext (μ : Type) where
  eventType : String
  tenantId : String
  payload : μ
  abort : Bool := false
  abortReason : String := ""
  results : List HookResult := []

abbrev ContextRef := ℕ

abbrev Contexts (μ : Type) := ContextRef → HookContext μ

inductive Failure
  | error (message : String)
  | cancelled

inductive Ending
  | returns (ctx : ContextRef)
  | raises (failure : Failure)

/-- How far a hook comes: to its end, or to `call_next` and what it does after that. -/
inductive Reached (μ : Type)
  | ends (ending : Ending)
  | callsNext (ctx : ContextRef) (after : Ending → Async (Contexts μ) Ending)

inductive Event
  | executed (position : ℕ)
  | aborted (position : ℕ)

def Event.position : Event → ℕ
  | .executed position => position
  | .aborted position => position

/-- What a hook does depends on what happened before. A suspension of it takes a
tick of the clock. Only some hooks have the attribute `_enabled`. -/
structure Hook (μ : Type) where
  name : String
  eventType : String
  priority : ℤ := 100
  enabled : Bool := true
  hasEnabledAttr : Bool := true
  tenantId : String := ""
  execute : List Event → ContextRef → Async (Contexts μ) (Reached μ)

structure ChainState (μ : Type) where
  contexts : Contexts μ
  clock : ℕ := 0
  events : List Event := []

variable {μ : Type}

variable (s : ChainState μ) (ctx : ContextRef)

def ChainState.aborted : Bool := (s.contexts ctx).abort

def ChainState.log (s : ChainState μ) (event : Event) : ChainState μ :=
  { s with events := s.events ++ [event] }

def ChainState.noteAbort (s : ChainState μ) (position : ℕ) (ctx : ContextRef) : ChainState μ :=
  if s.aborted ctx then s.log (.aborted position) else s

def ChainState.update (f : HookContext μ → HookContext μ) : ChainState μ :=
  { s with contexts := Function.update s.contexts ctx (f (s.contexts ctx)) }

def ChainState.addResult (result : HookResult) : ChainState μ :=
  s.update ctx fun c => { c with results := c.results ++ [result] }

def ChainState.setAbort (reason : String) : ChainState μ :=
  s.update ctx fun c => { c with abort := true, abortReason := reason }

def expired (timers : List ℕ) (clock : ℕ) : Bool := timers.any fun timer => timer ≤ clock

def drive {α : Type} (timers : List ℕ) :
    Async (Contexts μ) α → ChainState μ → Option α × ChainState μ
  | .done a, s => (some a, s)
  | .act f k, s => drive timers (k s.contexts) { s with contexts := f s.contexts }
  | .suspend k, s =>
    if expired timers s.clock then (none, s) else drive timers k { s with clock := s.clock + 1 }

abbrev Link (μ : Type) := List ℕ → ContextRef → ChainState μ → Option Ending × ChainState μ

def terminal : Link μ := fun _ ctx s => (some (.returns ctx), s)

structure HookChainRunner (μ : Type) where
  hooks : List (Hook μ)
  timeoutMs : ℕ := 500
  failOpen : Bool := true
  sorted : hooks.Pairwise fun h h' => h.priority ≤ h'.priority

namespace HookChainRunner

def init (hooks : List (Hook μ)) (timeoutMs : ℕ := 500) (failOpen : Bool := true) :
    HookChainRunner μ :=
  { hooks := hooks.insertionSort fun h h' => h.priority ≤ h'.priority
    timeoutMs
    failOpen
    sorted := by
      have : Std.Total fun h h' : Hook μ => h.priority ≤ h'.priority :=
        ⟨fun h h' => le_total h.priority h'.priority⟩
      have : IsTrans (Hook μ) fun h h' => h.priority ≤ h'.priority :=
        ⟨fun _ _ _ => le_trans⟩
      exact pairwise_insertionSort _ hooks }

variable (runner : HookChainRunner μ)

/-- The hook up to its end or to its `call_next`. -/
def start (h : Hook μ) (position : ℕ) (timers : List ℕ) (ctx : ContextRef) (s : ChainState μ) :
    Option (Reached μ) × ChainState μ :=
  if runner.timeoutMs = 0 then (none, s.log (.executed position))
  else
    drive ((s.clock + runner.timeoutMs) :: timers) (h.execute s.events ctx)
      (s.log (.executed position))

/-- `h.execute(ctx, next_fn)` under its own timer and those of the callers. -/
def waitFor (h : Hook μ) (position : ℕ) (nextFn : Link μ) (timers : List ℕ) (ctx : ContextRef)
    (s : ChainState μ) : Option Ending × ChainState μ :=
  match runner.start h position timers ctx s with
  | (none, s') => (none, s')
  | (some (.ends ending), s') => (some ending, s')
  | (some (.callsNext ctx' after), s') =>
    match nextFn ((s.clock + runner.timeoutMs) :: timers) ctx' (s'.noteAbort position ctx) with
    | (none, s'') => (none, s'')
    | (some ending, s'') => drive ((s.clock + runner.timeoutMs) :: timers) (after ending) s''

inductive Attempt
  | settled (ending : Option Ending)
  | failed (message : String)

def attempt (h : Hook μ) (position : ℕ) (nextFn : Link μ) (timers : List ℕ) (ctx : ContextRef)
    (s : ChainState μ) : Attempt × ChainState μ :=
  match runner.waitFor h position nextFn timers ctx s with
  | (some (.returns result), s') =>
    (.settled (some (.returns result)), (s'.noteAbort position ctx).addResult result
      { hookName := h.name, success := true, durationMs := s'.clock - s.clock })
  | (some (.raises .cancelled), s') =>
    (.settled (some (.raises .cancelled)), s'.noteAbort position ctx)
  | (some (.raises (.error message)), s') => (.failed message, s'.noteAbort position ctx)
  | (none, s') =>
    (if expired timers s'.clock then .settled none else .failed "", s'.noteAbort position ctx)

def addFailure (h : Hook μ) (start : ℕ) (ctx : ContextRef) (message : String)
    (s : ChainState μ) : ChainState μ :=
  s.addResult ctx
    { hookName := h.name, success := false, error := message, durationMs := s.clock - start }

def link (h : Hook μ) (position : ℕ) (nextFn : Link μ) : Link μ := fun timers ctx s =>
  if s.aborted ctx then (some (.returns ctx), s)
  else
    match runner.attempt h position nextFn timers ctx s with
    | (.settled ending, s') => (ending, s')
    | (.failed message, s') =>
      if runner.failOpen then nextFn timers ctx (addFailure h s.clock ctx message s')
      else
        (some (.returns ctx), ((addFailure h s.clock ctx message s').setAbort ctx
          ("Hook '" ++ h.name ++ "' failed: " ++ message)).log (.aborted position))

def chain : ℕ → List (Hook μ) → Link μ
  | _, [] => terminal
  | position, h :: hooks =>
    if h.enabled then runner.link h position (chain (position + 1) hooks)
    else chain (position + 1) hooks

def run (context : ContextRef) (contexts : Contexts μ) : Option Ending × ChainState μ :=
  runner.chain 0 runner.hooks [] context { contexts }

end HookChainRunner

def Event.Before : Event → Event → Prop
  | .executed i, .executed j => i < j
  | .aborted i, .executed j => j ≤ i
  | _, .aborted _ => True

instance : DecidableRel Event.Before
  | .executed i, .executed j => inferInstanceAs (Decidable (i < j))
  | .aborted i, .executed j => inferInstanceAs (Decidable (j ≤ i))
  | .executed _, .aborted _ => .isTrue trivial
  | .aborted _, .aborted _ => .isTrue trivial

def InOrder (events : List Event) : Prop := events.Pairwise Event.Before

instance (events : List Event) : Decidable (InOrder events) :=
  inferInstanceAs (Decidable (events.Pairwise Event.Before))

def firstEnabled : ℕ → List (Hook μ) → Option ℕ
  | _, [] => none
  | position, h :: hooks => if h.enabled then some position else firstEnabled (position + 1) hooks

def Runs (first : Option ℕ) (s : ChainState μ) (ctx : ContextRef) : Prop :=
  first.isSome ∧ s.aborted ctx = false

namespace HookChainRunner

variable (runner : HookChainRunner μ)

/-- The context that the hook calls `call_next` with, and the state in which it does. -/
def call (h : Hook μ) (position : ℕ) (timers : List ℕ) (ctx : ContextRef) (s : ChainState μ) :
    Option (ContextRef × ChainState μ) :=
  match runner.start h position timers ctx s with
  | (some (.callsNext ctx' _), s') => some (ctx', s')
  | _ => none

/-- A hook that leaves its context aborted does not call further hooks with another one. A hook
that fails open in a context that is not aborted has called no further hook, and has not
left its context aborted in between. -/
structure CarefulHook (first : Option ℕ) (called : Option (ContextRef × ChainState μ))
    (attempt : Attempt × ChainState μ) (ctx : ContextRef) : Prop where
  call : ∀ c ∈ called, Runs first c.2 c.1 → c.2.aborted ctx = false
  recovery : ∀ message, attempt.1 = .failed message → runner.failOpen →
    Runs first attempt.2 ctx → ∀ c ∈ called, c.2.aborted ctx = false ∧ ¬ Runs first c.2 c.1

def Careful : ℕ → List (Hook μ) → List ℕ → ContextRef → ChainState μ → Prop
  | _, [], _, _, _ => True
  | position, h :: hooks, timers, ctx, s =>
    if h.enabled then
      s.aborted ctx = false →
        let called := runner.call h position timers ctx s
        let attempt := runner.attempt h position (runner.chain (position + 1) hooks) timers ctx s
        runner.CarefulHook (firstEnabled (position + 1) hooks) called attempt ctx ∧
          (∀ c ∈ called, Careful (position + 1) hooks ((s.clock + runner.timeoutMs) :: timers) c.1
            (c.2.noteAbort position ctx)) ∧
          ∀ message, attempt.1 = .failed message → runner.failOpen →
            Careful (position + 1) hooks timers ctx (addFailure h s.clock ctx message attempt.2)
    else Careful (position + 1) hooks timers ctx s

end HookChainRunner

theorem before_aborted (e : Event) (i : ℕ) : e.Before (.aborted i) := by
  cases e <;> trivial

theorem executed_before (h : i < e.position) : (Event.executed i).Before e := by
  cases e with
  | executed j => exact h
  | aborted j => trivial

theorem inOrder_concat_aborted {es : List Event} {i : ℕ} :
    InOrder (es ++ [.aborted i]) ↔ InOrder es := by
  simp [InOrder, pairwise_append, before_aborted]

def notes (position : ℕ) (aborted : Bool) : List Event :=
  if aborted then [.aborted position] else []

/-- What the links from the first one on add: it starts with the execution of that one,
if any is executed, and is about it and later ones. -/
structure Adds (first : Option ℕ) (aborted : Bool) (es : List Event) : Prop where
  head : es.head? = if aborted then none else first.map .executed
  later : ∀ f ∈ first, ∀ e ∈ es, f ≤ e.position

section Adds

theorem Adds.exists_mem (h : Adds first a es) (hes : es ≠ []) :
    ∃ f ∈ first, Event.executed f ∈ es := by
  have hhead := h.head
  cases es with
  | nil => exact absurd rfl hes
  | cons e es =>
    cases a with
    | true => exact absurd hhead (by simp)
    | false =>
      obtain ⟨f, hf, rfl⟩ := map_eq_some_iff.mp hhead.symm
      exact ⟨f, hf, mem_cons_self⟩

theorem Adds.lt_position (h : Adds first a es) (hi : ∀ f ∈ first, i < f)
    (he : e ∈ es) : i < e.position := by
  obtain ⟨f, hf, -⟩ := h.exists_mem (ne_nil_of_mem he)
  exact (hi f hf).trans_le (h.later f hf e he)

theorem Adds.eq_nil_iff (h : Adds first a es) : es = [] ↔ ¬ (first.isSome ∧ a = false) := by
  rw [← head?_eq_none_iff, h.head]
  cases a <;> simp

theorem mem_notes {e : Event} : e ∈ notes i b ↔ b = true ∧ e = .aborted i := by
  cases b <;> simp [notes]

theorem inOrder_notes_append {es₀ : List Event} : InOrder (es₀ ++ notes i b) ↔ InOrder es₀ := by
  cases b with
  | false => simp [notes]
  | true => exact inOrder_concat_aborted

theorem Adds.later_hook (h : Adds first a es) (hi : ∀ f ∈ first, i < f) :
    ∀ f ∈ some i, ∀ e ∈ Event.executed i :: (notes i b ++ es) ++ notes i b', f ≤ e.position := by
  intro f hf e he
  obtain rfl := some.inj hf
  simp only [cons_append, mem_cons, mem_append, mem_notes] at he
  rcases he with rfl | (⟨-, rfl⟩ | he) | ⟨-, rfl⟩
  · exact le_rfl
  · exact le_rfl
  · exact (h.lt_position hi he).le
  · exact le_rfl

theorem inOrder_hook (h : Adds first a es) (hi : ∀ f ∈ first, i < f) :
    InOrder (.executed i :: (notes i b ++ es)) ↔ InOrder es ∧ (es ≠ [] → b = false) := by
  have hlater : ∀ e ∈ notes i b ++ es, (Event.executed i).Before e := by
    intro e he
    rcases mem_append.mp he with he | he
    · rw [(mem_notes.mp he).2]
      trivial
    · exact executed_before (h.lt_position hi he)
  rw [InOrder, pairwise_cons, and_iff_right hlater, pairwise_append]
  constructor
  · intro ⟨_, hes, hcross⟩
    refine ⟨hes, fun hne => ?_⟩
    obtain ⟨f, hf, hmem⟩ := h.exists_mem hne
    by_contra hb
    have hle : f ≤ i := hcross (.aborted i) (mem_notes.mpr ⟨by simpa using hb, rfl⟩) _ hmem
    exact absurd (hi f hf) (by omega)
  · intro ⟨hes, hb⟩
    refine ⟨by cases b <;> simp [notes], hes, fun e he e' he' => ?_⟩
    rw [hb (ne_nil_of_mem he')] at he
    exact absurd (mem_notes.mp he).1 (by simp)

theorem inOrder_recovery (h : Adds first a es) (h' : Adds first a' es')
    (hi : ∀ f ∈ first, i < f) :
    InOrder (.executed i :: (notes i b ++ es) ++ notes i b' ++ es') ↔
      InOrder (.executed i :: (notes i b ++ es)) ∧ InOrder es' ∧
        (es' ≠ [] → b = false ∧ b' = false ∧ es = []) := by
  rw [InOrder, pairwise_append]
  rw [show List.Pairwise Event.Before (.executed i :: (notes i b ++ es) ++ notes i b') ↔ _ from
    inOrder_notes_append]
  refine and_congr_right fun _ => and_congr_right fun _ => ?_
  constructor
  · intro hcross hne
    obtain ⟨f, hf, hmem⟩ := h'.exists_mem hne
    have hif := hi f hf
    have hnone : Event.aborted i ∉ .executed i :: (notes i b ++ es) ++ notes i b' := by
      intro hin
      have hle : f ≤ i := hcross _ hin _ hmem
      omega
    refine ⟨?_, ?_, ?_⟩
    · by_contra hb
      exact hnone (by simp [notes, hb])
    · by_contra hb'
      exact hnone (by simp [notes, hb'])
    · by_contra hes
      obtain ⟨f', hf', hmem'⟩ := h.exists_mem hes
      obtain rfl := mem_unique hf hf'
      have hlt : f < f := hcross (.executed f) (by simp [hmem']) _ hmem
      omega
  · intro hes' e he e' he'
    obtain ⟨rfl, rfl, rfl⟩ := hes' (ne_nil_of_mem he')
    obtain rfl : e = .executed i := by simpa [notes] using he
    exact executed_before (h'.lt_position hi he')

end Adds

theorem drive_events {α : Type} (timers : List ℕ) (x : Async (Contexts μ) α) (s : ChainState μ) :
    (drive timers x s).2.events = s.events := by
  induction x generalizing s with
  | done a => rfl
  | act f k ih => exact ih s.contexts _
  | suspend k ih =>
    rw [drive]
    split_ifs
    · rfl
    · exact ih _

theorem ChainState.noteAbort_events (s : ChainState μ) (i : ℕ) (ctx : ContextRef) :
    (s.noteAbort i ctx).events = s.events ++ notes i (s.aborted ctx) := by
  rw [noteAbort, notes]
  split_ifs <;> simp [log]

@[simp] theorem ChainState.noteAbort_aborted (s : ChainState μ) (i : ℕ) (ctx ref : ContextRef) :
    (s.noteAbort i ctx).aborted ref = s.aborted ref := by
  rw [noteAbort]
  split_ifs <;> rfl

@[simp] theorem ChainState.addResult_events (s : ChainState μ) (ctx : ContextRef)
    (r : HookResult) : (s.addResult ctx r).events = s.events := rfl

@[simp] theorem ChainState.addResult_aborted (s : ChainState μ) (ctx ref : ContextRef)
    (r : HookResult) : (s.addResult ctx r).aborted ref = s.aborted ref := by
  by_cases h : ref = ctx <;> simp [addResult, update, aborted, Function.update, h]

namespace HookChainRunner

variable (runner : HookChainRunner μ) (h : Hook μ) {nextFn : Link μ} (timers : List ℕ)
  (ctx : ContextRef) (s : ChainState μ)

theorem start_events (i : ℕ) :
    (runner.start h i timers ctx s).2.events = s.events ++ [.executed i] := by
  rw [start]
  split_ifs
  · rfl
  · exact drive_events _ _ _

variable {runner h timers ctx s}

theorem waitFor_events_of_none (hcall : runner.call h i timers ctx s = none) :
    (runner.waitFor h i nextFn timers ctx s).2.events = s.events ++ [.executed i] := by
  rw [← runner.start_events h timers ctx s i]
  rw [call] at hcall
  rw [waitFor]
  generalize runner.start h i timers ctx s = r at hcall ⊢
  rcases r with ⟨_ | reached, s'⟩
  · rfl
  · cases reached with
    | ends ending => rfl
    | callsNext ctx' after => exact absurd hcall (some_ne_none _)

theorem waitFor_events_of_some (nextFn : Link μ) (hcall : runner.call h i timers ctx s = some c) :
    c.2.events = s.events ++ [.executed i] ∧
      (runner.waitFor h i nextFn timers ctx s).2.events =
        (nextFn ((s.clock + runner.timeoutMs) :: timers) c.1 (c.2.noteAbort i ctx)).2.events := by
  rw [← runner.start_events h timers ctx s i]
  rw [call] at hcall
  rw [waitFor]
  generalize runner.start h i timers ctx s = r at hcall ⊢
  rcases r with ⟨_ | reached, s'⟩
  · exact absurd hcall.symm (some_ne_none c)
  · cases reached with
    | ends ending => exact absurd hcall.symm (some_ne_none c)
    | callsNext ctx' after =>
      obtain rfl := some.inj hcall
      refine ⟨rfl, ?_⟩
      dsimp only
      rcases nextFn ((s.clock + runner.timeoutMs) :: timers) ctx' (s'.noteAbort i ctx) with
        ⟨_ | ending, s''⟩
      · rfl
      · exact drive_events _ _ _

variable (runner h timers ctx s)

theorem attempt_events (i : ℕ) (nextFn : Link μ) :
    (runner.attempt h i nextFn timers ctx s).2.events =
      (runner.waitFor h i nextFn timers ctx s).2.events ++
        notes i ((runner.attempt h i nextFn timers ctx s).2.aborted ctx) := by
  rw [attempt]
  rcases runner.waitFor h i nextFn timers ctx s with ⟨_ | _ | _ | _, s'⟩
  all_goals simp [ChainState.noteAbort_events]

def NextAdds (first : Option ℕ) (nextFn : Link μ)
    (careful : List ℕ → ContextRef → ChainState μ → Prop) : Prop :=
  ∀ timers ctx s, ∃ es, (nextFn timers ctx s).2.events = s.events ++ es ∧
    Adds first (s.aborted ctx) es ∧ (InOrder es ↔ careful timers ctx s)

theorem waitFor_adds (hnext : NextAdds first nextFn careful) (hi : ∀ f ∈ first, i < f) :
    ∃ a b es, (runner.waitFor h i nextFn timers ctx s).2.events =
        s.events ++ .executed i :: (notes i b ++ es) ∧ Adds first a es ∧
      (InOrder (.executed i :: (notes i b ++ es)) ↔ ∀ c ∈ runner.call h i timers ctx s,
        (Runs first c.2 c.1 → c.2.aborted ctx = false) ∧
          careful ((s.clock + runner.timeoutMs) :: timers) c.1 (c.2.noteAbort i ctx)) ∧
      (b = false ∧ es = [] ↔ ∀ c ∈ runner.call h i timers ctx s,
        c.2.aborted ctx = false ∧ ¬ Runs first c.2 c.1) := by
  cases hcall : runner.call h i timers ctx s with
  | none =>
    refine ⟨true, false, [], ?_, ⟨rfl, by simp⟩, by simp [notes, InOrder], by simp⟩
    rw [waitFor_events_of_none hcall]
    rfl
  | some c =>
    obtain ⟨hevents, hwait⟩ := waitFor_events_of_some nextFn hcall
    obtain ⟨es, hes, hadds, hcareful⟩ :=
      hnext ((s.clock + runner.timeoutMs) :: timers) c.1 (c.2.noteAbort i ctx)
    rw [ChainState.noteAbort_aborted] at hadds
    refine ⟨_, c.2.aborted ctx, es, ?_, hadds, ?_, ?_⟩
    · rw [hwait, hes, ChainState.noteAbort_events, hevents]
      simp
    · rw [inOrder_hook hadds hi, hcareful, Ne, hadds.eq_nil_iff, not_not]
      simp [Runs, and_comm]
    · rw [hadds.eq_nil_iff]
      simp [Runs]

theorem attempt_adds (hnext : NextAdds first nextFn careful) (hi : ∀ f ∈ first, i < f) :
    ∃ a b es, (runner.attempt h i nextFn timers ctx s).2.events =
        s.events ++ (.executed i :: (notes i b ++ es) ++
          notes i ((runner.attempt h i nextFn timers ctx s).2.aborted ctx)) ∧ Adds first a es ∧
      ∀ p, runner.CarefulHook first (runner.call h i timers ctx s)
          (runner.attempt h i nextFn timers ctx s) ctx ∧
          (∀ c ∈ runner.call h i timers ctx s,
            careful ((s.clock + runner.timeoutMs) :: timers) c.1 (c.2.noteAbort i ctx)) ∧ p ↔
        InOrder (.executed i :: (notes i b ++ es)) ∧ p ∧
          ∀ message, (runner.attempt h i nextFn timers ctx s).1 = .failed message →
            runner.failOpen → Runs first (runner.attempt h i nextFn timers ctx s).2 ctx →
            b = false ∧ es = [] := by
  obtain ⟨a, b, es, hwait, hadds, horder, hquiet⟩ := waitFor_adds runner h timers ctx s hnext hi
  refine ⟨a, b, es, ?_, hadds, fun p => ?_⟩
  · rw [attempt_events, hwait, append_assoc]
  · rw [horder, hquiet]
    constructor
    · intro ⟨hhook, hnext, hp⟩
      exact ⟨fun c hc => ⟨hhook.call c hc, hnext c hc⟩, hp, hhook.recovery⟩
    · intro ⟨hcall, hp, hrecovery⟩
      exact ⟨⟨fun c hc => (hcall c hc).1, hrecovery⟩, fun c hc => (hcall c hc).2, hp⟩

variable {runner h timers ctx s}

theorem link_of_settled (hs : s.aborted ctx = false)
    (hsettled : (runner.attempt h i nextFn timers ctx s).1 = .settled ending) :
    (runner.link h i nextFn timers ctx s).2 = (runner.attempt h i nextFn timers ctx s).2 := by
  rw [link, hs]
  rcases hattempt : runner.attempt h i nextFn timers ctx s with ⟨_ | _, s'⟩
  · rfl
  · rw [hattempt] at hsettled
    cases hsettled

theorem link_of_failed (hs : s.aborted ctx = false)
    (hfailed : (runner.attempt h i nextFn timers ctx s).1 = .failed message) :
    (runner.link h i nextFn timers ctx s).2.events =
      if runner.failOpen then
        (nextFn timers ctx (addFailure h s.clock ctx message
          (runner.attempt h i nextFn timers ctx s).2)).2.events
      else
        (runner.attempt h i nextFn timers ctx s).2.events ++ [.aborted i] := by
  rw [link, hs]
  rcases hattempt : runner.attempt h i nextFn timers ctx s with ⟨_ | m, s'⟩
  · rw [hattempt] at hfailed
    cases hfailed
  · rw [hattempt] at hfailed
    obtain rfl := Attempt.failed.inj hfailed
    cases runner.failOpen <;> rfl

theorem link_adds (hnext : NextAdds first nextFn careful) (hi : ∀ f ∈ first, i < f) :
    NextAdds (some i) (runner.link h i nextFn) fun timers ctx s =>
      s.aborted ctx = false →
        runner.CarefulHook first (runner.call h i timers ctx s)
            (runner.attempt h i nextFn timers ctx s) ctx ∧
          (∀ c ∈ runner.call h i timers ctx s, careful ((s.clock + runner.timeoutMs) :: timers) c.1
            (c.2.noteAbort i ctx)) ∧
          ∀ message, (runner.attempt h i nextFn timers ctx s).1 = .failed message →
            runner.failOpen → careful timers ctx (addFailure h s.clock ctx message
              (runner.attempt h i nextFn timers ctx s).2) := by
  intro timers ctx s
  cases hs : s.aborted ctx with
  | true =>
    refine ⟨[], ?_, ⟨rfl, by simp⟩, by simp [InOrder, hs]⟩
    rw [link, hs]
    simp
  | false =>
    obtain ⟨a, b, es, hevents, hadds, hcareful⟩ := attempt_adds runner h timers ctx s hnext hi
    simp only [hs, forall_const, hcareful]
    cases hattempt : (runner.attempt h i nextFn timers ctx s).1 with
    | settled ending =>
      refine ⟨_, (link_of_settled hs hattempt).symm ▸ hevents, ⟨rfl, hadds.later_hook hi⟩, ?_⟩
      rw [inOrder_notes_append]
      simp
    | failed message =>
      have hlink := link_of_failed hs hattempt
      cases hopen : runner.failOpen with
      | false =>
        rw [hopen, if_neg Bool.false_ne_true, hevents, append_assoc] at hlink
        refine ⟨_, hlink, ⟨rfl, fun f hf e he => ?_⟩, ?_⟩
        · rcases mem_append.mp he with he | he
          · exact hadds.later_hook hi f hf e he
          · obtain rfl := mem_singleton.mp he
            exact (some.inj hf).ge
        · rw [inOrder_concat_aborted, inOrder_notes_append]
          simp
      | true =>
        obtain ⟨es', hes', hadds', hcareful'⟩ := hnext timers ctx (addFailure h s.clock ctx message
          (runner.attempt h i nextFn timers ctx s).2)
        rw [addFailure, ChainState.addResult_aborted] at hadds'
        rw [hopen, if_pos rfl, hes', addFailure, ChainState.addResult_events, hevents,
          append_assoc] at hlink
        refine ⟨_, hlink, ⟨rfl, fun f hf e he => ?_⟩, ?_⟩
        · rcases mem_append.mp he with he | he
          · exact hadds.later_hook hi f hf e he
          · obtain rfl := some.inj hf
            exact (hadds'.lt_position hi he).le
        · rw [inOrder_recovery hadds hadds' hi, hcareful', Ne, hadds'.eq_nil_iff]
          simp only [not_not, Attempt.failed.injEq, Runs, forall_eq', forall_const]
          refine and_congr_right fun _ => and_congr_right fun _ => forall_congr' fun hruns => ?_
          rw [hruns.2]
          simp

theorem lt_firstEnabled (hooks : List (Hook μ)) (i : ℕ) :
    ∀ f ∈ firstEnabled (i + 1) hooks, i < f := by
  induction hooks generalizing i with
  | nil => simp [firstEnabled]
  | cons h hooks ih =>
    intro f hf
    rw [firstEnabled] at hf
    split_ifs at hf
    · obtain rfl := some.inj hf
      omega
    · have := ih (i + 1) f hf
      omega

theorem chain_adds (runner : HookChainRunner μ) (hooks : List (Hook μ)) (i : ℕ) :
    NextAdds (firstEnabled i hooks) (runner.chain i hooks) (runner.Careful i hooks) := by
  induction hooks generalizing i with
  | nil =>
    intro timers ctx s
    exact ⟨[], (append_nil _).symm, ⟨by simp [firstEnabled], by simp⟩, by
      simp [InOrder, Careful]⟩
  | cons h hooks ih =>
    intro timers ctx s
    rw [firstEnabled, chain, Careful]
    split_ifs with henabled
    · exact link_adds (ih (i + 1)) (lt_firstEnabled hooks i) timers ctx s
    · exact ih (i + 1) timers ctx s

/-- A run executes each enabled hook at most once, in the order of the priorities and none after
one that set abort, if and only if every hook that it executes is careful. -/
theorem run_inOrder_iff (runner : HookChainRunner μ) (context : ContextRef)
    (contexts : Contexts μ) :
    InOrder (runner.run context contexts).2.events ↔
      runner.Careful 0 runner.hooks [] context { contexts } := by
  obtain ⟨es, hes, -, horder⟩ := chain_adds runner runner.hooks 0 [] context { contexts }
  rw [run, hes]
  exact horder

def audit : Hook Unit where
  name := "audit"
  eventType := "tool.execute.post"
  execute _ ctx := pure (.callsNext ctx fun _ => pure (.raises (.error "audit store is down")))

def notify : Hook Unit where
  name := "notify"
  eventType := "tool.execute.post"
  priority := 200
  execute _ ctx := pure (.ends (.returns ctx))

def auditContexts : Contexts Unit := fun _ =>
  { eventType := "tool.execute.post", tenantId := "acme", payload := () }

/-- The hook after one that fails late is executed twice. -/
theorem audit_not_inOrder : ¬ InOrder ((init [audit, notify]).run 0 auditContexts).2.events := by
  decide

end HookChainRunner

end Agent33.Hooks
