import Agent33.Library.Hoare
import Mathlib.Tactic.Linarith

/-!
# The circuit breaker

A breaker is shared by the calls of a connector. It trips after enough failures
in a row, blocks calls for a time that grows with each trip, and lets trial calls
through before it closes again. Beside the breaker stand the clock it reads and
the history of what happened at it, the latest event first.
-/

namespace Agent33.Connectors

open Library EStateM

inductive CircuitState
  | closed
  | opened
  | halfOpen
  deriving DecidableEq

inductive ErrorType
  | permissionError
  | circuitOpenError
  | timeoutError
  | overflowError
  | assertionError
  | other (name : String)
  deriving DecidableEq

/-- What is raised and is no `Exception`: a cancellation, by a timer of the chain or from
outside, or another such class. -/
inductive Interrupt
  | timer
  | cancelled
  | other (name : String)
  deriving DecidableEq

inductive Raised
  | exception (type : ErrorType) (message : String)
  | interrupt (kind : Interrupt)
  deriving DecidableEq

structure CircuitBreaker where
  failureThreshold : ℤ := 3
  recoveryTimeoutSeconds : ℚ := 30
  halfOpenSuccessThreshold : ℤ := 2
  maxRecoveryTimeoutSeconds : ℚ := 300
  state : CircuitState := .closed
  consecutiveFailures : ℕ := 0
  openedAt : Option ℚ := none
  halfOpenSuccesses : ℕ := 0
  totalTrips : ℕ := 0
  lastTripAt : Option ℚ := none

def maxExponent : ℕ := 1024

def CircuitBreaker.effectiveRecoveryTimeout (breaker : CircuitBreaker) : Except Raised ℚ :=
  if breaker.totalTrips = 0 then .ok breaker.recoveryTimeoutSeconds
  else
    let exponent := breaker.totalTrips - 1
    if maxExponent ≤ exponent then
      .error (.exception .overflowError "int too large to convert to float")
    else
      .ok (min (breaker.recoveryTimeoutSeconds * 2 ^ exponent) breaker.maxRecoveryTimeoutSeconds)

/-- Calls that the breaker admitted are known by numbers; a call ends, and its success or
failure is recorded. `on_state_change` is told of the moves. -/
inductive Event
  | admitted (call : ℕ) (time : ℚ)
  | ended (failing : Bool)
  | succeeded (call : ℕ)
  | failed (call : ℕ)
  | moved (old new : CircuitState)
  | tripped (time : ℚ)
  deriving DecidableEq

structure Circuit where
  breaker : CircuitBreaker
  clock : ℚ := 0
  history : List Event := []

abbrev BreakerM := EStateM Raised Circuit

def note (event : Event) : BreakerM Unit :=
  modify fun c => { c with history := event :: c.history }

def modifyBreaker (f : CircuitBreaker → CircuitBreaker) : BreakerM Unit :=
  modify fun c => { c with breaker := f c.breaker }

def transition (newState : CircuitState) : BreakerM Unit := do
  let oldState := (← get).breaker.state
  if oldState = newState then pure ()
  else
    modifyBreaker fun b => { b with state := newState }
    note (.moved oldState newState)

def effectiveRecoveryTimeout : BreakerM ℚ := do
  match (← get).breaker.effectiveRecoveryTimeout with
  | .ok timeout => pure timeout
  | .error e => throw e

def beforeCall : BreakerM Unit := do
  let c ← get
  if c.breaker.state ≠ .opened then pure ()
  else
    match c.breaker.openedAt with
    | none => throw (.exception .circuitOpenError "Circuit is open")
    | some openedAt =>
      let elapsed := c.clock - openedAt
      let timeout ← effectiveRecoveryTimeout
      if elapsed < timeout then
        throw (.exception .circuitOpenError "Circuit is open")
      else
        transition .halfOpen
        modifyBreaker fun b => { b with halfOpenSuccesses := 0 }

def recordSuccess : BreakerM Unit := do
  if (← get).breaker.state = .halfOpen then
    modifyBreaker fun b => { b with halfOpenSuccesses := b.halfOpenSuccesses + 1 }
    let b := (← get).breaker
    if b.halfOpenSuccessThreshold ≤ b.halfOpenSuccesses then
      transition .closed
      modifyBreaker fun b =>
        { b with consecutiveFailures := 0, openedAt := none, halfOpenSuccesses := 0 }
    else pure ()
  else
    transition .closed
    modifyBreaker fun b => { b with consecutiveFailures := 0 }

def openCircuit : BreakerM Unit := do
  transition .opened
  let now := (← get).clock
  modifyBreaker fun b =>
    { b with
      openedAt := some now
      totalTrips := b.totalTrips + 1
      lastTripAt := some now
      consecutiveFailures := 0
      halfOpenSuccesses := 0 }
  note (.tripped now)
  let _ ← effectiveRecoveryTimeout

def recordFailure : BreakerM Unit := do
  if (← get).breaker.state = .halfOpen then openCircuit
  else
    modifyBreaker fun b => { b with consecutiveFailures := b.consecutiveFailures + 1 }
    let b := (← get).breaker
    if b.failureThreshold ≤ b.consecutiveFailures then openCircuit else pure ()

def admission : BreakerM ℕ := do
  beforeCall
  let c ← get
  note (.admitted c.history.length c.clock)
  pure c.history.length

def CircuitBreaker.trip (breaker : CircuitBreaker) (now : ℚ) : CircuitBreaker :=
  { breaker with
    state := .opened
    openedAt := some now
    totalTrips := breaker.totalTrips + 1
    lastTripAt := some now
    consecutiveFailures := 0
    halfOpenSuccesses := 0 }

def movedTo (old new : CircuitState) (earlier : List Event) : List Event :=
  if old = new then earlier else .moved old new :: earlier

inductive Admits (call : ℕ) (c : Circuit) : Circuit → Prop
  | passes (h : c.breaker.state ≠ .opened) :
    Admits call c { c with history := .admitted call c.clock :: c.history }
  | tries {openedAt timeout : ℚ} (h : c.breaker.state = .opened)
    (hopened : c.breaker.openedAt = some openedAt)
    (htimeout : c.breaker.effectiveRecoveryTimeout = .ok timeout)
    (helapsed : openedAt + timeout ≤ c.clock) :
    Admits call c
      { c with
        breaker := { c.breaker with state := .halfOpen, halfOpenSuccesses := 0 }
        history := .admitted call c.clock :: .moved .opened .halfOpen :: c.history }

inductive RecordsFailure (call : ℕ) (c : Circuit) : Circuit → Prop
  | fails (h : c.breaker.state ≠ .halfOpen)
    (hcount : (c.breaker.consecutiveFailures + 1 : ℕ) < c.breaker.failureThreshold) :
    RecordsFailure call c
      { c with
        breaker := { c.breaker with consecutiveFailures := c.breaker.consecutiveFailures + 1 }
        history := .failed call :: c.history }
  | trips :
    RecordsFailure call c
      { c with
        breaker := c.breaker.trip c.clock
        history := .tripped c.clock :: movedTo c.breaker.state .opened (.failed call :: c.history) }

inductive RecordsSuccess (call : ℕ) (c : Circuit) : Circuit → Prop
  | counts (h : c.breaker.state = .halfOpen) :
    RecordsSuccess call c
      { c with
        breaker := { c.breaker with halfOpenSuccesses := c.breaker.halfOpenSuccesses + 1 }
        history := .succeeded call :: c.history }
  | closes (h : c.breaker.state = .halfOpen)
    (hcount : c.breaker.halfOpenSuccessThreshold ≤ (c.breaker.halfOpenSuccesses + 1 : ℕ)) :
    RecordsSuccess call c
      { c with
        breaker :=
          { c.breaker with
            state := .closed, consecutiveFailures := 0, openedAt := none, halfOpenSuccesses := 0 }
        history := .moved .halfOpen .closed :: .succeeded call :: c.history }
  | resets (h : c.breaker.state ≠ .halfOpen) :
    RecordsSuccess call c
      { c with
        breaker := { c.breaker with state := .closed, consecutiveFailures := 0 }
        history := movedTo c.breaker.state .closed (.succeeded call :: c.history) }

theorem transition_run (new : CircuitState) (c : Circuit) :
    (transition new).run c = .ok ()
      { c with
        breaker := { c.breaker with state := new }
        history := movedTo c.breaker.state new c.history } := by
  by_cases h : c.breaker.state = new
  · subst h
    simp [transition, movedTo]
  · simp [transition, movedTo, h, modifyBreaker, note]

theorem effectiveRecoveryTimeout_run (c : Circuit) :
    effectiveRecoveryTimeout.run c = match c.breaker.effectiveRecoveryTimeout with
      | .ok timeout => .ok timeout c
      | .error e => .error e c := by
  simp only [effectiveRecoveryTimeout, run_bind, run_get]
  cases c.breaker.effectiveRecoveryTimeout <;> rfl

theorem note_spec (event : Event) (c : Circuit) :
    Hoare.Triple (fun d => d = c) (note event)
      (fun _ d => d = { c with history := event :: c.history }) fun _ _ => False := by
  refine Hoare.triple_at ?_
  rfl

theorem admission_spec (c : Circuit) :
    Hoare.Triple (fun d => d = c) admission (fun call => Admits call c) fun _ d => d = c := by
  refine Hoare.triple_at ?_
  by_cases h : c.breaker.state = .opened
  · cases hopened : c.breaker.openedAt with
    | none =>
      simp only [admission, beforeCall, run_bind, run_get, h, hopened, ne_eq,
        not_true_eq_false, if_false]
      rfl
    | some openedAt =>
      cases htimeout : c.breaker.effectiveRecoveryTimeout with
      | error e =>
        simp only [admission, beforeCall, run_bind, run_get, h, hopened, ne_eq,
          not_true_eq_false, if_false, effectiveRecoveryTimeout_run, htimeout]
      | ok timeout =>
        simp only [admission, beforeCall, run_bind, run_get, h, hopened, ne_eq,
          not_true_eq_false, if_false, effectiveRecoveryTimeout_run, htimeout]
        by_cases helapsed : c.clock - openedAt < timeout
        · rw [if_pos helapsed]
          rfl
        · rw [if_neg helapsed]
          simp only [run_bind, transition_run, modifyBreaker, run_modify, note, h]
          exact .tries h hopened htimeout (by linarith [not_lt.mp helapsed])
  · simp only [admission, beforeCall, run_bind, run_get, h, note, ne_eq,
      not_false_eq_true, if_true]
    exact .passes h

theorem openCircuit_spec (c : Circuit) (failures call : ℕ) :
    Hoare.Triple
      (fun d => d =
        { c with
          breaker := { c.breaker with consecutiveFailures := failures }
          history := .failed call :: c.history })
      openCircuit (fun _ => RecordsFailure call c) fun _ => RecordsFailure call c := by
  refine Hoare.triple_at ?_
  simp only [openCircuit, run_bind, transition_run, run_get, modifyBreaker, note,
    run_modify, effectiveRecoveryTimeout_run]
  generalize CircuitBreaker.effectiveRecoveryTimeout _ = timeout
  cases timeout with
  | ok timeout => exact .trips
  | error e => exact .trips

theorem recordFailure_spec (call : ℕ) (c : Circuit) :
    Hoare.Triple (fun d => d = c) (do note (.failed call); recordFailure)
      (fun _ => RecordsFailure call c) fun _ => RecordsFailure call c := by
  refine Hoare.triple_at ?_
  by_cases h : c.breaker.state = .halfOpen
  · simp only [recordFailure, note, run_bind, run_modify, run_get, h,
      if_true]
    exact openCircuit_spec c c.breaker.consecutiveFailures call _ rfl
  · simp only [recordFailure, note, modifyBreaker, run_bind, run_modify,
      run_get, h, if_false]
    by_cases hcount : c.breaker.failureThreshold ≤ (c.breaker.consecutiveFailures + 1 : ℕ)
    · rw [if_pos hcount]
      exact openCircuit_spec c (c.breaker.consecutiveFailures + 1) call _ rfl
    · rw [if_neg hcount]
      exact .fails h (not_le.mp hcount)

theorem recordSuccess_spec (call : ℕ) (c : Circuit) :
    Hoare.Triple (fun d => d = c) (do note (.succeeded call); recordSuccess)
      (fun _ => RecordsSuccess call c) fun _ _ => False := by
  refine Hoare.triple_at ?_
  by_cases h : c.breaker.state = .halfOpen
  · simp only [recordSuccess, note, modifyBreaker, run_bind, run_modify,
      run_get, if_pos h]
    by_cases hcount : c.breaker.halfOpenSuccessThreshold ≤ (c.breaker.halfOpenSuccesses + 1 : ℕ)
    · rw [if_pos hcount]
      simp only [run_bind, transition_run, run_modify, h]
      exact .closes h hcount
    · rw [if_neg hcount]
      exact .counts h
  · simp only [recordSuccess, note, modifyBreaker, run_bind, run_modify,
      run_get, transition_run, h, if_false]
    exact .resets h

end Agent33.Connectors
