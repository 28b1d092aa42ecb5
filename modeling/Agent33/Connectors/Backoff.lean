import Agent33.Connectors.CircuitBreaker
import Agent33.Library.History

/-!
# The backoff of the breaker

The trips are never taken back, and the power of two by which the timeout grows is computed before
it is capped. A breaker has a timeout as long as it has tripped at most 1024 times.
-/

namespace Agent33.Connectors

open Library EStateM

structure Snapshot where
  state : CircuitState
  consecutiveFailures : ℕ
  totalTrips : ℕ
  lastTripAt : Option ℚ
  failureThreshold : ℤ
  recoveryTimeoutSeconds : ℚ
  halfOpenSuccessThreshold : ℤ
  maxRecoveryTimeoutSeconds : ℚ
  effectiveRecoveryTimeoutSeconds : ℚ
  cooldownRemainingSeconds : ℚ

def cooldownRemaining (c : Circuit) (timeout : ℚ) : ℚ :=
  match c.breaker.state, c.breaker.openedAt with
  | .opened, some openedAt => max 0 (timeout - (c.clock - openedAt))
  | _, _ => 0

def snapshot : BreakerM Snapshot := do
  let timeout ← effectiveRecoveryTimeout
  let c ← get
  return {
    state := c.breaker.state
    consecutiveFailures := c.breaker.consecutiveFailures
    totalTrips := c.breaker.totalTrips
    lastTripAt := c.breaker.lastTripAt
    failureThreshold := c.breaker.failureThreshold
    recoveryTimeoutSeconds := c.breaker.recoveryTimeoutSeconds
    halfOpenSuccessThreshold := c.breaker.halfOpenSuccessThreshold
    maxRecoveryTimeoutSeconds := c.breaker.maxRecoveryTimeoutSeconds
    effectiveRecoveryTimeoutSeconds := timeout
    cooldownRemainingSeconds := cooldownRemaining c timeout }

inductive BreakerCall
  | beforeCall
  | recordSuccess
  | recordFailure
  | snapshot

def BreakerCall.body : BreakerCall → BreakerM Unit
  | beforeCall => Connectors.beforeCall
  | recordSuccess => Connectors.recordSuccess
  | recordFailure => Connectors.recordFailure
  | snapshot => do let _ ← Connectors.snapshot

/-- A call, and what the clock says at it. -/
def step (op : ℚ × BreakerCall) : BreakerM Unit := do
  modify fun c => { c with clock := op.1 }
  op.2.body

def CircuitBreaker.backoff (b : CircuitBreaker) (trips : ℕ) : ℚ :=
  if trips = 0 then b.recoveryTimeoutSeconds
  else min (b.recoveryTimeoutSeconds * 2 ^ (trips - 1)) b.maxRecoveryTimeoutSeconds

def Trips (c : Circuit) : BreakerCall → Prop
  | .recordFailure => c.breaker.state = .halfOpen ∨
      c.breaker.failureThreshold ≤ (c.breaker.consecutiveFailures + 1 : ℕ)
  | _ => False

/-- The call raises nothing but `CircuitOpenError`, and the timeout after it is the backoff. -/
structure Backs (made : CircuitBreaker) (c : Circuit) (op : ℚ × BreakerCall) : Prop where
  raises : ∀ e d, (step op).run c = .error e d → ∃ text, e = .exception .circuitOpenError text
  timeout : (History.next step c op).breaker.effectiveRecoveryTimeout =
    .ok (made.backoff (History.next step c op).breaker.totalTrips)

/-- A breaker that has tripped 1024 times does not trip again. -/
def Spared (c : Circuit) (op : ℚ × BreakerCall) : Prop :=
  c.breaker.totalTrips = 1024 → ¬Trips c op.2

/-- A breaker with the settings of the one that was made, and with a timeout. -/
structure Timed (made : CircuitBreaker) (b : CircuitBreaker) : Prop where
  base : b.recoveryTimeoutSeconds = made.recoveryTimeoutSeconds
  maximum : b.maxRecoveryTimeoutSeconds = made.maxRecoveryTimeoutSeconds
  trips : b.totalTrips ≤ 1024

variable {made b : CircuitBreaker}

theorem Timed.timeout (h : Timed made b) :
    b.effectiveRecoveryTimeout = .ok (made.backoff b.totalTrips) := by
  rw [CircuitBreaker.effectiveRecoveryTimeout, CircuitBreaker.backoff, h.base, h.maximum]
  have hexponent : ¬maxExponent ≤ b.totalTrips - 1 := by
    have htrips := h.trips
    rw [maxExponent]
    omega
  by_cases hzero : b.totalTrips = 0
  · rw [if_pos hzero, if_pos hzero]
  · simp only [hzero, hexponent, if_false]

theorem backoff_mono (hbase : 0 < made.recoveryTimeoutSeconds) (hm : 1 ≤ m)
    (h : m ≤ n) : made.backoff m ≤ made.backoff n := by
  rw [CircuitBreaker.backoff, CircuitBreaker.backoff, if_neg (by omega), if_neg (by omega)]
  have hpow : (2 : ℚ) ^ (m - 1) ≤ 2 ^ (n - 1) := pow_le_pow_right₀ (by norm_num) (by omega)
  exact min_le_min_right _ (mul_le_mul_of_nonneg_left hpow hbase.le)

theorem Timed.congr (h : Timed made b)
    (hbase : b'.recoveryTimeoutSeconds = b.recoveryTimeoutSeconds)
    (hmax : b'.maxRecoveryTimeoutSeconds = b.maxRecoveryTimeoutSeconds)
    (htrips : b'.totalTrips ≤ 1024) : Timed made b' :=
  ⟨hbase.trans h.base, hmax.trans h.maximum, htrips⟩

theorem recordFailure_trips (c : Circuit) (h : Trips c .recordFailure) :
    Hoare.Triple (fun d => d = c) recordFailure (fun _ d => d.breaker = c.breaker.trip c.clock)
      fun e d => d.breaker = c.breaker.trip c.clock ∧
        (c.breaker.trip c.clock).effectiveRecoveryTimeout = .error e := by
  have hopen (c : Circuit) : Hoare.Triple (fun d => d = c) openCircuit
      (fun _ d => d.breaker = c.breaker.trip c.clock) fun e d =>
        d.breaker = c.breaker.trip c.clock ∧
          (c.breaker.trip c.clock).effectiveRecoveryTimeout = .error e := by
    refine Hoare.triple_at ?_
    simp only [openCircuit, run_bind, transition_run, run_get, modifyBreaker, note, run_modify,
      effectiveRecoveryTimeout_run]
    rw [CircuitBreaker.trip]
    generalize htimeout : CircuitBreaker.effectiveRecoveryTimeout _ = timeout
    cases timeout with
    | ok timeout => rfl
    | error e => exact ⟨rfl, rfl⟩
  refine Hoare.triple_at ?_
  by_cases hstate : c.breaker.state = .halfOpen
  · simp only [recordFailure, run_bind, run_get, hstate, if_true]
    exact hopen _ _ rfl
  · have hcount := h.resolve_left hstate
    simp only [recordFailure, modifyBreaker, run_bind, run_modify, run_get, hstate, if_false]
    rw [if_pos hcount]
    exact hopen { c with breaker := { c.breaker with
      consecutiveFailures := c.breaker.consecutiveFailures + 1 } } _ rfl

open BreakerCall

open Connectors in
theorem body_spec (call : BreakerCall) (hc : Timed made c.breaker)
    (hspared : c.breaker.totalTrips = 1024 → ¬Trips c call) :
    Hoare.Triple (fun d => d = c) call.body (fun _ d => Timed made d.breaker)
      fun e d => Timed made d.breaker ∧ ∃ text, e = .exception .circuitOpenError text := by
  cases call with
  | beforeCall =>
    refine Hoare.triple_at ?_
    by_cases h : c.breaker.state = .opened
    · cases hopened : c.breaker.openedAt with
      | none =>
        simp only [body, beforeCall, run_bind, run_get, h, hopened, ne_eq,
          not_true_eq_false,
          if_false]
        exact ⟨hc, _, rfl⟩
      | some openedAt =>
        simp only [body, beforeCall, run_bind, run_get, h, hopened, ne_eq,
          not_true_eq_false,
          if_false, effectiveRecoveryTimeout_run, hc.timeout]
        split_ifs
        · exact ⟨hc, _, rfl⟩
        · simp only [run_bind, transition_run, modifyBreaker, run_modify]
          exact hc.congr rfl rfl hc.trips
    · simp only [body, beforeCall, run_bind, run_get, h, ne_eq,
      not_false_eq_true, if_true]
      exact hc
  | recordSuccess =>
    refine Hoare.triple_at ?_
    simp only [body, recordSuccess, run_bind, run_get, modifyBreaker]
    split_ifs
    · simp only [run_bind, run_modify, run_get]
      split_ifs
      · simp only [run_bind, run_modify, transition_run]
        exact hc.congr rfl rfl hc.trips
      · exact hc.congr rfl rfl hc.trips
    · simp only [run_bind, run_modify, transition_run]
      exact hc.congr rfl rfl hc.trips
  | recordFailure =>
    by_cases htrips : Trips c .recordFailure
    · have hfewer : c.breaker.totalTrips < 1024 :=
        lt_of_le_of_ne hc.trips fun h => hspared h htrips
      have htrip : Timed made (c.breaker.trip c.clock) := hc.congr rfl rfl hfewer
      refine (recordFailure_trips c htrips).conseq (fun d h => h) (fun _ d hd => hd ▸ htrip)
        fun e d hd => ?_
      cases htrip.timeout.symm.trans hd.2
    · refine Hoare.triple_at ?_
      obtain ⟨hstate, hcount⟩ := not_or.mp htrips
      simp only [body, recordFailure, modifyBreaker, run_bind, run_modify,
        run_get, hstate, if_false]
      rw [if_neg hcount]
      exact hc.congr rfl rfl hc.trips
  | snapshot =>
    refine Hoare.triple_at ?_
    simp only [body, snapshot, run_bind, effectiveRecoveryTimeout_run,
      hc.timeout, run_get]
    exact hc

theorem step_run (c : Circuit) (op : ℚ × BreakerCall) :
    (step op).run c = op.2.body.run { c with clock := op.1 } := by
  rw [step, run_bind]
  rfl

theorem next_timed (op : ℚ × BreakerCall) (hc : Timed made c.breaker) (h : Spared c op) :
    Timed made (History.next step c op).breaker := by
  have hspec := body_spec (c := { c with clock := op.1 }) op.2 hc h _ rfl
  rw [History.next, step_run]
  revert hspec
  cases op.2.body.run { c with clock := op.1 } with
  | ok u d => exact id
  | error e d => exact And.left

theorem next_of_trips (time : ℚ) (h : Trips c .recordFailure) :
    (History.next step c (time, .recordFailure)).breaker = c.breaker.trip time := by
  have hspec := recordFailure_trips { c with clock := time } h _ rfl
  rw [History.next, step_run, body]
  revert hspec
  cases recordFailure.run { c with clock := time } with
  | ok u d => exact id
  | error e d => exact And.left

theorem backs_iff (op : ℚ × BreakerCall) (hc : Timed made c.breaker) :
    Backs made c op ↔ Spared c op := by
  constructor
  · obtain ⟨time, call⟩ := op
    intro hbacks hlimit htrips
    cases call with
    | recordFailure =>
      have htimeout := hbacks.timeout
      rw [next_of_trips _ htrips, CircuitBreaker.effectiveRecoveryTimeout, CircuitBreaker.trip,
        hlimit]
        at htimeout
      exact nomatch htimeout
    | _ => exact htrips
  · intro h
    refine ⟨fun e d hrun => ?_, (next_timed op hc h).timeout⟩
    have hspec := body_spec (c := { c with clock := op.1 }) op.2 hc h _ rfl
    rw [← step_run, hrun] at hspec
    exact hspec.2

/-- Every call on the breaker is answered, with the backoff as its timeout, just when none trips it
once more after 1024 trips. The backoff never falls from one trip to the next. -/
theorem run_backs_iff (failures successes : ℤ) {base : ℚ} (hbase : 0 < base)
    (maximum : ℚ) (ops : List (ℚ × BreakerCall)) :
    let made : CircuitBreaker :=
      { failureThreshold := failures, recoveryTimeoutSeconds := base
        halfOpenSuccessThreshold := successes, maxRecoveryTimeoutSeconds := maximum }
    (History.Along (History.next step) (Backs made) { breaker := made } ops ↔
      History.Along (History.next step) Spared { breaker := made } ops) ∧
    ∀ m n, 1 ≤ m → m ≤ n → made.backoff m ≤ made.backoff n := by
  intro made
  refine ⟨?_, fun m n hm h => backoff_mono hbase hm h⟩
  exact History.along_congr (I := fun c => Timed made c.breaker)
    (fun c op hc h => next_timed op hc h) (fun c op hc => backs_iff op hc)
    ⟨rfl, rfl, Nat.zero_le _⟩ ops

theorem run_backs_default :
    ({} : CircuitBreaker).backoff 1 ≤ ({} : CircuitBreaker).backoff 2 :=
  (run_backs_iff 3 2 (by norm_num : (0 : ℚ) < 30) 300 []).2 1 2 le_rfl (by omega)

def failsAtOnce : CircuitBreaker := { failureThreshold := 1 }

/-- Within 1025 failures one is not answered as it should be. -/
theorem run_not_backs : ¬History.Along (History.next step) (Backs failsAtOnce)
    { breaker := failsAtOnce } (List.replicate 1025 (0, .recordFailure)) := by
  have hrun : ∀ n (c : Circuit), Timed failsAtOnce c.breaker → c.breaker.failureThreshold = 1 →
      c.breaker.totalTrips + n = 1024 → ¬History.Along (History.next step) (Backs failsAtOnce) c
        (List.replicate (n + 1) (0, .recordFailure)) := by
    intro n
    induction n with
    | zero =>
      intro c hc hthreshold hn h
      exact (backs_iff _ hc).mp h.1 hn (.inr (by rw [hthreshold]; omega))
    | succ n ih =>
      intro c hc hthreshold hn h
      have htrips : Trips c .recordFailure := .inr (by rw [hthreshold]; omega)
      have hnext := next_of_trips 0 htrips
      refine ih _ (next_timed _ hc ((backs_iff _ hc).mp h.1)) ?_ ?_ h.2
      · rw [hnext, CircuitBreaker.trip, hthreshold]
      · rw [hnext]
        change c.breaker.totalTrips + 1 + n = 1024
        omega
  exact hrun 1024 _ ⟨rfl, rfl, Nat.zero_le _⟩ rfl rfl

end Agent33.Connectors
