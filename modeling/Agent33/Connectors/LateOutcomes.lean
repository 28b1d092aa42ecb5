import Agent33.Connectors.Middleware

/-!
# Outcomes that arrive late

The outcome of a call arrives when the breaker may long be in another state. What
is safe is said of the history of the breaker; the breaker keeps it as long as
no success of an older call arrives at a breaker that is not closed.
-/

namespace Agent33.Connectors

open Library Awaiting

def stateAfter : List Event → CircuitState
  | [] => .closed
  | .moved _ new :: _ => new
  | _ :: earlier => stateAfter earlier

def lastTrip : List Event → Option ℚ
  | [] => none
  | .tripped time :: _ => some time
  | _ :: earlier => lastTrip earlier

def tripCount : List Event → ℕ
  | [] => 0
  | .tripped _ :: earlier => tripCount earlier + 1
  | _ :: earlier => tripCount earlier

def trials : List Event → List ℕ
  | [] => []
  | .moved _ .halfOpen :: _ => []
  | .admitted call _ :: earlier => call :: trials earlier
  | _ :: earlier => trials earlier

def trialSuccesses : List Event → ℕ
  | [] => 0
  | .moved _ .halfOpen :: _ => 0
  | .succeeded call :: earlier => (if call ∈ trials earlier then 1 else 0) + trialSuccesses earlier
  | _ :: earlier => trialSuccesses earlier

variable (breaker : CircuitBreaker) (earlier : List Event)

def Rested (time : ℚ) : Prop :=
  ∀ trip, lastTrip earlier = some trip →
    ∃ timeout,
      { breaker with totalTrips := tripCount earlier }.effectiveRecoveryTimeout = .ok timeout ∧
        trip + timeout ≤ time

def Recovered : Prop :=
  breaker.halfOpenSuccessThreshold ≤ trialSuccesses earlier ∧
    ∃ call rest, earlier = .succeeded call :: rest ∧ call ∈ trials rest

def SafeEvent : Event → Prop
  | .admitted _ time => Rested breaker earlier time
  | .moved old new =>
    (old = .opened → new = .halfOpen) ∧ (new = .closed → Recovered breaker earlier)
  | _ => True

def Safe (breaker : CircuitBreaker) : List Event → Prop
  | [] => True
  | event :: earlier => SafeEvent breaker earlier event ∧ Safe breaker earlier

def TimelyEvent (earlier : List Event) : Event → Prop
  | .succeeded call =>
    stateAfter earlier = .closed ∨ stateAfter earlier = .halfOpen ∧ call ∈ trials earlier
  | _ => True

def Timely : List Event → Prop
  | [] => True
  | event :: earlier => TimelyEvent earlier event ∧ Timely earlier

/-- The breaker that was made as `made` and has this history. -/
structure Sound (made : CircuitBreaker) (c : Circuit) : Prop where
  threshold : c.breaker.halfOpenSuccessThreshold = made.halfOpenSuccessThreshold
  recovery : c.breaker.recoveryTimeoutSeconds = made.recoveryTimeoutSeconds
  maxRecovery : c.breaker.maxRecoveryTimeoutSeconds = made.maxRecoveryTimeoutSeconds
  state : stateAfter c.history = c.breaker.state
  count : tripCount c.history = c.breaker.totalTrips
  trip : c.breaker.state = .opened → lastTrip c.history = c.breaker.openedAt
  rested : c.breaker.state ≠ .opened → Rested made c.history c.clock
  successes : c.breaker.state = .halfOpen → c.breaker.halfOpenSuccesses ≤ trialSuccesses c.history
  safe : Safe made c.history

def SoundIfTimely (made : CircuitBreaker) (c : Circuit) : Prop :=
  Timely c.history → Sound made c

theorem Sound.timeout (hc : Sound made c) :
    { made with totalTrips := tripCount c.history }.effectiveRecoveryTimeout =
      c.breaker.effectiveRecoveryTimeout := by
  simp only [CircuitBreaker.effectiveRecoveryTimeout, hc.count, hc.recovery, hc.maxRecovery]

section MovedTo

variable {earlier : List Event}

theorem stateAfter_movedTo (h : stateAfter earlier = old) :
    stateAfter (movedTo old new earlier) = new := by
  rw [movedTo]
  split_ifs with hnew
  · exact h.trans hnew
  · rfl

@[simp] theorem tripCount_movedTo : tripCount (movedTo old new earlier) = tripCount earlier := by
  rw [movedTo]
  split_ifs <;> rfl

theorem Timely.of_movedTo (h : Timely (movedTo old new earlier)) : Timely earlier := by
  rw [movedTo] at h
  split_ifs at h
  · exact h
  · exact h.2

theorem Safe.movedTo (h : Safe made earlier)
    (hevent : old ≠ new → SafeEvent made earlier (.moved old new)) :
    Safe made (movedTo old new earlier) := by
  rw [Connectors.movedTo]
  split_ifs with hnew
  · exact h
  · exact ⟨hevent hnew, h⟩

end MovedTo

theorem Sound.trial (hc : Sound made c) (h : c.breaker.state = .halfOpen)
    (ht : TimelyEvent c.history (.succeeded call)) : call ∈ trials c.history := by
  rcases ht with hclosed | ⟨-, htrial⟩
  · rw [hc.state, h] at hclosed
    cases hclosed
  · exact htrial

theorem Admits.sound (h : Admits call c d) (hc : SoundIfTimely made c) : SoundIfTimely made d := by
  intro ht
  cases h with
  | passes h =>
    have hc := hc ht.2
    exact { hc with safe := ⟨hc.rested h, hc.safe⟩ }
  | tries h hopened htimeout helapsed =>
    have hc := hc ht.2.2
    have hrested : Rested made c.history c.clock := by
      intro trip htrip
      obtain rfl := Option.some.inj ((hc.trip h).symm.trans htrip |>.symm.trans hopened)
      exact ⟨_, hc.timeout.trans htimeout, helapsed⟩
    exact { hc with
      state := rfl
      trip := nofun
      rested := fun _ => hrested
      successes := fun _ => Nat.zero_le _
      safe := ⟨hrested, ⟨fun _ => rfl, nofun⟩, hc.safe⟩ }

theorem RecordsFailure.sound (h : RecordsFailure call c d) (hc : SoundIfTimely made c) :
    SoundIfTimely made d := by
  intro ht
  cases h with
  | fails h hcount =>
    have hc := hc ht.2
    exact { hc with safe := ⟨trivial, hc.safe⟩ }
  | trips =>
    have hc := hc ht.2.of_movedTo.2
    have hsafe : Safe made (movedTo c.breaker.state .opened (.failed call :: c.history)) :=
      Safe.movedTo ⟨trivial, hc.safe⟩ fun h => ⟨fun hold => absurd hold h, nofun⟩
    exact { hc with
      state := stateAfter_movedTo hc.state
      count := by simpa [tripCount, CircuitBreaker.trip] using hc.count
      trip := fun _ => rfl
      rested := fun h => absurd rfl h
      successes := nofun
      safe := ⟨trivial, hsafe⟩ }

theorem RecordsSuccess.sound (h : RecordsSuccess call c d) (hc : SoundIfTimely made c) :
    SoundIfTimely made d := by
  intro ht
  cases h with
  | counts h =>
    have hc := hc ht.2
    have hcount := hc.successes h
    exact { hc with
      successes := fun _ => by
        simp only [trialSuccesses, hc.trial h ht.1, if_true]
        omega
      safe := ⟨trivial, hc.safe⟩ }
  | closes h hcount =>
    have hc := hc ht.2.2
    have htrial := hc.trial h ht.2.1
    have hrecovered : Recovered made (.succeeded call :: c.history) := by
      refine ⟨?_, call, c.history, rfl, htrial⟩
      have hsuccesses := hc.successes h
      rw [← hc.threshold]
      simp only [trialSuccesses, htrial, if_true]
      omega
    exact { hc with
      state := rfl
      trip := by rintro ⟨⟩
      rested := fun _ => hc.rested (by simp [h])
      successes := by rintro ⟨⟩
      safe := ⟨⟨by rintro ⟨⟩, fun _ => hrecovered⟩, trivial, hc.safe⟩ }
  | resets h =>
    have hevent := ht.of_movedTo
    have hc := hc hevent.2
    have hclosed : c.breaker.state = .closed := by
      rcases hevent.1 with hclosed | ⟨hhalf, -⟩
      · rw [← hc.state, hclosed]
      · exact absurd (hc.state.symm.trans hhalf) h
    simp only [hclosed, movedTo, if_true]
    exact { hc with
      state := hc.state.trans hclosed
      trip := by rintro ⟨⟩
      rested := fun _ => hc.rested (by simp [hclosed])
      successes := by rintro ⟨⟩
      safe := ⟨trivial, hc.safe⟩ }

theorem SoundIfTimely.ended (hc : SoundIfTimely made c) (failing : Bool) :
    SoundIfTimely made { c with history := .ended failing :: c.history } := by
  intro ht
  have hc := hc ht.2
  exact { hc with safe := ⟨trivial, hc.safe⟩ }

theorem SoundIfTimely.advance (hc : SoundIfTimely made c) (seconds : ℚ≥0) :
    SoundIfTimely made { c with clock := c.clock + seconds } := by
  intro ht
  have hc := hc ht
  refine { hc with rested := fun h trip htrip => ?_ }
  obtain ⟨timeout, htimeout, hle⟩ := hc.rested h trip htrip
  exact ⟨timeout, htimeout, hle.trans (le_add_of_nonneg_right seconds.cast_nonneg)⟩

section Runs

variable {ρ α : Type}

theorem keeps_onCircuit {Q : Circuit → α → Circuit → Prop}
    {E : Circuit → Raised → Circuit → Prop}
    (hx : ∀ c, Hoare.Triple (fun d => d = c) x (Q c) (E c))
    (hQ : ∀ c a d, SoundIfTimely made c → Q c a d → SoundIfTimely made d)
    (hE : ∀ c e d, SoundIfTimely made c → E c e d → SoundIfTimely made d) :
    Keeps (fun s : Boundary => SoundIfTimely made s.circuit) (onCircuit x : BoundaryM ρ α).run := by
  refine keeps_perform (Hoare.Triple.zoom fun s hs => ?_)
  have h := hx s.circuit s.circuit rfl
  cases hrun : x.run s.circuit with
  | ok a d =>
    rw [hrun] at h
    exact hQ _ a d hs h
  | error e d =>
    rw [hrun] at h
    exact hE _ e d hs h

theorem keeps_awaitHandler (request : ConnectorRequest) :
    Keeps (fun s : Boundary => SoundIfTimely made s.circuit)
      (awaitHandler request : BoundaryM ρ ρ).run := by
  refine Keeps.bind (Keeps.lift (keeps_await request)) fun outcome => ?_
  refine Keeps.bind (keeps_onCircuit (note_spec _) ?_ fun _ _ _ _ h => h.elim) fun _ => ?_
  · rintro c _ _ hc rfl
    exact hc.ended _
  · exact keeps_pure outcome

theorem keeps_onException {body : BoundaryM ρ ρ} {handler : ErrorType → String → BoundaryM ρ ρ}
    {I : Boundary → Prop} (hbody : Keeps I body.run)
    (hhandler : ∀ type message, Keeps I (handler type message).run) :
    Keeps I (onException body handler).run := by
  refine Keeps.tryCatch hbody fun e => ?_
  cases e with
  | exception type message => exact hhandler type message
  | interrupt kind => exact trivial

theorem keeps_circuitBreakerMiddleware (request : ConnectorRequest) :
    Keeps (fun s : Boundary => SoundIfTimely made s.circuit)
      (circuitBreakerMiddleware request awaitHandler : BoundaryM ρ ρ).run := by
  refine Keeps.bind (keeps_onCircuit admission_spec ?_ ?_) fun call => ?_
  · exact fun c call d hc h => h.sound hc
  · rintro c e _ hc rfl
    exact hc
  refine Keeps.bind (keeps_onException ?_ fun type message => ?_) fun result => ?_
  · exact keeps_awaitHandler request
  · refine Keeps.bind (keeps_onCircuit (recordFailure_spec call) ?_ ?_) fun _ => ?_
    · exact fun c _ d hc h => h.sound hc
    · exact fun c _ d hc h => h.sound hc
    · exact trivial
  · refine Keeps.bind (keeps_onCircuit (recordSuccess_spec call) ?_ ?_) fun _ => ?_
    · exact fun c _ d hc h => h.sound hc
    · exact fun _ _ _ _ h => h.elim
    · exact trivial

def breakerProgram :
    Task ConnectorRequest →
      Awaiting Boundary ConnectorRequest (Except Raised ρ) (Option (Except Raised ρ)) :=
  Task.program fun request => circuitBreakerMiddleware request awaitHandler

def circuitAfter (settings : Settings) (now : ℚ)
    (choices : List (Choice (Task ConnectorRequest) (Except Raised ρ))) : Circuit :=
  (choices.foldl (Config.next breakerProgram)
    { shared := { circuit := { breaker := buildBreaker settings, clock := now } } }).shared.circuit

theorem sound_buildBreaker (settings : Settings) (now : ℚ) :
    Sound (buildBreaker settings) { breaker := buildBreaker settings, clock := now } where
  threshold := rfl
  recovery := rfl
  maxRecovery := rfl
  state := rfl
  count := rfl
  trip := nofun
  rested := nofun
  successes := nofun
  safe := trivial

theorem keeps_breakerProgram (made : CircuitBreaker) (task : Task ConnectorRequest) :
    Keeps (fun s : Boundary => SoundIfTimely made s.circuit)
      (breakerProgram task : Awaiting _ _ (Except Raised ρ) _) := by
  cases task with
  | call request =>
    exact Keeps.bind' (keeps_circuitBreakerMiddleware request) fun _ => trivial
  | advance seconds =>
    exact Keeps.bind' (keeps_modify fun s hs => hs.advance seconds) fun _ => trivial

/-- As long as no success of an older call arrives at a breaker that is not closed. -/
theorem breaker_safe_of_timely (settings : Settings) (now : ℚ)
    (choices : List (Choice (Task ConnectorRequest) (Except Raised ρ)))
    (htimely : Timely (circuitAfter settings now choices).history) :
    Safe (buildBreaker settings) (circuitAfter settings now choices).history ∧
      stateAfter (circuitAfter settings now choices).history =
        (circuitAfter settings now choices).breaker.state := by
  have hrun := Config.Kept.run (keeps_breakerProgram (buildBreaker settings))
    (c := { shared := { circuit := { breaker := buildBreaker settings, clock := now } } })
    ⟨fun _ => sound_buildBreaker settings now, nofun⟩ choices
  have hsound := hrun.shared htimely
  exact ⟨hsound.safe, hsound.state⟩

def oneFailure : Settings := { connectorCircuitFailureThreshold := 1 }

def sampleRequest : ConnectorRequest :=
  { id := 0, connector := "tool:reader", operation := "read" }

def sampleCall : Choice (Task ConnectorRequest) (Except Raised Unit) := .start (.call sampleRequest)

def refused : Except Raised Unit := .error (.exception (.other "ConnectError") "refused")

def trialsAfterTrip : List (Choice (Task ConnectorRequest) (Except Raised Unit)) :=
  [sampleCall, .answer 0 refused, sampleCall, .start (.advance 30), sampleCall, .answer 0 (.ok ()),
    sampleCall, .answer 0 (.ok ())]

def lateSuccess : List (Choice (Task ConnectorRequest) (Except Raised Unit)) :=
  [sampleCall, sampleCall, .answer 0 refused, .answer 0 (.ok ())]

theorem history_trialsAfterTrip : (circuitAfter oneFailure 0 trialsAfterTrip).history =
    [.moved .halfOpen .closed, .succeeded 9, .ended false, .admitted 9 30, .succeeded 6,
      .ended false, .admitted 6 30, .moved .opened .halfOpen, .tripped 0, .moved .closed .opened,
      .failed 0, .ended true, .admitted 0 0] := by decide +kernel

theorem history_lateSuccess : (circuitAfter oneFailure 0 lateSuccess).history =
    [.moved .opened .closed, .succeeded 1, .ended false, .tripped 0, .moved .closed .opened,
      .failed 0, .ended true, .admitted 1 0, .admitted 0 0] := by decide +kernel

theorem breaker_safe_of_timely_trials :
    Safe (buildBreaker oneFailure) (circuitAfter oneFailure 0 trialsAfterTrip).history ∧
      stateAfter (circuitAfter oneFailure 0 trialsAfterTrip).history =
        (circuitAfter oneFailure 0 trialsAfterTrip).breaker.state := by
  refine breaker_safe_of_timely oneFailure 0 trialsAfterTrip ?_
  rw [history_trialsAfterTrip]
  simp [Timely, TimelyEvent, stateAfter, trials]

/-- The late success closes the open breaker. -/
theorem breaker_unsafe_late_success :
    ¬ Safe (buildBreaker oneFailure) (circuitAfter oneFailure 0 lateSuccess).history := by
  rw [history_lateSuccess]
  intro hsafe
  exact nomatch hsafe.1.1 rfl

end Runs

end Agent33.Connectors
