import Agent33.Connectors.Middleware

/-!
# Every failure is counted

Each turn of a call settles the account of the call of the handler that has come
to its end, and may open that of another. The account is right, and failures in a
row trip the breaker, as long as no handler is cut off or raises what is no
`Exception`: nothing is recorded of such an end.
-/

namespace Agent33.Connectors

open Library Awaiting History List

structure BreakerRecords where
  admissions : ℕ := 0
  successes : ℕ := 0
  failures : ℕ := 0

def breakerRecords : List Event → BreakerRecords
  | [] => {}
  | .admitted _ _ :: earlier =>
    let r := breakerRecords earlier
    { r with admissions := r.admissions + 1 }
  | .succeeded _ :: earlier =>
    let r := breakerRecords earlier
    { r with successes := r.successes + 1 }
  | .failed _ :: earlier =>
    let r := breakerRecords earlier
    { r with failures := r.failures + 1 }
  | _ :: earlier => breakerRecords earlier

structure Ledger where
  breaker : BreakerRecords
  metrics : ℕ → BoundaryMetrics
  stats : String → ConnectorStats

def Boundary.ledger (s : Boundary) : Ledger where
  breaker := breakerRecords s.circuit.history
  metrics := s.metrics
  stats connector := s.stats.getD connector {}

variable (l : Ledger) (request : ConnectorRequest)

def Ledger.updateMetrics (f : BoundaryMetrics → BoundaryMetrics) : Ledger :=
  { l with metrics := Function.update l.metrics request.id (f (l.metrics request.id)) }

def Ledger.updateStats (l : Ledger) (connector : String) (f : ConnectorStats → ConnectorStats) :
    Ledger :=
  { l with stats := Function.update l.stats connector (f (l.stats connector)) }

def Ledger.admission : Ledger :=
  { l with breaker.admissions := l.breaker.admissions + 1 }.updateMetrics request fun m =>
    { m with calls := m.calls + 1 }

def Ledger.count (l : Ledger) (collector : Bool) (request : ConnectorRequest) (success : Bool) :
    Ledger :=
  let l := l.updateMetrics request fun m =>
    if success then { m with success := m.success + 1 } else { m with failure := m.failure + 1 }
  if collector then
    l.updateStats request.connector fun stats =>
      { totalCalls := stats.totalCalls + 1
        successes := if success then stats.successes + 1 else stats.successes
        failures := if success then stats.failures else stats.failures + 1 }
  else l

variable {ρ : Type}

def Ledger.settle (l : Ledger) (collector : Bool) (request : ConnectorRequest) :
    Except Raised ρ → Ledger
  | .ok _ =>
    { l with breaker.successes := l.breaker.successes + 1 }.count collector request true
  | .error (.exception _ _) =>
    { l with breaker.failures := l.breaker.failures + 1 }.count collector request false
  | .error (.interrupt _) => l

structure Ledger.Balanced (l : Ledger) (ids : List ℕ) : Prop where
  metrics : ∀ id,
    (l.metrics id).calls = (l.metrics id).success + (l.metrics id).failure + ids.count id
  breaker : l.breaker.admissions = l.breaker.successes + l.breaker.failures + ids.length

def Interrupted : Except Raised ρ → Prop
  | .error (.interrupt _) => True
  | _ => False

section Balanced

variable {l : Ledger} {request : ConnectorRequest}

theorem Ledger.Balanced.perm (h : l.Balanced ids) (hids : ids.Perm ids') : l.Balanced ids' :=
  ⟨fun id => hids.count_eq id ▸ h.metrics id, hids.length_eq ▸ h.breaker⟩

theorem Ledger.Balanced.admission (h : l.Balanced ids) (request : ConnectorRequest) :
    (l.admission request).Balanced (request.id :: ids) := by
  refine ⟨fun id => ?_, ?_⟩
  · have hid := h.metrics id
    by_cases heq : id = request.id
    · subst heq
      simp only [Ledger.admission, Ledger.updateMetrics, Function.update_self, count_cons_self]
      omega
    · simpa only [Ledger.admission, Ledger.updateMetrics, Function.update_of_ne heq,
        count_cons_of_ne (Ne.symm heq)] using hid
  · have hbreaker := h.breaker
    simp only [Ledger.admission, Ledger.updateMetrics, length_cons]
    omega

theorem Ledger.count_breaker (l : Ledger) (collector : Bool) (request : ConnectorRequest)
    (success : Bool) : (l.count collector request success).breaker = l.breaker := by
  cases collector <;> rfl

theorem Ledger.count_metrics (l : Ledger) (collector : Bool) (request : ConnectorRequest)
    (success : Bool) (id : ℕ) :
    (l.count collector request success).metrics id =
      if id = request.id then
        if success then { l.metrics id with success := (l.metrics id).success + 1 }
        else { l.metrics id with failure := (l.metrics id).failure + 1 }
      else l.metrics id := by
  have hmetrics : (l.count collector request success).metrics =
      (l.updateMetrics request fun m =>
        if success then { m with success := m.success + 1 }
        else { m with failure := m.failure + 1 }).metrics := by
    cases collector <;> rfl
  rw [hmetrics]
  by_cases h : id = request.id
  · subst h
    simp [Ledger.updateMetrics]
  · simp [Ledger.updateMetrics, h]

theorem Ledger.Balanced.count (h : l.Balanced (request.id :: ids)) (collector success : Bool)
    (records : BreakerRecords)
    (hrecords : records.admissions = records.successes + records.failures + ids.length) :
    ({ l with breaker := records }.count collector request success).Balanced ids := by
  refine ⟨fun id => ?_, by rwa [Ledger.count_breaker]⟩
  have hid := h.metrics id
  rw [Ledger.count_metrics]
  by_cases heq : id = request.id
  · subst heq
    rw [count_cons_self] at hid
    cases success <;> simp only [if_true, Bool.false_eq_true, if_false] <;> omega
  · rw [if_neg heq]
    rwa [count_cons_of_ne (Ne.symm heq)] at hid

theorem Ledger.Balanced.settle (h : l.Balanced (request.id :: ids))
    (hanswer : ¬Interrupted answer) (collector : Bool) :
    (l.settle collector request answer).Balanced ids := by
  have hbreaker := h.breaker
  rw [length_cons] at hbreaker
  match answer with
  | .error (.interrupt kind) => exact absurd trivial hanswer
  | .ok a => exact h.count collector true _ (by simp only; omega)
  | .error (.exception type message) => exact h.count collector false _ (by simp only; omega)

end Balanced

def streak : List Event → ℕ
  | [] => 0
  | .ended true :: earlier => streak earlier + 1
  | .ended false :: _ => 0
  | .tripped _ :: _ => 0
  | _ :: earlier => streak earlier

structure Circuit.Alert (threshold : ℤ) (c : Circuit) : Prop where
  threshold_eq : c.breaker.failureThreshold = threshold
  streak_le : streak c.history ≤ c.breaker.consecutiveFailures
  lt_threshold : (c.breaker.consecutiveFailures : ℤ) < max 1 threshold

section Recording

variable {c d : Circuit}

@[simp] theorem breakerRecords_movedTo (old new : CircuitState) (earlier : List Event) :
    breakerRecords (movedTo old new earlier) = breakerRecords earlier := by
  rw [movedTo]
  split_ifs <;> rfl

@[simp] theorem streak_movedTo (old new : CircuitState) (earlier : List Event) :
    streak (movedTo old new earlier) = streak earlier := by
  rw [movedTo]
  split_ifs <;> rfl

theorem Admits.records (h : Admits call c d) :
    breakerRecords d.history =
      { breakerRecords c.history with
        admissions := (breakerRecords c.history).admissions + 1 } := by
  cases h with
  | passes h => rfl
  | tries h hopened htimeout helapsed => rfl

theorem RecordsFailure.records (h : RecordsFailure call c d) :
    breakerRecords d.history =
      { breakerRecords c.history with failures := (breakerRecords c.history).failures + 1 } := by
  cases h with
  | fails h hcount => rfl
  | trips => simp [breakerRecords]

theorem RecordsSuccess.records (h : RecordsSuccess call c d) :
    breakerRecords d.history =
      { breakerRecords c.history with successes := (breakerRecords c.history).successes + 1 } := by
  cases h with
  | counts h => rfl
  | closes h hcount => rfl
  | resets h => simp [breakerRecords]

theorem Admits.alert (h : Admits call c d) (hc : c.Alert threshold) : d.Alert threshold := by
  cases h with
  | passes h => exact ⟨hc.threshold_eq, hc.streak_le, hc.lt_threshold⟩
  | tries h hopened htimeout helapsed => exact ⟨hc.threshold_eq, hc.streak_le, hc.lt_threshold⟩

theorem RecordsFailure.alert
    (h : RecordsFailure call { c with history := .ended true :: c.history } d)
    (hc : c.Alert threshold) : d.Alert threshold := by
  cases h with
  | fails h hcount =>
    rw [hc.threshold_eq] at hcount
    exact ⟨hc.threshold_eq, Nat.succ_le_succ hc.streak_le, lt_max_of_lt_right hcount⟩
  | trips => exact ⟨hc.threshold_eq, le_rfl, lt_max_of_lt_left zero_lt_one⟩

theorem RecordsSuccess.alert
    (h : RecordsSuccess call { c with history := .ended false :: c.history } d)
    (hc : c.Alert threshold) : d.Alert threshold := by
  cases h with
  | counts h => exact ⟨hc.threshold_eq, Nat.zero_le _, hc.lt_threshold⟩
  | closes h hcount => exact ⟨hc.threshold_eq, le_rfl, lt_max_of_lt_left zero_lt_one⟩
  | resets h => exact ⟨hc.threshold_eq, by simp [streak], lt_max_of_lt_left zero_lt_one⟩

end Recording

structure Follows {β : Type} (s : Boundary) (outcome : β ⊕ ConnectorRequest) (s' : Boundary) :
    Prop where
  ledger : s'.ledger = match outcome with
    | .inl _ => s.ledger
    | .inr request => s.ledger.admission request
  alert : ∀ threshold, s.circuit.Alert threshold → s'.circuit.Alert threshold

structure Settles (collector : Bool) (request : ConnectorRequest) (answer : Except Raised ρ)
    (s s' : Boundary) : Prop where
  ledger : s'.ledger = s.ledger.settle collector request answer
  alert : ¬Interrupted answer →
    ∀ threshold, s.circuit.Alert threshold → s'.circuit.Alert threshold

def boundaryEffect {β : Type} (collector : Bool) (request : ConnectorRequest)
    (answer : Except Raised ρ) (s : Boundary) : Effect Boundary ConnectorRequest β :=
  fun outcome s' => ∃ s₁, Settles collector request answer s s₁ ∧ Follows s₁ outcome s'

/-- The turn may still admit a call, and has changed nothing since `s`. -/
def Even {β : Type} (s : Boundary) (T : Effect Boundary ConnectorRequest β) : Prop :=
  ∀ outcome s', Follows s outcome s' → T outcome s'

/-- Where an even turn calls the handler, it is even again when that returns or raises. -/
def Accounts (β : Type) (collector : Bool) (handler : ConnectorHandler ρ) : Prop :=
  ∀ (request : ConnectorRequest) (s : Boundary) (T : Effect Boundary ConnectorRequest β)
    (post : Except Raised ρ → Boundary → Effect Boundary ConnectorRequest β → Prop),
    Even s T → (∀ r s' T', Even s' T' → post r s' T') →
      wp (boundaryEffect collector) (handler request).run s T post

theorem follows_refl {β : Type} (b : β) (s : Boundary) : Follows s (.inl b) s :=
  ⟨rfl, fun _ h => h⟩

section Middlewares

variable {β : Type}

theorem accounts_governanceMiddleware (policy : BlocklistConnectorPolicy)
    (h : Accounts β collector callNext) :
    Accounts β collector fun request => governanceMiddleware policy request callNext := by
  intro request s T post hT hpost
  simp only [governanceMiddleware]
  split_ifs
  · exact h request s T post hT hpost
  · exact hpost _ s T hT
  · exact hpost _ s T hT

theorem accounts_timeoutMiddleware (timeoutSeconds : ℚ) (h : Accounts β collector callNext) :
    Accounts β collector fun request => timeoutMiddleware timeoutSeconds request callNext := by
  intro request s T post hT hpost
  simp only [timeoutMiddleware]
  split
  · exact h request s T post hT hpost
  · exact hpost _ s T hT
  · split_ifs
    · exact h request s T post hT hpost
    · rw [wp_run_tryCatch]
      refine h request s T _ hT fun r s' T' hT' => ?_
      match r with
      | .ok a => exact hpost _ s' T' hT'
      | .error e =>
        dsimp only
        split
        · exact hpost _ s' T' hT'
        · exact hpost _ s' T' hT'
        · exact hpost _ s' T' hT'

theorem wp_onException {R : ConnectorRequest → Except Raised ρ → Boundary →
      Effect Boundary ConnectorRequest β}
    {body : BoundaryM ρ ρ} {handler : ErrorType → String → BoundaryM ρ ρ} {s : Boundary}
    {T : Effect Boundary ConnectorRequest β}
    {post : Except Raised ρ → Boundary → Effect Boundary ConnectorRequest β → Prop} :
    wp R (onException body handler).run s T post ↔ wp R body.run s T fun r s T =>
      match r with
      | .ok a => post (.ok a) s T
      | .error (.exception type message) => wp R (handler type message).run s T post
      | .error (.interrupt kind) => post (.error (.interrupt kind)) s T := by
  rw [onException, wp_run_tryCatch]
  refine wp_congr fun r s T => ?_
  match r with
  | .ok a => exact Iff.rfl
  | .error (.exception type message) => exact Iff.rfl
  | .error (.interrupt kind) => exact Iff.rfl

theorem accounts_retryAttempts (h : Accounts β collector callNext) (remaining : ℕ)
    (lastError : Option Raised) :
    Accounts β collector fun request => retryAttempts request callNext remaining lastError := by
  induction remaining generalizing lastError with
  | zero =>
    intro request s T post hT hpost
    cases lastError with
    | none => exact hpost _ s T hT
    | some e => exact hpost _ s T hT
  | succ remaining ih =>
    intro request s T post hT hpost
    simp only [retryAttempts]
    rw [wp_onException]
    refine h request s T _ hT fun r s' T' hT' => ?_
    match r with
    | .ok a => exact hpost _ s' T' hT'
    | .error (.interrupt kind) => exact hpost _ s' T' hT'
    | .error (.exception type message) =>
      dsimp only
      split
      · exact hpost _ s' T' hT'
      · exact hpost _ s' T' hT'
      · exact ih _ request s' T' post hT' hpost

theorem wp_onCircuit {α : Type} {R : ConnectorRequest → Except Raised ρ → Boundary →
      Effect Boundary ConnectorRequest β}
    {x : BreakerM α} {s : Boundary} {T : Effect Boundary ConnectorRequest β}
    {Q : α → Circuit → Prop} {E : Raised → Circuit → Prop}
    {post : Except Raised α → Boundary → Effect Boundary ConnectorRequest β → Prop}
    (hx : Hoare.Triple (fun c => c = s.circuit) x Q E)
    (hok : ∀ a circuit, Q a circuit → post (.ok a) { s with circuit } T)
    (herror : ∀ e circuit, E e circuit → post (.error e) { s with circuit } T) :
    wp R (onCircuit x).run s T post := by
  rw [onCircuit, wp_run_perform, Hoare.zoom_run]
  have h := hx s.circuit rfl
  cases hrun : x.run s.circuit with
  | ok a circuit =>
    rw [hrun] at h
    exact hok a circuit h
  | error e circuit =>
    rw [hrun] at h
    exact herror e circuit h

end Middlewares

def Boundary.count (s : Boundary) (collector : Bool) (request : ConnectorRequest)
    (success : Bool) : Boundary :=
  let s := s.updateMetrics request fun m =>
    if success then { m with success := m.success + 1 } else { m with failure := m.failure + 1 }
  if collector then s.recordCall request.connector success else s

def Boundary.finish (s : Boundary) (collector : Bool) (request : ConnectorRequest) :
    Except Raised ρ → Boundary
  | .ok _ =>
    { s with circuit.history := .ended false :: s.circuit.history }.count collector request true
  | .error (.exception _ _) =>
    { s with circuit.history := .ended true :: s.circuit.history }.count collector request false
  | .error (.interrupt _) => { s with circuit.history := .ended true :: s.circuit.history }

theorem wp_metricsMiddleware {β : Type} {R : ConnectorRequest → Except Raised ρ → Boundary →
      Effect Boundary ConnectorRequest β}
    {collector : Bool} {request : ConnectorRequest} {s : Boundary}
    {T : Effect Boundary ConnectorRequest β}
    {post : Except Raised ρ → Boundary → Effect Boundary ConnectorRequest β → Prop}
    (hT : T (.inr request) (s.updateMetrics request fun m => { m with calls := m.calls + 1 }))
    (hpost : ∀ answer s', post answer (s'.finish collector request answer) (R request answer s')) :
    wp R (metricsMiddleware collector request awaitHandler).run s T post := by
  simp only [metricsMiddleware, wp_run_bind, wp_onException, modifyBoundary, wp_run_modify,
    awaitHandler, wp_run_await]
  refine ⟨hT, fun answer s' => ?_⟩
  refine wp_onCircuit (note_spec _ _) ?_ fun _ _ h => h.elim
  rintro _ _ rfl
  have h := hpost answer s'
  rcases answer with (_ | _) | _
  · cases collector with
    | true => exact h
    | false => exact h
  · exact h
  · cases collector with
    | true => exact h
    | false => exact h

@[simp] theorem Boundary.circuit_count (s : Boundary) (collector : Bool)
    (request : ConnectorRequest) (success : Bool) :
    (s.count collector request success).circuit = s.circuit := by
  cases collector <;> rfl

theorem Boundary.ledger_recordCall (s : Boundary) (connector : String) (success : Bool) :
    (s.recordCall connector success).ledger =
      s.ledger.updateStats connector fun stats =>
        { totalCalls := stats.totalCalls + 1
          successes := if success then stats.successes + 1 else stats.successes
          failures := if success then stats.failures else stats.failures + 1 } := by
  rw [ledger, Ledger.mk.injEq]
  refine ⟨rfl, rfl, funext fun other => ?_⟩
  simp only [recordCall, ledger, Ledger.updateStats, Dict.getD_set, Function.update_apply]

theorem Boundary.ledger_count (s : Boundary) (collector : Bool) (request : ConnectorRequest)
    (success : Bool) :
    (s.count collector request success).ledger = s.ledger.count collector request success := by
  cases collector with
  | false => rfl
  | true => exact ledger_recordCall _ _ _

theorem Boundary.ledger_settled {s : Boundary} {collector : Bool} {request : ConnectorRequest}
    {success : Bool} {circuit : Circuit} {records : BreakerRecords}
    (h : breakerRecords circuit.history = records) :
    { s.count collector request success with circuit }.ledger =
      { s.ledger with breaker := records }.count collector request success := by
  subst h
  have hcount := s.ledger_count collector request success
  calc { s.count collector request success with circuit }.ledger
      = { (s.count collector request success).ledger with
          breaker := breakerRecords circuit.history } := rfl
    _ = { s.ledger.count collector request success with
          breaker := breakerRecords circuit.history } := by rw [hcount]
    _ = { s.ledger with breaker := breakerRecords circuit.history }.count collector request
          success := by cases collector <;> rfl

section Settles

variable {request : ConnectorRequest}


theorem RecordsSuccess.settles (hanswer : answer = .ok a)
    (h : RecordsSuccess call (s.finish collector request answer).circuit circuit) :
    Settles collector request answer s { s.finish collector request answer with circuit } := by
  subst hanswer
  rw [Boundary.finish, Boundary.circuit_count] at h
  exact ⟨Boundary.ledger_settled h.records, fun _ _ hs => h.alert hs⟩

theorem RecordsFailure.settles (hanswer : answer = .error (.exception type message))
    (h : RecordsFailure call (s.finish collector request answer).circuit circuit) :
    Settles collector request answer s { s.finish collector request answer with circuit } := by
  subst hanswer
  rw [Boundary.finish, Boundary.circuit_count] at h
  exact ⟨Boundary.ledger_settled h.records, fun _ _ hs => h.alert hs⟩

theorem Settles.even {β : Type} (h : Settles collector request answer s s') :
    Even s' (boundaryEffect (β := β) collector request answer s) :=
  fun _ _ hfollows => ⟨s', h, hfollows⟩

end Settles

theorem accounts_circuitBreakerMiddleware (β : Type) (collector : Bool) :
    Accounts (ρ := ρ) β collector fun request =>
      circuitBreakerMiddleware request fun request =>
        metricsMiddleware collector request awaitHandler := by
  intro request s T post hT hpost
  simp only [circuitBreakerMiddleware, wp_run_bind, wp_onException]
  refine wp_onCircuit (admission_spec s.circuit) (fun call circuit hcircuit => ?_) ?_
  · refine wp_metricsMiddleware ?_ fun answer s' => ?_
    · refine hT _ _ ⟨?_, fun _ => hcircuit.alert⟩
      have hrecords := hcircuit.records
      simp only [Boundary.ledger, Boundary.updateMetrics, hrecords]
      rfl
    match answer with
    | .ok a =>
      refine wp_onCircuit (recordSuccess_spec call _) (fun _ circuit' hrecord => ?_)
        fun _ _ h => h.elim
      exact hpost _ _ _ (hrecord.settles rfl).even
    | .error (.exception type message) =>
      refine wp_onCircuit (recordFailure_spec call _) (fun _ circuit' hrecord => ?_)
        fun e circuit' hrecord => ?_
      · exact hpost _ _ _ (hrecord.settles rfl).even
      · exact hpost _ _ _ (hrecord.settles rfl).even
    | .error (.interrupt kind) =>
      have hsettles : Settles collector request (.error (.interrupt kind) : Except Raised ρ) s'
          (s'.finish collector request (.error (.interrupt kind) : Except Raised ρ)) :=
        ⟨rfl, fun h => absurd trivial h⟩
      exact hpost _ _ _ hsettles.even
  · rintro e _ rfl
    exact hpost _ s T hT

structure BoundaryCall where
  options : BoundaryOptions
  request : ConnectorRequest

def boundaryBody (settings : Settings) (call : BoundaryCall) : BoundaryM ρ ρ :=
  match buildConnectorBoundaryExecutor settings call.options with
  | none => awaitHandler call.request
  | some middlewares => execute middlewares call.request awaitHandler

def boundaryProgram (settings : Settings) :
    Task BoundaryCall →
      Awaiting Boundary ConnectorRequest (Except Raised ρ) (Option (Except Raised ρ)) :=
  Task.program (boundaryBody settings)

abbrev BoundaryConfig (ρ : Type) :=
  Config (Task BoundaryCall) Boundary ConnectorRequest (Except Raised ρ) (Option (Except Raised ρ))

def Task.collector : Task BoundaryCall → Bool
  | .call k => k.options.metricsCollector
  | .advance _ => false

theorem accounts_boundaryBody (henabled : settings.connectorBoundaryEnabled)
    (hbreaker : settings.connectorCircuitBreakerEnabled) (β : Type) (options : BoundaryOptions) :
    Accounts (ρ := ρ) β options.metricsCollector fun request =>
      boundaryBody settings { options, request } := by
  have hinner := accounts_circuitBreakerMiddleware (ρ := ρ) β options.metricsCollector
  have hretry : Accounts (ρ := ρ) β options.metricsCollector fun request =>
      execute
        ((if 1 < options.retryAttempts then [retryMiddleware options.retryAttempts] else []) ++
          [circuitBreakerMiddleware, metricsMiddleware options.metricsCollector])
        request awaitHandler := by
    split_ifs
    · exact accounts_retryAttempts hinner _ none
    · exact hinner
  simp only [boundaryBody, buildConnectorBoundaryExecutor, henabled, hbreaker, if_true,
    append_assoc, cons_append, nil_append]
  refine accounts_governanceMiddleware (resolveBlocklists settings options.policyPack) ?_
  cases options.defaultTimeoutSeconds with
  | none => exact hretry
  | some seconds => exact accounts_timeoutMiddleware seconds hretry

def boundaryStart (settings : Settings) (now : ℚ) : BoundaryConfig ρ :=
  { shared := { circuit := { breaker := buildBreaker settings, clock := now } } }

def inFlight (c : BoundaryConfig ρ) : List ℕ := c.asked.map fun entry => entry.2.id

structure RecordsEnd (collector : Bool) (request : ConnectorRequest) (s s' : Boundary) : Prop where
  breaker : s'.ledger.breaker.failures = s.ledger.breaker.failures + 1
  metrics : (s'.metrics request.id).failure = (s.metrics request.id).failure + 1
  stats : collector = true → (s'.ledger.stats request.connector).failures =
    (s.ledger.stats request.connector).failures + 1

/-- The call of the handler that ends with an exception or is cut off is recorded once as a
failure, failures in a row have tripped the breaker, and the records are balanced. -/
structure CountsFailures (settings : Settings) (c : BoundaryConfig ρ)
    (choice : Choice (Task BoundaryCall) (Except Raised ρ)) : Prop where
  recorded : ∀ n e w, choice = .answer n (.error e) → c.waiting[n]? = some w →
    RecordsEnd w.task.collector w.question c.shared
      (c.next (boundaryProgram settings) choice).shared
  trips : (streak (c.next (boundaryProgram settings) choice).shared.circuit.history : ℤ) <
    max 1 settings.connectorCircuitFailureThreshold
  balanced : (c.next (boundaryProgram settings) choice).shared.ledger.Balanced
    (inFlight (c.next (boundaryProgram settings) choice))

/-- No handler is cut off or raises what is no `Exception`. -/
def NotInterrupted (c : BoundaryConfig ρ)
    (choice : Choice (Task BoundaryCall) (Except Raised ρ)) : Prop :=
  ∀ n answer, choice = .answer n answer → n < c.waiting.length → ¬Interrupted answer

def taskEffect (task : Task BoundaryCall) :
    ConnectorRequest → Except Raised ρ → Boundary →
      Effect Boundary ConnectorRequest (Option (Except Raised ρ)) :=
  boundaryEffect task.collector

structure InOrder (settings : Settings) (c : BoundaryConfig ρ) : Prop where
  obedient : c.Obedient taskEffect
  alert : c.shared.circuit.Alert settings.connectorCircuitFailureThreshold
  balanced : c.shared.ledger.Balanced (inFlight c)

section Turns

variable {settings : Settings}


theorem inFlight_perm (hw : c.waiting[n]? = some w) :
    (inFlight c).Perm (w.question.id :: inFlight { c with waiting := c.waiting.eraseIdx n }) := by
  obtain ⟨hn, rfl⟩ := List.getElem?_eq_some_iff.mp hw
  have hperm := (getElem_cons_eraseIdx_perm hn).symm.map fun w => w.question.id
  simpa [inFlight, Config.asked, Function.comp_def] using hperm

theorem Follows.inOrder (h : Follows s outcome c'.shared) (hadds : c.Adds i outcome c')
    (halert : s.circuit.Alert settings.connectorCircuitFailureThreshold)
    (hbalanced : s.ledger.Balanced (inFlight c)) :
    c'.shared.circuit.Alert settings.connectorCircuitFailureThreshold ∧
      c'.shared.ledger.Balanced (inFlight c') := by
  refine ⟨h.alert _ halert, ?_⟩
  rw [h.ledger, inFlight, hadds.asked]
  cases outcome with
  | inl r => simpa [inFlight] using hbalanced
  | inr request =>
    refine (hbalanced.admission request).perm ?_
    simpa [inFlight] using (perm_append_singleton _ _).symm

theorem Ledger.admission_failure (id : ℕ) :
    ((l.admission request).metrics id).failure = (l.metrics id).failure := by
  by_cases h : id = request.id
  · subst h
    simp [admission, updateMetrics]
  · simp [admission, updateMetrics, h]

theorem RecordsEnd.follows {collector : Bool} {request : ConnectorRequest} {s₁ s' : Boundary}
    (h : RecordsEnd collector request s s₁) (hfollows : Follows s₁ outcome s') :
    RecordsEnd collector request s s' := by
  have hledger := hfollows.ledger
  have hmetrics : s'.metrics = s'.ledger.metrics := rfl
  cases outcome with
  | inl r =>
    have hmetrics' : s'.metrics = s₁.metrics := congrArg Ledger.metrics hledger
    exact ⟨hledger ▸ h.breaker, hmetrics' ▸ h.metrics, hledger ▸ h.stats⟩
  | inr request' =>
    refine ⟨?_, ?_, ?_⟩
    · rw [hledger]
      exact h.breaker
    · rw [hmetrics, hledger, Ledger.admission_failure]
      exact h.metrics
    · rw [hledger]
      exact h.stats

theorem Settles.recordsEnd
    (h : Settles collector request (.error (.exception type message) : Except Raised ρ) s s₁) :
    RecordsEnd collector request s s₁ := by
  have hmetrics : s₁.metrics = s₁.ledger.metrics := rfl
  refine ⟨?_, ?_, ?_⟩
  · rw [h.ledger, Ledger.settle, Ledger.count_breaker]
  · rw [hmetrics, h.ledger, Ledger.settle, Ledger.count_metrics, if_pos rfl]
    rfl
  · rintro rfl
    rw [h.ledger]
    simp [Ledger.settle, Ledger.count, Ledger.updateStats, Ledger.updateMetrics]

theorem InOrder.not_recordsEnd (hc : InOrder settings c) {kind : Interrupt}
    (hw : c.waiting[n]? = some w) :
    ¬RecordsEnd w.task.collector w.question c.shared
      (c.next (boundaryProgram settings) (.answer n (.error (.interrupt kind)))).shared := by
  obtain ⟨-, outcome, ⟨s₁, hsettles, hfollows⟩, -⟩ :=
    Config.next_answer (boundaryProgram settings) (.error (.interrupt kind)) hc.obedient hw
  intro hrecords
  have hbreaker := hrecords.breaker
  rw [hfollows.ledger, hsettles.ledger] at hbreaker
  cases outcome with
  | inl r => simp [Ledger.settle] at hbreaker
  | inr request => simp [Ledger.settle, Ledger.admission, Ledger.updateMetrics] at hbreaker

theorem inOrder_boundaryStart (now : ℚ) :
    InOrder settings (boundaryStart settings now : BoundaryConfig ρ) :=
  ⟨fun _ hw => absurd hw not_mem_nil, ⟨rfl, le_rfl, lt_max_of_lt_left zero_lt_one⟩,
    ⟨fun _ => rfl, rfl⟩⟩

end Turns

section Runs

variable {settings : Settings} (henabled : settings.connectorBoundaryEnabled)
  (hbreaker : settings.connectorCircuitBreakerEnabled)

include henabled hbreaker

theorem boundaryProgram_obeys (task : Task BoundaryCall) (s : Boundary) :
    Obeys (taskEffect (ρ := ρ) task) (boundaryProgram settings task) s
      fun outcome s' => Follows s outcome s' := by
  cases task with
  | call k =>
    refine (wp_bind _ _ _).mpr ?_
    refine accounts_boundaryBody henabled hbreaker _ k.options k.request s _ _ ?_ ?_
    · exact fun _ _ h => h
    · exact fun r s' T' hT' => hT' _ s' (follows_refl _ s')
  | advance seconds =>
    exact ⟨rfl, fun _ h => ⟨h.threshold_eq, h.streak_le, h.lt_threshold⟩⟩

theorem InOrder.next (hc : InOrder settings c)
    (hchoice : NotInterrupted c choice) :
    InOrder settings (c.next (boundaryProgram settings) choice) := by
  cases choice with
  | start i =>
    obtain ⟨hobedient, outcome, hfollows, hadds⟩ := Config.next_start (boundaryProgram settings)
      hc.obedient (boundaryProgram_obeys henabled hbreaker i c.shared)
    obtain ⟨halert, hbalanced⟩ := hfollows.inOrder hadds hc.alert hc.balanced
    exact ⟨hobedient, halert, hbalanced⟩
  | answer n answer =>
    cases hw : c.waiting[n]? with
    | none =>
      rw [Config.next, hw]
      exact hc
    | some w =>
      obtain ⟨hobedient, outcome, ⟨s₁, hsettles, hfollows⟩, hadds⟩ :=
        Config.next_answer (boundaryProgram settings) answer hc.obedient hw
      have hn := (List.getElem?_eq_some_iff.mp hw).1
      have hanswer := hchoice n answer rfl hn
      have hbalanced :
          s₁.ledger.Balanced (inFlight { c with waiting := c.waiting.eraseIdx n }) := by
        rw [hsettles.ledger]
        exact Ledger.Balanced.settle (hc.balanced.perm (inFlight_perm hw)) hanswer _
      obtain ⟨halert, hbalanced⟩ :=
        hfollows.inOrder hadds (hsettles.alert hanswer _ hc.alert) hbalanced
      exact ⟨hobedient, halert, hbalanced⟩

theorem InOrder.countsFailures_iff (hc : InOrder settings c)
    (choice : Choice (Task BoundaryCall) (Except Raised ρ)) :
    CountsFailures settings c choice ↔ NotInterrupted c choice := by
  constructor
  · rintro hcounts n answer rfl hn hanswer
    match answer, hanswer with
    | .error (.interrupt kind), _ =>
      have hw := getElem?_eq_getElem hn
      exact hc.not_recordsEnd hw (hcounts.recorded n _ _ rfl hw)
  · intro hchoice
    have hnext := hc.next henabled hbreaker hchoice
    refine ⟨?_, ?_, hnext.balanced⟩
    · rintro n e w rfl hw
      match e with
      | .interrupt kind =>
        exact absurd trivial (hchoice n _ rfl (List.getElem?_eq_some_iff.mp hw).1)
      | .exception type message =>
        obtain ⟨-, outcome, ⟨s₁, hsettles, hfollows⟩, -⟩ := Config.next_answer
          (boundaryProgram settings) (.error (.exception type message)) hc.obedient hw
        exact hsettles.recordsEnd.follows hfollows
    · have hle := hnext.alert.streak_le
      have hlt := hnext.alert.lt_threshold
      omega

/-- Every failure is counted exactly when no handler is interrupted. -/
theorem counts_failures_iff_not_interrupted (now : ℚ)
    (choices : List (Choice (Task BoundaryCall) (Except Raised ρ))) :
    Along (Config.next (boundaryProgram settings)) (CountsFailures settings)
        (boundaryStart settings now) choices ↔
      Along (Config.next (boundaryProgram settings)) NotInterrupted
        (boundaryStart settings now) choices :=
  along_congr (fun _ _ hc hchoice => hc.next henabled hbreaker hchoice)
    (fun _ choice hc => hc.countsFailures_iff henabled hbreaker choice)
    (inOrder_boundaryStart now) choices

end Runs

def guardedSettings : Settings :=
  { connectorBoundaryEnabled := true
    connectorCircuitBreakerEnabled := true
    connectorCircuitFailureThreshold := 1 }

def timedCall : BoundaryCall where
  options := { defaultTimeoutSeconds := some 5, retryAttempts := 2, metricsCollector := true }
  request := { id := 0, connector := "tool:reader", operation := "read" }

def unreachable : Raised := .exception (.other "ConnectError") "unreachable"

theorem counts_failures_iff_not_interrupted_retry :
    Along (Config.next (boundaryProgram guardedSettings)) (CountsFailures guardedSettings)
        (boundaryStart guardedSettings 0 : BoundaryConfig Unit)
        [.start (.call timedCall), .answer 0 (.error unreachable)] ↔
      Along (Config.next (boundaryProgram guardedSettings)) NotInterrupted
        (boundaryStart guardedSettings 0 : BoundaryConfig Unit)
        [.start (.call timedCall), .answer 0 (.error unreachable)] :=
  counts_failures_iff_not_interrupted rfl rfl 0 _

/-- The timeout cuts the handler off: the call counts, but neither as success nor as failure. -/
theorem timed_out_call_not_counted :
    ¬Along (Config.next (boundaryProgram guardedSettings)) (CountsFailures guardedSettings)
      (boundaryStart guardedSettings 0 : BoundaryConfig Unit)
      [.start (.call timedCall), .answer 0 (.error (.interrupt .timer))] := by
  intro h
  have hmetrics := h.2.1.balanced.metrics 0
  exact absurd hmetrics (by decide +kernel)

end Agent33.Connectors
