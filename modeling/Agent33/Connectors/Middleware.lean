import Agent33.Connectors.CircuitBreaker
import Agent33.Library.Awaiting
import Agent33.Library.Dict
import Mathlib.Data.Rat.Floor

/-!
# The connector boundary

The chain of middlewares around the handler of a connector: a policy, a timeout,
retries, the circuit breaker and the metrics. All calls of a connector go through
one breaker and count in the metrics of their request and in the collector. What
a call awaits is the handler, which returns, raises or is cut off.
-/

namespace Agent33.Connectors

open Library

/-- The request as an object of its own; of the metadata, what `float` makes of the timeout. -/
structure ConnectorRequest where
  id : ℕ
  connector : String
  operation : String
  timeoutSeconds : Option (Option (Except Raised ℚ)) := none

/-- The entry `boundary_metrics` of the metadata of a request. -/
structure BoundaryMetrics where
  calls : ℕ := 0
  success : ℕ := 0
  failure : ℕ := 0

structure ConnectorStats where
  totalCalls : ℕ := 0
  successes : ℕ := 0
  failures : ℕ := 0

structure Boundary where
  circuit : Circuit
  metrics : ℕ → BoundaryMetrics := fun _ => {}
  stats : Dict String ConnectorStats := Dict.empty

def Boundary.updateMetrics (s : Boundary) (request : ConnectorRequest)
    (f : BoundaryMetrics → BoundaryMetrics) : Boundary :=
  { s with metrics := Function.update s.metrics request.id (f (s.metrics request.id)) }

/-- `ConnectorMetricsCollector.record_call`. -/
def Boundary.recordCall (s : Boundary) (connector : String) (success : Bool) : Boundary :=
  let stats := s.stats.getD connector {}
  { s with
    stats := s.stats.set connector
      { totalCalls := stats.totalCalls + 1
        successes := if success then stats.successes + 1 else stats.successes
        failures := if success then stats.failures else stats.failures + 1 } }

abbrev BoundaryM (ρ α : Type) :=
  ExceptT Raised (Awaiting Boundary ConnectorRequest (Except Raised ρ)) α

abbrev ConnectorHandler (ρ : Type) := ConnectorRequest → BoundaryM ρ ρ

abbrev ConnectorMiddleware (ρ : Type) := ConnectorRequest → ConnectorHandler ρ → BoundaryM ρ ρ

section Chain

variable {ρ α : Type}

def onCircuit (x : BreakerM α) : BoundaryM ρ α :=
  Awaiting.perform (Hoare.zoom Boundary.circuit (fun circuit s => { s with circuit }) x)

def modifyBoundary (f : Boundary → Boundary) : BoundaryM ρ Unit :=
  ExceptT.lift (Awaiting.modify f)

def awaitHandler : ConnectorHandler ρ := fun request => do
  let outcome ← ExceptT.lift (Awaiting.await request)
  onCircuit (note (.ended (match outcome with
    | .ok _ => false
    | .error _ => true)))
  ExceptT.mk (pure outcome)

/-- `except Exception`: what is no such exception goes through. -/
def onException (body : BoundaryM ρ ρ) (handler : ErrorType → String → BoundaryM ρ ρ) :
    BoundaryM ρ ρ :=
  tryCatch body fun
    | .exception type message => handler type message
    | .interrupt kind => throw (.interrupt kind)

structure GovernanceDecision where
  allowed : Bool
  reason : String := ""

structure BlocklistConnectorPolicy where
  blockedConnectors : List String := []
  blockedOperations : List String := []

def BlocklistConnectorPolicy.evaluate (policy : BlocklistConnectorPolicy)
    (request : ConnectorRequest) : GovernanceDecision :=
  if request.connector ∈ policy.blockedConnectors then
    { allowed := false, reason := "connector blocked by policy: " ++ request.connector }
  else if request.operation ∈ policy.blockedOperations then
    { allowed := false, reason := "operation blocked by policy: " ++ request.operation }
  else
    { allowed := true }

def governanceMiddleware (policy : BlocklistConnectorPolicy) : ConnectorMiddleware ρ :=
  fun request callNext => do
    let decision := policy.evaluate request
    if decision.allowed then callNext request
    else
      let reason :=
        if decision.reason = "" then "connector call blocked by governance policy"
        else decision.reason
      throw (.exception .permissionError reason)

def circuitBreakerMiddleware : ConnectorMiddleware ρ := fun request callNext => do
  let call ← onCircuit admission
  let result ← onException (callNext request) fun type message => do
    onCircuit (do note (.failed call); recordFailure)
    throw (.exception type message)
  onCircuit (do note (.succeeded call); recordSuccess)
  pure result

/-- `f"{seconds:.2f}"`, for a number that is not negative. -/
def twoDecimals (seconds : ℚ) : String :=
  let whole := ⌊seconds * 100⌋.toNat
  let rest := seconds * 100 - whole
  let cents := if rest < 1 / 2 ∨ rest = 1 / 2 ∧ whole % 2 = 0 then whole else whole + 1
  let digits := toString (cents % 100)
  toString (cents / 100) ++ "." ++ (if cents % 100 < 10 then "0" ++ digits else digits)

def timeoutMiddleware (timeoutSeconds : ℚ) : ConnectorMiddleware ρ := fun request callNext => do
  match request.timeoutSeconds.getD (some (.ok timeoutSeconds)) with
  | none => callNext request
  | some (.error e) => throw e
  | some (.ok timeoutValue) =>
    if timeoutValue ≤ 0 then callNext request
    else
      let timedOut : BoundaryM ρ ρ := throw (.exception .timeoutError
        ("connector call timed out after " ++ twoDecimals timeoutValue ++ "s: " ++
          request.connector ++ "/" ++ request.operation))
      tryCatch (callNext request) fun
        | .interrupt .timer => timedOut
        | .exception .timeoutError _ => timedOut
        | e => throw e

def retryAttempts (request : ConnectorRequest) (callNext : ConnectorHandler ρ) :
    ℕ → Option Raised → BoundaryM ρ ρ
  | 0, none => throw (.exception .assertionError "")
  | 0, some lastError => throw lastError
  | remaining + 1, _ =>
    onException (callNext request) fun type message =>
      match type with
      | .permissionError | .circuitOpenError => throw (.exception type message)
      | _ => retryAttempts request callNext remaining (some (.exception type message))

def retryMiddleware (maxAttempts : ℤ) : ConnectorMiddleware ρ := fun request callNext =>
  retryAttempts request callNext (max 1 maxAttempts).toNat none

def metricsMiddleware (collector : Bool) : ConnectorMiddleware ρ := fun request callNext => do
  modifyBoundary fun s => s.updateMetrics request fun m => { m with calls := m.calls + 1 }
  let result ← onException (callNext request) fun type message => do
    modifyBoundary fun s => s.updateMetrics request fun m => { m with failure := m.failure + 1 }
    if collector then modifyBoundary fun s => s.recordCall request.connector false
    throw (.exception type message)
  modifyBoundary fun s => s.updateMetrics request fun m => { m with success := m.success + 1 }
  if collector then modifyBoundary fun s => s.recordCall request.connector true
  pure result

/-- `ConnectorExecutor.execute`. -/
def execute (middlewares : List (ConnectorMiddleware ρ)) (request : ConnectorRequest)
    (handler : ConnectorHandler ρ) : BoundaryM ρ ρ :=
  middlewares.foldr (fun middleware next request => middleware request next) handler request

inductive Task (κ : Type)
  | call (k : κ)
  | advance (seconds : ℚ≥0)

def Task.program {κ : Type} (body : κ → BoundaryM ρ ρ) :
    Task κ → Awaiting Boundary ConnectorRequest (Except Raised ρ) (Option (Except Raised ρ))
  | .call k => do
    let outcome ← (body k).run
    pure (some outcome)
  | .advance seconds => do
    Awaiting.modify fun s => { s with circuit.clock := s.circuit.clock + seconds }
    pure none

end Chain

structure Settings where
  connectorBoundaryEnabled : Bool := false
  connectorPolicyPack : String := "default"
  connectorGovernanceBlockedConnectors : String := ""
  connectorGovernanceBlockedOperations : String := ""
  connectorCircuitBreakerEnabled : Bool := false
  connectorCircuitFailureThreshold : ℤ := 3
  connectorCircuitRecoverySeconds : ℚ := 30
  connectorCircuitHalfOpenSuccesses : ℤ := 2
  connectorCircuitMaxRecoverySeconds : ℚ := 300

def parseCsv (value : String) : List String :=
  ((value.toList.splitOn ',').map Text.strip).filterMap fun item =>
    if item = [] then none else some (String.ofList item)

def policyPacks : List (String × List String × List String) :=
  [("default", [], []),
    ("strict-web",
      ["tool:web_fetch", "workflow:http_request", "search:searxng", "tool:reader"], []),
    ("mcp-readonly", [], ["tools/call"])]

def getPolicyPack (packName : String) : List String × List String :=
  if packName = "" then ([], []) else (policyPacks.lookup packName).getD ([], [])

def resolveBlocklists (settings : Settings) (policyPack : Option String) :
    BlocklistConnectorPolicy :=
  let packName := match policyPack with
    | none | some "" => settings.connectorPolicyPack
    | some name => name
  let (packBlockedConnectors, packBlockedOperations) := getPolicyPack packName
  { blockedConnectors :=
      packBlockedConnectors ++ parseCsv settings.connectorGovernanceBlockedConnectors
    blockedOperations :=
      packBlockedOperations ++ parseCsv settings.connectorGovernanceBlockedOperations }

structure BoundaryOptions where
  defaultTimeoutSeconds : Option ℚ := none
  retryAttempts : ℤ := 1
  policyPack : Option String := none
  metricsCollector : Bool := false

def buildConnectorBoundaryExecutor {ρ : Type} (settings : Settings) (options : BoundaryOptions) :
    Option (List (ConnectorMiddleware ρ)) :=
  if settings.connectorBoundaryEnabled then
    some <|
      [governanceMiddleware (resolveBlocklists settings options.policyPack)] ++
      (match options.defaultTimeoutSeconds with
        | none => []
        | some seconds => [timeoutMiddleware seconds]) ++
      (if 1 < options.retryAttempts then [retryMiddleware options.retryAttempts] else []) ++
      (if settings.connectorCircuitBreakerEnabled then [circuitBreakerMiddleware] else []) ++
      [metricsMiddleware options.metricsCollector]
  else none

def buildBreaker (settings : Settings) : CircuitBreaker where
  failureThreshold := settings.connectorCircuitFailureThreshold
  recoveryTimeoutSeconds := settings.connectorCircuitRecoverySeconds
  halfOpenSuccessThreshold := settings.connectorCircuitHalfOpenSuccesses
  maxRecoveryTimeoutSeconds := settings.connectorCircuitMaxRecoverySeconds

end Agent33.Connectors
