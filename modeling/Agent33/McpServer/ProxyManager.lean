import Agent33.Connectors.CircuitBreaker
import Agent33.Library.Dict
import Agent33.Library.History
import Agent33.Library.Json
import Mathlib.Data.List.Sort

/-!
# Children of the proxy

The handle of a proxied server: its state, the tools that were discovered on it, and the
governance that filters them.
-/

namespace Agent33.McpServer

open Library Connectors

inductive ChildServerState
  | starting
  | healthy
  | degraded
  | unhealthy
  | cooldown
  | stopped
  deriving DecidableEq

structure ProxyToolDefinition where
  name : Text
  description : Text := []
  inputSchema : Json := .obj [("type", .str "object"), ("properties", .obj [])]

inductive GovernancePolicy
  | allow
  | ask
  | deny
  deriving DecidableEq

structure ProxyServerGovernance where
  policy : GovernancePolicy := .allow
  allowedTools : List Text := [['*']]
  blockedTools : List Text := []
  deriving DecidableEq

structure ProxyServerConfig where
  id : Text
  toolPrefix : Text := []
  enabled : Bool := true
  maxConsecutiveFailures : ℤ := 3
  cooldownSeconds : ℚ := 120
  governance : ProxyServerGovernance := {}
  connection : Text := []
  deriving DecidableEq

def ProxyServerConfig.effectivePrefix (config : ProxyServerConfig) : Text :=
  if config.toolPrefix = [] then config.id else config.toolPrefix

inductive ProxyError
  | alreadyRegistered (id : Text)
  | noServer (name : Text)
  | cooldown (id : Text)
  | toolNotFound (id name : Text)
  | denyPolicy (id : Text)
  | askPolicy (id : Text)
  | blocked (id name : Text)
  | noHandler (id : Text)
  | breaker (raised : Raised)

structure ChildServerHandle where
  config : ProxyServerConfig
  state : ChildServerState := .stopped
  circuit : Circuit
  discoveredTools : Dict Text ProxyToolDefinition := Dict.empty
  consecutiveFailures : ℕ := 0
  lastError : Text := []
  hasCallHandler : Bool := false
  named : ∀ name tool, discoveredTools.get? name = some tool → tool.name = name := by
    intro name tool h
    cases h

namespace ChildServerHandle

def create (config : ProxyServerConfig) (clock : ℚ) : ChildServerHandle where
  config := config
  circuit := {
    breaker := {
      failureThreshold := config.maxConsecutiveFailures
      recoveryTimeoutSeconds := config.cooldownSeconds }
    clock := clock }

abbrev HandleM := EStateM ProxyError ChildServerHandle

def onCircuit {α : Type} (x : BreakerM α) : HandleM α := fun handle =>
  match x.run handle.circuit with
  | .ok a circuit => .ok a { handle with circuit }
  | .error e circuit => .error (.breaker e) { handle with circuit }

def start (handle : ChildServerHandle) : ChildServerHandle :=
  if handle.config.enabled then
    { handle with state := .healthy, consecutiveFailures := 0, lastError := [] }
  else { handle with state := .stopped }

def stop (handle : ChildServerHandle) : ChildServerHandle :=
  { handle with
    state := .stopped
    discoveredTools := Dict.empty
    named := by
      intro name tool h
      cases h }

def recordSuccess : HandleM Unit := do
  onCircuit Connectors.recordSuccess
  modify fun handle =>
    if handle.circuit.breaker.state = .closed then
      { handle with state := .healthy, consecutiveFailures := 0 }
    else handle

def healthCheck : HandleM Unit := do
  if (← get).state = .cooldown then
    match Connectors.beforeCall.run (← get).circuit with
    | .ok _ circuit => modify fun handle => { handle with circuit, state := .degraded }
    | .error e circuit =>
      modify fun handle => { handle with circuit }
      if e = .exception .circuitOpenError "Circuit is open" then pure () else throw (.breaker e)
  else pure ()
  if (← get).state = .healthy ∨ (← get).state = .degraded then recordSuccess else pure ()

def recordFailure (error : Text) : HandleM Unit := do
  modify fun handle =>
    { handle with consecutiveFailures := handle.consecutiveFailures + 1, lastError := error }
  onCircuit Connectors.recordFailure
  modify fun handle =>
    if handle.circuit.breaker.state = .opened then { handle with state := .cooldown }
    else if handle.state = .healthy then { handle with state := .degraded }
    else handle

def registerTools (tools : List ProxyToolDefinition) (handle : ChildServerHandle) :
    ChildServerHandle :=
  { handle with
    discoveredTools := Dict.ofList (tools.map fun tool => (tool.name, tool))
    named := by
      intro name tool h
      obtain ⟨listed, -, hlisted⟩ := List.mem_map.mp (Dict.mem_of_get?_ofList h)
      rw [Prod.mk.injEq] at hlisted
      rw [← hlisted.2, hlisted.1] }

def shows (governance : ProxyServerGovernance) (toolName : Text) : Bool :=
  decide (toolName ∉ governance.blockedTools ∧
    (governance.allowedTools = [['*']] ∨ toolName ∈ governance.allowedTools))

def listTools (handle : ChildServerHandle) : List ProxyToolDefinition :=
  handle.discoveredTools.values.filter fun tool => shows handle.config.governance tool.name

def callTool (toolName : Text) : HandleM Unit := do
  let handle ← get
  let id := handle.config.id
  match Connectors.beforeCall.run handle.circuit with
  | .error e circuit =>
    set { handle with circuit }
    if e = .exception .circuitOpenError "Circuit is open" then throw (.cooldown id)
    else throw (.breaker e)
  | .ok _ circuit =>
    set { handle with circuit }
    if (handle.discoveredTools.get? toolName).isNone then throw (.toolNotFound id toolName)
    else if handle.config.governance.policy = .deny then throw (.denyPolicy id)
    else if handle.config.governance.policy = .ask then throw (.askPolicy id)
    else if toolName ∈ handle.config.governance.blockedTools then throw (.blocked id toolName)
    else if handle.hasCallHandler then pure ()
    else
      recordFailure ("Proxy server '".toList ++ id ++ "' has no tool execution handler".toList)
      throw (.noHandler id)

end ChildServerHandle

end Agent33.McpServer

/-!
## The proxy manager

The fleet of proxied servers: its children are started, added, removed, restarted and
reloaded, their tools are listed under prefixed names, and a call is routed by its
prefixed name.
-/

namespace Agent33.McpServer

open Library

def defaultToolSeparator : Text := ['_', '_']

structure ProxyManager where
  servers : List ProxyServerConfig := []
  toolSeparator : Text := defaultToolSeparator
  healthCheckEnabled : Bool := true
  children : Dict Text ChildServerHandle := Dict.empty
  nativeToolNames : List Text := []
  clock : ℚ := 0
  keyed : ∀ id handle, children.get? id = some handle → handle.config.id = id := by
    intro id handle h
    cases h

namespace ProxyManager

variable (m : ProxyManager)

def put (handle : ChildServerHandle) : ProxyManager :=
  { m with
    children := m.children.set handle.config.id handle
    keyed := by
      intro id other h
      rw [Dict.get?_set] at h
      split_ifs at h with heq
      · rw [← Option.some.inj h, heq]
      · exact m.keyed id other h }

def remove (id : Text) : ProxyManager :=
  { m with
    children := m.children.erase id
    keyed := by
      intro other handle h
      rw [Dict.get?_erase] at h
      split_ifs at h
      exact m.keyed other handle h }

def tick (now : ℚ) : ProxyManager :=
  { m with
    clock := now
    children := m.children.mapValues fun _ handle =>
      { handle with circuit := { handle.circuit with clock := now } }
    keyed := by
      intro id handle h
      rw [Dict.get?_mapValues, Option.map_eq_some_iff] at h
      obtain ⟨old, hold, rfl⟩ := h
      exact m.keyed id old hold }

abbrev ManagerM := EStateM ProxyError ProxyManager

def onChild (id : Text) (x : ChildServerHandle.HandleM Unit) : ManagerM Unit := fun m =>
  match m.children.get? id with
  | none => .ok () m
  | some handle =>
    match x.run handle with
    | .ok _ handle' => .ok () (m.put handle')
    | .error e handle' => .error e (m.put handle')

def openChild (config : ProxyServerConfig) : ManagerM Unit := do
  let handle := ChildServerHandle.create config (← get).clock
  modify fun m => m.put handle
  if config.enabled then onChild config.id (modify ChildServerHandle.start) else pure ()

def startAll : ManagerM Unit := do
  for config in (← get).servers do
    if ((← get).children.get? config.id).isSome then pure ()
    else openChild config

def stopAll : ManagerM Unit := do
  for handle in (← get).children.values.reverse do
    if handle.state ≠ .stopped then onChild handle.config.id (modify ChildServerHandle.stop)
    else pure ()

def addServer (config : ProxyServerConfig) : ManagerM Unit := do
  if ((← get).children.get? config.id).isSome then throw (.alreadyRegistered config.id)
  else openChild config

def removeServer (serverId : Text) : ManagerM Bool := do
  if ((← get).children.get? serverId).isNone then pure false
  else
    onChild serverId (modify ChildServerHandle.stop)
    modify fun m => m.remove serverId
    pure true

def refreshHealth : ManagerM Unit := do
  if (← get).healthCheckEnabled then
    for id in (← get).children.keys do
      onChild id ChildServerHandle.healthCheck
  else pure ()

def setNativeToolNames (names : List Text) : ManagerM Unit :=
  modify fun m => { m with nativeToolNames := names }

structure AggregatedTool where
  name : Text
  description : Text
  inputSchema : Json
  proxyServerId : Text
  originalName : Text

def running (handle : ChildServerHandle) : Bool :=
  handle.state = .healthy ∨ handle.state = .degraded

def prefixedName (handle : ChildServerHandle) (tool : Text) : Text :=
  handle.config.effectivePrefix ++ m.toolSeparator ++ tool

def entries (handle : ChildServerHandle) : List AggregatedTool :=
  handle.listTools.map fun tool => {
    name := m.prefixedName handle tool.name
    description := ['['] ++ handle.config.effectivePrefix ++ [']', ' '] ++ tool.description
    inputSchema := tool.inputSchema
    proxyServerId := handle.config.id
    originalName := tool.name }

def listAggregatedTools : List AggregatedTool :=
  (m.children.values.filter running).flatMap m.entries

structure Check where
  collisions : List Text := []
  seen : Dict Text Text := Dict.empty

def Check.visit (native : List Text) (check : Check) (entry : Text × Text) : Check :=
  let tool := "Proxy tool '".toList ++ entry.1 ++ "' from server '".toList ++ entry.2
  if entry.1 ∈ native then
    { check with
      collisions := check.collisions ++ [tool ++ "' collides with native tool".toList] }
  else
    match check.seen.get? entry.1 with
    | some other =>
      { check with
        collisions := check.collisions ++
          [tool ++ "' collides with server '".toList ++ other ++ ['\'']] }
    | none => { check with seen := check.seen.set entry.1 entry.2 }

def shown (handles : List ChildServerHandle) : List (Text × Text) :=
  handles.flatMap fun handle =>
    handle.listTools.map fun tool => (m.prefixedName handle tool.name, handle.config.id)

def collisionsAmong (handles : List ChildServerHandle) : List Text :=
  ((m.shown handles).foldl (Check.visit m.nativeToolNames) {}).collisions

def checkCollisions : List Text := m.collisionsAmong m.children.values

def unprefixed? (prefixedToolName : Text) (handle : ChildServerHandle) : Option Text :=
  let expected := handle.config.effectivePrefix ++ m.toolSeparator
  if running handle ∧ expected <+: prefixedToolName then
    let tool := prefixedToolName.drop expected.length
    if (handle.discoveredTools.get? tool).isSome then some tool else none
  else none

def resolveServerForTool (prefixedToolName : Text) : Option (ChildServerHandle × Text) :=
  m.children.values.findSome? fun handle =>
    (m.unprefixed? prefixedToolName handle).map fun tool => (handle, tool)

def callProxyTool (prefixedToolName : Text) : ManagerM (Text × Text) := do
  match (← get).resolveServerForTool prefixedToolName with
  | none => throw (.noServer prefixedToolName)
  | some (handle, tool) =>
    onChild handle.config.id (ChildServerHandle.callTool tool)
    pure (handle.config.id, tool)

def restart (id : Text) : ManagerM Unit := do
  onChild id (modify ChildServerHandle.stop)
  onChild id (modify ChildServerHandle.start)

def restartAll : ManagerM (List Text) := do
  let mut restarted := []
  for handle in (← get).children.values do
    if handle.config.enabled then
      restart handle.config.id
      restarted := restarted ++ [handle.config.id]
    else pure ()
  return restarted

def serverConfigChanged (old new : ProxyServerConfig) : Bool := { old with id := new.id } ≠ new

structure ConfigDiff where
  toAdd : List Text
  toRemove : List Text
  toRestart : List Text
  unchanged : List Text

def sortedIds (ids : List Text) : List Text := ids.insertionSort fun a b => a ≤ b

def byId (servers : List ProxyServerConfig) : Dict Text ProxyServerConfig :=
  Dict.ofList (servers.map fun server => (server.id, server))

variable (newById : Dict Text ProxyServerConfig) (id : Text)

def changed : Bool :=
  match m.children.get? id, newById.get? id with
  | some handle, some config => serverConfigChanged handle.config config
  | _, _ => false

def diffConfig (newConfig : List ProxyServerConfig) : ConfigDiff :=
  let newById := byId newConfig
  let common := sortedIds (m.children.keys.filter fun id => id ∈ newById.keys)
  { toAdd := sortedIds (newById.keys.filter fun id => id ∉ m.children.keys)
    toRemove := sortedIds (m.children.keys.filter fun id => id ∉ newById.keys)
    toRestart := common.filter fun id => m.changed newById id
    unchanged := common.filter fun id => ¬ m.changed newById id }

structure ReloadResult where
  added : List Text
  restarted : List Text
  removed : List Text
  unchanged : List Text
  errors : List (Text × String × ProxyError)

def attempt (x : ManagerM Unit) : ManagerM (Option ProxyError) :=
  tryCatch (do x; pure none) fun e => pure (some e)

def attemptAll (operation : String) (x : Text → ManagerM Unit) (ids : List Text) :
    ManagerM (List Text × List (Text × String × ProxyError)) := do
  let mut did := []
  let mut errors := []
  for id in ids do
    match ← attempt (x id) with
    | none => did := did ++ [id]
    | some e => errors := errors ++ [(id, operation, e)]
  return (did, errors)

def addFrom : ManagerM Unit := do
  match newById.get? id with
  | none => pure ()
  | some config => addServer config

def replaceFrom : ManagerM Unit := do
  onChild id (modify ChildServerHandle.stop)
  match newById.get? id with
  | none => pure ()
  | some config => openChild config

def reloadConfig (newConfig : List ProxyServerConfig) : ManagerM ReloadResult := do
  let diff := (← get).diffConfig newConfig
  let newById := byId newConfig
  let added ← attemptAll "add" (addFrom newById) diff.toAdd
  let restarted ← attemptAll "restart" (replaceFrom newById) diff.toRestart
  let removed ← attemptAll "remove" (fun id => do discard (removeServer id)) diff.toRemove
  modify fun m => { m with servers := newConfig }
  return {
    added := added.1, restarted := restarted.1, removed := removed.1
    unchanged := diff.unchanged, errors := added.2 ++ restarted.2 ++ removed.2 }

inductive Op
  | startAll
  | stopAll
  | addServer (config : ProxyServerConfig)
  | removeServer (serverId : Text)
  | refreshHealth
  | setNativeToolNames (names : List Text)
  | restart (serverId : Text)
  | restartAll
  | reloadConfig (newConfig : List ProxyServerConfig)
  | callProxyTool (prefixedToolName : Text)
  | healthCheck (serverId : Text)
  | recordFailure (serverId error : Text)
  | recordSuccess (serverId : Text)
  | registerTools (serverId : Text) (tools : List ProxyToolDefinition)
  | setCallHandler (serverId : Text) (present : Bool)
  | tick (now : ℚ)

def Op.run : Op → ManagerM Unit
  | .startAll => ProxyManager.startAll
  | .stopAll => ProxyManager.stopAll
  | .addServer config => ProxyManager.addServer config
  | .removeServer serverId => do discard (ProxyManager.removeServer serverId)
  | .refreshHealth => ProxyManager.refreshHealth
  | .setNativeToolNames names => ProxyManager.setNativeToolNames names
  | .restart serverId => ProxyManager.restart serverId
  | .restartAll => do discard ProxyManager.restartAll
  | .reloadConfig newConfig => do discard (ProxyManager.reloadConfig newConfig)
  | .callProxyTool name => do discard (ProxyManager.callProxyTool name)
  | .healthCheck serverId => onChild serverId ChildServerHandle.healthCheck
  | .recordFailure serverId error => onChild serverId (ChildServerHandle.recordFailure error)
  | .recordSuccess serverId => onChild serverId ChildServerHandle.recordSuccess
  | .registerTools serverId tools =>
    onChild serverId (modify (ChildServerHandle.registerTools tools))
  | .setCallHandler serverId present =>
    onChild serverId (modify fun handle => { handle with hasCallHandler := present })
  | .tick now => modify fun m => m.tick now

end ProxyManager

end Agent33.McpServer
