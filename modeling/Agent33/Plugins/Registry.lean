import Agent33.Library.Awaiting
import Agent33.Library.Dict
import Agent33.Library.Json

/-!
# The plugin registry

The plugins that were discovered, and the calls that take them through their life.
A call checks the state of the plugin, writes a new one and awaits code of the
plugin, and writes again when that code has returned or raised. Making the context
and the instance of a plugin, and writing the event store, may raise at each call
in a way of its own.
-/

namespace Agent33.Plugins

open Library

inductive PluginState
  | discovered
  | loading
  | loaded
  | enabling
  | active
  | disabled
  | unloading
  | unloaded
  | error
  deriving DecidableEq

def PluginState.value : PluginState → String
  | .discovered => "discovered"
  | .loading => "loading"
  | .loaded => "loaded"
  | .enabling => "enabling"
  | .active => "active"
  | .disabled => "disabled"
  | .unloading => "unloading"
  | .unloaded => "unloaded"
  | .error => "error"

def isSlug (name : String) : Bool :=
  match name.toList with
  | [] => false
  | c :: cs => c.isLower && cs.all (fun c => c.isLower || c.isDigit || c = '-') && cs.length < 64

structure PluginManifest where
  name : String
  version : String
  slug : isSlug name = true
  deriving DecidableEq

structure PluginContext where
  pluginName : String
  pluginDir : String
  grantedPermissions : List String := []
  pluginConfig : Dict String Json := Dict.empty
  deriving DecidableEq

structure PluginBase where
  manifest : PluginManifest
  context : PluginContext
  deriving DecidableEq

structure PluginEntry where
  manifest : PluginManifest
  pluginDir : String
  tenantId : String := ""
  state : PluginState := .discovered
  pluginInstance : Option PluginBase := none
  error : Option String := none

structure PluginLifecycleEvent where
  eventType : String
  pluginName : String
  version : String
  details : List (String × String)

structure PluginEventStore where
  events : List PluginLifecycleEvent := []
  maxEvents : ℕ := 500

structure TenantPluginConfig where
  tenantId : String
  pluginName : String
  enabled : Bool := true
  configOverrides : Dict String Json := Dict.empty
  permissionOverrides : Dict String Bool := Dict.empty
  deriving DecidableEq

structure PluginServices where
  plugins : Dict String PluginEntry := Dict.empty
  eventStore : Option PluginEventStore := none
  allowlist : Option (List String) := none
  configs : Dict String TenantPluginConfig := Dict.empty

inductive ErrorType
  | keyError
  | permissionError
  | runtimeError
  | conflictError
  | httpException (statusCode : ℕ)
  | other
  deriving DecidableEq

inductive PluginError
  | exception (type : ErrorType) (message : String)
  | cancelled
  deriving DecidableEq

inductive LifecycleMethod
  | onLoad
  | onEnable
  | onDisable
  | onUnload
  deriving DecidableEq

structure MethodCall where
  pluginInstance : PluginBase
  method : LifecycleMethod

/-- What a call meets that is not code of the registry. Persisting an event of a type, or
a configuration, does nothing else or raises an exception with a text. -/
structure Surroundings where
  contextFactory : PluginManifest → String → Except PluginError PluginContext
  pluginClass : PluginManifest → PluginContext → Except PluginError PluginBase
  persistEvent : String → Option String := fun _ => none
  persistConfig : Option String := none

abbrev PluginM := ExceptT PluginError (Awaiting PluginServices MethodCall (Except PluginError Unit))

def services : PluginM PluginServices := ExceptT.lift Awaiting.read

def modifyServices (f : PluginServices → PluginServices) : PluginM Unit :=
  ExceptT.lift (Awaiting.modify f)

def awaitMethod (pluginInstance : PluginBase) (method : LifecycleMethod) : PluginM Unit :=
  ExceptT.mk (Awaiting.await ⟨pluginInstance, method⟩)

/-- `except Exception`: a cancellation goes through. -/
def attempt (body : PluginM Unit) (handler : ErrorType → String → PluginM Unit) : PluginM Unit :=
  tryCatch body fun
    | .exception type message => handler type message
    | .cancelled => throw .cancelled

def PluginServices.setEntry (s : PluginServices) (name : String)
    (f : PluginEntry → PluginEntry) : PluginServices :=
  match s.plugins.get? name with
  | none => s
  | some entry => { s with plugins := s.plugins.set name (f entry) }

def setEntry (name : String) (f : PluginEntry → PluginEntry) : PluginM Unit :=
  modifyServices fun s => s.setEntry name f

def setState (name : String) (state : PluginState) : PluginM Unit :=
  setEntry name fun entry => { entry with state }

def PluginServices.record (s : PluginServices) (event : PluginLifecycleEvent) : PluginServices :=
  match s.eventStore with
  | none => s
  | some store =>
    let events := store.events ++ [event]
    { s with
      eventStore := some { store with events := events.drop (events.length - store.maxEvents) } }

section Calls

variable (env : Surroundings)

def recordEvent (eventType pluginName version : String) (details : List (String × String)) :
    PluginM Unit := do
  let s ← services
  modifyServices fun s => s.record { eventType, pluginName, version, details }
  match s.eventStore, env.persistEvent eventType with
  | some _, some text => throw (.exception .other text)
  | _, _ => pure ()

/-- The entry, or a `KeyError`. -/
def getEntry (name : String) : PluginM PluginEntry := do
  match (← services).plugins.get? name with
  | none => throw (.exception .keyError ("Plugin '" ++ name ++ "' not discovered"))
  | some entry => pure entry

def mayWrite (callerTenant ownerTenant : String) : Bool :=
  callerTenant = "" || ownerTenant = "" || ownerTenant = callerTenant

def checkTenantWrite (callerTenant ownerTenant operation name : String) : PluginM Unit :=
  if mayWrite callerTenant ownerTenant then pure ()
  else throw (.exception .permissionError ("Tenant '" ++ callerTenant ++ "' cannot " ++ operation ++
    " plugin '" ++ name ++ "' owned by tenant '" ++ ownerTenant ++ "'"))

def fail (operation name version : String) (type : ErrorType) (message : String) :
    PluginM Unit := do
  setEntry name fun entry => { entry with state := .error, error := some message }
  recordEvent env "error" name version [("operation", operation), ("error", message)]
  throw (.exception type message)

def loadInstance (name : String) (entry : PluginEntry) : PluginM Unit := do
  let context ← ExceptT.mk (pure (env.contextFactory entry.manifest entry.pluginDir))
  let pluginInstance ← ExceptT.mk (pure (env.pluginClass entry.manifest context))
  awaitMethod pluginInstance .onLoad
  setEntry name fun entry => { entry with pluginInstance := some pluginInstance, state := .loaded }
  recordEvent env "loaded" name entry.manifest.version []

variable (name tenantId : String)

def load : PluginM Unit := do
  let entry ← getEntry name
  if entry.state ≠ .discovered ∧ entry.state ≠ .unloaded then pure ()
  else
    unless tenantId = "" do
      setEntry name fun entry => { entry with tenantId }
    setState name .loading
    attempt (loadInstance env name entry) (fail env "load" name entry.manifest.version)

def enable : PluginM Unit := do
  let entry ← getEntry name
  checkTenantWrite tenantId entry.tenantId "enable" name
  if entry.state ≠ .loaded ∧ entry.state ≠ .disabled then
    throw (.exception .runtimeError ("Cannot enable plugin '" ++ name ++ "' in state " ++
      entry.state.value ++ ". Must be LOADED or DISABLED."))
  else
    setState name .enabling
    attempt
      (do
        match entry.pluginInstance with
        | none => pure ()
        | some pluginInstance => awaitMethod pluginInstance .onEnable
        setState name .active
        recordEvent env "enabled" name entry.manifest.version [])
      (fail env "enable" name entry.manifest.version)

def disable : PluginM Unit := do
  let entry ← getEntry name
  checkTenantWrite tenantId entry.tenantId "disable" name
  if entry.state ≠ .active then
    throw (.exception .runtimeError ("Cannot disable plugin '" ++ name ++ "' in state " ++
      entry.state.value ++ ". Must be ACTIVE."))
  else
    setState name .disabled
    match entry.pluginInstance with
    | none => pure ()
    | some pluginInstance => attempt (awaitMethod pluginInstance .onDisable) fun _ _ => pure ()
    recordEvent env "disabled" name entry.manifest.version []

def instanceOf (name : String) : PluginM (Option PluginBase) := do
  return ((← services).plugins.get? name).bind (·.pluginInstance)

def unloadInstance (name version : String) : PluginM Unit := do
  setState name .unloading
  match ← instanceOf name with
  | none => pure ()
  | some pluginInstance => attempt (awaitMethod pluginInstance .onUnload) fun _ _ => pure ()
  setEntry name fun entry => { entry with pluginInstance := none, state := .unloaded }
  recordEvent env "unloaded" name version []

def unload : PluginM Unit := do
  let entry ← getEntry name
  checkTenantWrite tenantId entry.tenantId "unload" name
  if entry.state = .active then
    disable env name ""
  unloadInstance env name entry.manifest.version

def isAllowed (s : PluginServices) (name : String) : Bool :=
  match s.allowlist with
  | none => true
  | some allowed => allowed = [] || name ∈ allowed

def discoverPlugin (manifest : PluginManifest) (pluginDir tenantId : String) : PluginM Unit := do
  let s ← services
  if isAllowed s manifest.name then
    match s.plugins.get? manifest.name with
    | some existing => throw (.exception .conflictError ("Plugin '" ++ manifest.name ++
        "' already discovered from " ++ existing.pluginDir))
    | none =>
      modifyServices fun s =>
        { s with plugins := s.plugins.set manifest.name { manifest, pluginDir, tenantId } }
      recordEvent env "discovered" manifest.name manifest.version
        [("plugin_dir", pluginDir), ("tenant_id", tenantId)]
  else
    throw (.exception .permissionError
      ("Plugin '" ++ manifest.name ++ "' is not on the plugin allowlist"))

def remove : PluginM Bool := do
  match (← services).plugins.get? name with
  | none => pure false
  | some entry =>
    checkTenantWrite tenantId entry.tenantId "remove" name
    if entry.state ≠ .discovered ∧ entry.state ≠ .unloaded then
      throw (.exception .runtimeError ("Cannot remove plugin '" ++ name ++ "' in state " ++
        entry.state.value ++ ". Unload it first."))
    else
      modifyServices fun s => { s with plugins := s.plugins.erase name }
      recordEvent env "removed" name entry.manifest.version []
      pure true

end Calls

end Agent33.Plugins
