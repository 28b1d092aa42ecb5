import Agent33.Plugins.Turns

/-!
# Plugin configuration

The stored configurations of the plugins by tenant, and the route that updates one.
The configuration of a plugin that is loaded is in the context of its instance; it
follows the stored one of the tenant that owns the plugin.
-/

namespace Agent33.Plugins

open Library Awaiting

structure PluginConfigUpdate where
  config : Dict String Json := Dict.empty
  enabled : Option Bool := none
  permissionOverrides : Option (Dict String Bool) := none

def configKey (pluginName tenantId : String) : String :=
  (if tenantId = "" then "__global__" else tenantId) ++ ":" ++ pluginName

def getConfig (s : PluginServices) (pluginName tenantId : String) : Option TenantPluginConfig :=
  s.configs.get? (configKey pluginName tenantId)

def updatedConfig (existing : Option TenantPluginConfig) (pluginName tenantId : String)
    (update : PluginConfigUpdate) : TenantPluginConfig :=
  let record : TenantPluginConfig :=
    match existing with
    | none => { tenantId, pluginName }
    | some existing => { existing with tenantId, pluginName }
  let record := match update.enabled with
    | none => record
    | some enabled => { record with enabled }
  let record :=
    if update.config = Dict.empty then record
    else { record with configOverrides := record.configOverrides.update update.config }
  match update.permissionOverrides with
  | none => record
  | some overrides =>
    if overrides = Dict.empty then record
    else { record with permissionOverrides := record.permissionOverrides.update overrides }

def PluginServices.visible (s : PluginServices) (name tenantId : String) : Option PluginEntry :=
  match s.plugins.get? name with
  | none => none
  | some entry => if mayWrite tenantId entry.tenantId then some entry else none

theorem visible_eq_some {s : PluginServices} {name tenantId : String} {entry : PluginEntry}
    (h : s.visible name tenantId = some entry) :
    s.plugins.get? name = some entry ∧ mayWrite tenantId entry.tenantId = true := by
  rw [PluginServices.visible] at h
  cases hget : s.plugins.get? name with
  | none => simp [hget] at h
  | some found =>
    simp only [hget, Option.ite_none_right_eq_some, Option.some.injEq] at h
    obtain ⟨hmay, rfl⟩ := h
    exact ⟨rfl, hmay⟩

def PluginEntry.setConfig (entry : PluginEntry) (config : Dict String Json) : PluginEntry :=
  { entry with
    pluginInstance := entry.pluginInstance.map fun p =>
      { p with context := { p.context with pluginConfig := config } } }

def tenantFilter (tenantId : String) : Option String :=
  if tenantId = "" then none else some tenantId

theorem getD_tenantFilter (tenantId : String) : (tenantFilter tenantId).getD "" = tenantId := by
  rw [tenantFilter]
  split_ifs with h
  · exact h.symm
  · rfl

section Route

variable (env : Surroundings)

def putConfig (pluginName tenantId : String) (update : PluginConfigUpdate) :
    PluginM TenantPluginConfig := do
  let record :=
    updatedConfig (getConfig (← services) pluginName tenantId) pluginName tenantId update
  modifyServices fun s => { s with configs := s.configs.set (configKey pluginName tenantId) record }
  match env.persistConfig with
  | none => pure record
  | some message => throw (.exception .other message)

def followConfig (name : String) (tenantId : Option String) (entry : PluginEntry)
    (config : TenantPluginConfig) : PluginM Unit :=
  if entry.pluginInstance.isSome ∧ tenantId = some entry.tenantId then
    setEntry name fun entry => entry.setConfig config.configOverrides
  else pure ()

def followEnabled (name tenantId : String) (entry : PluginEntry) (enabled : Option Bool) :
    PluginM Unit :=
  if enabled = some true ∧ (entry.state = .loaded ∨ entry.state = .disabled) then
    enable env name tenantId
  else if enabled = some false ∧ entry.state = .active then
    disable env name tenantId
  else pure ()

def recordConfigUpdated (name version tenantId requestedBy : String) : PluginM Unit := do
  match (← services).eventStore with
  | none => throw (.exception (.httpException 503) "Plugin event store not initialized")
  | some _ =>
    recordEvent env "config_updated" name version
      [("tenant_id", tenantId), ("requested_by", requestedBy)]

/-- `tenantId` is `none` for an administrator. -/
def updatePluginConfig (name : String) (tenantId : Option String) (requestedBy : String)
    (update : PluginConfigUpdate) : PluginM TenantPluginConfig := do
  match (← services).visible name (tenantId.getD "") with
  | none => throw (.exception (.httpException 404) ("Plugin '" ++ name ++ "' not found"))
  | some entry =>
    let config ← putConfig env name (tenantId.getD "") update
    followConfig name tenantId entry config
    followEnabled env name (tenantId.getD "") entry update.enabled
    recordConfigUpdated env name entry.manifest.version (tenantId.getD "") requestedBy
    pure config

end Route

end Agent33.Plugins

/-!
## Plugins of other tenants

A call may change the plugin that it names, and of that one no more than it is
allowed by who owns it. What it leaves as it is is an invariant that every action
of the call keeps.
-/

namespace Agent33.Plugins

open Library Awaiting

section Keeps

variable {I : PluginServices → Prop} {name tenantId : String}

theorem keeps_services {α : Type} {g : PluginServices → PluginM α}
    (h : ∀ s, I s → Keeps I (g s).run) : Keeps I (services >>= g).run :=
  fun s hs => ⟨hs, h s hs⟩

theorem keeps_getEntry (name : String) : Keeps I (getEntry name).run := by
  refine keeps_services fun s _ => ?_
  split
  · exact trivial
  · exact trivial

theorem keeps_of_getEntry {α : Type} {g : PluginEntry → PluginM α}
    (h : ∀ s entry, I s → s.plugins.get? name = some entry → Keeps I (g entry).run) :
    Keeps I (getEntry name >>= g).run := by
  refine fun s hs => ⟨hs, ?_⟩
  have hfound : ∀ found, s.plugins.get? name = found → Keeps I ((match found with
      | none => throw (.exception .keyError ("Plugin '" ++ name ++ "' not discovered"))
      | some entry => pure entry : PluginM PluginEntry) >>= g).run := by
    intro found hget
    cases found with
    | none => exact trivial
    | some entry => exact h s entry hs hget
  exact hfound _ rfl

theorem keeps_checkTenantWrite (callerTenant ownerTenant operation name : String) :
    Keeps I (checkTenantWrite callerTenant ownerTenant operation name).run := by
  rw [checkTenantWrite]
  split_ifs
  · exact trivial
  · exact trivial

theorem keeps_awaitMethod (p : PluginBase) (method : LifecycleMethod) :
    Keeps I (awaitMethod p method).run :=
  keeps_await _

variable {f : PluginEntry → PluginEntry}

theorem keeps_setEntry (h : ∀ s, I s → I (s.setEntry name f)) : Keeps I (setEntry name f).run :=
  Keeps.lift (keeps_modify h)

theorem keeps_attempt
    (hbody : Keeps I body.run) (hhandler : ∀ type message, Keeps I (handler type message).run) :
    Keeps I (attempt body handler).run := by
  refine Keeps.tryCatch hbody fun e => ?_
  cases e with
  | exception type message => exact hhandler type message
  | cancelled => exact trivial

def IgnoresEvents (I : PluginServices → Prop) : Prop := ∀ s event, I s → I (s.record event)

theorem keeps_recordEvent (hrecord : IgnoresEvents I) (eventType pluginName version : String)
    (details : List (String × String)) :
    Keeps I (recordEvent env eventType pluginName version details).run := by
  refine keeps_services fun s _ => Keeps.bind (Keeps.lift (keeps_modify ?_)) fun _ => ?_
  · exact fun s => hrecord s _
  · split
    · exact trivial
    · exact trivial

def KeptBy (I : PluginServices → Prop) (name : String) (A : (PluginEntry → PluginEntry) → Prop) :
    Prop :=
  ∀ f, A f → ∀ s, I s → I (s.setEntry name f)

def Marks (f : PluginEntry → PluginEntry) : Prop :=
  ∀ entry, (f entry).tenantId = entry.tenantId ∧ (f entry).pluginInstance = entry.pluginInstance

def KeepsOwner (f : PluginEntry → PluginEntry) : Prop :=
  ∀ entry, (f entry).tenantId = entry.tenantId

theorem keeps_setState (h : KeptBy I name Marks) (state : PluginState) :
    Keeps I (setState name state).run :=
  keeps_setEntry (h _ fun _ => ⟨rfl, rfl⟩)

section

variable (hrecord : IgnoresEvents I) (h : KeptBy I name Marks)
include hrecord h

theorem keeps_fail (operation version : String) (type : ErrorType) (message : String) :
    Keeps I (fail env operation name version type message).run :=
  Keeps.bind (keeps_setEntry (h _ fun _ => ⟨rfl, rfl⟩)) fun _ =>
    Keeps.bind (keeps_recordEvent hrecord _ _ _ _) fun _ => trivial

theorem keeps_enable : Keeps I (enable env name tenantId).run := by
  refine Keeps.bind (keeps_getEntry name) fun entry =>
    Keeps.bind (keeps_checkTenantWrite _ _ _ _) fun _ => ?_
  split_ifs
  · exact trivial
  refine Keeps.bind (keeps_setState h _) fun _ =>
    keeps_attempt ?_ (keeps_fail hrecord h _ _)
  have hrest : Keeps I (do
      setState name .active
      recordEvent env "enabled" name entry.manifest.version []).run :=
    Keeps.bind (keeps_setState h _) fun _ => keeps_recordEvent hrecord _ _ _ _
  cases entry.pluginInstance with
  | none => exact hrest
  | some p => exact Keeps.bind (keeps_awaitMethod p _) fun _ => hrest

theorem keeps_disable : Keeps I (disable env name tenantId).run := by
  refine Keeps.bind (keeps_getEntry name) fun entry =>
    Keeps.bind (keeps_checkTenantWrite _ _ _ _) fun _ => ?_
  split_ifs
  · exact trivial
  refine Keeps.bind (keeps_setState h _) fun _ => ?_
  cases entry.pluginInstance with
  | none => exact keeps_recordEvent hrecord _ _ _ _
  | some p =>
    exact Keeps.bind (keeps_attempt (keeps_awaitMethod p _) fun _ _ => trivial) fun _ =>
      keeps_recordEvent hrecord _ _ _ _

end

theorem KeptBy.mono {A B : (PluginEntry → PluginEntry) → Prop} (h : KeptBy I name B)
    (hAB : ∀ f, A f → B f) : KeptBy I name A :=
  fun f hf => h f (hAB f hf)

theorem Marks.keepsOwner (h : Marks f) : KeepsOwner f :=
  fun entry => (h entry).1

theorem keeps_unload (hrecord : IgnoresEvents I) (h : KeptBy I name KeepsOwner) :
    Keeps I (unload env name tenantId).run := by
  have hmarks : KeptBy I name Marks := h.mono fun _ => Marks.keepsOwner
  have hrest : ∀ version, Keeps I (unloadInstance env name version).run := by
    intro version
    refine Keeps.bind (keeps_setState hmarks _) fun _ =>
      Keeps.bind (keeps_services fun s _ => trivial) fun found => ?_
    have hend : Keeps I (do
        setEntry name fun entry => { entry with pluginInstance := none, state := .unloaded }
        recordEvent env "unloaded" name version []).run :=
      Keeps.bind (keeps_setEntry (h _ fun _ => rfl)) fun _ => keeps_recordEvent hrecord _ _ _ _
    cases found with
    | none => exact hend
    | some p =>
      exact Keeps.bind (keeps_attempt (keeps_awaitMethod p _) fun _ _ => trivial) fun _ => hend
  refine Keeps.bind (keeps_getEntry name) fun entry =>
    Keeps.bind (keeps_checkTenantWrite _ _ _ _) fun _ => ?_
  split_ifs
  · exact Keeps.bind (keeps_disable hrecord hmarks) fun _ => hrest _
  · exact hrest _

theorem keeps_load (hrecord : IgnoresEvents I) (h : KeptBy I name fun _ => True) :
    Keeps I (load env name tenantId).run := by
  have hmarks : KeptBy I name Marks := h.mono fun _ _ => trivial
  have hset : ∀ f, Keeps I (setEntry name f).run := fun f => keeps_setEntry (h f trivial)
  have hattempt : ∀ entry : PluginEntry, Keeps I (attempt (loadInstance env name entry)
      (fail env "load" name entry.manifest.version)).run := by
    intro entry
    refine keeps_attempt ?_ (keeps_fail hrecord hmarks _ _)
    refine Keeps.bind (keeps_pure _) fun context => Keeps.bind (keeps_pure _) fun p =>
      Keeps.bind (keeps_awaitMethod p _) fun _ => Keeps.bind (hset _) fun _ =>
        keeps_recordEvent hrecord _ _ _ _
  refine Keeps.bind (keeps_getEntry name) fun entry => ?_
  split_ifs
  · exact trivial
  · exact Keeps.bind (keeps_setState hmarks _) fun _ => hattempt entry
  · exact Keeps.bind (hset _) fun _ => Keeps.bind (keeps_setState hmarks _) fun _ => hattempt entry

theorem keeps_updatePluginConfig {tenantId : Option String} {requestedBy : String}
    {update : PluginConfigUpdate} (hrecord : IgnoresEvents I) (h : KeptBy I name Marks)
    (hvisible : ∀ s entry, I s → s.visible name (tenantId.getD "") = some entry →
      (∀ s' record, I s' →
        I { s' with configs := s'.configs.set (configKey name (tenantId.getD "")) record }) ∧
      (tenantId = some entry.tenantId → KeptBy I name KeepsOwner)) :
    Keeps I (updatePluginConfig env name tenantId requestedBy update).run := by
  refine keeps_services fun s hs => ?_
  cases hfound : s.visible name (tenantId.getD "") with
  | none => exact trivial
  | some entry =>
    obtain ⟨hput, hown⟩ := hvisible s entry hs hfound
    refine Keeps.bind ?_ fun config => Keeps.bind ?_ fun _ => Keeps.bind ?_ fun _ =>
      Keeps.bind ?_ fun _ => trivial
    · refine keeps_services fun s _ => Keeps.bind (Keeps.lift (keeps_modify ?_)) fun _ => ?_
      · exact fun s' => hput s' _
      · split
        · exact trivial
        · exact trivial
    · rw [followConfig]
      split_ifs with howned
      · exact keeps_setEntry (hown howned.2 _ fun _ => rfl)
      · exact trivial
    · rw [followEnabled]
      split_ifs
      · exact keeps_enable hrecord h
      · exact keeps_disable hrecord h
      · exact trivial
    · refine keeps_services fun s _ => ?_
      cases s.eventStore with
      | none => exact trivial
      | some store => exact keeps_recordEvent hrecord _ _ _ _

end Keeps

theorem notMem_of_isSlug (h : isSlug name = true) : ':' ∉ name.toList := by
  rw [isSlug] at h
  cases hname : name.toList with
  | nil => exact List.not_mem_nil
  | cons c cs =>
    rw [hname] at h
    simp only [Bool.and_eq_true, List.all_eq_true] at h
    obtain ⟨⟨hc, hcs⟩, -⟩ := h
    intro hmem
    rcases List.mem_cons.mp hmem with rfl | hmem
    · exact absurd hc (by decide)
    · exact absurd (hcs ':' hmem) (by decide)

theorem name_eq_of_configKey (h : isSlug name = true)
    (h' : isSlug name' = true) (heq : configKey name tenantId = configKey name' tenantId') :
    name = name' := by
  have hend : ∀ (xs cs : List Char), ':' ∉ cs → (xs ++ ':' :: cs).rtakeWhile (· ≠ ':') = cs := by
    intro xs cs hcs
    have hpos : ∀ c ∈ cs.reverse, decide (c ≠ ':') = true := by
      intro c hc
      refine decide_eq_true fun hcolon => hcs ?_
      rw [← hcolon]
      exact List.mem_reverse.mp hc
    rw [List.rtakeWhile, List.reverse_append, List.reverse_cons, List.append_assoc,
      List.takeWhile_append_of_pos hpos]
    simp
  have hlists := congrArg String.toList heq
  simp only [configKey, String.toList_append, List.append_assoc] at hlists
  have hcolon : ":".toList = [':'] := rfl
  rw [hcolon, List.singleton_append, List.singleton_append] at hlists
  have hname := congrArg (List.rtakeWhile (· ≠ ':')) hlists
  rw [hend _ _ (notMem_of_isSlug h), hend _ _ (notMem_of_isSlug h')] at hname
  exact String.toList_inj.mp hname

def WellNamed (s : PluginServices) : Prop :=
  ∀ name entry, s.plugins.get? name = some entry → isSlug name = true

variable (s : PluginServices) (event : PluginLifecycleEvent)

theorem record_plugins : (s.record event).plugins = s.plugins := by
  rw [PluginServices.record]
  cases s.eventStore <;> rfl

theorem record_configs : (s.record event).configs = s.configs := by
  rw [PluginServices.record]
  cases s.eventStore <;> rfl

theorem setEntry_configs (s : PluginServices) (name : String) (f : PluginEntry → PluginEntry) :
    (s.setEntry name f).configs = s.configs := by
  rw [PluginServices.setEntry]
  cases s.plugins.get? name <;> rfl

theorem WellNamed.setEntry {s : PluginServices} (h : WellNamed s) (name : String)
    (f : PluginEntry → PluginEntry) : WellNamed (s.setEntry name f) := by
  intro other entry hget
  rw [get?_setEntry] at hget
  split_ifs at hget with hother
  · obtain ⟨before, hbefore, -⟩ := Option.map_eq_some_iff.mp hget
    exact hother ▸ h name before hbefore
  · exact h other entry hget

theorem ignoresEvents_wellNamed : IgnoresEvents WellNamed := by
  intro s event h name entry hget
  rw [record_plugins] at hget
  exact h name entry hget

def holding (s : PluginServices) (name : String) :
    Option (PluginState × Option PluginBase × String × Option TenantPluginConfig) :=
  (s.plugins.get? name).map fun entry =>
    (entry.state, entry.pluginInstance, entry.tenantId, getConfig s name entry.tenantId)

theorem holding_setEntry_of_ne (h : other ≠ name) (s : PluginServices)
    (f : PluginEntry → PluginEntry) : holding (s.setEntry name f) other = holding s other := by
  simp only [holding, getConfig, get?_setEntry, if_neg h, setEntry_configs]

theorem holding_record (name : String) : holding (s.record event) name = holding s name := by
  simp only [holding, getConfig, record_plugins, record_configs]

theorem holding_put_of_ne {name other tenantId : String} {record : TenantPluginConfig}
    {s : PluginServices} (hname : isSlug name = true) (hother : isSlug other = true)
    (h : other ≠ name) :
    holding { s with configs := s.configs.set (configKey name tenantId) record } other =
      holding s other := by
  simp only [holding, getConfig, Dict.get?_set]
  refine Option.map_congr fun entry _ => ?_
  rw [if_neg fun heq => h (name_eq_of_configKey hother hname heq)]

inductive PluginRequest
  | lifecycle (call : PluginCall)
  | config (name tenantId requestedBy : String) (update : PluginConfigUpdate) (env : Surroundings)

namespace PluginRequest

def name : PluginRequest → String
  | lifecycle call => call.name
  | config name _ _ _ _ => name

def tenantId : PluginRequest → String
  | lifecycle call => call.tenantId
  | config _ tenantId _ _ _ => tenantId

def body : PluginRequest → PluginM Unit
  | lifecycle call => call.body
  | config name tenantId requestedBy update env => do
    let _ ← updatePluginConfig env name (tenantFilter tenantId) requestedBy update

def isLoad : PluginRequest → Bool
  | lifecycle call => call.operation = .load
  | config .. => false

def isUnload : PluginRequest → Bool
  | lifecycle call => call.operation = .unload
  | config .. => false

end PluginRequest

section Requests

variable {request : PluginRequest}

theorem PluginRequest.keeps (hrecord : IgnoresEvents I)
    (hall : KeptBy I request.name fun _ => True)
    (hput : ∀ s entry, I s → s.plugins.get? request.name = some entry → ∀ s' record, I s' →
      I { s' with configs := s'.configs.set (configKey request.name request.tenantId) record }) :
    Keeps I request.body.run := by
  have hmarks : KeptBy I request.name Marks := hall.mono fun _ _ => trivial
  have howner : KeptBy I request.name KeepsOwner := hall.mono fun _ _ => trivial
  cases request with
  | lifecycle call =>
    rw [PluginRequest.body, PluginCall.body]
    cases call.operation with
    | load => exact keeps_load hrecord hall
    | enable => exact keeps_enable hrecord hmarks
    | disable => exact keeps_disable hrecord hmarks
    | unload => exact keeps_unload hrecord howner
  | config name tenantId requestedBy update env =>
    refine Keeps.bind (keeps_updatePluginConfig hrecord hmarks fun s entry hs hvisible => ?_)
      fun _ => trivial
    rw [getD_tenantFilter]
    exact ⟨hput s entry hs (visible_eq_some hvisible).1, fun _ => howner⟩

theorem wellNamed_keeps (request : PluginRequest) : Keeps WellNamed request.body.run :=
  request.keeps ignoresEvents_wellNamed (fun f _ _ hs => hs.setEntry request.name f)
    fun _ _ _ _ _ _ hs => hs

variable {s : PluginServices} {entry : PluginEntry}

variable (answers : MethodCall → Except PluginError Unit)

theorem holding_of_ne (hs : WellNamed s)
    (hother : other ≠ request.name) :
    holding (request.body.run.alone answers s).2 other = holding s other := by
  have hkeeps : Keeps (fun s' => WellNamed s' ∧ holding s' other = holding s other)
      request.body.run := by
    refine request.keeps (fun s' event h => ⟨ignoresEvents_wellNamed s' event h.1, ?_⟩)
      (fun f _ s' h => ⟨h.1.setEntry request.name f, ?_⟩) fun s₁ entry h₁ hget s' record h =>
        ⟨h.1, ?_⟩
    · rw [holding_record, h.2]
    · rw [holding_setEntry_of_ne hother, h.2]
    · rw [← h.2]
      cases hfound : s'.plugins.get? other with
      | none => simp [holding, hfound]
      | some entry' =>
        exact holding_put_of_ne (h₁.1 request.name entry hget) (h.1 other entry' hfound) hother
  exact (hkeeps.alone answers ⟨hs, rfl⟩).2

theorem keeps_of_not_mayWrite {callerTenant ownerTenant operation name : String} {α : Type}
    {g : Unit → PluginM α} (h : mayWrite callerTenant ownerTenant = false) :
    Keeps I (checkTenantWrite callerTenant ownerTenant operation name >>= g).run := by
  rw [checkTenantWrite, h]
  exact trivial

def PluginRequest.Loads (request : PluginRequest) (entry : PluginEntry) : Prop :=
  request.isLoad = true ∧ (entry.state = .discovered ∨ entry.state = .unloaded)

theorem alone_of_skipped
    (hget : s.plugins.get? request.name = some entry) (hload : request.isLoad = true)
    (hnot : ¬request.Loads entry) : (request.body.run.alone answers s).2 = s := by
  refine Keeps.alone (I := (· = s)) ?_ answers rfl
  cases request with
  | lifecycle call =>
    have hop : call.operation = .load := of_decide_eq_true hload
    rw [PluginRequest.body, PluginCall.body, hop]
    refine keeps_of_getEntry fun s' entry' hs hget' => ?_
    subst hs
    obtain rfl := Option.some.inj (hget.symm.trans hget')
    have hstate : entry.state ≠ .discovered ∧ entry.state ≠ .unloaded :=
      not_or.mp fun hfresh => hnot ⟨hload, hfresh⟩
    rw [if_pos hstate]
    exact trivial
  | config => cases hload

theorem alone_of_not_mayWrite
    (hget : s.plugins.get? request.name = some entry)
    (hnot : mayWrite request.tenantId entry.tenantId = false) (hload : request.isLoad = false) :
    (request.body.run.alone answers s).2 = s := by
  refine Keeps.alone (I := (· = s)) ?_ answers rfl
  cases request with
  | lifecycle call =>
    have hcheck : ∀ s' entry', s' = s → s'.plugins.get? call.name = some entry' →
        mayWrite call.tenantId entry'.tenantId = false := by
      rintro _ entry' rfl hget'
      obtain rfl := Option.some.inj (hget.symm.trans hget')
      exact hnot
    rw [PluginRequest.body, PluginCall.body]
    cases hop : call.operation with
    | load => simp [PluginRequest.isLoad, hop] at hload
    | enable => exact keeps_of_getEntry fun s' _ hs h => keeps_of_not_mayWrite (hcheck s' _ hs h)
    | disable => exact keeps_of_getEntry fun s' _ hs h => keeps_of_not_mayWrite (hcheck s' _ hs h)
    | unload => exact keeps_of_getEntry fun s' _ hs h => keeps_of_not_mayWrite (hcheck s' _ hs h)
  | config name tenantId requestedBy update env =>
    refine Keeps.bind (keeps_services fun s' hs => ?_) fun _ => trivial
    have hget' : s.plugins.get? name = some entry := hget
    have hnot' : mayWrite tenantId entry.tenantId = false := hnot
    have hhidden : s'.visible name ((tenantFilter tenantId).getD "") = none := by
      rw [getD_tenantFilter, PluginServices.visible, hs, hget']
      exact if_neg (by rw [hnot']; exact Bool.false_ne_true)
    rw [hhidden]
    exact trivial

theorem getConfig_system
    (htenant : request.tenantId ≠ "") (hglobal : request.tenantId ≠ "__global__") :
    getConfig (request.body.run.alone answers s).2 request.name "" =
      getConfig s request.name "" := by
  have hkey : configKey request.name "" ≠ configKey request.name request.tenantId := by
    intro heq
    have hlists := congrArg String.toList heq
    simp only [configKey, if_true, if_neg htenant, String.toList_append] at hlists
    exact hglobal (String.toList_inj.mp
      (List.append_cancel_right (List.append_cancel_right hlists)).symm)
  refine (request.keeps (I := fun s' => getConfig s' request.name "" = getConfig s request.name "")
    (fun s' event h => ?_) (fun f _ s' h => ?_) fun _ _ _ _ s' record h => ?_).alone answers rfl
  · simpa only [getConfig, record_configs] using h
  · simpa only [getConfig, setEntry_configs] using h
  · simpa only [getConfig, Dict.get?_set, if_neg hkey] using h

def SystemOwned (name : String) (p : Option PluginBase) (unloads : Bool) (s : PluginServices) :
    Prop :=
  ∃ entry, s.plugins.get? name = some entry ∧ entry.tenantId = "" ∧
    (unloads = false → entry.pluginInstance = p)

theorem SystemOwned.setEntry (h : SystemOwned name p unloads s) (howner : KeepsOwner f)
    (hinstance : unloads = false → Marks f) : SystemOwned name p unloads (s.setEntry name f) := by
  obtain ⟨entry, hget, hsystem, hsame⟩ := h
  refine ⟨f entry, ?_, (howner entry).trans hsystem, fun hunloads => ?_⟩
  · rw [get?_setEntry, if_pos rfl, hget, Option.map_some]
  · exact (hinstance hunloads entry).2.trans (hsame hunloads)

theorem keeps_systemOwned (p : Option PluginBase) (htenant : request.tenantId ≠ "")
    (hload : request.isLoad = false) :
    Keeps (SystemOwned request.name p request.isUnload) request.body.run := by
  have hevents : IgnoresEvents (SystemOwned request.name p request.isUnload) := by
    rintro s event ⟨entry, h⟩
    exact ⟨entry, by rwa [record_plugins]⟩
  have hmarks : KeptBy (SystemOwned request.name p request.isUnload) request.name Marks :=
    fun f hf s hs => hs.setEntry hf.keepsOwner fun _ => hf
  cases request with
  | lifecycle call =>
    rw [PluginRequest.body, PluginCall.body]
    cases hop : call.operation with
    | load => simp [PluginRequest.isLoad, hop] at hload
    | enable => exact keeps_enable hevents hmarks
    | disable => exact keeps_disable hevents hmarks
    | unload =>
      refine keeps_unload hevents fun f hf s hs => hs.setEntry hf fun hunloads => ?_
      simp [PluginRequest.isUnload, hop] at hunloads
  | config name tenantId requestedBy update env =>
    refine Keeps.bind (keeps_updatePluginConfig hevents hmarks fun s entry hs hvisible => ?_)
      fun _ => trivial
    refine ⟨fun _ _ h => h, fun howned => ?_⟩
    obtain ⟨entry', hget, hsystem, -⟩ := hs
    obtain rfl := Option.some.inj (hget.symm.trans (visible_eq_some hvisible).1)
    rw [hsystem, tenantFilter] at howned
    split_ifs at howned with h
    exact absurd (Option.some.inj howned) htenant

end Requests

inductive RegistryOp
  | discover (manifest : PluginManifest) (pluginDir tenantId : String) (env : Surroundings)
  | remove (name tenantId : String) (env : Surroundings)
  | request (r : PluginRequest)

def RegistryOp.body : RegistryOp → PluginM Unit
  | .discover manifest pluginDir tenantId env => discoverPlugin env manifest pluginDir tenantId
  | .remove name tenantId env => do
    let _ ← Plugins.remove env name tenantId
  | .request r => r.body

variable (eventStore : Option PluginEventStore) (allowlist : Option (List String))
  (configs : Dict String TenantPluginConfig)

variable (choices : List (Choice RegistryOp (Except PluginError Unit)))

/-- The registry after turns of operations on one in which nothing was discovered yet. A call
that waits goes on with the entry that has the name of its plugin then. -/
def reached : PluginServices :=
  (choices.foldl (Config.next fun op => op.body.run)
    { shared := { eventStore, allowlist, configs } }).shared

theorem keeps_wellNamed (op : RegistryOp) : Keeps WellNamed op.body.run := by
  have hrecord : ∀ env eventType pluginName version details,
      Keeps WellNamed (recordEvent env eventType pluginName version details).run :=
    fun env => keeps_recordEvent ignoresEvents_wellNamed
  cases op with
  | discover manifest pluginDir tenantId env =>
    refine keeps_services fun s _ => ?_
    split_ifs
    · cases s.plugins.get? manifest.name with
      | some existing => exact trivial
      | none =>
        refine Keeps.bind (Keeps.lift (keeps_modify fun s hs name entry hget => ?_)) fun _ =>
          hrecord _ _ _ _ _
        rw [Dict.get?_set] at hget
        split_ifs at hget with hname
        · exact hname ▸ manifest.slug
        · exact hs name entry hget
    · exact trivial
  | remove name tenantId env =>
    refine Keeps.bind (keeps_services fun s _ => ?_) fun _ => trivial
    cases s.plugins.get? name with
    | none => exact trivial
    | some entry =>
      refine Keeps.bind (keeps_checkTenantWrite _ _ _ _) fun _ => ?_
      split_ifs
      · exact trivial
      · refine Keeps.bind (Keeps.lift (keeps_modify fun s hs other entry hget => ?_)) fun _ =>
          Keeps.bind (hrecord _ _ _ _ _) fun _ => trivial
        rw [Dict.get?_erase] at hget
        split_ifs at hget
        exact hs other entry hget
  | request r => exact wellNamed_keeps r

theorem wellNamed_reached : WellNamed (reached eventStore allowlist configs choices) := by
  refine (Config.Kept.run keeps_wellNamed ⟨fun name entry hget => ?_,
    fun w hw => absurd hw List.not_mem_nil⟩ choices).shared
  rw [Dict.get?_empty] at hget
  cases hget

/-- A request of a tenant leaves as it is what is held of the plugins that it does not name.
Of the plugin that it names, nothing changes that another tenant owns, unless the request
loads it. When the system owns it, it still does unless the request loads it, it has the same
instance unless the request unloads it too, and the same is stored for the system. -/
structure Isolated (request : PluginRequest) (s s' : PluginServices) : Prop where
  others : ∀ name, name ≠ request.name → holding s' name = holding s name
  foreign : ∀ entry, s.plugins.get? request.name = some entry → entry.tenantId ≠ "" →
    entry.tenantId ≠ request.tenantId → ¬request.Loads entry →
    holding s' request.name = holding s request.name
  system : ∀ entry, s.plugins.get? request.name = some entry → entry.tenantId = "" →
    ¬request.Loads entry → ∃ entry', s'.plugins.get? request.name = some entry' ∧
      entry'.tenantId = "" ∧
        (request.isUnload = false → entry'.pluginInstance = entry.pluginInstance)
  stored : request.tenantId ≠ "__global__" →
    getConfig s' request.name "" = getConfig s request.name ""

theorem request_isolated (request : PluginRequest)
    (answers : MethodCall → Except PluginError Unit) (htenant : request.tenantId ≠ "") :
    Isolated request (reached eventStore allowlist configs choices)
      (request.body.run.alone answers (reached eventStore allowlist configs choices)).2 := by
  constructor
  · exact fun name hname =>
      holding_of_ne answers (wellNamed_reached eventStore allowlist configs choices) hname
  · intro entry hget hforeign hother hloads
    cases hload : request.isLoad with
    | true => rw [alone_of_skipped answers hget hload hloads]
    | false =>
      have hnot : mayWrite request.tenantId entry.tenantId = false := by
        simp [mayWrite, htenant, hforeign, hother]
      rw [alone_of_not_mayWrite answers hget hnot hload]
  · intro entry hget hsystem hloads
    cases hload : request.isLoad with
    | true =>
      rw [alone_of_skipped answers hget hload hloads]
      exact ⟨entry, hget, hsystem, fun _ => rfl⟩
    | false =>
      exact (keeps_systemOwned entry.pluginInstance htenant hload).alone answers
        ⟨entry, hget, hsystem, fun _ => rfl⟩
  · exact getConfig_system answers htenant

/-! A tenant enables a plugin of the system. -/

def notes : PluginManifest := ⟨"notes", "1.0.0", by decide⟩

def plainSurroundings : Surroundings where
  contextFactory manifest pluginDir := .ok { pluginName := manifest.name, pluginDir }
  pluginClass manifest context := .ok { manifest, context }

def notesLoaded : List (Choice RegistryOp (Except PluginError Unit)) :=
  [.start (.discover notes "plugins/notes" "" plainSurroundings),
    .start (.request (.lifecycle
      { operation := .load, name := "notes", env := plainSurroundings })),
    .answer 0 (.ok ())]

def enableNotes : PluginRequest :=
  .lifecycle { operation := .enable, name := "notes", tenantId := "acme", env := plainSurroundings }

theorem notes_not_untouched :
    ¬∀ name entry, (reached none none Dict.empty notesLoaded).plugins.get? name = some entry →
      entry.tenantId ≠ enableNotes.tenantId →
      holding (enableNotes.body.run.alone (fun _ => .ok ())
        (reached none none Dict.empty notesLoaded)).2 name =
          holding (reached none none Dict.empty notesLoaded) name := by
  intro h
  exact absurd (h "notes" _ rfl (by decide)) (by decide)

theorem notes_isolated :
    Isolated enableNotes (reached none none Dict.empty notesLoaded)
      (enableNotes.body.run.alone (fun _ => .ok ())
        (reached none none Dict.empty notesLoaded)).2 :=
  request_isolated none none Dict.empty notesLoaded enableNotes (fun _ => .ok ()) (by decide)

end Agent33.Plugins
