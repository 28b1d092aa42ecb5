import Agent33.Plugins.Registry

/-!
# The turns of a call

Between two awaits a call changes the entry of its plugin and nothing else of the
registry. The life of a plugin is what the turns of the calls do to its state and
to the presence of its instance.
-/

namespace Agent33.Plugins

open Library Awaiting Option

inductive Operation
  | load
  | enable
  | disable
  | unload
  deriving DecidableEq

structure PluginCall where
  operation : Operation
  name : String
  tenantId : String := ""
  env : Surroundings

def PluginCall.body (call : PluginCall) : PluginM Unit :=
  match call.operation with
  | .load => load call.env call.name call.tenantId
  | .enable => enable call.env call.name call.tenantId
  | .disable => disable call.env call.name call.tenantId
  | .unload => unload call.env call.name call.tenantId

structure Status where
  state : PluginState
  equipped : Bool

def PluginEntry.status (entry : PluginEntry) : Status := ⟨entry.state, entry.pluginInstance.isSome⟩

def Surroundings.Records (env : Surroundings) : Prop :=
  env.persistEvent "disabled" = none ∧ env.persistEvent "unloaded" = none

abbrev Outcome := Except PluginError Unit ⊕ MethodCall

inductive Starts (env : Surroundings) : Operation → Status → Outcome → Status → Prop
  | refused (op : Operation) (st : Status) (e : PluginError) : Starts env op st (.inl (.error e)) st
  | skips {st : Status} (h : st.state ≠ .discovered) (h' : st.state ≠ .unloaded) :
    Starts env .load st (.inl (.ok ())) st
  | loads {st : Status} (p : PluginBase) (h : st.state = .discovered ∨ st.state = .unloaded) :
    Starts env .load st (.inr ⟨p, .onLoad⟩) ⟨.loading, st.equipped⟩
  | breaks {st : Status} {state : PluginState} (e : PluginError)
    (h : st.state = .discovered ∨ st.state = .unloaded)
    (hstate : state = .loading ∨ state = .error) :
    Starts env .load st (.inl (.error e)) ⟨state, st.equipped⟩
  | enables {state : PluginState} (p : PluginBase) (h : state = .loaded ∨ state = .disabled) :
    Starts env .enable ⟨state, true⟩ (.inr ⟨p, .onEnable⟩) ⟨.enabling, true⟩
  | enablesBare {state : PluginState} (h : state = .loaded ∨ state = .disabled) :
    Starts env .enable ⟨state, false⟩ (.inl (.ok ())) ⟨.active, false⟩
  | breaksBare {state : PluginState} (e : PluginError) (h : state = .loaded ∨ state = .disabled) :
    Starts env .enable ⟨state, false⟩ (.inl (.error e)) ⟨.error, false⟩
  | disables (p : PluginBase) :
    Starts env .disable ⟨.active, true⟩ (.inr ⟨p, .onDisable⟩) ⟨.disabled, true⟩
  | disablesBare : Starts env .disable ⟨.active, false⟩ (.inl (.ok ())) ⟨.disabled, false⟩
  | unloadDisables (p : PluginBase) :
    Starts env .unload ⟨.active, true⟩ (.inr ⟨p, .onDisable⟩) ⟨.disabled, true⟩
  | unloads {state : PluginState} (p : PluginBase) (h : state ≠ .active) :
    Starts env .unload ⟨state, true⟩ (.inr ⟨p, .onUnload⟩) ⟨.unloading, true⟩
  | unloadsBare {state : PluginState} :
    Starts env .unload ⟨state, false⟩ (.inl (.ok ())) ⟨.unloaded, false⟩
  | unrecorded {op : Operation} {st st' : Status} (e : PluginError) (h : ¬env.Records)
    (hop : op = .disable ∨ op = .unload) : Starts env op st (.inl (.error e)) st'

inductive Answered (env : Surroundings) :
    Operation → LifecycleMethod → Except PluginError Unit → Status → Outcome → Status → Prop
  | cancelled {op : Operation} {method : LifecycleMethod} (st : Status) :
    Answered env op method (.error .cancelled) st (.inl (.error .cancelled)) st
  | loaded (st : Status) :
    Answered env .load .onLoad (.ok ()) st (.inl (.ok ())) ⟨.loaded, true⟩
  | fails {op : Operation} {method : LifecycleMethod} {answer : Except PluginError Unit}
    {st : Status} {equipped : Bool} (e : PluginError)
    (h : op = .load ∧ method = .onLoad ∨ op = .enable ∧ method = .onEnable) :
    Answered env op method answer st (.inl (.error e)) ⟨.error, equipped⟩
  | enabled (st : Status) :
    Answered env .enable .onEnable (.ok ()) st (.inl (.ok ())) ⟨.active, st.equipped⟩
  | disabled {answer : Except PluginError Unit} (st : Status) (h : answer ≠ .error .cancelled) :
    Answered env .disable .onDisable answer st (.inl (.ok ())) st
  | unloads {answer : Except PluginError Unit} {state : PluginState} (p : PluginBase)
    (h : answer ≠ .error .cancelled) :
    Answered env .unload .onDisable answer ⟨state, true⟩ (.inr ⟨p, .onUnload⟩) ⟨.unloading, true⟩
  | unloadsBare {answer : Except PluginError Unit} {state : PluginState}
    (h : answer ≠ .error .cancelled) :
    Answered env .unload .onDisable answer ⟨state, false⟩ (.inl (.ok ())) ⟨.unloaded, false⟩
  | unloaded {answer : Except PluginError Unit} (st : Status) (h : answer ≠ .error .cancelled) :
    Answered env .unload .onUnload answer st (.inl (.ok ())) ⟨.unloaded, false⟩
  | unrecorded {op : Operation} {method : LifecycleMethod} {answer : Except PluginError Unit}
    {st st' : Status} (e : PluginError) (h : ¬env.Records) (hop : op = .disable ∨ op = .unload) :
    Answered env op method answer st (.inl (.error e)) st'

def OnEntry (name : String) (E : Status → Outcome → Status → Prop) (s : PluginServices)
    (outcome : Outcome) (s' : PluginServices) : Prop :=
  (∀ other, other ≠ name → s'.plugins.get? other = s.plugins.get? other) ∧
    match s.plugins.get? name with
    | none => s'.plugins.get? name = none
    | some entry =>
      ∃ entry', s'.plugins.get? name = some entry' ∧ E entry.status outcome entry'.status

theorem OnEntry.cases {E : Status → Outcome → Status → Prop}
    (h : OnEntry name E s outcome s') (hget : s'.plugins.get? other = some entry') :
    (other ≠ name ∧ s.plugins.get? other = some entry') ∨
      other = name ∧ ∃ entry, s.plugins.get? name = some entry ∧
        E entry.status outcome entry'.status := by
  by_cases hother : other = name
  · subst hother
    obtain ⟨-, hentry⟩ := h
    cases hbefore : s.plugins.get? other with
    | none =>
      rw [hbefore] at hentry
      exact absurd (hget.symm.trans hentry) nofun
    | some entry =>
      rw [hbefore] at hentry
      obtain ⟨entry'', hget', hE⟩ := hentry
      obtain rfl := some.inj (hget.symm.trans hget')
      exact .inr ⟨rfl, entry, rfl, hE⟩
  · exact .inl ⟨hother, (h.1 other hother).symm.trans hget⟩

def Rewrites (name : String) (s : PluginServices) (f : PluginEntry → PluginEntry)
    (s' : PluginServices) : Prop :=
  ∀ other, s'.plugins.get? other =
    if other = name then (s.plugins.get? name).map f else s.plugins.get? other

section Rewrites

theorem rewrites_refl (name : String) (s : PluginServices) : Rewrites name s id s := by
  intro other
  by_cases h : other = name
  · simp [h]
  · simp [h]

theorem get?_setEntry (s : PluginServices) (name other : String) (f : PluginEntry → PluginEntry) :
    (s.setEntry name f).plugins.get? other =
      if other = name then (s.plugins.get? name).map f else s.plugins.get? other := by
  rw [PluginServices.setEntry]
  cases h : s.plugins.get? name with
  | none =>
    by_cases hother : other = name
    · simp [hother, h]
    · simp [hother]
  | some entry =>
    by_cases hother : other = name
    · simp [hother]
    · simp [hother]

theorem Rewrites.trans (h : Rewrites name s f s') (h' : Rewrites name s' g s'') :
    Rewrites name s (g ∘ f) s'' := by
  intro other
  rw [h', h, h other]
  by_cases hother : other = name
  · simp [hother]
  · simp [hother]

theorem rewrites_setEntry (name : String) (s : PluginServices) (f : PluginEntry → PluginEntry) :
    Rewrites name s f (s.setEntry name f) :=
  fun other => get?_setEntry s name other f

theorem Rewrites.congr (h : Rewrites name s f s') (hs : s''.plugins = s'.plugins) :
    Rewrites name s f s'' := by
  intro other
  rw [hs]
  exact h other

variable {entry : PluginEntry}


theorem Rewrites.onEntry (h : Rewrites name s f s')
    (hE : ∀ entry, s.plugins.get? name = some entry → E entry.status outcome (f entry).status) :
    OnEntry name E s outcome s' := by
  refine ⟨fun other hother => by rw [h other, if_neg hother], ?_⟩
  have hname := h name
  rw [if_pos rfl] at hname
  cases hget : s.plugins.get? name with
  | none => simpa [hget] using hname
  | some entry =>
    rw [hget] at hname
    exact ⟨f entry, hname, hE entry hget⟩

theorem Rewrites.onEntry_of_get (h : Rewrites name s f s')
    (hget : s.plugins.get? name = some entry) (hst : entry.status = st)
    (hst' : (f entry).status = st') (hE : E st outcome st') : OnEntry name E s outcome s' := by
  refine h.onEntry fun entry' hget' => ?_
  obtain rfl := some.inj (hget.symm.trans hget')
  rw [hst, hst']
  exact hE

theorem status_bare (hstate : entry.state = state) (hp : entry.pluginInstance = none) :
    entry.status = ⟨state, false⟩ := by
  rw [PluginEntry.status, hstate, hp, isSome_none]

theorem status_equipped (hstate : entry.state = state)
    (hp : entry.pluginInstance = some p) : entry.status = ⟨state, true⟩ := by
  rw [PluginEntry.status, hstate, hp, isSome_some]

end Rewrites

section Wp

variable
  {s : PluginServices}

theorem wp_getEntry (hnone : ∀ e, s.plugins.get? name = none → post (.error e) s T)
    (hsome : ∀ entry, s.plugins.get? name = some entry → post (.ok entry) s T) :
    wp R (getEntry name).run s T post := by
  simp only [getEntry, services, wp_run_bind, wp_run_read]
  cases hget : s.plugins.get? name with
  | none => exact hnone _ hget
  | some entry => exact hsome entry hget

theorem wp_instanceOf
    (hnone : (∀ entry, s.plugins.get? name = some entry → entry.pluginInstance = none) →
      post (.ok none) s T)
    (hsome : ∀ entry p, s.plugins.get? name = some entry → entry.pluginInstance = some p →
      post (.ok (some p)) s T) :
    wp R (instanceOf name).run s T post := by
  simp only [instanceOf, services, wp_run_bind, wp_run_read, wp_run_pure]
  cases hget : s.plugins.get? name with
  | none =>
    refine hnone fun entry h => ?_
    rw [hget] at h
    cases h
  | some entry =>
    cases hp : entry.pluginInstance with
    | none =>
      rw [bind_some, hp]
      exact hnone fun entry' hget' => some.inj (hget.symm.trans hget') ▸ hp
    | some p =>
      rw [bind_some, hp]
      exact hsome entry p hget hp

variable {post : Except PluginError Unit → PluginServices →
    Effect PluginServices MethodCall (Except PluginError Unit) → Prop}

theorem wp_checkTenantWrite
    (herror : ∀ e, mayWrite callerTenant ownerTenant = false → post (.error e) s T)
    (hok : mayWrite callerTenant ownerTenant = true → post (.ok ()) s T) :
    wp R (checkTenantWrite callerTenant ownerTenant operation name).run s T post := by
  rw [checkTenantWrite]
  split_ifs with h
  · exact hok h
  · exact herror _ (by simpa using h)

theorem wp_recordEvent {details : List (String × String)}
    (hok : ∀ s', s'.plugins = s.plugins → post (.ok ()) s' T)
    (herror : ∀ message s', env.persistEvent eventType = some message → s'.plugins = s.plugins →
      post (.error (.exception .other message)) s' T) :
    wp R (recordEvent env eventType name version details).run s T post := by
  have hplugins : ∀ event, (s.record event).plugins = s.plugins := by
    intro event
    rw [PluginServices.record]
    cases s.eventStore <;> rfl
  simp only [recordEvent, services, modifyServices, wp_run_bind, wp_run_read, wp_run_modify]
  cases hstore : s.eventStore with
  | none => exact hok _ (hplugins _)
  | some store =>
    cases hpersist : env.persistEvent eventType with
    | none => exact hok _ (hplugins _)
    | some message => exact herror message _ hpersist (hplugins _)

@[simp] theorem wp_setEntry {f : PluginEntry → PluginEntry} :
    wp R (setEntry name f).run s T post ↔ post (.ok ()) (s.setEntry name f) T := Iff.rfl

def markFailed (message : String) (entry : PluginEntry) : PluginEntry :=
  { entry with state := .error, error := some message }

theorem wp_attempt_fail (h : wp R body.run s T fun r s T =>
      match r with
      | .ok () => post (.ok ()) s T
      | .error .cancelled => post (.error .cancelled) s T
      | .error (.exception _ _) => ∀ e message s', Rewrites name s (markFailed message) s' →
          post (.error e) s' T) :
    wp R (attempt body (fail env operation name version)).run s T post := by
  rw [attempt, wp_run_tryCatch]
  refine wp_mono h fun r s T h => ?_
  match r, h with
  | .ok (), h => exact h
  | .error .cancelled, h => exact h
  | .error (.exception type message), h =>
    simp only [fail, wp_run_bind, wp_setEntry]
    have hmark := rewrites_setEntry name s (markFailed message)
    refine wp_recordEvent (fun s' hs' => ?_) fun _ s' _ hs' => ?_
    · exact h _ message s' (hmark.congr hs')
    · exact h _ message s' (hmark.congr hs')

theorem wp_attempt_await (hT : T (.inr ⟨p, method⟩) s)
    (hok : ∀ answer s', answer ≠ .error .cancelled → post (.ok ()) s' (R ⟨p, method⟩ answer s'))
    (hcancelled : ∀ s', post (.error .cancelled) s' (R ⟨p, method⟩ (.error .cancelled) s')) :
    wp R (attempt (awaitMethod p method) fun _ _ => pure ()).run s T post := by
  rw [attempt, wp_run_tryCatch, awaitMethod, wp_run_mk, wp_await]
  refine ⟨hT, fun answer s' => ?_⟩
  match answer with
  | .ok () => exact hok _ s' (by simp)
  | .error .cancelled => exact hcancelled s'
  | .error (.exception type message) => exact hok _ s' (by simp)

end Wp

section Obey

variable (name : String) (env : Surroundings)

def later (op : Operation) (q : MethodCall) (answer : Except PluginError Unit)
    (s : PluginServices) : Effect PluginServices MethodCall (Except PluginError Unit) :=
  OnEntry name (Answered env op q.method answer) s

variable {env name} {s : PluginServices}

theorem onEntry_none {E : Status → Outcome → Status → Prop} (h : s.plugins.get? name = none)
    (outcome : Outcome) : OnEntry name E s outcome s := by
  refine ⟨fun _ _ => rfl, ?_⟩
  rw [h]

theorem onEntry_refused (op : Operation) (e : PluginError) :
    OnEntry name (Starts env op) s (.inl (.error e)) s :=
  (rewrites_refl name s).onEntry fun entry _ => .refused op entry.status e

theorem loadInstance_obeys (hget : s.plugins.get? name = some entry)
    (hfresh : entry.state = .discovered ∨ entry.state = .unloaded) (hs : Rewrites name s f s₁)
    (hf : (f entry).status = ⟨.loading, entry.status.equipped⟩) :
    wp (later name env .load)
      (attempt (loadInstance env name entry) (fail env "load" name entry.manifest.version)).run s₁
      (OnEntry name (Starts env .load) s) fun a s T => T (.inl a) s := by
  have hmarked : ∀ {e : PluginError} {message : String} {s' : PluginServices},
      Rewrites name s₁ (markFailed message) s' →
      OnEntry name (Starts env .load) s (.inl (.error e)) s' := by
    intro e message s' hs'
    refine (hs.trans hs').onEntry_of_get hget rfl ?_ (.breaks e hfresh (.inr rfl))
    exact congrArg (fun st : Status => (⟨.error, st.equipped⟩ : Status)) hf
  have hcancelled : ∀ {e : PluginError}, OnEntry name (Starts env .load) s (.inl (.error e)) s₁ :=
    hs.onEntry_of_get hget rfl hf (.breaks _ hfresh (.inl rfl))
  refine wp_attempt_fail ?_
  rw [loadInstance, wp_run_bind, wp_run_mk, wp_pure]
  match env.contextFactory entry.manifest entry.pluginDir with
  | .error .cancelled => exact hcancelled
  | .error (.exception _ _) => exact fun e message s' hs' => hmarked hs'
  | .ok context =>
    dsimp only
    rw [wp_run_bind, wp_run_mk, wp_pure]
    match env.pluginClass entry.manifest context with
    | .error .cancelled => exact hcancelled
    | .error (.exception _ _) => exact fun e message s' hs' => hmarked hs'
    | .ok p =>
      dsimp only
      rw [wp_run_bind, awaitMethod, wp_run_mk, wp_await]
      refine ⟨hs.onEntry_of_get hget rfl hf (.loads p hfresh), fun answer s₂ => ?_⟩
      match answer with
      | .error .cancelled => exact (rewrites_refl name s₂).onEntry fun entry _ => .cancelled _
      | .error (.exception _ _) =>
        exact fun e message s' hs' => hs'.onEntry fun entry _ => .fails e (.inl ⟨rfl, rfl⟩)
      | .ok () =>
        dsimp only
        rw [wp_run_bind, wp_setEntry]
        have hset := rewrites_setEntry name s₂ fun entry =>
          { entry with pluginInstance := some p, state := .loaded }
        refine wp_recordEvent (fun s' hs' => ?_) fun _ s' _ hs' => ?_
        · exact (hset.congr hs').onEntry fun entry _ => .loaded entry.status
        · intro e message s'' hs''
          exact ((hset.congr hs').trans hs'').onEntry fun entry _ => .fails e (.inl ⟨rfl, rfl⟩)

theorem load_obeys :
    Obeys (later name env .load) (load env name tenantId).run s
      (OnEntry name (Starts env .load) s) := by
  rw [Obeys, load, wp_run_bind]
  refine wp_getEntry (fun e hget => onEntry_none hget _) fun entry hget => ?_
  dsimp only
  split_ifs with hstate htenant
  · exact (rewrites_refl name s).onEntry_of_get hget rfl rfl (.skips hstate.1 hstate.2)
  · have hfresh : entry.state = .discovered ∨ entry.state = .unloaded := by tauto
    simp only [setState, wp_run_bind, wp_setEntry]
    exact loadInstance_obeys hget hfresh (rewrites_setEntry name s _) rfl
  · have hfresh : entry.state = .discovered ∨ entry.state = .unloaded := by tauto
    simp only [setState, wp_run_bind, wp_setEntry]
    exact loadInstance_obeys hget hfresh
      ((rewrites_setEntry name s _).trans (rewrites_setEntry name _ _)) rfl

theorem enable_obeys :
    Obeys (later name env .enable) (enable env name tenantId).run s
      (OnEntry name (Starts env .enable) s) := by
  rw [Obeys, enable, wp_run_bind]
  refine wp_getEntry (fun e hget => onEntry_none hget _) fun entry hget => ?_
  dsimp only
  rw [wp_run_bind]
  refine wp_checkTenantWrite (fun e _ => onEntry_refused .enable e) fun _ => ?_
  dsimp only
  split_ifs with hstate
  · exact onEntry_refused .enable _
  have hready : entry.state = .loaded ∨ entry.state = .disabled := by tauto
  rw [setState, wp_run_bind, wp_setEntry]
  have henabling := rewrites_setEntry name s fun entry => { entry with state := .enabling }
  refine wp_attempt_fail ?_
  cases hp : entry.pluginInstance with
  | none =>
    rw [setState, wp_run_bind, wp_setEntry]
    have hactive := henabling.trans (rewrites_setEntry name _ fun entry =>
      { entry with state := .active })
    refine wp_recordEvent (fun s' hs' => ?_) fun _ s' _ hs' e message s'' hs'' => ?_
    · exact (hactive.congr hs').onEntry_of_get hget (status_bare rfl hp) (status_bare rfl hp)
        (.enablesBare hready)
    · exact ((hactive.congr hs').trans hs'').onEntry_of_get hget (status_bare rfl hp)
        (status_bare rfl hp) (.breaksBare e hready)
  | some p =>
    rw [wp_run_bind, awaitMethod, wp_run_mk, wp_await]
    constructor
    · exact henabling.onEntry_of_get hget (status_equipped rfl hp) (status_equipped rfl hp)
        (.enables p hready)
    · intro answer s₂
      match answer with
      | .error .cancelled => exact (rewrites_refl name s₂).onEntry fun entry _ => .cancelled _
      | .error (.exception _ _) =>
        exact fun e message s' hs' => hs'.onEntry fun entry _ => .fails e (.inr ⟨rfl, rfl⟩)
      | .ok () =>
        dsimp only
        rw [setState, wp_run_bind, wp_setEntry]
        have hset := rewrites_setEntry name s₂ fun entry => { entry with state := .active }
        refine wp_recordEvent (fun s' hs' => ?_) fun _ s' _ hs' e message s'' hs'' => ?_
        · exact (hset.congr hs').onEntry fun entry _ => .enabled entry.status
        · exact ((hset.congr hs').trans hs'').onEntry fun entry _ => .fails e (.inr ⟨rfl, rfl⟩)

def markDisabled (entry : PluginEntry) : PluginEntry := { entry with state := .disabled }

def markUnloading (entry : PluginEntry) : PluginEntry := { entry with state := .unloading }

def markUnloaded (entry : PluginEntry) : PluginEntry :=
  { entry with pluginInstance := none, state := .unloaded }

theorem not_records_of_disabled
    (h : env.persistEvent "disabled" = some message) : ¬env.Records := by
  intro hrecords
  rw [hrecords.1] at h
  cases h

theorem not_records_of_unloaded
    (h : env.persistEvent "unloaded" = some message) : ¬env.Records := by
  intro hrecords
  rw [hrecords.2] at h
  cases h

section Disable

variable
  {post : Except PluginError Unit → PluginServices →
    Effect PluginServices MethodCall (Except PluginError Unit) → Prop}

theorem wp_disable (hget : s.plugins.get? name = some entry)
    (hmay : mayWrite tenantId entry.tenantId = true) (hactive : entry.state = .active)
    (hbare : entry.pluginInstance = none → ∀ s', Rewrites name s markDisabled s' →
      post (.ok ()) s' T ∧ (¬env.Records → ∀ e, post (.error e) s' T))
    (hasks : ∀ p s', entry.pluginInstance = some p → Rewrites name s markDisabled s' →
      T (.inr ⟨p, .onDisable⟩) s')
    (hanswered : ∀ p answer s' s'', answer ≠ .error .cancelled → Rewrites name s' id s'' →
      post (.ok ()) s'' (R ⟨p, .onDisable⟩ answer s') ∧
        (¬env.Records → ∀ e, post (.error e) s'' (R ⟨p, .onDisable⟩ answer s')))
    (hcancelled : ∀ p s',
      post (.error .cancelled) s' (R ⟨p, .onDisable⟩ (.error .cancelled) s')) :
    wp R (disable env name tenantId).run s T post := by
  rw [disable, wp_run_bind]
  refine wp_getEntry (fun e hget' => absurd (hget.symm.trans hget') nofun) fun entry' hget' => ?_
  obtain rfl := some.inj (hget.symm.trans hget')
  dsimp only
  rw [wp_run_bind]
  refine wp_checkTenantWrite (fun e h => absurd (hmay.symm.trans h) nofun) fun _ => ?_
  dsimp only
  rw [if_neg (not_not.mpr hactive), setState, wp_run_bind, wp_setEntry]
  have hdisabled : Rewrites name s markDisabled (s.setEntry name markDisabled) :=
    rewrites_setEntry name s markDisabled
  cases hp : entry.pluginInstance with
  | none =>
    refine wp_recordEvent (fun s' hs' => ?_) fun message s' hmessage hs' => ?_
    · exact (hbare hp s' (hdisabled.congr hs')).1
    · exact (hbare hp s' (hdisabled.congr hs')).2 (not_records_of_disabled hmessage) _
  | some p =>
    dsimp only
    rw [wp_run_bind]
    refine wp_attempt_await (hasks p _ hp hdisabled) (fun answer s' hanswer => ?_) (hcancelled p)
    have hsame := rewrites_refl name s'
    refine wp_recordEvent (fun s'' hs'' => ?_) fun message s'' hmessage hs'' => ?_
    · exact (hanswered p answer s' s'' hanswer (hsame.congr hs'')).1
    · exact (hanswered p answer s' s'' hanswer (hsame.congr hs'')).2
        (not_records_of_disabled hmessage) _

end Disable

theorem disable_obeys :
    Obeys (later name env .disable) (disable env name tenantId).run s
      (OnEntry name (Starts env .disable) s) := by
  by_cases hready : ∃ entry, s.plugins.get? name = some entry ∧
      mayWrite tenantId entry.tenantId = true ∧ entry.state = .active
  · obtain ⟨entry, hget, hmay, hactive⟩ := hready
    refine wp_disable hget hmay hactive (fun hp s' hs' => ⟨?_, fun hrecords e => ?_⟩)
      (fun p s' hp hs' => ?_) (fun p answer s' s'' hanswer hs'' => ⟨?_, fun hrecords e => ?_⟩)
      fun p s' => ?_
    · exact hs'.onEntry_of_get hget (status_bare hactive hp) (status_bare rfl hp) .disablesBare
    · exact hs'.onEntry fun entry _ => .unrecorded e hrecords (.inl rfl)
    · exact hs'.onEntry_of_get hget (status_equipped hactive hp) (status_equipped rfl hp)
        (.disables p)
    · exact hs''.onEntry fun entry _ => .disabled entry.status hanswer
    · exact hs''.onEntry fun entry _ => .unrecorded e hrecords (.inl rfl)
    · exact (rewrites_refl name s').onEntry fun entry _ => .cancelled entry.status
  · rw [Obeys, disable, wp_run_bind]
    refine wp_getEntry (fun e hget => onEntry_none hget _) fun entry hget => ?_
    dsimp only
    rw [wp_run_bind]
    refine wp_checkTenantWrite (fun e _ => onEntry_refused .disable e) fun hmay => ?_
    dsimp only
    rw [if_pos fun hactive => hready ⟨entry, hget, hmay, hactive⟩]
    exact onEntry_refused .disable _

theorem unloadInstance_obeys {T : Effect PluginServices MethodCall (Except PluginError Unit)}
    {version : String} (hbare : ∀ s', Rewrites name s markUnloaded s' →
      (∀ entry, s.plugins.get? name = some entry → entry.pluginInstance = none) →
      T (.inl (.ok ())) s')
    (hunrecorded : ¬env.Records → ∀ e s', Rewrites name s markUnloaded s' → T (.inl (.error e)) s')
    (hasks : ∀ entry p s', s.plugins.get? name = some entry → entry.pluginInstance = some p →
      Rewrites name s markUnloading s' → T (.inr ⟨p, .onUnload⟩) s') :
    wp (later name env .unload) (unloadInstance env name version).run s T
      fun a s T => T (.inl a) s := by
  have hunloading : Rewrites name s markUnloading (s.setEntry name markUnloading) :=
    rewrites_setEntry name s markUnloading
  have hgiven : ∀ s', Rewrites name s' markUnloaded (s'.setEntry name markUnloaded) :=
    fun s' => rewrites_setEntry name s' markUnloaded
  rw [unloadInstance, setState, wp_run_bind, wp_setEntry]
  dsimp only
  rw [wp_run_bind]
  refine wp_instanceOf (fun hnone => ?_) fun entry p hget hp => ?_
  · dsimp only
    rw [wp_run_bind, wp_setEntry]
    have hboth : Rewrites name s markUnloaded ((s.setEntry name markUnloading).setEntry name
        markUnloaded) := hunloading.trans (hgiven _)
    refine wp_recordEvent (fun s' hs' => ?_) fun message s' hmessage hs' => ?_
    · refine hbare s' (hboth.congr hs') fun entry hget => ?_
      refine hnone (markUnloading entry) ?_
      exact (get?_setEntry s name name markUnloading).trans (by rw [if_pos rfl, hget]; rfl)
    · exact hunrecorded (not_records_of_unloaded hmessage) _ s' (hboth.congr hs')
  · rw [get?_setEntry, if_pos rfl] at hget
    obtain ⟨entry, hfound, rfl⟩ := map_eq_some_iff.mp hget
    dsimp only
    rw [wp_run_bind]
    refine wp_attempt_await (hasks entry p _ hfound hp hunloading) (fun answer s' hanswer => ?_)
      fun s' => (rewrites_refl name s').onEntry fun entry _ => .cancelled entry.status
    dsimp only
    rw [wp_run_bind, wp_setEntry]
    refine wp_recordEvent (fun s'' hs'' => ?_) fun message s'' hmessage hs'' => ?_
    · exact ((hgiven s').congr hs'').onEntry fun entry _ => .unloaded entry.status hanswer
    · exact ((hgiven s').congr hs'').onEntry fun entry _ =>
        .unrecorded _ (not_records_of_unloaded hmessage) (.inr rfl)

theorem unload_obeys :
    Obeys (later name env .unload) (unload env name tenantId).run s
      (OnEntry name (Starts env .unload) s) := by
  rw [Obeys, unload, wp_run_bind]
  refine wp_getEntry (fun e hget => onEntry_none hget _) fun entry hget => ?_
  dsimp only
  rw [wp_run_bind]
  refine wp_checkTenantWrite (fun e _ => onEntry_refused .unload e) fun _ => ?_
  dsimp only
  split_ifs with hactive
  · rw [wp_run_bind]
    refine wp_disable hget rfl hactive (fun hp s₁ hs₁ => ⟨?_, fun hrecords e => ?_⟩)
      (fun p s' hp hs' => ?_) (fun p answer s' s'' hanswer hs'' => ⟨?_, fun hrecords e => ?_⟩)
      fun p s' => ?_
    · refine unloadInstance_obeys (fun s' hs' _ => ?_) (fun hrecords e s' hs' => ?_)
        fun entry' p s' hget' hp' _ => ?_
      · exact (hs₁.trans hs').onEntry_of_get hget (status_bare hactive hp) (status_bare rfl rfl)
          .unloadsBare
      · exact (hs₁.trans hs').onEntry fun entry _ => .unrecorded e hrecords (.inr rfl)
      · rw [hs₁ name, if_pos rfl, hget] at hget'
        obtain rfl := some.inj hget'
        exact absurd (hp.symm.trans hp') nofun
    · exact hs₁.onEntry fun entry _ => .unrecorded e hrecords (.inr rfl)
    · exact hs'.onEntry_of_get hget (status_equipped hactive hp) (status_equipped rfl hp)
        (.unloadDisables p)
    · refine unloadInstance_obeys (fun s₃ hs₃ hnone => ?_) (fun hrecords e s₃ hs₃ => ?_)
        fun entry' p' s₃ hget' hp' hs₃ => ?_
      · refine (hs''.trans hs₃).onEntry fun entry' hget' => ?_
        have hp : entry'.pluginInstance = none :=
          hnone entry' (by rw [hs'' name, if_pos rfl, hget']; rfl)
        rw [status_bare rfl hp]
        exact .unloadsBare hanswer
      · exact (hs''.trans hs₃).onEntry fun entry _ => .unrecorded e hrecords (.inr rfl)
      · rw [hs'' name, if_pos rfl, map_id_fun, id] at hget'
        exact (hs''.trans hs₃).onEntry_of_get hget' (status_equipped rfl hp')
          (status_equipped rfl hp') (.unloads p' hanswer)
    · exact hs''.onEntry fun entry _ => .unrecorded e hrecords (.inr rfl)
    · exact (rewrites_refl name s').onEntry fun entry _ => .cancelled entry.status
  · refine unloadInstance_obeys (fun s' hs' hnone => ?_) (fun hrecords e s' hs' => ?_)
      fun entry' p s' hget' hp hs' => ?_
    · exact hs'.onEntry_of_get hget (status_bare rfl (hnone entry hget)) (status_bare rfl rfl)
        .unloadsBare
    · exact hs'.onEntry fun entry _ => .unrecorded e hrecords (.inr rfl)
    · obtain rfl := some.inj (hget.symm.trans hget')
      exact hs'.onEntry_of_get hget (status_equipped rfl hp) (status_equipped rfl hp)
        (.unloads p hactive)

theorem body_obeys (call : PluginCall) (s : PluginServices) :
    Obeys (later call.name call.env call.operation) call.body.run s
      (OnEntry call.name (Starts call.env call.operation) s) := by
  rw [PluginCall.body]
  cases call.operation with
  | load => exact load_obeys
  | enable => exact enable_obeys
  | disable => exact disable_obeys
  | unload => exact unload_obeys

end Obey

end Agent33.Plugins
