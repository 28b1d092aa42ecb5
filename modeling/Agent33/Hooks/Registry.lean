import Agent33.Hooks.Chain
import Agent33.Library.Dict
import Agent33.Library.History

/-!
# The hook registry

Hooks by event type and their definitions, with the operations that a tenant or
the system calls. What a tenant sees of an event type are the system's hooks and
its own.
-/

namespace Agent33.Hooks

open Library Library.Hoare List

inductive HookEventType
  | agentInvokePre
  | agentInvokePost
  | toolExecutePre
  | toolExecutePost
  | workflowStepPre
  | workflowStepPost
  | requestPre
  | requestPost
  | sessionStart
  | sessionEnd
  | sessionCheckpoint
  | sessionResume

def HookEventType.value : HookEventType → String
  | .agentInvokePre => "agent.invoke.pre"
  | .agentInvokePost => "agent.invoke.post"
  | .toolExecutePre => "tool.execute.pre"
  | .toolExecutePost => "tool.execute.post"
  | .workflowStepPre => "workflow.step.pre"
  | .workflowStepPost => "workflow.step.post"
  | .requestPre => "request.pre"
  | .requestPost => "request.post"
  | .sessionStart => "session.start"
  | .sessionEnd => "session.end"
  | .sessionCheckpoint => "session.checkpoint"
  | .sessionResume => "session.resume"

inductive FailMode
  | open
  | closed

structure HookDefinition where
  hookId : String
  name : String
  description : String := ""
  eventType : HookEventType
  priority : ℤ := 100
  handlerRef : String
  timeoutMs : ℕ := 200
  enabled : Bool := true
  tenantId : String := ""
  failMode : FailMode := .open
  tags : List String := []

inductive RegistryError
  | permission (message : String)
  | value (message : String)

structure HookRegistry (μ : Type) where
  hooks : Dict String (List (Hook μ)) := Dict.empty
  definitions : Dict String HookDefinition := Dict.empty
  maxPerEvent : ℕ := 20

variable {μ : Type}

abbrev RegistryM (μ : Type) := EStateM RegistryError (HookRegistry μ)

def checkTenantWrite (callerTenant ownerTenant operation name : String) : RegistryM μ Unit :=
  if callerTenant ≠ "" ∧ ownerTenant ≠ callerTenant then
    throw (.permission ("Tenant '" ++ callerTenant ++ "' cannot " ++ operation ++ " '" ++ name ++
      "' owned by tenant '" ++ (if ownerTenant = "" then "(system)" else ownerTenant) ++ "'"))
  else pure ()

variable (registry : HookRegistry μ)

def HookRegistry.hooksFor (eventType : String) : List (Hook μ) :=
  registry.hooks.getD eventType []

def HookRegistry.setHooks (eventType : String) (hooks : List (Hook μ)) : HookRegistry μ :=
  { registry with hooks := registry.hooks.set eventType hooks }

def HookRegistry.setDefinition (hookId : String) (definition : HookDefinition) : HookRegistry μ :=
  { registry with definitions := registry.definitions.set hookId definition }

def HookRegistry.removeDefinition (hookId : String) : HookRegistry μ :=
  { registry with definitions := registry.definitions.erase hookId }

def register (hook : Hook μ) (definition : Option HookDefinition) (tenantId : String) :
    RegistryM μ Unit :=
  if tenantId ≠ "" ∧ hook.tenantId ≠ "" ∧ hook.tenantId ≠ tenantId then
    throw (.permission ("Cannot register hook '" ++ hook.name ++ "': hook tenant '" ++
      hook.tenantId ++ "' does not match caller tenant '" ++ tenantId ++ "'"))
  else do
    -- A read of the default dictionary leaves an empty list behind.
    modify fun registry => registry.setHooks hook.eventType (registry.hooksFor hook.eventType)
    let registry ← get
    if registry.maxPerEvent ≤ (registry.hooksFor hook.eventType).length then
      throw (.value ("Max hooks (" ++ toString registry.maxPerEvent ++
        ") reached for event type '" ++ hook.eventType ++ "'"))
    else
      modify fun registry =>
        registry.setHooks hook.eventType (registry.hooksFor hook.eventType ++ [hook])
      match definition with
      | none => pure ()
      | some definition => modify (·.setDefinition definition.hookId definition)

def Removes (hookName tenantId name owner : String) : Prop :=
  name = hookName ∧ (tenantId ≠ "" → owner = tenantId)

instance (hookName tenantId name owner : String) :
    Decidable (Removes hookName tenantId name owner) :=
  inferInstanceAs (Decidable (_ ∧ _))

def HookRegistry.dropHooks (hookName tenantId eventType : String) : HookRegistry μ :=
  registry.setHooks eventType
    ((registry.hooksFor eventType).filter fun h => ¬ Removes hookName tenantId h.name h.tenantId)

def deregister (hookName : String) (eventType : Option String) (tenantId : String) :
    RegistryM μ Bool := do
  let before ← get
  let eventTypes := match eventType with
    | none => before.hooks.keys
    | some eventType => if eventType = "" then before.hooks.keys else [eventType]
  modify fun registry =>
    eventTypes.foldl (fun registry et => registry.dropHooks hookName tenantId et) registry
  let after ← get
  modify fun registry => { registry with
    definitions := registry.definitions.filterMapValues fun _ d =>
      if Removes hookName tenantId d.name d.tenantId then none else some d }
  return eventTypes.any fun et => (after.hooksFor et).length < (before.hooksFor et).length

def Hook.VisibleTo (tenantId : String) (h : Hook μ) : Prop :=
  h.tenantId = "" ∨ h.tenantId = tenantId

instance (tenantId : String) (h : Hook μ) : Decidable (h.VisibleTo tenantId) :=
  inferInstanceAs (Decidable (_ ∨ _))

def HookRegistry.getHooks (eventType tenantId : String) : List (Hook μ) :=
  (registry.hooksFor eventType).filter fun h => h.VisibleTo tenantId

def HookRegistry.getChainRunner (eventType tenantId : String)
    (timeoutMs : ℕ := 500) (failOpen : Bool := true) : HookChainRunner μ :=
  HookChainRunner.init (registry.getHooks eventType tenantId) timeoutMs failOpen

/-- The updates are what `model_copy` makes of them. -/
def updateDefinition (hookId : String) (updates : HookDefinition → HookDefinition)
    (tenantId : String) : RegistryM μ (Option HookDefinition) := do
  match (← get).definitions.get? hookId with
  | none => return none
  | some defn =>
    checkTenantWrite tenantId defn.tenantId "update" hookId
    modify (·.setDefinition hookId (updates defn))
    return some (updates defn)

def Hook.isOf (h : Hook μ) (defn : HookDefinition) : Bool :=
  h.name = defn.name && h.tenantId = defn.tenantId

def toggle (hookId : String) (enabled : Bool) (tenantId : String) :
    RegistryM μ (Option HookDefinition) := do
  match (← get).definitions.get? hookId with
  | none => return none
  | some defn =>
    checkTenantWrite tenantId defn.tenantId "toggle" hookId
    modify (·.setDefinition hookId { defn with enabled })
    modify fun registry => registry.setHooks defn.eventType.value
      ((registry.hooksFor defn.eventType.value).map fun h =>
        if h.isOf defn && h.hasEnabledAttr then { h with enabled } else h)
    return some { defn with enabled }

def deleteDefinition (hookId tenantId : String) : RegistryM μ Bool := do
  match (← get).definitions.get? hookId with
  | none => return false
  | some defn =>
    checkTenantWrite tenantId defn.tenantId "delete" hookId
    modify (·.removeDefinition hookId)
    modify fun registry => registry.setHooks defn.eventType.value
      ((registry.hooksFor defn.eventType.value).filter fun h => !h.isOf defn)
    return true

inductive Op (μ : Type)
  | register (hook : Hook μ) (definition : Option HookDefinition)
  | deregister (hookName : String) (eventType : Option String)
  | updateDefinition (hookId : String) (updates : HookDefinition → HookDefinition)
  | toggle (hookId : String) (enabled : Bool)
  | deleteDefinition (hookId : String)

structure Call (μ : Type) where
  tenantId : String
  op : Op μ

def Call.body (call : Call μ) : RegistryM μ Unit :=
  match call.op with
  | .register hook definition => Hooks.register hook definition call.tenantId
  | .deregister hookName eventType => discard (Hooks.deregister hookName eventType call.tenantId)
  | .updateDefinition hookId updates =>
    discard (Hooks.updateDefinition hookId updates call.tenantId)
  | .toggle hookId enabled => discard (Hooks.toggle hookId enabled call.tenantId)
  | .deleteDefinition hookId => discard (Hooks.deleteDefinition hookId call.tenantId)

def SameView (tenantId : String) (s s' : HookRegistry μ) : Prop :=
  ∀ eventType other, other ≠ tenantId → s'.getHooks eventType other = s.getHooks eventType other

theorem hooksFor_setHooks (s : HookRegistry μ) (eventType event : String)
    (hooks : List (Hook μ)) :
    (s.setHooks eventType hooks).hooksFor event =
      if event = eventType then hooks else s.hooksFor event := by
  rw [HookRegistry.hooksFor, HookRegistry.setHooks, Dict.getD_set]
  rfl

variable {tenantId : String} {s₀ s : HookRegistry μ}

variable {hooks : List (Hook μ)}

theorem SameView.setHooks (h : SameView tenantId s₀ s) (eventType : String)
    (hview : ∀ other, other ≠ tenantId →
      hooks.filter (fun h => decide (h.VisibleTo other)) = s.getHooks eventType other) :
    SameView tenantId s₀ (s.setHooks eventType hooks) := by
  intro event other hother
  rw [HookRegistry.getHooks, hooksFor_setHooks]
  split_ifs with hevent
  · rw [hview other hother, ← hevent]
    exact h event other hother
  · exact h event other hother

theorem not_visibleTo {h : Hook μ} (ht : tenantId ≠ "") (hh : h.tenantId = tenantId)
    (hother : other ≠ tenantId) : ¬ h.VisibleTo other := by
  rintro (hsystem | hvisible)
  · exact ht (hh.symm.trans hsystem)
  · exact hother (hvisible.symm.trans hh)

theorem filter_view_filter (hp : ∀ h ∈ hooks, h.VisibleTo other → p h = true) :
    (hooks.filter p).filter (fun h => decide (h.VisibleTo other)) =
      hooks.filter fun h => decide (h.VisibleTo other) := by
  rw [filter_filter]
  apply filter_congr
  intro h hmem
  by_cases hvisible : h.VisibleTo other
  · simp [hvisible, hp h hmem hvisible]
  · simp [hvisible]

theorem filter_view_map
    (hf : ∀ h ∈ hooks, (f h).tenantId = h.tenantId ∧ (h.VisibleTo other → f h = h)) :
    (hooks.map f).filter (fun h => decide (h.VisibleTo other)) =
      hooks.filter fun h => decide (h.VisibleTo other) := by
  induction hooks with
  | nil => rfl
  | cons h hooks ih =>
    have hrest := ih fun h' hmem => hf h' (mem_cons_of_mem h hmem)
    obtain ⟨htenant, hsame⟩ := hf h mem_cons_self
    have hiff : (f h).VisibleTo other ↔ h.VisibleTo other := by
      rw [Hook.VisibleTo, Hook.VisibleTo, htenant]
    rw [map_cons, filter_cons, filter_cons, hrest]
    by_cases hvisible : h.VisibleTo other
    · rw [hsame hvisible]
    · simp [hvisible, hiff]

theorem checkTenantWrite_spec (ht : tenantId ≠ "") (owner operation name : String)
    {P : HookRegistry μ → Prop} :
    Triple P (checkTenantWrite tenantId owner operation name)
      (fun _ s => P s ∧ owner = tenantId) fun _ s => P s := by
  unfold checkTenantWrite
  by_cases howner : owner = tenantId
  · rw [if_neg fun h => h.2 howner]
    exact triple_pure fun _ hs => ⟨hs, howner⟩
  · rw [if_pos ⟨ht, howner⟩]
    exact triple_throw fun _ hs => hs

theorem keeps_register (ht : tenantId ≠ "") (hsystem : hook.tenantId ≠ "")
    (definition : Option HookDefinition) :
    Keeps (SameView tenantId s₀) (register hook definition tenantId) := by
  unfold register
  split_ifs with hcheck
  · exact keeps_throw _
  · have howner : hook.tenantId = tenantId := by
      by_contra hne
      exact hcheck ⟨ht, hsystem, hne⟩
    refine (keeps_modify fun s hs => hs.setHooks _ fun _ _ => rfl).bind fun _ => ?_
    refine keeps_get.bind fun registry => ?_
    split_ifs
    · exact keeps_throw _
    · refine Keeps.bind (keeps_modify fun s hs => hs.setHooks _ ?_) fun _ => ?_
      · intro other hother
        have hhidden := not_visibleTo ht howner hother
        simp [HookRegistry.getHooks, hhidden]
      · cases definition with
        | none => exact keeps_pure _
        | some definition => exact keeps_modify fun s hs => hs

theorem SameView.dropHooks (h : SameView tenantId s₀ s) (ht : tenantId ≠ "")
    (hookName eventType : String) :
    SameView tenantId s₀ (s.dropHooks hookName tenantId eventType) := by
  refine h.setHooks eventType fun other hother => filter_view_filter fun hook _ hvisible => ?_
  apply decide_eq_true
  intro hremoves
  exact not_visibleTo ht (hremoves.2 ht) hother hvisible

theorem keeps_deregister (ht : tenantId ≠ "") (hookName : String) (eventType : Option String) :
    Keeps (SameView tenantId s₀) (deregister (μ := μ) hookName eventType tenantId) := by
  unfold deregister
  refine keeps_get.bind fun before => Keeps.bind (keeps_modify ?_) fun _ => ?_
  · intro s hs
    generalize (match eventType with
      | none => before.hooks.keys
      | some eventType => if eventType = "" then before.hooks.keys else [eventType]) = eventTypes
    induction eventTypes generalizing s with
    | nil => exact hs
    | cons et eventTypes ih => exact ih _ (hs.dropHooks ht hookName et)
  · refine keeps_get.bind fun after => ?_
    refine Keeps.bind (keeps_modify fun s hs => hs) fun _ => ?_
    exact keeps_pure _

theorem keeps_updateDefinition (ht : tenantId ≠ "") (hookId : String)
    (updates : HookDefinition → HookDefinition) :
    Keeps (SameView tenantId s₀) (updateDefinition (μ := μ) hookId updates tenantId) := by
  unfold updateDefinition
  refine keeps_get.bind fun registry => ?_
  cases registry.definitions.get? hookId with
  | none => exact keeps_pure _
  | some defn =>
    refine (checkTenantWrite_spec ht _ _ _).bind fun _ => Triple.of_fact fun _ => ?_
    refine Keeps.bind (keeps_modify fun s hs => hs) fun _ => ?_
    exact keeps_pure _

theorem isOf_hidden {h : Hook μ} {defn : HookDefinition} (ht : tenantId ≠ "")
    (howner : defn.tenantId = tenantId) (hother : other ≠ tenantId) (hvisible : h.VisibleTo other) :
    h.isOf defn = false := by
  rw [Hook.isOf, Bool.and_eq_false_iff]
  refine .inr (decide_eq_false fun hh => ?_)
  exact not_visibleTo ht (hh.trans howner) hother hvisible

theorem keeps_toggle (ht : tenantId ≠ "") (hookId : String) (enabled : Bool) :
    Keeps (SameView tenantId s₀) (toggle (μ := μ) hookId enabled tenantId) := by
  unfold toggle
  refine keeps_get.bind fun registry => ?_
  cases registry.definitions.get? hookId with
  | none => exact keeps_pure _
  | some defn =>
    refine (checkTenantWrite_spec ht _ _ _).bind fun _ => Triple.of_fact fun howner => ?_
    refine Keeps.bind (keeps_modify fun s hs => hs) fun _ => ?_
    refine Keeps.bind (keeps_modify fun s hs => ?_) fun _ => keeps_pure _
    refine hs.setHooks _ fun other hother => filter_view_map fun h _ => ⟨?_, fun hvisible => ?_⟩
    · split_ifs <;> rfl
    · simp [isOf_hidden ht howner hother hvisible]

theorem keeps_deleteDefinition (ht : tenantId ≠ "") (hookId : String) :
    Keeps (SameView tenantId s₀) (deleteDefinition (μ := μ) hookId tenantId) := by
  unfold deleteDefinition
  refine keeps_get.bind fun registry => ?_
  cases registry.definitions.get? hookId with
  | none => exact keeps_pure _
  | some defn =>
    refine (checkTenantWrite_spec ht _ _ _).bind fun _ => Triple.of_fact fun howner => ?_
    refine Keeps.bind (keeps_modify fun s hs => hs) fun _ => ?_
    refine Keeps.bind (keeps_modify fun s hs => ?_) fun _ => keeps_pure _
    refine hs.setHooks _ fun other hother => filter_view_filter fun h _ hvisible => ?_
    simp [isOf_hidden ht howner hother hvisible]

def Call.RegistersSystemHook (call : Call μ) : Prop :=
  ∃ hook definition, call.op = .register hook definition ∧ hook.tenantId = ""

theorem keeps_body (call : Call μ) (ht : call.tenantId ≠ "") (hop : ¬ call.RegistersSystemHook) :
    Keeps (SameView call.tenantId s₀) call.body := by
  rcases call with ⟨tenantId, op⟩
  cases op with
  | register hook definition =>
    exact keeps_register ht (fun hsystem => hop ⟨hook, definition, rfl, hsystem⟩) definition
  | deregister hookName eventType =>
    exact (keeps_deregister ht hookName eventType).bind fun _ => keeps_pure _
  | updateDefinition hookId updates =>
    exact (keeps_updateDefinition ht hookId updates).bind fun _ => keeps_pure _
  | toggle hookId enabled =>
    exact (keeps_toggle ht hookId enabled).bind fun _ => keeps_pure _
  | deleteDefinition hookId =>
    exact (keeps_deleteDefinition ht hookId).bind fun _ => keeps_pure _

/-- A call on behalf of a tenant leaves what every other tenant sees as it is, unless it
registers a hook for everyone. -/
def Isolated (s : HookRegistry μ) (call : Call μ) : Prop :=
  call.tenantId ≠ "" → ¬ call.RegistersSystemHook →
    SameView call.tenantId s (History.next Call.body s call)

theorem calls_isolated (maxPerEvent : ℕ) (calls : List (Call μ)) :
    History.Along (History.next Call.body) Isolated { maxPerEvent } calls := by
  refine History.along_of_invariant (I := fun _ => True) (fun _ _ _ => trivial) ?_ trivial calls
  intro s call _ ht hop
  exact History.next_of_triple Call.body (keeps_body call ht hop) fun _ _ _ => rfl

/-- A hook of the system that a tenant registers is there for the other tenants. -/
theorem systemHook_not_sameView :
    ¬ SameView "acme" {} (History.next Call.body ({} : HookRegistry Unit)
      ⟨"acme", .register { HookChainRunner.notify with tenantId := "" } none⟩) := by
  intro h
  have hlength := congrArg List.length (h "tool.execute.post" "globex" (by decide))
  exact absurd hlength (by decide)

end Agent33.Hooks
