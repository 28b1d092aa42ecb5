import Agent33.Autonomy.Lifecycle

/-!
# Consumption over the life of a budget

The counters and the escalations of a budget live in its enforcer. Checks only add to
them and a restart brings them back from the store; a new enforcer for the same budget
starts from nothing.
-/

namespace Agent33.Autonomy

open Library List Option Consumption Dict AutonomyService

namespace Consumption

instance : Add Consumption :=
  ⟨fun c d => ⟨c.iterations + d.iterations, c.toolCalls + d.toolCalls,
    c.filesModified + d.filesModified, c.linesChanged + d.linesChanged,
    c.networkRequests + d.networkRequests⟩⟩

instance : LE Consumption :=
  ⟨fun c d => c.iterations ≤ d.iterations ∧ c.toolCalls ≤ d.toolCalls ∧
    c.filesModified ≤ d.filesModified ∧ c.linesChanged ≤ d.linesChanged ∧
    c.networkRequests ≤ d.networkRequests⟩

theorem add_def (c d : Consumption) : c + d =
    ⟨c.iterations + d.iterations, c.toolCalls + d.toolCalls, c.filesModified + d.filesModified,
      c.linesChanged + d.linesChanged, c.networkRequests + d.networkRequests⟩ := rfl

theorem le_def (c d : Consumption) : c ≤ d ↔ c.iterations ≤ d.iterations ∧
    c.toolCalls ≤ d.toolCalls ∧ c.filesModified ≤ d.filesModified ∧
    c.linesChanged ≤ d.linesChanged ∧ c.networkRequests ≤ d.networkRequests := Iff.rfl

theorem le_refl (c : Consumption) : c ≤ c := by
  rw [le_def]
  omega

theorem le_antisymm {c d : Consumption} (h : c ≤ d) (h' : d ≤ c) : c = d := by
  rw [le_def] at h h'
  cases c
  cases d
  simp only [mk.injEq]
  dsimp only at h h'
  omega

end Consumption

def Check.cost : Check → Consumption
  | .file _ mode lines =>
    if mode = "write" then { filesModified := 1, linesChanged := lines } else {}
  | .command _ => { toolCalls := 1 }
  | .network _ => { networkRequests := 1 }

open EnforcementContext in
theorem Check.charge_consumption (check : Check) (context : EnforcementContext) :
    (check.charge context).consumption = context.consumption + check.cost := by
  cases check with
  | file path mode lines =>
    by_cases hmode : mode = "write"
    · simp [charge, cost, hmode, consumption, add_def]
    · simp [charge, cost, hmode, consumption, add_def]
  | command text => simp [charge, cost, consumption, add_def]
  | network domain => simp [charge, cost, consumption, add_def]

def AutonomyBudget.Covers (budget : AutonomyBudget) (c : Consumption) : Prop :=
  (0 < budget.limits.maxToolCalls → c.toolCalls ≤ budget.limits.maxToolCalls) ∧
    (0 < budget.limits.maxFilesModified → c.filesModified ≤ budget.limits.maxFilesModified) ∧
    (0 < budget.limits.maxLinesChanged → c.linesChanged ≤ budget.limits.maxLinesChanged) ∧
    (0 < budget.network.maxRequests → c.networkRequests ≤ budget.network.maxRequests)

def EscalationRecord.unflagged (record : EscalationRecord) : EscalationRecord :=
  { record with acknowledged := false, resolved := false }

def consumed (svc : AutonomyService) (budgetId : String) : Consumption :=
  ((svc.enforcers.get? budgetId).map fun e => e.context.consumption).getD {}

def Lists (svc : AutonomyService) (budgetId : String) (record : EscalationRecord) : Prop :=
  ∃ limit, ∃ listed ∈ listEscalations svc (some budgetId) false limit,
    listed.unflagged = record.unflagged

/-- An operation takes nothing back: the consumption stays or grows, what was listed is
listed, and so is all that the enforcer has raised. -/
def NeverBack (python : Python) (budgetId : String) (svc : AutonomyService) (op : Operation) :
    Prop :=
  consumed svc budgetId ≤ consumed (next python svc op) budgetId ∧
    (∀ record, Lists svc budgetId record → Lists (next python svc op) budgetId record) ∧
    ∀ e, (next python svc op).enforcers.get? budgetId = some e →
      ∀ record ∈ e.escalations, Lists (next python svc op) budgetId record

def cost (python : Python) (budgetId : String) (svc : AutonomyService) : Operation → Consumption
  | .enforce id check =>
    if id = budgetId then
      match (enforce python id check).run svc with
      | .ok .allowed _ => check.cost
      | _ => {}
    else {}
  | _ => {}

def spent (python : Python) (budgetId : String) : AutonomyService → List Operation → Consumption
  | _, [] => {}
  | svc, op :: ops => cost python budgetId svc op + spent python budgetId (next python svc op) ops

/-- The operations on one budget: its id is not given to another one, lines are counted
from zero on, and a restart goes through the store. -/
def OnOneBudget (budgetId : String) (svc : AutonomyService) : Operation → Prop
  | .createBudget budget => budget.budgetId ≠ budgetId
  | .enforce id (.file _ _ lines) => id = budgetId → 0 ≤ lines
  | .restart _ => svc.stateStore.isSome
  | _ => True

/-- An enforcer is created only where none is cached, or one that has recorded nothing. -/
def NoneReplaced (budgetId : String) (svc : AutonomyService) : Operation → Prop
  | .createEnforcer id _ _ =>
    id = budgetId → Active svc budgetId → ∀ e, svc.enforcers.get? budgetId = some e →
      e.context.consumption = {} ∧ e.escalations = []
  | _ => True

def created (durable : Bool) (budget : AutonomyBudget) : AutonomyService :=
  ((started durable).putBudget budget.budgetId budget).persistState

section

variable {python : Python} {budgetId : String} {svc svc' : AutonomyService}

structure Tagged (svc : AutonomyService) : Prop where
  budget : ∀ {id budget}, svc.budgets.get? id = some budget → budget.budgetId = id
  enforcer : ∀ {id e}, svc.enforcers.get? id = some e → e.budget.budgetId = id
  record : ∀ {id e}, svc.enforcers.get? id = some e → ∀ r ∈ e.escalations, r.budgetId = id
  escalations : svc.escalations = Dict.empty

theorem mem_firstItems {α : Type} {items : List α} {limit : Int} {x : α}
    (h : x ∈ firstItems items limit) : x ∈ items := mem_of_mem_take h

variable {e e' : RuntimeEnforcer} {c : Consumption} {id : String} {budget : AutonomyBudget}
    {check : Check} {f : EscalationRecord → EscalationRecord}

theorem lists_iff (h : Tagged svc) : Lists svc budgetId record ↔
      ∃ e, svc.enforcers.get? budgetId = some e ∧
        record.unflagged ∈ e.escalations.map EscalationRecord.unflagged := by
  have hvalues {e : RuntimeEnforcer} : e ∈ svc.enforcers.values ↔
      ∃ id, svc.enforcers.get? id = some e := by
    simp only [values, List.mem_map, Prod.exists, ← mem_entries]
    constructor
    · rintro ⟨id, _, hmem, rfl⟩
      exact ⟨id, hmem⟩
    · rintro ⟨id, hmem⟩
      exact ⟨id, e, hmem, rfl⟩
  constructor
  · rintro ⟨limit, listed, hmem, heq⟩
    have hmem := mem_firstItems hmem
    rw [mem_insertionSort, List.mem_filter, h.escalations] at hmem
    obtain ⟨hall, hfilter⟩ := hmem
    have hall : listed ∈ svc.enforcers.values.flatMap (·.escalations) := by
      simpa [values, empty] using hall
    obtain ⟨e, he, hlisted⟩ := mem_flatMap.mp hall
    obtain ⟨id, hid⟩ := hvalues.mp he
    have hb : listed.budgetId = budgetId := by simpa using hfilter
    obtain rfl := (h.record hid listed hlisted).symm.trans hb
    exact ⟨e, hid, heq ▸ List.mem_map_of_mem hlisted⟩
  · rintro ⟨e, he, hmem⟩
    obtain ⟨listed, hlisted, heq⟩ := List.mem_map.mp hmem
    let all := (svc.enforcers.values.flatMap (·.escalations) ++ svc.escalations.values).filter
      fun e => ((some budgetId).all fun b => decide (e.budgetId = b)) && !(false && e.resolved)
    have hall : listed ∈ all := by
      rw [List.mem_filter]
      refine ⟨mem_append_left _ (mem_flatMap.mpr ⟨e, hvalues.mpr ⟨_, he⟩, hlisted⟩), ?_⟩
      simp [h.record he listed hlisted]
    refine ⟨all.length, listed, ?_, heq⟩
    rw [listEscalations, firstItems, if_pos (by omega), take_of_length_le]
    · exact (mem_insertionSort _).mpr hall
    · rw [length_insertionSort]
      exact le_of_eq rfl

theorem triggerEscalation_charged
    (h : (triggerEscalation description target urgency).run e = .ok record e') :
    Charged e.context.consumption e e' := by
  cases h
  exact ⟨rfl, rfl, rfl, _, rfl, by simp [RuntimeEnforcer.record]⟩

theorem updateFirst_unflagged (hf : ∀ r, (f r).unflagged = r.unflagged)
    (h : updateFirst escalationId f records = some updated) :
    updated.map EscalationRecord.unflagged = records.map EscalationRecord.unflagged := by
  induction records generalizing updated with
  | nil => cases h
  | cons record rest ih =>
    rw [updateFirst] at h
    split_ifs at h with hid
    · obtain rfl := some.inj h
      rw [map_cons, map_cons, hf]
    · obtain ⟨rest', hrest, rfl⟩ := map_eq_some_iff.mp h
      rw [map_cons, map_cons, ih hrest]

theorem unflagged_of_flags
    (h : f = (fun r => { r with acknowledged := true }) ∨
      f = (fun r => { r with resolved := true }))
    (r : EscalationRecord) : (f r).unflagged = r.unflagged := by
  rcases h with rfl | rfl <;> rfl

structure Sound (budget : AutonomyBudget) (budgetId : String) (svc : AutonomyService) : Prop where
  tagged : Tagged svc
  owned : ∀ id, Held (fun _ => True) id svc
  stored : ∀ id, Stored id svc
  noneStored : ∀ stored, svc.stateStore = some stored → stored.escalations = Dict.empty
  held : Held BudgetState.Used budgetId svc
  rules : ∀ {found}, svc.budgets.get? budgetId = some found →
    found.limits = budget.limits ∧ found.network = budget.network
  enforced : ∀ {e}, svc.enforcers.get? budgetId = some e →
    e.budget.limits = budget.limits ∧ e.budget.network = budget.network
  nonneg : {} ≤ consumed svc budgetId

theorem Tagged.set (h : Tagged svc) (hbudget : e.budget.budgetId = id)
    (hrecords : ∀ r ∈ e.escalations, r.budgetId = id) :
    Tagged (svc.putEnforcer id e).persistState := by
  refine ⟨h.budget, fun {id' e'} he' => ?_, fun {id' e'} he' => ?_, h.escalations⟩
  · change (svc.enforcers.set id e).get? id' = some e' at he'
    rw [get?_set] at he'
    split_ifs at he' with hid
    · cases he'
      exact hbudget.trans hid.symm
    · exact h.enforcer he'
  · change (svc.enforcers.set id e).get? id' = some e' at he'
    rw [get?_set] at he'
    split_ifs at he' with hid
    · cases he'
      exact hid ▸ hrecords
    · exact h.record he'

theorem Tagged.charged (h : Tagged svc) (found : svc.enforcers.get? id = some e)
    (he : Charged c e e') : Tagged (svc.putEnforcer id e').persistState := by
  obtain ⟨more, hmore, hids⟩ := he.escalations
  refine h.set ((congrArg _ he.budget).trans (h.enforcer found)) fun r hr => ?_
  rw [hmore] at hr
  rcases mem_append.mp hr with hr | hr
  · exact h.record found r hr
  · exact (hids r hr).trans (h.enforcer found)

theorem Tagged.putBudget (h : Tagged svc) (hid : budget.budgetId = id) :
    Tagged (svc.putBudget id budget).persistState := by
  refine ⟨fun {id' found} hfound => ?_, h.enforcer, h.record, h.escalations⟩
  change (svc.budgets.set id budget).get? id' = some found at hfound
  rw [get?_set] at hfound
  split_ifs at hfound with heq
  · cases hfound
    exact hid.trans heq.symm
  · exact h.budget hfound

theorem charged_of_run (h : (check.perform python).run e = .ok result e') :
    (result = .allowed ↔ check.allowed python e = true) ∧
      Charged (if check.accepted python e.budget then (check.charge e.context).consumption
        else e.context.consumption) e e' := by
  have hspec := perform_spec python check e
  rw [h] at hspec
  exact hspec

theorem Tagged.move (h : Tagged svc) (hstored : ∀ id, Stored id svc)
    (hnone : ∀ stored, svc.stateStore = some stored → stored.escalations = empty)
    (hmove : Move python svc op svc') : Tagged svc' := by
  cases hmove with
  | refused => exact h
  | createBudget budget => exact h.putBudget rfl
  | @transition id _ _ budget found valid =>
    exact h.putBudget (show budget.budgetId = id from h.budget found)
  | @deleteBudget id budget found state =>
    refine ⟨fun {id' found} hfound => ?_, fun {id' e} he => ?_, fun {id' e} he => ?_,
      h.escalations⟩
    · change (svc.budgets.erase id).get? id' = some found at hfound
      rw [get?_erase] at hfound
      split_ifs at hfound
      exact h.budget hfound
    · change (svc.enforcers.erase id).get? id' = some e at he
      rw [get?_erase] at he
      split_ifs at he
      exact h.enforcer he
    · change (svc.enforcers.erase id).get? id' = some e at he
      rw [get?_erase] at he
      split_ifs at he
      exact h.record he
  | createEnforcer found active => exact h.set (h.budget found) fun r hr => by cases hr
  | enforce found run => exact h.charged found (charged_of_run run).2
  | triggerEscalation found run => exact h.charged found (triggerEscalation_charged run)
  | @updateEscalation _ _ id e escalations f flags found updated =>
    refine h.set (show e.budget.budgetId = id from h.enforcer found) fun r hr => ?_
    have hmem := List.mem_map_of_mem (f := EscalationRecord.unflagged) hr
    rw [updateFirst_unflagged (unflagged_of_flags flags) updated] at hmem
    obtain ⟨old, hold, heq⟩ := List.mem_map.mp hmem
    have hid : old.unflagged.budgetId = r.unflagged.budgetId := by rw [heq]
    exact hid.symm.trans (h.record found old hold)
  | updateStored found =>
    rw [h.escalations] at found
    cases found
  | restart stamps =>
    have hspec (id : String) := loadState_spec stamps (hstored id)
    refine ⟨fun {id found} hfound => ?_, fun {id e} he => ?_, fun {id e} he => ?_, ?_⟩
    · rcases hspec id with ⟨hstore, _⟩ | ⟨stored, _, _, hloaded, _, _⟩
      · rw [loadState] at hstore hfound
        cases hs : svc.stateStore with
        | none =>
          rw [hs] at hfound
          cases hfound
        | some stored =>
          rw [hs] at hstore
          cases hstore
      · exact h.budget (hloaded.symm.trans hfound)
    · rcases hspec id with ⟨_, hnone'⟩ | ⟨stored, _, _, _, _, henforcer⟩
      · rw [hnone'] at he
        cases he
      · rw [henforcer] at he
        obtain ⟨e₀, _, hmap⟩ := bind_eq_some_iff.mp he
        obtain ⟨budget, hbudget, rfl⟩ := map_eq_some_iff.mp hmap
        exact h.budget hbudget
    · rcases hspec id with ⟨_, hnone'⟩ | ⟨stored, _, _, _, _, henforcer⟩
      · rw [hnone'] at he
        cases he
      · rw [henforcer] at he
        obtain ⟨e₀, hcached, hmap⟩ := bind_eq_some_iff.mp he
        obtain ⟨budget, _, rfl⟩ := map_eq_some_iff.mp hmap
        exact (h.record hcached : ∀ r ∈ e₀.escalations, r.budgetId = id)
    · rw [loadState]
      cases hs : svc.stateStore with
      | none => rfl
      | some stored => exact hnone stored hs

def ledger (svc : AutonomyService) (budgetId : String) :
    Option (Consumption × List EscalationRecord) :=
  (svc.enforcers.get? budgetId).map fun e =>
    (e.context.consumption, e.escalations.map EscalationRecord.unflagged)

theorem ledger_of_some (h : svc.enforcers.get? budgetId = some e) : ledger svc budgetId =
      some (e.context.consumption, e.escalations.map EscalationRecord.unflagged) := by
  rw [ledger, h]
  rfl

theorem ledger_of_none (h : svc.enforcers.get? budgetId = none) : ledger svc budgetId = none := by
  rw [ledger, h]
  rfl

theorem consumed_eq (svc : AutonomyService) (budgetId : String) :
    consumed svc budgetId = ((ledger svc budgetId).map Prod.fst).getD {} := by
  rw [consumed, ledger, Option.map_map]
  rfl

/-- What is recorded grows by at least what an allowed call consumes, which the limits
that were kept before still cover. -/
structure Grown (budget : AutonomyBudget) (spent : Consumption)
    (before after : Consumption × List EscalationRecord) : Prop where
  grows : before.1 ≤ after.1
  charged : before.1 + spent ≤ after.1
  records : before.2 <+: after.2
  covers : ∀ c, c ≤ before.1 → budget.Covers c → budget.Covers (c + spent)

inductive Change (python : Python) (budget : AutonomyBudget) (budgetId : String)
    (svc : AutonomyService) (op : Operation) : Prop
  | kept (free : cost python budgetId svc op = {})
      (same : ledger (next python svc op) budgetId = ledger svc budgetId)
  | renewed {startedAt : Int} {stamps : ℕ → Stamp}
      (creates : op = .createEnforcer budgetId startedAt stamps)
      (active : Active svc budgetId)
      (empty : ledger (next python svc op) budgetId = some ({}, []))
  | grown {before after : Consumption × List EscalationRecord}
      (found : ledger svc budgetId = some before)
      (left : ledger (next python svc op) budgetId = some after)
      (grown : Grown budget (cost python budgetId svc op) before after)

theorem Consumption.add_zero (c : Consumption) : c + {} = c := by
  cases c
  simp [add_def]

theorem Consumption.le_add (h : {} ≤ d) : c ≤ c + d := by
  rw [le_def] at h ⊢
  simp only [add_def]
  dsimp only at h
  omega

theorem Consumption.zero_add (c : Consumption) : {} + c = c := by
  cases c
  simp [add_def]

theorem Consumption.add_assoc (c d e : Consumption) : c + d + e = c + (d + e) := by
  simp only [add_def, mk.injEq]
  omega

theorem Consumption.add_le_add_right {d e : Consumption} (h : c ≤ d) : c + e ≤ d + e := by
  rw [le_def] at h ⊢
  simp only [add_def]
  omega

theorem covers_add_zero (h : budget.Covers c) : budget.Covers (c + {}) := by
  rw [add_zero]
  exact h

theorem Check.zero_le_cost (hlines : ∀ path mode lines, check = .file path mode lines → 0 ≤ lines) :
    {} ≤ check.cost := by
  cases check with
  | file path mode lines =>
    have h := hlines path mode lines rfl
    rw [cost]
    split_ifs
    · simp [le_def, h]
    · exact le_refl _
  | command text => simp [cost, le_def]
  | network domain => simp [cost, le_def]

theorem covers_add_cost
    (hrules : e.budget.limits = budget.limits ∧ e.budget.network = budget.network)
    (hwithin : check.within e.budget (check.charge e.context) = true)
    (hc : c ≤ e.context.consumption) (h : budget.Covers c) : budget.Covers (c + check.cost) := by
  obtain ⟨hcalls, hfiles, hlines, hrequests⟩ := h
  obtain ⟨-, hc₁, hc₂, hc₃, hc₄⟩ := hc
  dsimp only [EnforcementContext.consumption] at hc₁ hc₂ hc₃ hc₄
  cases check with
  | file path mode lines =>
    by_cases hmode : mode = "write"
    · simp only [Check.within, Check.charge, hmode, if_true, decide_eq_true_eq, hrules.1,
        true_implies] at hwithin
      simp only [Check.cost, hmode, if_true, add_def, AutonomyBudget.Covers]
      omega
    · rw [Check.cost, if_neg hmode]
      exact covers_add_zero ⟨hcalls, hfiles, hlines, hrequests⟩
  | command text =>
    simp only [Check.within, Check.charge, decide_eq_true_eq, hrules.1] at hwithin
    simp only [Check.cost, add_def, AutonomyBudget.Covers]
    omega
  | network domain =>
    simp only [Check.within, Check.charge, decide_eq_true_eq, hrules.2] at hwithin
    simp only [Check.cost, add_def, AutonomyBudget.Covers]
    omega

variable (python budgetId svc) in
theorem cost_enforce (check : Check) :
    cost python budgetId svc (.enforce budgetId check) =
      match (onEnforcer budgetId (check.perform python)).run svc with
      | .ok .allowed _ => check.cost
      | _ => {} := by
  rw [cost, if_pos rfl, enforce_eq]

variable (python svc) in
theorem cost_of_ne (h : ∀ check, op ≠ .enforce budgetId check) :
    cost python budgetId svc op = {} := by
  cases op with
  | enforce id check =>
    rw [cost, if_neg]
    rintro rfl
    exact h check rfl
  | _ => rfl

theorem ledger_putEnforcer (id : String) (e : RuntimeEnforcer) :
    ledger (svc.putEnforcer id e).persistState budgetId =
      if budgetId = id then
        some (e.context.consumption, e.escalations.map EscalationRecord.unflagged)
      else ledger svc budgetId := by
  change ((svc.enforcers.set id e).get? budgetId).map _ = _
  rw [get?_set]
  split_ifs <;> rfl

theorem change_enforce (h : Sound budget budgetId svc)
    (hop : OnOneBudget budgetId svc (.enforce budgetId check)) :
    Change python budget budgetId svc (.enforce budgetId check) := by
  have hcost := cost_enforce python budgetId svc check
  have hnext := run_discard (enforce python budgetId check) svc
  rw [enforce_eq] at hnext
  have hrun := onEnforcer_run budgetId (check.perform python) svc
  cases hfound : svc.enforcers.get? budgetId with
  | none =>
    rw [hfound] at hrun
    rw [hrun] at hcost hnext
    refine .kept hcost ?_
    rw [next_of_error (enforce_eq python budgetId check ▸ hnext)]
  | some e =>
    rw [hfound] at hrun
    dsimp only at hrun
    cases hperform : (check.perform python).run e with
    | error err e' =>
      have hspec := perform_spec python check e
      rw [hperform] at hspec hrun
      obtain rfl := hspec.2
      rw [hrun] at hcost hnext
      refine .kept hcost ?_
      rw [next_of_error (enforce_eq python budgetId check ▸ hnext),
        putEnforcer, set_eq_self hfound]
    | ok result e' =>
      obtain ⟨hallowed, hcharged⟩ := charged_of_run hperform
      rw [hperform] at hrun
      rw [hrun] at hcost hnext
      have hafter : ledger (next python svc (.enforce budgetId check)) budgetId =
          some (e'.context.consumption, e'.escalations.map EscalationRecord.unflagged) := by
        rw [next_of_ok (enforce_eq python budgetId check ▸ hnext),
          ledger_putEnforcer, if_pos rfl]
      obtain ⟨more, hmore, _⟩ := hcharged.escalations
      have hzero : {} ≤ check.cost := by
        refine Check.zero_le_cost fun path mode lines heq => ?_
        subst heq
        exact hop rfl
      refine .grown (ledger_of_some hfound) hafter ?_
      have hconsumption := hcharged.consumption
      rw [Check.charge_consumption] at hconsumption
      have hgrows : e.context.consumption ≤ e'.context.consumption := by
        rw [hconsumption]
        split_ifs
        · exact le_add hzero
        · exact le_refl _
      have hrecords : e.escalations.map EscalationRecord.unflagged <+:
          e'.escalations.map EscalationRecord.unflagged := by
        rw [hmore, map_append]
        exact prefix_append _ _
      by_cases hresult : result = .allowed
      · subst hresult
        have hallow := hallowed.mp rfl
        rw [Check.allowed, Bool.and_eq_true] at hallow
        rw [if_pos hallow.1] at hconsumption
        refine ⟨hgrows, ?_, hrecords, fun c hc hcovers => ?_⟩
        · rw [hcost, hconsumption]
          exact le_refl _
        · rw [hcost]
          exact covers_add_cost (h.enforced hfound) hallow.2 hc hcovers
      · have hfree : cost python budgetId svc (.enforce budgetId check) = {} := by
          rw [hcost]
          cases result with
          | allowed => exact absurd rfl hresult
          | _ => rfl
        refine ⟨hgrows, ?_, hrecords, fun c _ hcovers => ?_⟩
        · rw [hfree, add_zero]
          exact hgrows
        · rw [hfree]
          exact covers_add_zero hcovers

variable (python) in
theorem change (h : Sound budget budgetId svc)
    (hop : OnOneBudget budgetId svc op) : Change python budget budgetId svc op := by
  by_cases hcall : ∃ check, op = .enforce budgetId check
  · obtain ⟨check, rfl⟩ := hcall
    exact change_enforce h hop
  · have hfree := cost_of_ne python svc fun check heq => hcall ⟨check, heq⟩
    have hsame {svc' : AutonomyService} (hnext : next python svc op = svc')
        (hledger : ledger svc' budgetId = ledger svc budgetId) :
        Change python budget budgetId svc op := .kept hfree (hnext ▸ hledger)
    have hmove := move_next python svc op
    generalize hnext : next python svc op = svc' at hmove
    cases hmove with
    | refused => exact hsame hnext rfl
    | createBudget => exact hsame hnext rfl
    | transition => exact hsame hnext rfl
    | @deleteBudget id found hfound hstate =>
      refine hsame hnext ?_
      change ((svc.enforcers.erase id).get? budgetId).map _ = _
      rw [get?_erase]
      split_ifs with hid
      · subst hid
        cases hcached : svc.enforcers.get? budgetId with
        | none => exact (ledger_of_none hcached).symm
        | some e =>
          obtain ⟨old, hold, hused⟩ := h.held e hcached
          obtain rfl := some.inj (hold.symm.trans hfound)
          rcases hused with hs | hs | hs | hs <;> simp [hs] at hstate
      · rfl
    | @createEnforcer id found startedAt stamps hfound hactive =>
      by_cases hid : budgetId = id
      · subst hid
        refine .renewed rfl ⟨found, hfound, hactive⟩ ?_
        rw [hnext, ledger_putEnforcer, if_pos rfl]
        rfl
      · refine hsame hnext ?_
        rw [ledger_putEnforcer, if_neg hid]
    | @enforce id check e e' result hfound hrun =>
      refine hsame hnext ?_
      rw [ledger_putEnforcer, if_neg]
      rintro rfl
      exact hcall ⟨check, rfl⟩
    | @triggerEscalation id _ _ _ e e' record hfound hrun =>
      by_cases hid : budgetId = id
      · subst hid
        have hcharged := triggerEscalation_charged hrun
        obtain ⟨more, hmore, _⟩ := hcharged.escalations
        refine .grown (ledger_of_some hfound) (by rw [hnext, ledger_putEnforcer, if_pos rfl]) ?_
        rw [hfree, hcharged.consumption, hmore, map_append]
        refine ⟨le_refl _, ?_, prefix_append _ _, fun c _ hc => ?_⟩
        · rw [add_zero]
          exact le_refl _
        · exact covers_add_zero hc
      · refine hsame hnext ?_
        rw [ledger_putEnforcer, if_neg hid]
    | @updateEscalation _ _ id e escalations f flags hfound updated =>
      refine hsame hnext ?_
      rw [ledger_putEnforcer]
      split_ifs with hid
      · subst hid
        rw [ledger_of_some hfound, updateFirst_unflagged (unflagged_of_flags flags) updated]
      · rfl
    | updateStored => exact hsame hnext rfl
    | restart stamps =>
      refine hsame hnext ?_
      rcases loadState_spec stamps (h.stored budgetId) with
        ⟨hstore, _⟩ | ⟨stored, _, _, _, _, henforcer⟩
      · rw [loadState] at hstore
        cases hs : svc.stateStore with
        | none =>
          rw [OnOneBudget, hs] at hop
          cases hop
        | some stored =>
          rw [hs] at hstore
          cases hstore
      · cases hcached : svc.enforcers.get? budgetId with
        | none =>
          rw [hcached] at henforcer
          rw [ledger_of_none hcached, ledger_of_none henforcer]
        | some e =>
          obtain ⟨found, hfound, _⟩ := h.held e hcached
          rw [hcached, hfound] at henforcer
          rw [ledger_of_some hcached, ledger_of_some henforcer]
          rfl

theorem noneStored_move (h : Sound budget budgetId svc)
    (hmove : Move python svc op svc') :
    ∀ stored, svc'.stateStore = some stored → stored.escalations = empty := by
  have hpersist {svc₁ : AutonomyService} (hsvc : svc₁.escalations = empty) :
      ∀ stored, svc₁.persistState.stateStore = some stored → stored.escalations = empty := by
    intro stored hs
    obtain ⟨_, _, rfl⟩ := map_eq_some_iff.mp hs
    exact hsvc
  cases hmove with
  | refused => exact h.noneStored
  | restart stamps =>
    intro stored hs
    refine h.noneStored stored ?_
    rw [loadState] at hs
    cases hstore : svc.stateStore with
    | none =>
      rw [hstore] at hs
      cases hs
    | some stored' =>
      rw [hstore] at hs
      exact hs
  | updateStored found =>
    rw [h.tagged.escalations] at found
    cases found
  | _ => exact hpersist h.tagged.escalations

theorem rules_move (h : Sound budget budgetId svc)
    (hop : OnOneBudget budgetId svc op) (hmove : Move python svc op svc') :
    (∀ {found}, svc'.budgets.get? budgetId = some found →
      found.limits = budget.limits ∧ found.network = budget.network) ∧
    ∀ {e}, svc'.enforcers.get? budgetId = some e →
      e.budget.limits = budget.limits ∧ e.budget.network = budget.network := by
  have hput {id : String} {e : RuntimeEnforcer}
      (he : id = budgetId → e.budget.limits = budget.limits ∧ e.budget.network = budget.network) :
      ∀ {e'}, (svc.putEnforcer id e).persistState.enforcers.get? budgetId = some e' →
        e'.budget.limits = budget.limits ∧ e'.budget.network = budget.network := by
    intro e' he'
    change (svc.enforcers.set id e).get? budgetId = some e' at he'
    rw [get?_set] at he'
    split_ifs at he' with hid
    · cases he'
      exact he hid.symm
    · exact h.enforced he'
  cases hmove with
  | refused => exact ⟨h.rules, h.enforced⟩
  | createBudget other =>
    refine ⟨fun {found} hfound => ?_, h.enforced⟩
    change (svc.budgets.set other.budgetId other).get? budgetId = some found at hfound
    rw [get?_set, if_neg (Ne.symm hop)] at hfound
    exact h.rules hfound
  | @transition id approvedBy toState old found valid =>
    refine ⟨fun {new} hnew => ?_, h.enforced⟩
    change (svc.budgets.set id _).get? budgetId = some new at hnew
    rw [get?_set] at hnew
    by_cases hid : budgetId = id
    · subst hid
      rw [if_pos rfl] at hnew
      obtain rfl := some.inj hnew
      exact (h.rules found : old.limits = budget.limits ∧ old.network = budget.network)
    · rw [if_neg hid] at hnew
      exact h.rules hnew
  | @deleteBudget id =>
    refine ⟨fun {found} hfound => ?_, fun {e} he => ?_⟩
    · change (svc.budgets.erase id).get? budgetId = some found at hfound
      rw [get?_erase] at hfound
      split_ifs at hfound
      exact h.rules hfound
    · change (svc.enforcers.erase id).get? budgetId = some e at he
      rw [get?_erase] at he
      split_ifs at he
      exact h.enforced he
  | createEnforcer found active => exact ⟨h.rules, hput fun hid => h.rules (hid ▸ found)⟩
  | enforce found run =>
    refine ⟨h.rules, hput fun hid => ?_⟩
    rw [(charged_of_run run).2.budget]
    exact h.enforced (hid ▸ found)
  | triggerEscalation found run =>
    refine ⟨h.rules, hput fun hid => ?_⟩
    rw [(triggerEscalation_charged run).budget]
    exact h.enforced (hid ▸ found)
  | @updateEscalation _ _ id e escalations f flags found =>
    refine ⟨h.rules, hput fun hid => ?_⟩
    subst hid
    exact (h.enforced found : e.budget.limits = _ ∧ e.budget.network = _)
  | updateStored => exact ⟨h.rules, h.enforced⟩
  | restart stamps =>
    rcases loadState_spec stamps (h.stored budgetId) with
      ⟨hstore, hnone⟩ | ⟨stored, _, _, hloaded, _, henforcer⟩
    · refine ⟨fun {found} hfound => ?_, fun {e} he => ?_⟩
      · rw [loadState] at hstore hfound
        cases hs : svc.stateStore with
        | none =>
          rw [hs] at hfound
          cases hfound
        | some stored =>
          rw [hs] at hstore
          cases hstore
      · rw [hnone] at he
        cases he
    · refine ⟨fun {found} hfound => h.rules (hloaded.symm.trans hfound), fun {e} he => ?_⟩
      rw [henforcer] at he
      obtain ⟨e₀, _, hmap⟩ := bind_eq_some_iff.mp he
      obtain ⟨found, hfound, rfl⟩ := map_eq_some_iff.mp hmap
      exact h.rules hfound

theorem Consumption.le_trans {c d e : Consumption} (h : c ≤ d) (h' : d ≤ e) : c ≤ e := by
  rw [le_def] at h h' ⊢
  omega

variable (python) in
theorem Sound.next (h : Sound budget budgetId svc)
    (hop : OnOneBudget budgetId svc op) : Sound budget budgetId (next python svc op) where
  tagged := h.tagged.move h.stored h.noneStored (move_next python svc op)
  owned id := (h.owned id).move closed_true (h.stored id) (fun _ _ _ => .inr trivial)
    (move_next python svc op)
  stored id := (h.stored id).move (h.owned id) (move_next python svc op)
  noneStored := noneStored_move h (move_next python svc op)
  held := by
    refine h.held.move closed_used (h.stored budgetId) ?_ (move_next python svc op)
    rintro other rfl hid
    exact absurd hid hop
  rules := (rules_move h hop (move_next python svc op)).1
  enforced := (rules_move h hop (move_next python svc op)).2
  nonneg := by
    have hzero := h.nonneg
    rw [consumed_eq] at hzero ⊢
    cases change python h hop with
    | kept free same =>
      rw [same]
      exact hzero
    | renewed creates active empty =>
      rw [empty]
      exact le_refl _
    | grown found left grown =>
      rw [found] at hzero
      rw [left]
      exact le_trans hzero grown.grows

theorem sound_created (durable : Bool) (budget : AutonomyBudget) :
    Sound budget budget.budgetId (created durable budget) := by
  have hget {id : String} {found : AutonomyBudget}
      (h : (created durable budget).budgets.get? id = some found) :
      id = budget.budgetId ∧ found = budget := by
    change (set empty budget.budgetId budget).get? id = some found at h
    rw [get?_set] at h
    split_ifs at h with hid
    · exact ⟨hid, (some.inj h).symm⟩
    · cases h
  have hcached {id : String} {e : RuntimeEnforcer} :
      (created durable budget).enforcers.get? id = some e → False := by
    rintro ⟨⟩
  refine ⟨⟨fun h => ?_, fun h => (hcached h).elim, fun h => (hcached h).elim, rfl⟩,
    fun id e h => (hcached h).elim, fun id => stored_persistState _, fun stored hs => ?_,
    fun e h => (hcached h).elim, fun h => ?_, fun h => (hcached h).elim, le_refl _⟩
  · obtain ⟨hid, rfl⟩ := hget h
    exact hid.symm
  · obtain ⟨_, _, rfl⟩ := map_eq_some_iff.mp hs
    rfl
  · obtain ⟨_, rfl⟩ := hget h
    exact ⟨rfl, rfl⟩

theorem lists_iff_ledger (h : Tagged svc) {record : EscalationRecord} :
    Lists svc budgetId record ↔ ∃ l, ledger svc budgetId = some l ∧ record.unflagged ∈ l.2 := by
  rw [lists_iff h]
  constructor
  · rintro ⟨e, he, hmem⟩
    exact ⟨_, ledger_of_some he, hmem⟩
  · rintro ⟨l, hl, hmem⟩
    obtain ⟨e, he, rfl⟩ := map_eq_some_iff.mp hl
    exact ⟨e, he, hmem⟩

theorem ledger_of_noneReplaced
    (h : NoneReplaced budgetId svc (.createEnforcer budgetId startedAt stamps))
    (hactive : Active svc budgetId) :
    ledger svc budgetId = none ∨ ledger svc budgetId = some ({}, []) := by
  cases hcached : svc.enforcers.get? budgetId with
  | none => exact .inl (ledger_of_none hcached)
  | some e =>
    obtain ⟨hconsumption, hescalations⟩ := h rfl hactive e hcached
    refine .inr ?_
    rw [ledger_of_some hcached, hconsumption, hescalations]
    rfl

variable (python) in
theorem next_createEnforcer (startedAt : Int) (stamps : ℕ → Stamp)
    (hactive : Active svc budgetId) :
    ledger (next python svc (.createEnforcer budgetId startedAt stamps)) budgetId =
      some ({}, []) := by
  obtain ⟨found, hfound, hstate⟩ := hactive
  have hrun :
      (Operation.perform python (.createEnforcer budgetId startedAt stamps)).run svc = _ :=
    run_discard (createEnforcer budgetId startedAt stamps) svc
  rw [createEnforcer_run, hfound] at hrun
  dsimp only at hrun
  rw [if_neg (not_not.mpr hstate)] at hrun
  rw [next_of_ok hrun, ledger_putEnforcer, if_pos rfl]
  rfl

section

variable (h : Sound budget budgetId svc) (hop : OnOneBudget budgetId svc op)
include h hop

theorem neverBack_of_noneReplaced (hnone : NoneReplaced budgetId svc op) :
    NeverBack python budgetId svc op := by
  have hnext := (h.next python hop).tagged
  have hraised : ∀ e, (next python svc op).enforcers.get? budgetId = some e →
      ∀ record ∈ e.escalations, Lists (next python svc op) budgetId record :=
    fun e he record hr => (lists_iff hnext).mpr ⟨e, he, List.mem_map_of_mem hr⟩
  simp only [NeverBack, consumed_eq, lists_iff_ledger h.tagged, lists_iff_ledger hnext]
    at hraised ⊢
  cases change python h hop with
  | kept free same =>
    rw [same] at hraised ⊢
    exact ⟨le_refl _, fun _ h => h, hraised⟩
  | renewed creates active empty =>
    subst creates
    rw [empty] at hraised ⊢
    rcases ledger_of_noneReplaced hnone active with hl | hl
    · rw [hl]
      refine ⟨le_refl _, ?_, hraised⟩
      rintro record ⟨l, hnone, -⟩
      cases hnone
    · rw [hl]
      exact ⟨le_refl _, fun _ h => h, hraised⟩
  | @grown before after found left grown =>
    rw [left] at hraised ⊢
    rw [found]
    refine ⟨grown.grows, ?_, hraised⟩
    rintro record ⟨l, hl, hmem⟩
    obtain rfl := some.inj hl
    exact ⟨after, rfl, grown.records.subset hmem⟩

theorem noneReplaced_of_neverBack (hback : NeverBack python budgetId svc op) :
    NoneReplaced budgetId svc op := by
  cases op with
  | createEnforcer id startedAt stamps =>
    intro hid hactive e he
    subst hid
    have hledger := next_createEnforcer python startedAt stamps hactive
    obtain ⟨hle, hlists, _⟩ := hback
    have hzero := h.nonneg
    rw [consumed_eq, ledger_of_some he] at hle hzero
    rw [consumed_eq, hledger] at hle
    refine ⟨le_antisymm hle hzero, eq_nil_iff_forall_not_mem.mpr fun r hr => ?_⟩
    have hlisted := hlists r ((lists_iff h.tagged).mpr ⟨e, he, List.mem_map_of_mem hr⟩)
    obtain ⟨l, hl, hmem⟩ := (lists_iff_ledger (h.next python hop).tagged).mp hlisted
    obtain rfl := some.inj (hledger.symm.trans hl)
    cases hmem
  | _ => trivial

theorem covers_next (hnone : NoneReplaced budgetId svc op)
    (hc : c ≤ consumed svc budgetId) (hcovers : budget.Covers c) :
    c + cost python budgetId svc op ≤ consumed (next python svc op) budgetId ∧
      budget.Covers (c + cost python budgetId svc op) := by
  rw [consumed_eq] at hc ⊢
  cases change python h hop with
  | kept free same =>
    rw [free, same, add_zero]
    exact ⟨hc, hcovers⟩
  | renewed creates active empty =>
    subst creates
    rw [empty]
    refine ⟨?_, covers_add_zero hcovers⟩
    rcases ledger_of_noneReplaced hnone active with hl | hl
    · rw [hl] at hc
      exact (add_zero c).symm ▸ hc
    · rw [hl] at hc
      exact (add_zero c).symm ▸ hc
  | grown found left grown =>
    rw [found] at hc
    rw [left]
    exact ⟨le_trans (add_le_add_right hc) grown.charged,
      grown.covers c hc hcovers⟩

end

theorem covers_spent (h : Sound budget budgetId svc)
    (hops : Along python (OnOneBudget budgetId) svc ops)
    (hnone : Along python (NoneReplaced budgetId) svc ops)
    (hc : c ≤ consumed svc budgetId) (hcovers : budget.Covers c) (n : ℕ) :
    budget.Covers (c + spent python budgetId svc (ops.take n)) := by
  induction n generalizing svc ops c with
  | zero => exact covers_add_zero hcovers
  | succ n ih =>
    cases ops with
    | nil => exact covers_add_zero hcovers
    | cons op ops =>
      obtain ⟨hle, hcovers⟩ := covers_next h hops.1 hnone.1 hc hcovers
      rw [take_succ_cons, spent, ← add_assoc]
      exact ih (h.next _ hops.1) hops.2 hnone.2 hle hcovers

end

/-- On one budget nothing is ever taken back, and what was allowed stays within the
limits, exactly when no enforcer replaces one that has recorded something. -/
theorem neverBack_iff_noneReplaced (python : Python) (durable : Bool) (budget : AutonomyBudget)
    (ops : List Operation)
    (hops : Along python (OnOneBudget budget.budgetId) (created durable budget) ops) :
    (Along python (NeverBack python budget.budgetId) (created durable budget) ops ∧
      ∀ n, budget.Covers (spent python budget.budgetId (created durable budget) (ops.take n))) ↔
    Along python (NoneReplaced budget.budgetId) (created durable budget) ops := by
  have hstart := sound_created durable budget
  constructor
  · intro ⟨hback, _⟩
    refine History.Along.imp (I := Sound budget budget.budgetId) ?_ ?_ hstart hops hback
    · exact fun _ _ h hop _ => h.next _ hop
    · exact fun _ _ h hop => noneReplaced_of_neverBack h hop
  · intro hnone
    have hback : Along python (NeverBack python budget.budgetId) (created durable budget) ops := by
      refine History.Along.imp (I := Sound budget budget.budgetId) ?_ ?_ hstart hops hnone
      · exact fun _ _ h hop _ => h.next _ hop
      · exact fun _ _ h hop => neverBack_of_noneReplaced h hop
    refine ⟨hback, fun n => ?_⟩
    have hspent := covers_spent (c := {}) hstart hops hnone hstart.nonneg
      (by simp [AutonomyBudget.Covers]; omega) n
    rw [Consumption.zero_add] at hspent
    exact hspent

def oneCall : AutonomyBudget := { budgetId := "b", limits := { maxToolCalls := 1 } }

def restartedCalls : List Operation :=
  [.transition "b" .active "", .createEnforcer "b" 0 fun _ => {}, .enforce "b" (.command "ls"),
    .restart fun _ _ => {}, .enforce "b" (.command "ls")]

theorem neverBack_restartedCalls :
    Along (asciiPython []) (NeverBack (asciiPython []) "b") (created true oneCall) restartedCalls ∧
      ∀ n, oneCall.Covers
        (spent (asciiPython []) "b" (created true oneCall) (restartedCalls.take n)) := by
  refine (neverBack_iff_noneReplaced (asciiPython []) true oneCall restartedCalls
    ⟨trivial, trivial, trivial, rfl, trivial, trivial⟩).mpr
    ⟨trivial, ?_, trivial, trivial, trivial, trivial⟩
  intro _ _ e he
  cases he

def renewedCalls : List Operation :=
  [.transition "b" .active "", .createEnforcer "b" 0 fun _ => {}, .enforce "b" (.command "ls"),
    .createEnforcer "b" 0 fun _ => {}, .enforce "b" (.command "ls")]

theorem not_neverBack_renewedCalls :
    ¬ Along (asciiPython []) (NeverBack (asciiPython []) "b") (created true oneCall) renewedCalls ∧
      ¬ oneCall.Covers (spent (asciiPython []) "b" (created true oneCall) renewedCalls) := by
  refine ⟨fun ⟨_, _, _, h, _⟩ => ?_, fun h => ?_⟩
  · exact absurd h.1.2.1 (by decide +kernel)
  · exact absurd (h.1 (by decide)) (by decide +kernel)

end Agent33.Autonomy
