import Agent33.Plugins.Turns
import Mathlib.Data.List.Count
import Mathlib.Data.List.Perm.Basic

/-!
# Sequential orders of lifecycle calls

Calls that are made one after another, and those numbers of loads, enables, disables
and unloads that have an order in which they lead from a discovered plugin to a state.
Every life of the plugin but the last one ends with an unload; in some of them it was
enabled.
-/

namespace Agent33.Plugins

def Operation.apply : Operation → PluginState → Option PluginState
  | .load, .discovered => some .loaded
  | .load, .unloaded => some .loaded
  | .load, state => some state
  | .enable, .loaded => some .active
  | .enable, .disabled => some .active
  | .enable, _ => none
  | .disable, .active => some .disabled
  | .disable, _ => none
  | .unload, _ => some .unloaded

def Operation.applyAll (order : List Operation) (state : PluginState) : Option PluginState :=
  order.foldlM (fun state op => op.apply state) state

def Leads (P : PluginState → Prop) (order : List Operation) (Q : PluginState → Prop) : Prop :=
  ∀ state, P state → ∃ state', Operation.applyAll order state = some state' ∧ Q state'

section Leads

variable {P Q R : PluginState → Prop} {order order' : List Operation}

theorem leads_nil : Leads P [] P := fun state h => ⟨state, rfl, h⟩

theorem Leads.append (h : Leads P order Q) (h' : Leads Q order' R) :
    Leads P (order ++ order') R := by
  intro state hstate
  obtain ⟨state', hrun, hstate'⟩ := h state hstate
  obtain ⟨state'', hrun', hstate''⟩ := h' state' hstate'
  refine ⟨state'', ?_, hstate''⟩
  rw [Operation.applyAll] at hrun ⊢
  rw [List.foldlM_append, hrun]
  exact hrun'

theorem Leads.flatten_replicate (h : Leads P order P) (n : ℕ) :
    Leads P (List.replicate n order).flatten P := by
  induction n with
  | zero => exact leads_nil
  | succ n ih =>
    rw [List.replicate_succ, List.flatten_cons]
    exact h.append ih

def Idle (state : PluginState) : Prop := state = .discovered ∨ state = .unloaded

theorem leads_unload (P : PluginState → Prop) : Leads P [.unload] (· = .unloaded) :=
  fun _ _ => ⟨.unloaded, rfl, rfl⟩

theorem leads_load : Leads Idle [.load] (· = .loaded) := by
  rintro state (rfl | rfl)
  · exact ⟨.loaded, rfl, rfl⟩
  · exact ⟨.loaded, rfl, rfl⟩

theorem leads_reload : Leads (· = .loaded) [.load] (· = .loaded) := by
  rintro state rfl
  exact ⟨.loaded, rfl, rfl⟩

def Ready (state : PluginState) : Prop := state = .loaded ∨ state = .disabled

theorem leads_enable : Leads Ready [.enable] (· = .active) := by
  rintro state (rfl | rfl)
  · exact ⟨.active, rfl, rfl⟩
  · exact ⟨.active, rfl, rfl⟩

theorem leads_disable : Leads (· = .active) [.disable] (· = .disabled) := by
  rintro state rfl
  exact ⟨.disabled, rfl, rfl⟩

theorem Leads.weaken {P' Q' : PluginState → Prop} (h : Leads P order Q)
    (hP : ∀ state, P' state → P state) (hQ : ∀ state, Q state → Q' state) :
    Leads P' order Q' := by
  intro state hstate
  obtain ⟨state', hrun, hstate'⟩ := h state (hP state hstate)
  exact ⟨state', hrun, hQ state' hstate'⟩

/-- Lives of the plugin that end unloaded, some with and some without having been enabled, and
then one in which the plugin is loaded, and enabled and disabled. -/
def lives (unloads idle enabled loads toggles : ℕ) : List Operation :=
  (List.replicate unloads [Operation.unload]).flatten ++
    ((List.replicate idle [Operation.load, .unload]).flatten ++
      ((List.replicate enabled [Operation.load, .enable, .unload]).flatten ++
        ([Operation.load] ++ ((List.replicate loads [Operation.load]).flatten ++
          (List.replicate toggles [Operation.enable, .disable]).flatten))))

theorem leads_lives (unloads idle enabled loads toggles : ℕ) :
    Leads (· = .discovered) (lives unloads idle enabled loads toggles) Ready := by
  have hunload : Leads Idle [.unload] Idle :=
    (leads_unload Idle).weaken (fun _ h => h) fun _ => .inr
  have hidle : Leads Idle [.load, .unload] Idle :=
    (leads_load.append (leads_unload _)).weaken (fun _ h => h) fun _ => .inr
  have henable : Leads (· = .loaded) [.enable] (· = .active) :=
    leads_enable.weaken (fun _ => .inl) fun _ h => h
  have henabled : Leads Idle [.load, .enable, .unload] Idle :=
    (leads_load.append (henable.append (leads_unload _))).weaken (fun _ h => h) fun _ => .inr
  have hloads : Leads (· = .loaded) (List.replicate loads [Operation.load]).flatten Ready :=
    (leads_reload.flatten_replicate loads).weaken (fun _ h => h) fun _ => .inl
  have htoggle : Leads Ready [.enable, .disable] Ready :=
    (leads_enable.append leads_disable).weaken (fun _ h => h) fun _ => .inr
  refine Leads.weaken (P := Idle) ?_ (fun _ h => Or.inl h) fun _ h => h
  exact (hunload.flatten_replicate unloads).append ((hidle.flatten_replicate idle).append
    ((henabled.flatten_replicate enabled).append
      (leads_load.append (hloads.append (htoggle.flatten_replicate toggles)))))

structure HasCounts (order : List Operation) (loads enables disables unloads : ℕ) : Prop where
  load : order.count .load = loads
  enable : order.count .enable = enables
  disable : order.count .disable = disables
  unload : order.count .unload = unloads

def Serial (loads enables disables unloads : ℕ) (P : PluginState → Prop) : Prop :=
  ∃ order, HasCounts order loads enables disables unloads ∧ Leads (· = .discovered) order P

variable {made loads enables disables unloads : ℕ}

theorem serial_lives (bare idle enabled again toggles : ℕ) :
    Serial (idle + enabled + 1 + again) (enabled + toggles) toggles (bare + idle + enabled)
      Ready := by
  refine ⟨lives bare idle enabled again toggles, ?_, leads_lives _ _ _ _ _⟩
  constructor <;>
    simp [lives, List.count_flatten, List.count_replicate] <;> omega

theorem Serial.after {P Q : PluginState → Prop} (h : Serial loads enables disables unloads P)
    (hleads : Leads P [operation] Q) :
    Serial (loads + [operation].count .load) (enables + [operation].count .enable)
      (disables + [operation].count .disable) (unloads + [operation].count .unload) Q := by
  obtain ⟨order, ⟨hl, he, hd, hu⟩, horder⟩ := h
  refine ⟨order ++ [operation], ⟨?_, ?_, ?_, ?_⟩, horder.append hleads⟩
  · rw [List.count_append, hl]
  · rw [List.count_append, he]
  · rw [List.count_append, hd]
  · rw [List.count_append, hu]

theorem Serial.weaken {P Q : PluginState → Prop} (h : Serial loads enables disables unloads P)
    (hQ : ∀ state, P state → Q state) : Serial loads enables disables unloads Q := by
  obtain ⟨order, hcounts, hleads⟩ := h
  exact ⟨order, hcounts, hleads.weaken (fun _ h => h) hQ⟩

theorem serial_unloads (unloads : ℕ) : Serial 0 0 0 unloads Idle := by
  induction unloads with
  | zero => exact ⟨[], ⟨rfl, rfl, rfl, rfl⟩, leads_nil.weaken (fun _ h => .inl h) fun _ h => h⟩
  | succ n ih => exact (ih.after (leads_unload _)).weaken fun _ => .inr

theorem serial_loads (loads unloads : ℕ) : Serial (loads + 1) 0 0 unloads (· = .loaded) := by
  induction loads with
  | zero => exact (serial_unloads unloads).after leads_load
  | succ n ih => exact ih.after leads_reload

structure Allows (made loads enables disables unloads : ℕ) : Prop where
  pos : 0 < made
  le_loads : made ≤ loads
  le_unloads : made ≤ unloads + 1
  enables_le : enables ≤ made + disables
  disables_le : disables ≤ enables

section

variable (h : Allows made loads enables disables unloads)
include h

theorem Allows.ready
    (hlt : enables < made + disables) : Serial loads enables disables unloads Ready := by
  obtain ⟨h0, h1, h2, h3, h4⟩ := h
  have hserial := serial_lives (unloads + 1 - made) (made + disables - enables - 1)
    (enables - disables) (loads - made) disables
  have hl : made + disables - enables - 1 + (enables - disables) + 1 + (loads - made) = loads := by
    omega
  have he : enables - disables + disables = enables := by omega
  have hu : unloads + 1 - made + (made + disables - enables - 1) + (enables - disables) =
      unloads := by omega
  rwa [hl, he, hu] at hserial

theorem Allows.active
    (hlt : disables < enables) : Serial loads enables disables unloads (· = .active) := by
  obtain ⟨h0, h1, h2, h3, h4⟩ := h
  obtain ⟨n, rfl⟩ : ∃ n, enables = n + 1 := ⟨enables - 1, by omega⟩
  have hbefore : Allows made loads n disables unloads := ⟨h0, h1, h2, by omega, by omega⟩
  exact (hbefore.ready (by omega)).after leads_enable

theorem Allows.disabled (hpos : 0 < disables)
    (hlt : enables < made + disables) : Serial loads enables disables unloads (· = .disabled) := by
  obtain ⟨h0, h1, h2, h3, h4⟩ := h
  obtain ⟨n, rfl⟩ : ∃ n, disables = n + 1 := ⟨disables - 1, by omega⟩
  have hbefore : Allows made loads enables n unloads := ⟨h0, h1, h2, by omega, by omega⟩
  exact (hbefore.active (by omega)).after leads_disable

theorem Allows.unloaded (hle : made ≤ unloads) :
    Serial loads enables disables unloads (· = .unloaded) := by
  obtain ⟨h0, h1, h2, h3, h4⟩ := h
  obtain ⟨n, rfl⟩ : ∃ n, unloads = n + 1 := ⟨unloads - 1, by omega⟩
  have hbefore : Allows made loads enables disables n := ⟨h0, h1, by omega, h3, h4⟩
  rcases Nat.lt_or_ge disables enables with hlt | hge
  · exact (hbefore.active hlt).after (leads_unload _)
  · exact (hbefore.ready (by omega)).after (leads_unload _)

theorem Allows.loaded (hlt : enables < made + disables) (hone : made = 1 → enables = 0) :
    Serial loads enables disables unloads (· = .loaded) := by
  obtain ⟨h0, h1, h2, h3, h4⟩ := h
  obtain ⟨n, rfl⟩ : ∃ n, loads = n + 1 := ⟨loads - 1, by omega⟩
  rcases Nat.eq_zero_or_pos enables with rfl | hpos
  · obtain rfl : disables = 0 := by omega
    exact serial_loads n unloads
  · have hbefore : Allows (made - 1) n enables disables unloads :=
      ⟨by omega, by omega, by omega, by omega, h4⟩
    exact ((hbefore.unloaded (by omega)).weaken fun _ => .inr).after leads_load

end

end Leads

end Agent33.Plugins

/-!
## Interleaved lifecycle calls

Calls of a registry take turns at their awaits. What a plugin has of them are the
numbers of those that wait, of those that succeeded and of those that failed. They
bound each other by the state of the plugin as long as no call goes on with what
another has taken away, and then the calls that succeeded have an order in which
they lead, one after another, to the state of the plugin.
-/

namespace Agent33.Plugins

open Library Awaiting

def Operation.leaves : Operation → List PluginState
  | .load => [.loading, .error]
  | .enable => [.enabling, .error]
  | .disable => []
  | .unload => [.unloading]

structure Counts where
  waiting : Operation → LifecycleMethod → ℕ
  succeeded : Operation → ℕ
  failed : Operation → ℕ

def Counts.add (k : Counts) (op : Operation) : Outcome → Counts
  | .inl (.ok ()) => { k with succeeded := fun o => k.succeeded o + if op = o then 1 else 0 }
  | .inl (.error _) => { k with failed := fun o => k.failed o + if op = o then 1 else 0 }
  | .inr q =>
    { k with waiting := fun o m => k.waiting o m + if op = o ∧ q.method = m then 1 else 0 }

namespace Counts

variable (k : Counts) (op o : Operation) (m : LifecycleMethod) (e : PluginError) (q : MethodCall)

@[simp, grind =] theorem waiting_add_result (r : Except PluginError Unit) :
    (k.add op (.inl r)).waiting o m = k.waiting o m := by
  cases r <;> rfl

@[simp, grind =] theorem waiting_add_asks :
    (k.add op (.inr q)).waiting o m = k.waiting o m + if op = o ∧ q.method = m then 1 else 0 := rfl

@[simp, grind =] theorem succeeded_add_ok :
    (k.add op (.inl (.ok ()))).succeeded o = k.succeeded o + if op = o then 1 else 0 := rfl

@[simp, grind =] theorem succeeded_add_error :
    (k.add op (.inl (.error e))).succeeded o = k.succeeded o := rfl

@[simp, grind =] theorem succeeded_add_asks : (k.add op (.inr q)).succeeded o = k.succeeded o := rfl

@[simp, grind =] theorem failed_add_ok : (k.add op (.inl (.ok ()))).failed o = k.failed o := rfl

@[simp, grind =] theorem failed_add_error :
    (k.add op (.inl (.error e))).failed o = k.failed o + if op = o then 1 else 0 := rfl

@[simp, grind =] theorem failed_add_asks : (k.add op (.inr q)).failed o = k.failed o := rfl

end Counts

structure Tally (st : Status) (k : Counts) (made : ℕ) : Prop where
  made_le : made ≤ k.succeeded .load
  load_le : made + k.waiting .load .onLoad +
    (if st.state = .discovered ∨ st.state = .unloaded then 1 else 0) ≤ k.succeeded .unload + 1
  enable_le : k.succeeded .enable + k.waiting .enable .onEnable +
    (if st.state = .loaded ∨ st.state = .disabled ∧ k.waiting .unload .onDisable = 0 then 1
      else 0) ≤ made + k.succeeded .disable + k.waiting .disable .onDisable
  disable_le : k.succeeded .disable + k.waiting .disable .onDisable +
    (if st.state = .active then 1 else 0) ≤ k.succeeded .enable
  made_pos : 0 < k.succeeded .enable + k.waiting .enable .onEnable → 0 < made
  unloaded : st.state = .unloaded → 0 < k.succeeded .unload
  loaded : st.state = .loaded → made = 1 → k.succeeded .enable + k.waiting .enable .onEnable = 0
  disabled : st.state = .disabled → k.waiting .unload .onDisable = 0 →
    0 < k.succeeded .disable + k.waiting .disable .onDisable
  discovered : st.state = .discovered → ∀ op, k.succeeded op = 0 ∧ ∀ method, k.waiting op method = 0
  loading : st.state = .loading → 0 < k.waiting .load .onLoad + k.failed .load
  enabling : st.state = .enabling → 0 < k.waiting .enable .onEnable + k.failed .enable
  unloading : st.state = .unloading → 0 < k.waiting .unload .onUnload + k.failed .unload
  error : st.state = .error → 0 < k.failed .load + k.failed .enable
  equipped : st.state = .loaded ∨ st.state = .active ∨ st.state = .disabled → st.equipped = true

section Tally

variable {k : Counts}


theorem Tally.start (h : Tally st k made) (hs : Starts env op st outcome st')
    (henable : op = .enable → k.waiting .unload .onDisable = 0)
    (hrecords : op = .disable ∨ op = .unload → env.Records) :
    ∃ made, Tally st' (k.add op outcome) made := by
  cases hs with
  | refused | skips | loads | breaks | enables | disables | unloadDisables | unloads
  | unloadsBare =>
    refine ⟨made, ?_⟩
    constructor <;> grind [Tally]
  | enablesBare hready => exact absurd (h.equipped (by grind)) (by simp)
  | breaksBare e hready => exact absurd (h.equipped (by grind)) (by simp)
  | disablesBare => exact absurd (h.equipped (by grind)) (by simp)
  | unrecorded e hnot hop => exact absurd (hrecords hop) hnot

theorem Tally.answer {q : MethodCall} {answer : Except PluginError Unit}
    (h : Tally st (k.add op (.inr q)) made)
    (hs : Answered env op q.method answer st outcome st')
    (henable : op = .enable → answer = .ok () → st.equipped = true)
    (hcancel : q.method = .onDisable → answer ≠ .error .cancelled)
    (hrecords : op = .disable ∨ op = .unload → env.Records) :
    ∃ made, Tally st' (k.add op outcome) made := by
  obtain ⟨p, method⟩ := q
  have hknown : st.state ≠ .discovered := fun hdiscovered => by
    simpa using (h.discovered hdiscovered op).2 method
  cases hs with
  | loaded =>
    -- The load that was told so is the one more that has made an instance.
    refine ⟨made + 1, ?_⟩
    constructor <;> grind [Tally]
  | cancelled | fails | enabled | disabled | unloads | unloadsBare | unloaded =>
    refine ⟨made, ?_⟩
    constructor <;> grind [Tally]
  | unrecorded e hnot hop => exact absurd (hrecords hop) hnot

theorem Tally.serial (h : Tally st k made) (hidle : ∀ op method, k.waiting op method = 0) :
    Serial (k.succeeded .load) (k.succeeded .enable) (k.succeeded .disable) (k.succeeded .unload)
        (· = st.state) ∨ ∃ op, st.state ∈ op.leaves ∧ 0 < k.failed op := by
  obtain ⟨state, equipped⟩ := st
  have hallows : 0 < made → Allows made (k.succeeded .load) (k.succeeded .enable)
      (k.succeeded .disable) (k.succeeded .unload) := by
    intro hpos
    constructor <;> grind [Tally]
  cases state with
  | discovered =>
    left
    have hzero : ∀ op, k.succeeded op = 0 := fun op => (h.discovered rfl op).1
    simp only [hzero]
    exact ⟨[], ⟨rfl, rfl, rfl, rfl⟩, leads_nil⟩
  | loading => exact .inr ⟨.load, by simp [Operation.leaves], by grind [Tally]⟩
  | loaded =>
    left
    have hpos : 0 < made := by grind [Tally]
    exact (hallows hpos).loaded (by grind [Tally]) (by grind [Tally])
  | enabling => exact .inr ⟨.enable, by simp [Operation.leaves], by grind [Tally]⟩
  | active =>
    left
    have hpos : 0 < made := by grind [Tally]
    exact (hallows hpos).active (by grind [Tally])
  | disabled =>
    left
    have hpos : 0 < made := by grind [Tally]
    exact (hallows hpos).disabled (by grind [Tally]) (by grind [Tally])
  | unloading => exact .inr ⟨.unload, by simp [Operation.leaves], by grind [Tally]⟩
  | unloaded =>
    left
    rcases Nat.eq_zero_or_pos made with rfl | hpos
    · obtain ⟨unloads, hunloads⟩ : ∃ unloads, k.succeeded .unload = unloads + 1 :=
        ⟨k.succeeded .unload - 1, by grind [Tally]⟩
      have henable : k.succeeded .enable = 0 := by grind [Tally]
      have hdisable : k.succeeded .disable = 0 := by grind [Tally]
      rw [henable, hdisable, hunloads]
      cases k.succeeded .load with
      | zero => exact (serial_unloads unloads).after (leads_unload _)
      | succ loads => exact (serial_loads loads unloads).after (leads_unload _)
    · exact (hallows hpos).unloaded (by grind [Tally])
  | error =>
    right
    have herror := h.error rfl
    rcases Nat.eq_zero_or_pos (k.failed .load) with hload | hload
    · exact ⟨.enable, by simp [Operation.leaves], by omega⟩
    · exact ⟨.load, by simp [Operation.leaves], hload⟩

end Tally

abbrev PluginConfig :=
  Config PluginCall PluginServices MethodCall (Except PluginError Unit) (Except PluginError Unit)

abbrev PluginChoice := Choice PluginCall (Except PluginError Unit)

def program (call : PluginCall) :
    Awaiting PluginServices MethodCall (Except PluginError Unit) (Except PluginError Unit) :=
  call.body.run

def succeeded (c : PluginConfig) (name : String) : List Operation :=
  c.ended.filterMap fun
    | (call, .ok ()) => if call.name = name then some call.operation else none
    | (_, .error _) => none

def failed (c : PluginConfig) (name : String) : List Operation :=
  c.ended.filterMap fun
    | (_, .ok ()) => none
    | (call, .error _) => if call.name = name then some call.operation else none

def counts (c : PluginConfig) (name : String) : Counts where
  waiting op method := c.asked.countP fun w =>
    w.1.name = name ∧ w.1.operation = op ∧ w.2.method = method
  succeeded op := (succeeded c name).count op
  failed op := (failed c name).count op

section Counts

variable {call : PluginCall}

theorem counts_adds (h : c.Adds call outcome c') (hname : call.name = name) :
    counts c' name = (counts c name).add call.operation outcome := by
  subst hname
  match outcome with
  | .inl (.ok ()) =>
    simp [counts, succeeded, failed, h.asked, h.ended, Counts.add, List.count_singleton]
  | .inl (.error e) =>
    simp [counts, succeeded, failed, h.asked, h.ended, Counts.add, List.count_singleton]
  | .inr q =>
    simp [counts, succeeded, failed, h.asked, h.ended, Counts.add, List.countP_singleton]

theorem counts_adds_of_ne (h : c.Adds call outcome c') (hname : call.name ≠ name) :
    counts c' name = counts c name := by
  match outcome with
  | .inl (.ok ()) => simp [counts, succeeded, failed, h.asked, h.ended, hname]
  | .inl (.error e) => simp [counts, succeeded, failed, h.asked, h.ended, hname]
  | .inr q => simp [counts, succeeded, failed, h.asked, h.ended, hname]

theorem counts_perm (h : c.asked.Perm c'.asked) (hended : c.ended = c'.ended) :
    counts c name = counts c' name := by
  simp only [counts, succeeded, failed, hended, h.countP_eq]

abbrev WaitingCall :=
  Waiting PluginCall PluginServices MethodCall (Except PluginError Unit) (Except PluginError Unit)

theorem exists_adds (hw : c.waiting[n]? = some w) (name : String) :
    ∃ c', Config.Adds { c with waiting := c.waiting.eraseIdx n } w.task (.inr w.question) c' ∧
      counts c name = counts c' name := by
  obtain ⟨hn, rfl⟩ := List.getElem?_eq_some_iff.mp hw
  refine ⟨{ c with waiting := c.waiting.eraseIdx n ++ [c.waiting[n]] }, ⟨?_, ?_⟩, ?_⟩
  · simp [Config.asked]
  · simp
  · refine counts_perm (List.Perm.map _ ?_) rfl
    exact (List.getElem_cons_eraseIdx_perm hn).symm.trans (List.perm_append_singleton _ _).symm

end Counts

/-- What has to hold of a step. An enabled plugin still has its instance when that has been
told so, no plugin is enabled that is disabled only because it is being unloaded, and a call
that has disabled or unloaded a plugin is not stopped before it returns. -/
def Orderly (c : PluginConfig) : PluginChoice → Prop
  | .start call =>
    (call.operation = .enable → ∀ w ∈ c.asked, w.1.name = call.name → w.1.operation = .unload →
      w.2.method ≠ .onDisable) ∧
    (call.operation = .disable ∨ call.operation = .unload → call.env.Records)
  | .answer n answer => ∀ w ∈ c.asked[n]?,
    (w.1.operation = .enable → answer = .ok () →
      ∀ entry ∈ c.shared.plugins.get? w.1.name, entry.pluginInstance ≠ none) ∧
    (w.2.method = .onDisable → answer ≠ .error .cancelled) ∧
    (w.1.operation = .disable ∨ w.1.operation = .unload → w.1.env.Records)

instance (env : Surroundings) : Decidable env.Records := inferInstanceAs (Decidable (_ ∧ _))

instance (c : PluginConfig) : (choice : PluginChoice) → Decidable (Orderly c choice)
  | .start _ => inferInstanceAs (Decidable (_ ∧ _))
  | .answer n _ => inferInstanceAs (Decidable (∀ w ∈ c.asked[n]?, _))

/-- A plugin that is loaded, active or disabled has its instance and context; and when no call
on a plugin waits, the calls on it that succeeded have an order in which they lead to its
state, unless a call that failed has left it in another one. -/
structure Consistent (c : PluginConfig) : Prop where
  equipped : ∀ name entry, c.shared.plugins.get? name = some entry →
    entry.state = .loaded ∨ entry.state = .active ∨ entry.state = .disabled →
    ∃ p context, entry.pluginInstance = some p ∧ p.context = context
  serial : ∀ name entry, c.shared.plugins.get? name = some entry →
    (∀ w ∈ c.asked, w.1.name ≠ name) →
    (∃ order, order.Perm (succeeded c name) ∧
      Operation.applyAll order .discovered = some entry.state) ∨
    ∃ op, entry.state ∈ op.leaves ∧ op ∈ failed c name

structure Accounted (c : PluginConfig) : Prop where
  obedient : c.Obedient fun call => later call.name call.env call.operation
  tally : ∀ name entry, c.shared.plugins.get? name = some entry →
    ∃ made, Tally entry.status (counts c name) made

theorem countP_eq_zero_of_asked {call : PluginCall}
    (h : ∀ w ∈ c.asked, w.1.name = call.name → w.1.operation = op → w.2.method ≠ method) :
    (counts c call.name).waiting op method = 0 := by
  refine List.countP_eq_zero.mpr fun w hw hcounted => ?_
  obtain ⟨hname, hop, hmethod⟩ := of_decide_eq_true hcounted
  exact h w hw hname hop hmethod

theorem Accounted.start {call : PluginCall} (hc : Accounted c)
    (h : Orderly c (.start call)) : Accounted (c.next program (.start call)) := by
  obtain ⟨hobedient, outcome, hturn, hadds⟩ :=
    Config.next_start program hc.obedient (body_obeys call c.shared)
  refine ⟨hobedient, fun name entry hget => ?_⟩
  rcases hturn.cases hget with ⟨hname, hbefore⟩ | ⟨rfl, entry₀, hbefore, hstarts⟩
  · rw [counts_adds_of_ne hadds hname.symm]
    exact hc.tally name entry hbefore
  · obtain ⟨made, htally⟩ := hc.tally call.name entry₀ hbefore
    rw [counts_adds hadds rfl]
    exact htally.start hstarts (fun henable => countP_eq_zero_of_asked (h.1 henable)) h.2

theorem Accounted.answer {c : PluginConfig} {n : ℕ} {answer : Except PluginError Unit}
    (hc : Accounted c) (h : Orderly c (.answer n answer)) :
    Accounted (c.next program (.answer n answer)) := by
  cases hw : c.waiting[n]? with
  | none => simpa [Config.next, hw] using hc
  | some w =>
    obtain ⟨henable, hcancel, hrecords⟩ := h (w.task, w.question) (by simp [Config.asked, hw])
    obtain ⟨hobedient, outcome, hturn, hadds⟩ :=
      Config.next_answer program answer hc.obedient hw
    refine ⟨hobedient, fun name entry hget => ?_⟩
    obtain ⟨c', hadds', hcounts⟩ := exists_adds hw name
    rcases hturn.cases hget with ⟨hname, hbefore⟩ | ⟨rfl, entry₀, hbefore, hanswered⟩
    · rw [counts_adds_of_ne hadds hname.symm, ← counts_adds_of_ne hadds' hname.symm, ← hcounts]
      exact hc.tally name entry hbefore
    · obtain ⟨made, htally⟩ := hc.tally w.task.name entry₀ hbefore
      rw [hcounts, counts_adds hadds' rfl] at htally
      rw [counts_adds hadds rfl]
      refine htally.answer hanswered (fun hop hanswer => ?_) hcancel hrecords
      exact Option.isSome_iff_ne_none.mpr (henable hop hanswer entry₀ hbefore)

theorem Accounted.consistent (hc : Accounted c) : Consistent c := by
  constructor
  · intro name entry hget hstate
    obtain ⟨made, htally⟩ := hc.tally name entry hget
    obtain ⟨p, hp⟩ := Option.isSome_iff_exists.mp (htally.equipped hstate)
    exact ⟨p, p.context, hp, rfl⟩
  · intro name entry hget hidle
    obtain ⟨made, htally⟩ := hc.tally name entry hget
    have hzero : ∀ op method, (counts c name).waiting op method = 0 := by
      intro op method
      refine List.countP_eq_zero.mpr fun w hw hcounted => ?_
      exact hidle w hw (of_decide_eq_true hcounted).1
    rcases htally.serial hzero with ⟨order, ⟨hl, he, hd, hu⟩, hleads⟩ | ⟨op, hop, hfailed⟩
    · left
      obtain ⟨state, hrun, rfl⟩ := hleads .discovered rfl
      refine ⟨order, List.perm_iff_count.mpr fun op => ?_, hrun⟩
      cases op with
      | load => exact hl
      | enable => exact he
      | disable => exact hd
      | unload => exact hu
    · exact .inr ⟨op, hop, List.count_pos_iff.mp hfailed⟩

theorem accounted_start
    (hs : ∀ name entry, s.plugins.get? name = some entry → entry.state = .discovered) :
    Accounted { shared := s } := by
  refine ⟨nofun, fun name entry hget => ⟨0, ?_⟩⟩
  have hstate : entry.status.state = .discovered := hs name entry hget
  constructor <;> simp [counts, succeeded, failed, Config.asked, hstate]

/-- In a run from discovered plugins whose steps are orderly, every state is consistent. -/
theorem run_consistent (s : PluginServices) (choices : List PluginChoice)
    (hs : ∀ name entry, s.plugins.get? name = some entry → entry.state = .discovered)
    (h : History.Along (Config.next program) Orderly { shared := s } choices) :
    History.Along (Config.next program) (fun c choice => Consistent (c.next program choice))
      { shared := s } choices := by
  have hnext : ∀ (c : PluginConfig) choice, Accounted c → Orderly c choice →
      Accounted (c.next program choice) := by
    intro c choice hc horderly
    cases choice with
    | start call => exact hc.start horderly
    | answer n answer => exact hc.answer horderly
  refine History.Along.imp (I := Accounted) (fun c choice hc _ => hnext c choice hc)
    (fun c choice hc _ horderly => (hnext c choice hc horderly).consistent) (accounted_start hs) h h

def wordCount : PluginManifest := ⟨"word-count", "1.0.0", by decide⟩

def wordCountServices : PluginServices where
  plugins :=
    Dict.empty.set "word-count" { manifest := wordCount, pluginDir := "plugins/word-count" }

def quiet : Surroundings where
  contextFactory manifest pluginDir := .ok { pluginName := manifest.name, pluginDir }
  pluginClass manifest context := .ok { manifest, context }

def call (operation : Operation) : PluginChoice :=
  .start { operation, name := "word-count", env := quiet }

def unloadedMeanwhile : List PluginChoice :=
  [call .load, .answer 0 (.ok ()), call .enable, call .unload, .answer 1 (.ok ()),
    .answer 0 (.ok ())]

theorem unloadedMeanwhile_not_consistent :
    ¬History.Along (Config.next program) (fun c choice => Consistent (c.next program choice))
      { shared := wordCountServices } unloadedMeanwhile := by
  rintro ⟨-, -, -, -, -, h, -⟩
  obtain ⟨p, context, hp, -⟩ := h.equipped "word-count" _ rfl (.inr (.inl rfl))
  cases hp

def loadedMeanwhile : List PluginChoice :=
  [call .load, .answer 0 (.ok ()), call .enable, call .load, .answer 0 (.ok ()), call .disable,
    .answer 0 (.ok ())]

theorem loadedMeanwhile_consistent :
    History.Along (Config.next program) (fun c choice => Consistent (c.next program choice))
      { shared := wordCountServices } loadedMeanwhile := by
  refine run_consistent wordCountServices loadedMeanwhile (fun name entry hget => ?_) (by decide)
  rw [wordCountServices, Dict.get?_set] at hget
  split_ifs at hget with hname
  · obtain rfl := Option.some.inj hget
    rfl
  · rw [Dict.get?_empty] at hget
    cases hget

end Agent33.Plugins
