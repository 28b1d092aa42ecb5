import Agent33.Workflows.WsManager

/-!
# The tables of the websockets

The manager keeps the sockets of a run, the runs of a socket and the connection of a socket in
three tables. Every call keeps them in agreement, also the end of a sender task, which removes its
socket only while the connection is still its own.
-/

namespace Agent33.Workflows.WsManager

open Library Library.Cooperative WorkflowWSManager List Option

section Filled

variable {κ α : Type} [DecidableEq κ] {d : Dict κ (List α)}

def Filled (d : Dict κ (List α)) : Prop := ∀ k xs, d.get? k = some xs → xs ≠ []

theorem filled_empty : Filled (Dict.empty : Dict κ (List α)) := by
  intro k xs h
  cases h

theorem Filled.set (h : Filled d) (k : κ) (hxs : xs ≠ []) : Filled (d.set k xs) := by
  intro k' ys hys
  rw [Dict.get?_set] at hys
  split_ifs at hys
  · exact some.inj hys ▸ hxs
  · exact h k' ys hys

theorem Filled.erase (h : Filled d) (k : κ) : Filled (d.erase k) := by
  intro k' ys hys
  rw [Dict.get?_erase] at hys
  split_ifs at hys
  exact h k' ys hys

theorem Filled.discardAt [DecidableEq α] {d : Dict String (List α)} (h : Filled d) (key : String)
    (x : α) : Filled (discardAt d key x) := by
  rw [WorkflowWSManager.discardAt]
  cases d.get? key with
  | none => exact h
  | some xs =>
    dsimp only
    split_ifs with hempty
    · exact h.erase key
    · exact h.set key hempty

theorem Filled.get?_eq_none (h : Filled d) (hempty : d.getD k [] = []) : d.get? k = none := by
  cases hget : d.get? k with
  | none => rfl
  | some xs =>
    rw [Dict.getD, hget] at hempty
    exact absurd hempty (h k xs hget)

theorem addTo_ne_nil [DecidableEq α] (x : α) (xs : List α) : addTo x xs ≠ [] := by
  rw [addTo]
  split_ifs with h
  · exact ne_nil_of_mem h
  · simp

end Filled

def ConnectionState.Open (st : ConnectionState) : Prop :=
  st.cancelled = false ∧ st.sender ≠ .done

/-- No table keeps an empty set, the same sockets have runs and connections, and a connection
whose sender is at work is the one of its socket. -/
structure Tables (m : WorkflowWSManager) : Prop where
  subscriptions : Filled m.subscriptions
  reverse : Filled m.reverse
  sse : Filled m.sseSubscriptions
  connected : ∀ ws, m.reverse.get? ws = none ↔ m.connections.get? ws = none
  current : ∀ (c : ConnId) (st : ConnectionState), m.states[c]? = some st → st.Open →
    m.connections.get? st.ws = some c

variable {m m' : WorkflowWSManager}

section

variable (h : Tables m) (hsubs : m'.subscriptions = m.subscriptions) (hrev : m'.reverse = m.reverse)
  (hsse : m'.sseSubscriptions = m.sseSubscriptions) (hconns : m'.connections = m.connections)
include h hsubs hrev hsse hconns

theorem Tables.of_states
    (hstates : ∀ (c : ConnId) (st : ConnectionState), m'.states[c]? = some st → st.Open →
      ∃ st' : ConnectionState, m.states[c]? = some st' ∧ st'.ws = st.ws ∧ st'.Open) :
    Tables m' where
  subscriptions := hsubs ▸ h.subscriptions
  reverse := hrev ▸ h.reverse
  sse := hsse ▸ h.sse
  connected ws := by rw [hrev, hconns, h.connected]
  current c st hst hopen := by
    obtain ⟨st', hst', hws, hopen'⟩ := hstates c st hst hopen
    rw [hconns, ← hws]
    exact h.current c st' hst' hopen'

theorem Tables.congr (hstates : m'.states = m.states) : Tables m' :=
  h.of_states hsubs hrev hsse hconns fun _ st hst hopen => ⟨st, hstates ▸ hst, rfl, hopen⟩

end

variable {ws : Ws}

theorem Tables.updateState (h : Tables m) (c : ConnId)
    (hf : ∀ st, (f st).Open → (f st).ws = st.ws ∧ st.Open) : Tables (m.updateState c f) := by
  refine h.of_states rfl rfl rfl rfl ?_
  intro c' st hst hopen
  rw [WorkflowWSManager.updateState, getElem?_modify] at hst
  cases hst' : m.states[c']? with
  | none => simp [hst'] at hst
  | some st' =>
    rw [hst'] at hst
    obtain rfl := some.inj hst
    refine ⟨st', rfl, ?_⟩
    by_cases hc : c = c'
    · simp only [hc, if_true] at hopen ⊢
      exact ⟨(hf st' hopen).1.symm, (hf st' hopen).2⟩
    · simp only [hc, if_false] at hopen ⊢
      exact ⟨trivial, hopen⟩

theorem Tables.removeWs (h : Tables m)
    (hclosed : ∀ (c : ConnId) (st : ConnectionState), m.states[c]? = some st → st.ws = ws →
      ¬ st.Open) :
    Tables (m.removeWs ws) where
  subscriptions := by
    have key : ∀ (runs : List String) (d : Dict String (List Ws)), Filled d →
        Filled (runs.foldl (fun d runId => discardAt d runId ws) d) := by
      intro runs
      induction runs with
      | nil => exact fun d hd => hd
      | cons runId runs ih => exact fun d hd => ih _ (hd.discardAt runId ws)
    exact key _ _ h.subscriptions
  reverse := h.reverse.erase ws
  sse := h.sse
  connected ws' := by
    simp only [WorkflowWSManager.removeWs, Dict.get?_erase]
    split_ifs
    · exact ⟨fun _ => rfl, fun _ => rfl⟩
    · exact h.connected ws'
  current c st hst hopen := by
    have hne : st.ws ≠ ws := fun hws => hclosed c st hst hws hopen
    simp only [WorkflowWSManager.removeWs, Dict.get?_erase, if_neg hne]
    exact h.current c st hst hopen

theorem Tables.closeWs (h : Tables m) (hc : m.connections.get? ws = some c)
    (hf : ∀ st, ¬ (f st).Open) : Tables ((m.updateState c f).removeWs ws) := by
  have hclose := h.updateState c fun st hopen => absurd hopen (hf st)
  refine hclose.removeWs ?_
  intro c' st hst hws hopen
  have hcurrent := hclose.current c' st hst hopen
  rw [hws] at hcurrent
  obtain rfl : c = c' := some.inj (hc.symm.trans hcurrent)
  rw [WorkflowWSManager.updateState, getElem?_modify] at hst
  cases hst' : m.states[c]? with
  | none => simp [hst'] at hst
  | some st' =>
    rw [hst'] at hst
    obtain rfl := some.inj hst
    simp only [if_true] at hopen
    exact hf st' hopen

theorem openConnection_subscriptions (m : WorkflowWSManager) (ws : Ws) :
    (m.openConnection ws).subscriptions = m.subscriptions := by
  rw [openConnection]
  cases m.connections.get? ws <;> rfl

theorem openConnection_reverse (m : WorkflowWSManager) (ws : Ws) :
    (m.openConnection ws).reverse = m.reverse := by
  rw [openConnection]
  cases m.connections.get? ws <;> rfl

theorem get?_openConnection (m : WorkflowWSManager) (ws ws' : Ws) :
    (m.openConnection ws).connections.get? ws' = none ↔
      ws' ≠ ws ∧ m.connections.get? ws' = none := by
  rw [openConnection]
  cases hc : m.connections.get? ws with
  | some c =>
    refine ⟨fun hnone => ⟨?_, hnone⟩, And.right⟩
    rintro rfl
    rw [hc] at hnone
    cases hnone
  | none =>
    dsimp only
    rw [Dict.get?_set]
    by_cases hws : ws' = ws <;> simp [hws]

theorem Tables.connect (h : Tables m) (ws : Ws) (runId : String) :
    Tables ((m.openConnection ws).addSubscription ws runId) where
  subscriptions := by
    rw [addSubscription, openConnection_subscriptions]
    exact h.subscriptions.set runId (addTo_ne_nil _ _)
  reverse := by
    rw [addSubscription, openConnection_reverse]
    exact h.reverse.set ws (addTo_ne_nil _ _)
  sse := by
    rw [addSubscription, openConnection]
    cases m.connections.get? ws <;> exact h.sse
  connected ws' := by
    rw [addSubscription]
    dsimp only
    rw [get?_openConnection, Dict.get?_set, openConnection_reverse]
    by_cases hws : ws' = ws
    · simp [hws]
    · simp [hws, h.connected]
  current c st hst hopen := by
    rw [addSubscription, openConnection] at hst ⊢
    cases hc : m.connections.get? ws with
    | some c' =>
      rw [hc] at hst
      exact h.current c st hst hopen
    | none =>
      rw [hc] at hst
      dsimp only at hst ⊢
      rw [Dict.get?_set]
      by_cases hlt : c < m.states.length
      · rw [getElem?_append_left hlt] at hst
        have hcurrent := h.current c st hst hopen
        have hne : st.ws ≠ ws := by
          rintro rfl
          rw [hc] at hcurrent
          cases hcurrent
        rw [if_neg hne]
        exact hcurrent
      · rw [getElem?_append_right (Nat.le_of_not_lt hlt), getElem?_singleton] at hst
        split_ifs at hst with hzero
        obtain rfl := some.inj hst
        have hlen : c = m.states.length :=
          Nat.le_antisymm (Nat.le_of_sub_eq_zero hzero) (Nat.le_of_not_lt hlt)
        rw [if_pos rfl, hlen]

theorem not_open_close (st : ConnectionState) : ¬ st.close.Open := fun h => h.2 rfl

theorem open_of_advance (st : ConnectionState) (h : st.advance.Open) :
    st.advance.ws = st.ws ∧ st.Open := by
  by_cases hdone : st.sender = .done
  · have hsame : st.advance = st := by rw [ConnectionState.advance, hdone]
    rw [hsame] at h ⊢
    exact ⟨rfl, h⟩
  · obtain ⟨-, hws, hcancelled, -⟩ := advance_live st hdone
    exact ⟨hws, hcancelled ▸ h.1, hdone⟩

theorem Tables.effect (h : Tables m) (hs : Sockets m sessions)
    (hq : ∀ runId, (m.sseSubscribers runId).Nodup) (call : Call) :
    Tables (WsManager.effect m call) := by
  cases call with
  | registerRun => exact h.congr rfl rfl rfl rfl rfl
  | connect ws runId =>
    rw [WsManager.effect]
    split_ifs
    · exact h.connect ws runId
    · exact h
  | disconnect ws =>
    rw [WsManager.effect]
    cases hc : m.connections.get? ws with
    | none =>
      refine h.removeWs ?_
      rintro c st hst rfl hopen
      rw [h.current c st hst hopen] at hc
      cases hc
    | some c => exact h.closeWs hc fun st hopen => by cases hopen.1
  | subscribe runId caller afterEventId =>
    rw [WsManager.effect]
    have hnew : Tables m.newQueue.2 := h.congr rfl rfl rfl rfl rfl
    cases (subscription m runId caller afterEventId).1 with
    | none => exact hnew
    | some queue => exact { hnew with sse := hnew.sse.set runId (addTo_ne_nil _ _) }
  | unsubscribe runId queue => exact { h with sse := h.sse.discardAt runId queue }
  | publish e =>
    obtain ⟨queues, states, -, heq, -, hstates⟩ := published_eq hs e (hq e.runId)
    rw [WsManager.effect, heq]
    refine h.of_states rfl rfl rfl rfl ?_
    intro c st hst hopen
    have hst := (hstates c).symm.trans hst
    obtain ⟨st', hst', rfl⟩ := Option.map_eq_some_iff.mp hst
    refine ⟨st', hst', ?_⟩
    split_ifs at hopen ⊢ <;> exact ⟨rfl, hopen⟩
  | take => exact h.congr rfl rfl rfl rfl rfl
  | sender c sendOk =>
    rw [WsManager.effect]
    cases m.states[c]? with
    | none => exact h
    | some state =>
      dsimp only
      split_ifs with hleaves hcurrent
      · exact h.closeWs hcurrent not_open_close
      · exact h.updateState c fun st hopen => absurd hopen (not_open_close st)
      · exact h.updateState c open_of_advance

variable (sseQueueMaxsize sseReplayBufferSize : ℕ)

theorem tables_init : Tables (WorkflowWSManager.init sseQueueMaxsize sseReplayBufferSize) where
  subscriptions := filled_empty
  reverse := filled_empty
  sse := filled_empty
  connected _ := ⟨fun _ => rfl, fun _ => rfl⟩
  current _ _ hst := by cases hst

/-- The sockets that `publish_event` finds dead. -/
def deadSockets (m : WorkflowWSManager) (e : WorkflowEvent) : List Ws :=
  (enqueueEach (m.assigned e).toDict (m.subscribers e.runId)
    (fanOut (m.record e).2 (m.assigned e) (m.sseSubscribers e.runId))).1

/-- The socket is disconnected, a message to it cannot be sent, or it is found dead. -/
def Ends (ws : Ws) (ev : History.Event WorkflowWSManager Call) : Prop :=
  match ev.op with
  | .disconnect ws' => ws' = ws
  | .sender c sendOk => sendOk = false ∧ ∃ st payload, ev.before.states[c]? = some st ∧
      st.ws = ws ∧ st.cancelled = false ∧ st.sender = .sending payload
  | .publish e => ws ∈ deadSockets ev.before e
  | _ => False

theorem Tables.session_of_ends (h : Tables m) (hs : Sockets m sessions)
    (hq : ∀ runId, (m.sseSubscribers runId).Nodup)
    (hends : Ends ws ⟨m, call, WsManager.effect m call⟩) :
    ((sessions ws).next ws ⟨m, call, WsManager.effect m call⟩).runs = [] := by
  cases call with
  | disconnect ws' =>
    obtain rfl : ws' = ws := hends
    simp [Session.next]
  | sender c sendOk =>
    obtain ⟨rfl, st, payload, hst, rfl, hcancelled, hsending⟩ := hends
    have hcurrent := h.current c st hst ⟨hcancelled, by simp [hsending]⟩
    have hleaves : st.leaves false = true := by
      rw [ConnectionState.leaves, hsending]
      simp
    simp only [Session.next]
    rw [hst]
    dsimp only
    rw [if_pos ⟨hleaves, hcurrent⟩]
  | publish e =>
    obtain ⟨-, -, henq, -⟩ := published_eq hs e (hq e.runId)
    have hdead : ws ∈ deadSockets m e := hends
    rw [deadSockets, henq] at hdead
    cases hdead
  | _ => exact hends.elim

theorem session_of_not_connect {session : Session}
    (h : session.runs = []) (hconnect : ∀ runId, ev.op ≠ .connect ws runId) :
    (session.next ws ev).runs = [] := by
  rw [Session.next]
  split
  · rename_i ws' runId hop
    split_ifs with hws
    · exact absurd (hws.1 ▸ hop) (hconnect runId)
    · exact h
  · split_ifs
    · rfl
    · exact h
  · rename_i event hop
    rw [h, if_neg not_mem_nil]
    exact h
  · split
    · exact h
    · split_ifs
      · rfl
      · exact h
  · exact h

structure Bookkeeping (m : WorkflowWSManager) : Prop where
  subscribed : ∀ ws runId, ws ∈ m.subscribers runId ↔ runId ∈ m.runsOf ws
  connected : ∀ ws, ws ∈ m.reverse.keys ↔ ws ∈ m.connections.keys
  subscriptions : Filled m.subscriptions
  reverse : Filled m.reverse
  sseSubscriptions : Filled m.sseSubscriptions

structure Absent (m : WorkflowWSManager) (ws : Ws) : Prop where
  subscriptions : ∀ runId, ws ∉ m.subscribers runId
  reverse : ws ∉ m.reverse.keys
  connections : ws ∉ m.connections.keys

theorem Tables.bookkeeping (h : Tables m) (hs : Sockets m sessions) : Bookkeeping m where
  subscribed ws runId := by rw [hs.subscribed, hs.runs]
  connected ws := by
    rw [← not_iff_not, ← Dict.get?_eq_none, ← Dict.get?_eq_none]
    exact h.connected ws
  subscriptions := h.subscriptions
  reverse := h.reverse
  sseSubscriptions := h.sse

theorem Tables.absent (h : Tables m) (hs : Sockets m sessions) (hruns : (sessions ws).runs = []) :
    Absent m ws := by
  have hnone : m.reverse.get? ws = none := h.reverse.get?_eq_none ((hs.runs ws).trans hruns)
  refine ⟨?_, ?_, ?_⟩
  · intro runId hmem
    rw [hs.subscribed, hruns] at hmem
    cases hmem
  · exact (Dict.get?_eq_none _ ws).mp hnone
  · exact (Dict.get?_eq_none _ ws).mp ((h.connected ws).mp hnone)

/-- The invariant of a history: the tables agree, and a socket whose session has ended has no
runs until it connects again. -/
structure Kept (r : History.Run WorkflowWSManager Call) : Prop where
  inv : Inv r
  tables : Tables r.state
  ended : ∀ pre ev post ws, r.events = pre ++ ev :: post → Ends ws ev →
    (∀ e ∈ post, ∀ runId, e.op ≠ .connect ws runId) → (session ws r.events).runs = []

theorem Kept.step (h : Kept r) (call : Call) :
    Kept ⟨effect r.state call, r.events ++ [⟨r.state, call, effect r.state call⟩]⟩ where
  inv := h.inv.step call
  tables := h.tables.effect h.inv.sockets (fun runId => (h.inv.queues runId).1) call
  ended pre ev post ws heq hends hconnect := by
    rw [session, foldl_append, foldl_cons, foldl_nil, ← session]
    rcases History.split_concat heq with ⟨rfl, rfl, rfl⟩ | ⟨post', rfl, heq'⟩
    · exact h.tables.session_of_ends h.inv.sockets (fun runId => (h.inv.queues runId).1) hends
    · have hold := h.ended pre ev post' ws heq' hends
        fun e he => hconnect e (mem_append_left _ he)
      exact session_of_not_connect hold (hconnect _ (by simp))

theorem kept_history (choices : List (Choice Call)) :
    Kept (history (WorkflowWSManager.init sseQueueMaxsize sseReplayBufferSize) choices) := by
  rw [history_eq_atomic]
  refine History.run_induction _ ?_ (fun r call a m' h hrun => ?_) (fun r call e m' h hrun => ?_) _
  · exact ⟨inv_init _ _, tables_init _ _, fun _ _ _ _ heq => by simp at heq⟩
  · obtain rfl : ((program call).segment r.state).2 = m' := by
      simpa [atomic, EStateM.run] using hrun
    rw [segment_program]
    exact h.step call
  · cases hrun

/-- In every state that a schedule of the manager's calls and of its sender tasks reaches, the
tables agree, and a socket that was disconnected or found dead is in none of them until it
connects again. -/
theorem tables_reachable (choices : List (Choice Call)) :
    let r := history (WorkflowWSManager.init sseQueueMaxsize sseReplayBufferSize) choices
    Bookkeeping r.state ∧
    ∀ pre ev post ws, r.events = pre ++ ev :: post → Ends ws ev →
      (∀ e ∈ post, ∀ runId, e.op ≠ .connect ws runId) → Absent r.state ws := by
  intro r
  have hkept : Kept r := kept_history sseQueueMaxsize sseReplayBufferSize choices
  refine ⟨hkept.tables.bookkeeping hkept.inv.sockets, ?_⟩
  intro pre ev post ws heq hends hconnect
  exact hkept.tables.absent hkept.inv.sockets (hkept.ended pre ev post ws heq hends hconnect)

end Agent33.Workflows.WsManager
