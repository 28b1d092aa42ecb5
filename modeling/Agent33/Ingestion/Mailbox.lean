import Agent33.Library.History
import Agent33.Library.JsonNormal

/-!
# The mailbox

Events are queued for each tenant until they are drained, in memory or as rows of a table whose
texts are parsed again. Candidate assets go to the pipeline and are not queued.
-/

namespace Agent33.Ingestion.Mailbox

open Library Library.JsonText List

/-- An event as it was parsed from JSON. -/
structure MailboxEvent where
  fields : Dict Str JsonValue
  normal : Normal (.obj fields.entries)

/-- What `post` adds to an event. The id and the time are its own. -/
structure Stamp where
  eventId : Text
  receivedAt : Text
  sender : Text
  tenantId : Text

/-- What becomes of an event that is not queued: a `ValueError`, or a call of the pipeline. -/
inductive Routing
  | valueError (message : String)
  | submit (payload : List (Str × JsonValue)) (sender tenantId : Text)

inductive MailboxReply
  | routed (routing : Routing)
  | accepted (eventId : Text)
  | drained (tenantId : Text) (events : List JsonValue)
  | tooManyVariables
  | undecodable

def field (name : String) : Str := strOf name.toList

def blank (s : Str) : Bool := s.all fun c => Text.isSpace (Char.ofNat c.val)

def stamped (event : MailboxEvent) (stamp : Stamp) : JsonValue :=
  .obj ([("event_id", stamp.eventId), ("received_at", stamp.receivedAt), ("sender", stamp.sender),
    ("tenant_id", stamp.tenantId)].foldl (fun fields e => fields.set (field e.1) (.str (strOf e.2)))
      event.fields).entries

def routed (event : MailboxEvent) (stamp : Stamp) : Option Routing :=
  match event.fields.get? (field "event_type") with
  | some (.str eventType) =>
    if blank eventType then some (.valueError "'event_type' must be a non-empty string.")
    else
      match event.fields.get? (field "payload") with
      | some (.obj payload) =>
        if eventType = field "candidate_asset" then
          some (.submit payload stamp.sender stamp.tenantId)
        else none
      | _ => some (.valueError "'payload' must be a dict.")
  | _ => some (.valueError "'event_type' must be a non-empty string.")

structure Inbox (σ : Type) where
  empty : σ
  enqueue : Text → JsonValue → σ → σ
  drain : Text → σ → MailboxReply × σ
  restart : σ → σ

def memory : Inbox (Dict Text (List JsonValue)) where
  empty := Dict.empty
  enqueue tenantId event inbox := inbox.set tenantId (inbox.getD tenantId [] ++ [event])
  drain tenantId inbox := (.drained tenantId (inbox.getD tenantId []), inbox.erase tenantId)
  restart _ := Dict.empty

structure MailboxRow where
  id : ℕ
  tenantId : Text
  eventJson : Text

structure MailboxTable where
  rows : List MailboxRow := []
  nextId : ℕ := 1

def MailboxTable.rowsOf (table : MailboxTable) (tenantId : Text) : List MailboxRow :=
  (table.rows.filter fun row => row.tenantId = tenantId).insertionSort fun r r' => r.id ≤ r'.id

/-- The rows are deleted with one variable for each of them. -/
def durable (floats : Floats) (maxVariables : ℕ) : Inbox MailboxTable where
  empty := {}
  enqueue tenantId event table :=
    { rows := table.rows ++ [⟨table.nextId, tenantId, print floats compact 0 event⟩]
      nextId := table.nextId + 1 }
  drain tenantId table :=
    let rows := table.rowsOf tenantId
    if maxVariables < rows.length then (.tooManyVariables, table)
    else
      (match rows.mapM fun row => loads floats row.eventJson with
        | .ok events => .drained tenantId events
        | .error _ => .undecodable,
        { table with rows := table.rows.filter fun row => row.id ∉ rows.map MailboxRow.id })
  restart table := table

inductive MailboxOp
  | post (event : MailboxEvent) (stamp : Stamp)
  | drain (tenantId : Text)
  | restart

def MailboxOp.isRestart : MailboxOp → Bool
  | .restart => true
  | _ => false

namespace Inbox

variable {σ τ : Type}

def step (inbox : Inbox σ) (s : σ) : MailboxOp → List MailboxReply × σ
  | .post event stamp =>
    match routed event stamp with
    | some routing => ([.routed routing], s)
    | none =>
      ([.accepted stamp.eventId], inbox.enqueue stamp.tenantId (stamped event stamp) s)
  | .drain tenantId => ([(inbox.drain tenantId s).1], (inbox.drain tenantId s).2)
  | .restart => ([], inbox.restart s)

def run (inbox : Inbox σ) (s : σ) : List MailboxOp → List MailboxReply × σ
  | [] => ([], s)
  | op :: ops =>
    ((inbox.step s op).1 ++ (inbox.run (inbox.step s op).2 ops).1,
      (inbox.run (inbox.step s op).2 ops).2)

theorem run_eq {inbox : Inbox σ} {inbox' : Inbox τ} {R : σ → τ → Prop}
    {P : σ → MailboxOp → Prop} (hstep : ∀ s t op, R s t → P s op →
      (inbox.step s op).1 = (inbox'.step t op).1 ∧ R (inbox.step s op).2 (inbox'.step t op).2)
    {s : σ} {t : τ} (h : R s t) {ops : List MailboxOp}
    (hP : History.Along (fun s op => (inbox.step s op).2) P s ops) :
    (inbox.run s ops).1 = (inbox'.run t ops).1 ∧ R (inbox.run s ops).2 (inbox'.run t ops).2 := by
  induction ops generalizing s t with
  | nil => exact ⟨rfl, h⟩
  | cons op ops ih =>
    obtain ⟨hreplies, hnext⟩ := hstep s t op h hP.1
    obtain ⟨hrest, hlast⟩ := ih hnext hP.2
    exact ⟨by rw [run, run, hreplies, hrest], hlast⟩

end Inbox

/-- The queues of the tenants, which stay where they are. -/
def queues : Inbox (Text → List JsonValue) where
  empty _ := []
  enqueue tenantId event q t := if t = tenantId then q t ++ [event] else q t
  drain tenantId q := (.drained tenantId (q tenantId), fun t => if t = tenantId then [] else q t)
  restart q := q

def drainedFor (tenantId : Text) (replies : List MailboxReply) : List JsonValue :=
  replies.flatMap fun reply =>
    match reply with
    | .drained t events => if t = tenantId then events else []
    | _ => []

def queuedFor (tenantId : Text) (ops : List MailboxOp) : List JsonValue :=
  ops.flatMap fun op =>
    match op with
    | .post event stamp =>
      if (routed event stamp).isNone ∧ stamp.tenantId = tenantId then [stamped event stamp] else []
    | _ => []

open Inbox

theorem queues_fifo (tenantId : Text) (ops : List MailboxOp) (q : Text → List JsonValue) :
    q tenantId ++ queuedFor tenantId ops =
      drainedFor tenantId (queues.run q ops).1 ++ (queues.run q ops).2 tenantId := by
  induction ops generalizing q with
  | nil => simp [queuedFor, drainedFor, run]
  | cons op ops ih =>
    have hstep : q tenantId ++ queuedFor tenantId [op] =
        drainedFor tenantId (queues.step q op).1 ++ (queues.step q op).2 tenantId := by
      cases op with
      | post event stamp =>
        cases hrouted : routed event stamp with
        | some routing => simp [queuedFor, drainedFor, step, hrouted]
        | none =>
          by_cases ht : stamp.tenantId = tenantId
          · simp [queuedFor, drainedFor, step, hrouted, queues, ht]
          · simp [queuedFor, drainedFor, step, hrouted, queues, ht, Ne.symm ht]
      | drain t =>
        by_cases ht : t = tenantId
        · simp [queuedFor, drainedFor, step, queues, ht]
        · simp [queuedFor, drainedFor, step, queues, ht, Ne.symm ht]
      | restart => simp [queuedFor, drainedFor, step, queues]
    have hops : queuedFor tenantId (op :: ops) =
        queuedFor tenantId [op] ++ queuedFor tenantId ops := by simp [queuedFor]
    have hreplies (replies rest : List MailboxReply) : drainedFor tenantId (replies ++ rest) =
        drainedFor tenantId replies ++ drainedFor tenantId rest := by simp [drainedFor]
    rw [hops, ← append_assoc, hstep, append_assoc, ih, run, hreplies,
      append_assoc]

theorem memory_step (inbox : Dict Text (List JsonValue)) (q : Text → List JsonValue)
    (op : MailboxOp) (h : ∀ t, inbox.getD t [] = q t) (hop : op ≠ .restart) :
    (memory.step inbox op).1 = (queues.step q op).1 ∧
      ∀ t, (memory.step inbox op).2.getD t [] = (queues.step q op).2 t := by
  cases op with
  | post event stamp =>
    simp only [step]
    cases routed event stamp with
    | some routing => exact ⟨rfl, h⟩
    | none =>
      refine ⟨rfl, fun t => ?_⟩
      simp only [memory, queues, Dict.getD_set, h]
      split_ifs with ht
      · rw [ht]
      · rfl
  | drain tenantId =>
    refine ⟨by simp only [step, memory, queues, h], fun t => ?_⟩
    simp only [step, memory, queues, Dict.getD_erase, h]
  | restart => exact absurd rfl hop

theorem memory_run (ops : List MailboxOp) (h : ∀ t, inbox.getD t [] = q t) :
    (memory.run inbox (ops.filter fun op => !op.isRestart)).1 = (queues.run q ops).1 := by
  induction ops generalizing inbox q with
  | nil => rfl
  | cons op ops ih =>
    cases hop : op.isRestart with
    | true =>
      cases op with
      | restart => exact ih h
      | _ => exact nomatch hop
    | false =>
      have hne : op ≠ .restart := by
        rintro rfl
        exact nomatch hop
      obtain ⟨hreplies, hnext⟩ := memory_step inbox q op h hne
      rw [filter_cons, hop, run, ← hreplies, ← ih hnext]
      rfl

theorem normal_set {fields : Dict Str JsonValue} {key : Str} {value : JsonValue}
    (h : Normal (.obj fields.entries)) (hkey : JsonText.merge key = key) (hvalue : Normal value) :
    Normal (.obj (fields.set key value).entries) := by
  refine ⟨(fields.set key value).nodup, normalFields_iff.mpr ?_⟩
  rintro ⟨other, v⟩ hmem
  rw [Dict.mem_entries, Dict.get?_set] at hmem
  split_ifs at hmem with hother
  · cases hmem
    exact ⟨hother ▸ hkey, hvalue⟩
  · exact normalFields_iff.mp h.2 _ ((Dict.mem_entries _ _ _).mpr hmem)

theorem normal_stamped (event : MailboxEvent) (stamp : Stamp) : Normal (stamped event stamp) := by
  simp only [stamped, foldl_cons, foldl_nil]
  have hset {fields : Dict Str JsonValue} (h : Normal (.obj fields.entries)) (name : String)
      (text : Text) : Normal (.obj (fields.set (field name) (.str (strOf text))).entries) :=
    normal_set h (merge_strOf _) (merge_strOf text)
  exact hset (hset (hset (hset event.normal _ _) _ _) _ _) _ _

section Durable

variable {floats : Floats} {maxVariables : ℕ}

/-- The rows of each tenant are its queue, in the order of their ids. -/
structure Holds (floats : Floats) (table : MailboxTable) (q : Text → List JsonValue) : Prop where
  ordered : table.rows.Pairwise fun r r' => r.id < r'.id
  below : ∀ row ∈ table.rows, row.id < table.nextId
  texts : ∀ t, ((table.rows.filter fun row => row.tenantId = t).map MailboxRow.eventJson) =
    (q t).map (print floats compact 0)
  normal : ∀ t, ∀ event ∈ q t, Normal event

/-- A drain finds no more rows than there may be variables in a statement. -/
def Fits (maxVariables : ℕ) (table : MailboxTable) : MailboxOp → Prop
  | .drain tenantId => (table.rowsOf tenantId).length ≤ maxVariables
  | _ => True

theorem Holds.rowsOf (h : Holds floats table q)
    (tenantId : Text) :
    table.rowsOf tenantId = table.rows.filter fun row => row.tenantId = tenantId :=
  List.Pairwise.insertionSort_eq ((h.ordered.filter _).imp Nat.le_of_lt)

theorem Holds.loads (hfloats : floats.Lawful) (h : Holds floats table q) (tenantId : Text) :
    ((table.rowsOf tenantId).mapM fun row => JsonText.loads floats row.eventJson) =
      .ok (q tenantId) := by
  have hall (events : List JsonValue) (hnormal : ∀ event ∈ events, Normal event) :
      (events.map (print floats compact 0)).mapM (JsonText.loads floats) =
        (.ok events : Except ParseError _) := by
    induction events with
    | nil => rfl
    | cons event events ih =>
      obtain ⟨hevent, hevents⟩ := forall_mem_cons.mp hnormal
      rw [map_cons, mapM_cons, loads_print compact hfloats, normalise_of_normal hevent,
        ih hevents]
      rfl
  rw [h.rowsOf, ← hall (q tenantId) (h.normal tenantId), ← h.texts, mapM_map]
  rfl

/-- The rows of the other tenants are left. -/
theorem Holds.kept (h : Holds floats table q)
    (tenantId : Text) :
    (table.rows.filter fun row => row.id ∉ (table.rowsOf tenantId).map MailboxRow.id) =
      table.rows.filter fun row => row.tenantId ≠ tenantId := by
  have hnodup : (table.rows.map MailboxRow.id).Nodup :=
    pairwise_map.mpr (h.ordered.imp Nat.ne_of_lt)
  refine filter_congr fun row hrow => decide_eq_decide.mpr (not_congr ?_)
  rw [h.rowsOf]
  constructor
  · intro hmem
    obtain ⟨row', hrow', hid⟩ := mem_map.mp hmem
    obtain ⟨hrow', htenant⟩ := List.mem_filter.mp hrow'
    obtain rfl := inj_on_of_nodup_map hnodup hrow' hrow hid
    exact of_decide_eq_true htenant
  · intro htenant
    exact mem_map_of_mem (List.mem_filter.mpr ⟨hrow, decide_eq_true htenant⟩)

theorem durable_step (hfloats : floats.Lawful) (table : MailboxTable) (q : Text → List JsonValue)
    (op : MailboxOp) (h : Holds floats table q) (hfits : Fits maxVariables table op) :
    ((durable floats maxVariables).step table op).1 = (queues.step q op).1 ∧
      Holds floats ((durable floats maxVariables).step table op).2 (queues.step q op).2 := by
  cases op with
  | post event stamp =>
    simp only [step]
    cases routed event stamp with
    | some routing => exact ⟨rfl, h⟩
    | none =>
      refine ⟨rfl, ?_, ?_, fun t => ?_, fun t event' hevent => ?_⟩
      · refine pairwise_append.mpr ⟨h.ordered, pairwise_singleton _ _, ?_⟩
        exact fun row hrow row' hrow' => mem_singleton.mp hrow' ▸ h.below row hrow
      · intro row hrow
        rcases mem_append.mp hrow with hrow | hrow
        · exact Nat.lt_succ_of_lt (h.below row hrow)
        · exact mem_singleton.mp hrow ▸ Nat.lt_succ_self _
      · simp only [durable, queues, filter_append, map_append, h.texts]
        by_cases ht : t = stamp.tenantId
        · simp [ht]
        · simp [ht, Ne.symm ht]
      · simp only [queues] at hevent
        split_ifs at hevent
        · rcases mem_append.mp hevent with hevent | hevent
          · exact h.normal t event' hevent
          · exact mem_singleton.mp hevent ▸ normal_stamped event stamp
        · exact h.normal t event' hevent
  | drain tenantId =>
    simp only [step, durable, if_neg (Nat.not_lt.mpr hfits), h.loads hfloats]
    refine ⟨rfl, h.ordered.filter _, fun row hrow => h.below row (mem_of_mem_filter hrow),
      fun t => ?_, fun t event hevent => ?_⟩
    · simp only [h.kept, filter_filter, queues]
      split_ifs with ht
      · rw [ht, map_nil, map_eq_nil_iff]
        exact filter_eq_nil_iff.mpr fun row _ => by simp
      · rw [← h.texts]
        refine congrArg _ (filter_congr fun row _ => ?_)
        by_cases hrow : row.tenantId = t
        · simp [hrow, ht]
        · simp [hrow]
    · simp only [queues] at hevent
      split_ifs at hevent
      · exact absurd hevent not_mem_nil
      · exact h.normal t event hevent
  | restart => exact ⟨rfl, h⟩

/-- The table, which is restarted anywhere, answers as the memory that is not restarted; and each
event that is queued for a tenant is returned by one drain of that tenant, in the order of the
posts, or is still to be returned by the next one. -/
theorem exactlyOnce (hfloats : floats.Lawful) (ops : List MailboxOp)
    (hfits : History.Along (fun table op => ((durable floats maxVariables).step table op).2)
      (Fits maxVariables) {} ops) :
    let ⟨replies, table⟩ := (durable floats maxVariables).run {} ops
    replies = (memory.run memory.empty (ops.filter fun op => !op.isRestart)).1 ∧
      ∀ tenantId, ∃ pending,
        queuedFor tenantId ops = drainedFor tenantId replies ++ pending ∧
          (Fits maxVariables table (.drain tenantId) →
            ((durable floats maxVariables).drain tenantId table).1 =
              .drained tenantId pending) := by
  have hempty : Holds floats {} queues.empty :=
    ⟨.nil, nofun, fun _ => rfl, nofun⟩
  have hmemory : ∀ t, memory.empty.getD t [] = queues.empty t := fun _ => rfl
  obtain ⟨hreplies, hlast⟩ := Inbox.run_eq (durable_step hfloats) hempty hfits
  refine ⟨hreplies.trans (memory_run ops hmemory).symm, fun tenantId =>
    ⟨(queues.run queues.empty ops).2 tenantId, ?_, fun hpending => ?_⟩⟩
  · rw [hreplies, ← queues_fifo]
    rfl
  · have hdrain := (durable_step hfloats _ _ (.drain tenantId) hlast hpending).1
    exact (cons.inj hdrain).1

end Durable

def proposal (eventType : String) : MailboxEvent where
  fields := (Dict.empty.set (field "event_type") (.str (field eventType))).set (field "payload")
    (.obj [])
  normal := by
    refine normal_set (normal_set ?_ (merge_strOf _) (merge_strOf _)) (merge_strOf _) ?_
    · exact ⟨nodup_nil, trivial⟩
    · exact ⟨nodup_nil, trivial⟩

def stamp : Stamp := ⟨['e'], ['t'], ['s'], ['a']⟩

def posted : List MailboxOp := [.post (proposal "task") stamp, .restart, .drain ['a']]

theorem exactlyOnce_proposal :
    ((durable plainFloats 1).run {} posted).1 =
      (memory.run memory.empty (posted.filter fun op => !op.isRestart)).1 :=
  have hfits : History.Along (fun table op => ((durable plainFloats 1).step table op).2) (Fits 1)
      {} posted := ⟨trivial, trivial, Nat.le_refl 1, trivial⟩
  (exactlyOnce plainFloats_lawful posted hfits).1

/-- A candidate asset that is posted is not in the next drain. -/
theorem memory_candidate : ∃ payload, (memory.run memory.empty
    [.post (proposal "candidate_asset") stamp, .drain ['a']]).1 =
      [.routed (.submit payload ['s'] ['a']), .drained ['a'] []] :=
  ⟨[], rfl⟩

end Agent33.Ingestion.Mailbox
