import Agent33.Library.Dict
import Agent33.Library.History
import Agent33.Library.Json
import Mathlib.Data.List.Sort

/-!
# Paused invocations

The service that pauses a tool call until an operator approves or denies it, its
database, and restarts. A record that was resolved once is settled. Times are in
microseconds; the ids of the records come from a source that never repeats one.
-/

namespace Agent33.Autonomy.P69b

open Library List EStateM History

inductive PausedInvocationStatus
  | pending
  | approved
  | denied
  | timedOut
  | consumed
  deriving DecidableEq

def PausedInvocationStatus.value : PausedInvocationStatus → String
  | .pending => "pending"
  | .approved => "approved"
  | .denied => "denied"
  | .timedOut => "timed_out"
  | .consumed => "consumed"

structure PausedInvocation where
  id : ℕ
  invocationId : String
  tenantId : String
  toolName : String
  toolInput : Json
  nonce : String
  status : PausedInvocationStatus := .pending
  createdAt : ℤ
  expiresAt : ℤ
  resolvedAt : Option ℤ := none
  approvedBy : Option String := none
  deriving DecidableEq

inductive ToolApprovalError
  | nonceReplay (message : String)
  | invalidState (message : String)
  | timeout (expiresAt : ℤ)
  | storage

/-- A write to the database: done, left out because the connection is closed, or one
that raises. -/
inductive SaveOutcome
  | written
  | skipped
  | raises
  deriving DecidableEq

abbrev Records := Dict ℕ PausedInvocation

structure P69bService where
  store : Records := Dict.empty
  timeoutSeconds : ℤ := 300
  /-- The rows of the database, when there is one. -/
  persistence : Option Records := none
  nextId : ℕ := 0

abbrev P69bM := EStateM ToolApprovalError P69bService

def put (records : Records) (record : PausedInvocation) : Records := records.set record.id record

/-- `INSERT OR REPLACE`: the new row is the last one. -/
def upsert (rows : Records) (record : PausedInvocation) : Records :=
  (rows.erase record.id).set record.id record

def save (record : PausedInvocation) (outcome : SaveOutcome) : P69bM Unit := do
  match (← get).persistence with
  | none => pure ()
  | some rows =>
    match outcome with
    | .written => modify fun svc => { svc with persistence := some (upsert rows record) }
    | .skipped => pure ()
    | .raises => throw .storage

def putRecord (record : PausedInvocation) : P69bM Unit :=
  modify fun svc => { svc with store := put svc.store record }

def keep (record : PausedInvocation) (outcome : SaveOutcome) : P69bM Unit := do
  putRecord record
  save record outcome

def newId : P69bM ℕ := do
  let svc ← get
  set { svc with nextId := svc.nextId + 1 }
  return svc.nextId

variable (invocationId tenantId toolName : String) (toolInput : Json) (nonce : String)

def pause (now : ℤ)
    (outcome : SaveOutcome) : P69bM PausedInvocation := do
  let svc ← get
  if svc.store.values.any fun record => record.nonce = nonce && record.status = .consumed then
    throw (.nonceReplay ("Nonce already consumed: " ++ nonce))
  else
    let id ← newId
    let record : PausedInvocation :=
      { id, invocationId, tenantId, toolName, toolInput, nonce, createdAt := now
        expiresAt := now + svc.timeoutSeconds * 1000000 }
    keep record outcome
    return record

def resume (approvalId : ℕ) (approved : Bool) (approvedBy : String) (now : ℤ)
    (outcome : SaveOutcome) : P69bM PausedInvocation := do
  match (← get).store.get? approvalId with
  | none => throw (.invalidState ("No approval record: " ++ toString approvalId))
  | some record =>
    if record.status ≠ .pending then
      throw (.invalidState ("Record not in PENDING state: " ++ record.status.value))
    else if record.expiresAt < now then
      keep { record with status := .timedOut, resolvedAt := some now } outcome
      throw (.timeout record.expiresAt)
    else
      let updated := { record with
        status := if approved then .approved else .denied
        resolvedAt := some now
        approvedBy := some approvedBy }
      keep updated outcome
      return updated

def loadPending (rows : Records) (now : ℤ) : List PausedInvocation :=
  let pending := rows.values.filter fun r => r.status = .pending && now < r.expiresAt
  pending.insertionSort fun r r' => r.createdAt ≤ r'.createdAt

def restart (now : ℤ) : P69bM Unit :=
  modify fun svc => { svc with
    store := match svc.persistence with
      | none => Dict.empty
      | some rows => Dict.ofList ((loadPending rows now).map fun record => (record.id, record)) }

inductive Op
  | pause (invocationId tenantId toolName : String) (toolInput : Json) (nonce : String) (now : ℤ)
      (outcome : SaveOutcome)
  | resume (approvalId : ℕ) (approved : Bool) (approvedBy : String) (now : ℤ)
      (outcome : SaveOutcome)
  | restart (now : ℤ)

def Op.body : Op → P69bM Unit
  | .pause invocationId tenantId toolName toolInput nonce now outcome =>
    discard (P69b.pause invocationId tenantId toolName toolInput nonce now outcome)
  | .resume approvalId approved approvedBy now outcome =>
    discard (P69b.resume approvalId approved approvedBy now outcome)
  | .restart now => P69b.restart now

structure Tracked where
  service : P69bService := {}
  settled : List PausedInvocation := []

def Tracked.next (s : Tracked) (op : Op) : Tracked :=
  let service := History.next Op.body s.service op
  { service
    settled := s.settled ++ service.store.values.filter fun record => record.status ≠ .pending }

def Op.nonce? : Op → Option String
  | .pause _ _ _ _ nonce _ _ => some nonce
  | _ => none

def Succeeds (svc : P69bService) (op : Op) : Prop :=
  ∃ a svc', op.body.run svc = .ok a svc'

/-- A record changes from pending only, a settled one never, and the nonce of a settled one
is not accepted again. -/
structure SingleUse (s : Tracked) (op : Op) : Prop where
  resolves : ∀ id record, (s.next op).service.store.get? id = some record →
    record.status ≠ .pending → ∃ r, s.service.store.get? id = some r ∧
      (r = record ∨ r.status = .pending)
  keeps : ∀ r ∈ (s.next op).settled, ∀ record,
    (s.next op).service.store.get? r.id = some record → record = r
  refuses : ∀ r ∈ s.settled, op.nonce? = some r.nonce → ¬ Succeeds s.service op

/-- No pause with the nonce of a settled record is requested, unless its record cannot be
saved, and no restart finds a settled record pending and unexpired in the database. -/
def Fresh (s : Tracked) : Op → Prop
  | .pause _ _ _ _ nonce _ outcome => (∃ r ∈ s.settled, r.nonce = nonce) →
      s.service.persistence.isSome ∧ outcome = .raises
  | .resume .. => True
  | .restart now => ∀ rows ∈ s.service.persistence, ∀ id row, rows.get? id = some row →
      row.status = .pending → now < row.expiresAt → ∀ r ∈ s.settled, r.id ≠ id

variable (svc : P69bService) (record : PausedInvocation)

def P69bService.saved (outcome : SaveOutcome) : P69bService :=
  { svc with persistence := svc.persistence.map fun rows =>
      if outcome = .written then upsert rows record else rows }

def P69bService.holding : P69bService :=
  { svc with store := put svc.store record }

theorem save_run (record : PausedInvocation) (outcome : SaveOutcome) (svc : P69bService) :
    (save record outcome).run svc =
      if svc.persistence.isSome ∧ outcome = .raises then .error .storage svc
      else .ok ⟨⟩ (svc.saved record outcome) := by
  obtain ⟨store, timeout, _ | rows, nextId⟩ := svc
  · simp [P69bService.saved]
    rfl
  · cases outcome <;> rfl

theorem saved_of_raises : svc.saved record .raises = svc := by
  obtain ⟨store, timeout, _ | rows, nextId⟩ := svc <;> rfl

def replayed (svc : P69bService) (nonce : String) : Bool :=
  svc.store.values.any fun record => record.nonce = nonce && record.status = .consumed

theorem keep_run (record : PausedInvocation) (outcome : SaveOutcome) (svc : P69bService) :
    (keep record outcome).run svc =
      if svc.persistence.isSome ∧ outcome = .raises then .error .storage (svc.holding record)
      else .ok ⟨⟩ ((svc.holding record).saved record outcome) := by
  rw [keep, run_bind]
  exact save_run record outcome (svc.holding record)

variable {bound : ℕ} {svc : P69bService} {rows : Records} {now : ℤ} {row record : PausedInvocation}

theorem keep_spec (record : PausedInvocation) (outcome : SaveOutcome) {P : P69bService → Prop}
    (hP : P ((svc.holding record).saved record outcome)) :
    Hoare.Triple (fun s => s = svc) (keep record outcome) (fun _ => P) fun _ => P := by
  intro s hs
  rw [hs, keep_run]
  split_ifs with hraises
  · rwa [hraises.2, saved_of_raises] at hP
  · exact hP

theorem newId_spec (svc : P69bService) {E : ToolApprovalError → P69bService → Prop} :
    Hoare.Triple (fun s => s = svc) newId
      (fun id s => s = { svc with nextId := svc.nextId + 1 } ∧ id = svc.nextId) E := by
  intro s hs
  rw [hs]
  exact ⟨rfl, rfl⟩

theorem pause_run
    (now : ℤ) (outcome : SaveOutcome) (svc : P69bService) (hsvc : replayed svc nonce = false) :
    ∃ record, record.id = svc.nextId ∧ record.nonce = nonce ∧ record.status = .pending ∧
      (pause invocationId tenantId toolName toolInput nonce now outcome).run svc =
        if svc.persistence.isSome ∧ outcome = .raises then
          .error .storage (({ svc with nextId := svc.nextId + 1 } : P69bService).holding record)
        else .ok record
          ((({ svc with nextId := svc.nextId + 1 } : P69bService).holding record).saved record
            outcome) := by
  refine ⟨{ id := svc.nextId, invocationId, tenantId, toolName, toolInput, nonce, createdAt := now
            expiresAt := now + svc.timeoutSeconds * 1000000 }, rfl, rfl, rfl, ?_⟩
  rw [pause, run_bind]
  change (EStateM.run (if replayed svc nonce then _ else _) svc) = _
  rw [hsvc, if_neg Bool.false_ne_true, run_bind]
  change EStateM.run (keep _ _ >>= fun _ => _) _ = _
  rw [run_bind, keep_run]
  split_ifs <;> rfl

/-- The records that `resume` puts in the place of a pending one. -/
structure Resolves (r record : PausedInvocation) : Prop where
  pending : r.status = .pending
  id : record.id = r.id
  final : record.status ≠ .pending
  unconsumed : record.status ≠ .consumed

inductive Moves (svc : P69bService) : P69bService → Prop
  | same : Moves svc svc
  | added (record : PausedInvocation) (outcome : SaveOutcome) (hid : record.id = svc.nextId)
      (hpending : record.status = .pending) :
      Moves svc ((({ svc with nextId := svc.nextId + 1 } : P69bService).holding record).saved
        record outcome)
  | resolved (id : ℕ) (r record : PausedInvocation) (outcome : SaveOutcome)
      (hget : svc.store.get? id = some r) (hresolves : Resolves r record) :
      Moves svc ((svc.holding record).saved record outcome)

theorem pause_moves
    (now : ℤ) (outcome : SaveOutcome) (svc : P69bService) :
    Hoare.Triple (fun s => s = svc)
      (pause invocationId tenantId toolName toolInput nonce now outcome)
      (fun _ s => Moves svc s) fun _ s => Moves svc s := by
  refine Hoare.Triple.get_bind fun s hs => ?_
  subst hs
  split_ifs
  · exact Hoare.triple_throw fun s hs => hs ▸ .same
  · refine Hoare.Triple.bind (newId_spec s) fun id => Hoare.Triple.of_fact fun hid => ?_
    exact (keep_spec _ outcome (.added _ outcome hid rfl)).bind fun _ =>
      Hoare.triple_pure fun _ hs => hs

theorem resume_moves (approvalId : ℕ) (approved : Bool) (approvedBy : String) (now : ℤ)
    (outcome : SaveOutcome) (svc : P69bService) :
    Hoare.Triple (fun s => s = svc) (resume approvalId approved approvedBy now outcome)
      (fun _ s => Moves svc s) fun _ s => Moves svc s := by
  refine Hoare.Triple.get_bind fun s hs => ?_
  subst hs
  cases hget : s.store.get? approvalId with
  | none => exact Hoare.triple_throw fun s hs => hs ▸ .same
  | some r =>
    dsimp only
    by_cases hstatus : r.status = .pending
    · rw [if_neg (not_not_intro hstatus)]
      by_cases hexpired : r.expiresAt < now
      · rw [if_pos hexpired]
        exact (keep_spec _ outcome (.resolved approvalId r _ outcome hget
          ⟨hstatus, rfl, by simp, by simp⟩)).bind fun _ => Hoare.triple_throw fun _ hs => hs
      · rw [if_neg hexpired]
        refine (keep_spec _ outcome (.resolved approvalId r _ outcome hget
          ⟨hstatus, rfl, ?_, ?_⟩)).bind fun _ => Hoare.triple_pure fun _ hs => hs
        · cases approved <;> simp
        · cases approved <;> simp
    · rw [if_pos hstatus]
      exact Hoare.triple_throw fun s hs => hs ▸ .same

def P69bService.reloaded (svc : P69bService) (now : ℤ) : Records :=
  match svc.persistence with
  | none => Dict.empty
  | some rows => Dict.ofList ((loadPending rows now).map fun record => (record.id, record))

theorem next_cases (svc : P69bService) (op : Op) :
    Moves svc (next Op.body svc op) ∨ ∃ now, op = .restart now ∧
      next Op.body svc op = { svc with store := svc.reloaded now } := by
  cases op with
  | pause invocationId tenantId toolName toolInput nonce now outcome =>
    exact .inl (next_of_triple Op.body ((pause_moves invocationId tenantId toolName
      toolInput nonce now outcome svc).bind fun _ => Hoare.triple_pure fun _ hs => hs) rfl)
  | resume approvalId approved approvedBy now outcome =>
    exact .inl (next_of_triple Op.body ((resume_moves approvalId approved approvedBy now
      outcome svc).bind fun _ => Hoare.triple_pure fun _ hs => hs) rfl)
  | restart now => exact .inr ⟨now, rfl, rfl⟩

def IdsBelow (bound : ℕ) (records : Records) : Prop :=
  ∀ id record, records.get? id = some record → record.id = id ∧ id < bound

structure Wf (s : Tracked) : Prop where
  store_ids : IdsBelow s.service.nextId s.service.store
  row_ids : ∀ rows ∈ s.service.persistence, IdsBelow s.service.nextId rows
  unconsumed : ∀ id record, s.service.store.get? id = some record → record.status ≠ .consumed
  settled_ids : ∀ r ∈ s.settled, r.id < s.service.nextId ∧ r.status ≠ .pending
  recorded : ∀ id record, s.service.store.get? id = some record → record.status ≠ .pending →
    record ∈ s.settled
  kept : ∀ r ∈ s.settled, ∀ record, s.service.store.get? r.id = some record → record = r

theorem IdsBelow.put (h : IdsBelow bound records)
    (hrecord : record.id < bound) :
    IdsBelow bound (put records record) := by
  intro id r hget
  rw [P69b.put, Dict.get?_set] at hget
  split_ifs at hget with hid
  · obtain rfl := Option.some.inj hget
    exact ⟨hid.symm, hid ▸ hrecord⟩
  · exact h id r hget

theorem IdsBelow.upsert (h : IdsBelow bound rows) (hrecord : record.id < bound) :
    IdsBelow bound (upsert rows record) := by
  refine IdsBelow.put (fun id r hget => ?_) hrecord
  rw [Dict.get?_erase] at hget
  split_ifs at hget
  exact h id r hget

theorem IdsBelow.mono (h : IdsBelow bound records)
    (hle : bound ≤ bound') : IdsBelow bound' records := by
  intro id r hget
  obtain ⟨hid, hlt⟩ := h id r hget
  exact ⟨hid, hlt.trans_le hle⟩

theorem mem_loadPending : row ∈ loadPending rows now ↔
      row ∈ rows.values ∧ row.status = .pending ∧ now < row.expiresAt := by
  simp [loadPending, mem_insertionSort]

theorem IdsBelow.nodup_ids (h : IdsBelow bound rows) :
    (rows.values.map PausedInvocation.id).Nodup := by
  have hkeys : rows.values.map PausedInvocation.id = rows.entries.map Prod.fst := by
    rw [Dict.values, map_map]
    refine map_congr_left fun e he => ?_
    exact (h e.1 e.2 ((Dict.mem_entries rows e.1 e.2).mp he)).1
  rw [hkeys]
  exact rows.nodup

theorem get?_reloaded {id : ℕ} (hrows : svc.persistence = some rows) (hids : IdsBelow bound rows) :
    (svc.reloaded now).get? id = some row ↔
      rows.get? id = some row ∧ row.status = .pending ∧ now < row.expiresAt := by
  have hnodup : (((loadPending rows now).map fun r => (r.id, r)).map Prod.fst).Nodup := by
    rw [map_map]
    have hperm := (perm_insertionSort (fun r r' => r.createdAt ≤ r'.createdAt)
      (rows.values.filter fun r => r.status = .pending && now < r.expiresAt)).map
        PausedInvocation.id
    exact hperm.nodup_iff.mpr (hids.nodup_ids.sublist (filter_sublist.map _))
  rw [P69bService.reloaded, hrows]
  dsimp only
  rw [Dict.get?_ofList hnodup]
  simp only [mem_map, mem_loadPending, Dict.mem_values, Prod.mk.injEq]
  constructor
  · rintro ⟨r, ⟨⟨k, hget⟩, hrow⟩, rfl, rfl⟩
    rw [(hids k r hget).1]
    exact ⟨hget, hrow⟩
  · rintro ⟨hget, hrow⟩
    exact ⟨row, ⟨⟨id, hget⟩, hrow⟩, (hids id row hget).1, rfl⟩

theorem pending_of_reloaded {id : ℕ} (hids : ∀ rows ∈ svc.persistence, IdsBelow bound rows)
    (hget : (svc.reloaded now).get? id = some row) : row.status = .pending := by
  cases hrows : svc.persistence with
  | none =>
    rw [P69bService.reloaded, hrows] at hget
    cases hget
  | some rows => exact ((get?_reloaded hrows (hids rows hrows)).mp hget).2.1

theorem IdsBelow.reloaded (hids : ∀ rows ∈ svc.persistence, IdsBelow bound rows) (now : ℤ) :
    IdsBelow bound (svc.reloaded now) := by
  intro id row hget
  cases hrows : svc.persistence with
  | none =>
    rw [P69bService.reloaded, hrows] at hget
    cases hget
  | some rows => exact hids rows hrows id row ((get?_reloaded hrows (hids rows hrows)).mp hget).1

variable {s : Tracked}

theorem get?_saved (outcome : SaveOutcome)
    (id : ℕ) : ((svc.holding record).saved record outcome).store.get? id =
      if id = record.id then some record else svc.store.get? id :=
  Dict.get?_set svc.store record.id id record

theorem row_ids_saved
    (h : ∀ rows ∈ svc.persistence, IdsBelow bound rows) (hrecord : record.id < bound)
    (outcome : SaveOutcome) :
    ∀ rows ∈ (svc.saved record outcome).persistence, IdsBelow bound rows := by
  intro rows hrows
  obtain ⟨rows', hrows', rfl⟩ := Option.map_eq_some_iff.mp hrows
  split_ifs
  · exact (h rows' hrows').upsert hrecord
  · exact h rows' hrows'

theorem ids_next (hs : Wf s) (op : Op) : s.service.nextId ≤ (s.next op).service.nextId ∧
    IdsBelow (s.next op).service.nextId (s.next op).service.store ∧
    ∀ rows ∈ (s.next op).service.persistence, IdsBelow (s.next op).service.nextId rows := by
  rw [Tracked.next]
  rcases next_cases s.service op with hmoves | ⟨now, -, hnext⟩
  · generalize next Op.body s.service op = svc' at hmoves ⊢
    cases hmoves with
    | same => exact ⟨le_rfl, hs.store_ids, hs.row_ids⟩
    | added record outcome hid hpending =>
      have hle := Nat.le_succ s.service.nextId
      have hrecord : record.id < s.service.nextId + 1 := by omega
      exact ⟨hle, (hs.store_ids.mono hle).put hrecord,
        row_ids_saved (fun rows hrows => (hs.row_ids rows hrows).mono hle) hrecord outcome⟩
    | resolved id r record outcome hget hresolves =>
      have hrecord : record.id < s.service.nextId := by
        obtain ⟨hid, hlt⟩ := hs.store_ids id r hget
        rw [hresolves.id]
        omega
      exact ⟨le_rfl, hs.store_ids.put hrecord, row_ids_saved hs.row_ids hrecord outcome⟩
  · rw [hnext]
    exact ⟨le_rfl, IdsBelow.reloaded hs.row_ids now, hs.row_ids⟩

theorem resolves_next (hs : Wf s) (op : Op) : ∀ id record,
    (s.next op).service.store.get? id = some record → record.status ≠ .pending →
      ∃ r, s.service.store.get? id = some r ∧ (r = record ∨ r.status = .pending) := by
  intro id record hget hfinal
  change (next Op.body s.service op).store.get? id = some record at hget
  rcases next_cases s.service op with hmoves | ⟨now, -, hnext⟩
  · generalize next Op.body s.service op = svc' at hmoves hget
    cases hmoves with
    | same => exact ⟨record, hget, .inl rfl⟩
    | added new outcome hid hpending =>
      rw [get?_saved] at hget
      split_ifs at hget
      · exact absurd (Option.some.inj hget ▸ hpending) hfinal
      · exact ⟨record, hget, .inl rfl⟩
    | resolved id' r new outcome hget' hresolves =>
      rw [get?_saved] at hget
      split_ifs at hget with hid
      · rw [hid, hresolves.id, (hs.store_ids id' r hget').1]
        exact ⟨r, hget', .inr hresolves.pending⟩
      · exact ⟨record, hget, .inl rfl⟩
  · rw [hnext] at hget
    exact absurd (pending_of_reloaded hs.row_ids hget) hfinal

theorem mem_settled_next {r : PausedInvocation} : r ∈ (s.next op).settled ↔
    r ∈ s.settled ∨ r.status ≠ .pending ∧
      ∃ id, (s.next op).service.store.get? id = some r := by
  change r ∈ _ ++ List.filter _ (s.next op).service.store.values ↔ _
  simp [Dict.mem_values, and_comm]

section

variable (hs : Wf s)
include hs

theorem kept_of_moves (hmoves : Moves s.service svc') :
    ∀ r ∈ s.settled, ∀ record, svc'.store.get? r.id = some record → record = r := by
  intro r hr record hget
  cases hmoves with
  | same => exact hs.kept r hr record hget
  | added new outcome hid hpending =>
    rw [get?_saved, if_neg (by have := (hs.settled_ids r hr).1; omega)] at hget
    exact hs.kept r hr record hget
  | resolved id r' new outcome hget' hresolves =>
    rw [get?_saved] at hget
    split_ifs at hget with hid
    · rw [hresolves.id, (hs.store_ids id r' hget').1] at hid
      have hsame := hs.kept r hr r' (hid ▸ hget')
      exact absurd (hsame ▸ hresolves.pending) (hs.settled_ids r hr).2
    · exact hs.kept r hr record hget

theorem kept_of_restart (now : ℤ) :
    (∀ r ∈ s.settled, ∀ record, (s.service.reloaded now).get? r.id = some record → record = r) ↔
      Fresh s (.restart now) := by
  constructor
  · intro hkept rows hrows id row hget hpending hnow r hr hid
    have hreloaded := (get?_reloaded hrows (hs.row_ids rows hrows)).mpr ⟨hget, hpending, hnow⟩
    have hsame := hkept r hr row (hid ▸ hreloaded)
    exact (hs.settled_ids r hr).2 (hsame ▸ hpending)
  · intro hfresh r hr record hget
    cases hrows : s.service.persistence with
    | none =>
      rw [P69bService.reloaded, hrows] at hget
      cases hget
    | some rows =>
      obtain ⟨hrow, hpending, hnow⟩ := (get?_reloaded hrows (hs.row_ids rows hrows)).mp hget
      exact absurd rfl (hfresh rows hrows r.id record hrow hpending hnow r hr)

theorem unconsumed_next (op : Op) : ∀ id record,
    (s.next op).service.store.get? id = some record → record.status ≠ .consumed := by
  intro id record hget
  change (next Op.body s.service op).store.get? id = some record at hget
  rcases next_cases s.service op with hmoves | ⟨now, -, hnext⟩
  · generalize next Op.body s.service op = svc' at hmoves hget
    cases hmoves with
    | same => exact hs.unconsumed id record hget
    | added new outcome hid hpending =>
      rw [get?_saved] at hget
      split_ifs at hget
      · rw [← Option.some.inj hget, hpending]
        simp
      · exact hs.unconsumed id record hget
    | resolved id' r new outcome hget' hresolves =>
      rw [get?_saved] at hget
      split_ifs at hget
      · exact Option.some.inj hget ▸ hresolves.unconsumed
      · exact hs.unconsumed id record hget
  · rw [hnext] at hget
    rw [pending_of_reloaded hs.row_ids hget]
    simp

theorem wf_next
    (hkept : ∀ r ∈ s.settled, ∀ record, (s.next op).service.store.get? r.id = some record →
      record = r) : Wf (s.next op) ∧ ∀ r ∈ (s.next op).settled, ∀ record,
    (s.next op).service.store.get? r.id = some record → record = r := by
  obtain ⟨hle, hstore, hrows⟩ := ids_next hs op
  have hkept' : ∀ r ∈ (s.next op).settled, ∀ record,
      (s.next op).service.store.get? r.id = some record → record = r := by
    intro r hr record hget
    rcases mem_settled_next.mp hr with hr | ⟨-, id, hget'⟩
    · exact hkept r hr record hget
    · rw [(hstore id r hget').1, hget'] at hget
      exact (Option.some.inj hget).symm
  refine ⟨⟨hstore, hrows, unconsumed_next hs op, ?_, ?_, hkept'⟩, hkept'⟩
  · intro r hr
    rcases mem_settled_next.mp hr with hr | ⟨hfinal, id, hget⟩
    · exact ⟨(hs.settled_ids r hr).1.trans_le hle, (hs.settled_ids r hr).2⟩
    · obtain ⟨hid, hlt⟩ := hstore id r hget
      exact ⟨hid ▸ hlt, hfinal⟩
  · intro id record hget hfinal
    exact mem_settled_next.mpr (.inr ⟨hfinal, id, hget⟩)

theorem succeeds_pause_iff (invocationId tenantId toolName : String)
    (toolInput : Json) (nonce : String) (now : ℤ) (outcome : SaveOutcome) :
    Succeeds s.service (.pause invocationId tenantId toolName toolInput nonce now outcome) ↔
      ¬ (s.service.persistence.isSome ∧ outcome = .raises) := by
  have hreplayed : replayed s.service nonce = false := by
    rw [replayed, any_eq_false]
    intro r hr
    obtain ⟨id, hget⟩ := (Dict.mem_values _ r).mp hr
    simp [hs.unconsumed id r hget]
  obtain ⟨record, -, -, -, hrun⟩ :=
    pause_run invocationId tenantId toolName toolInput nonce now outcome s.service hreplayed
  rw [Succeeds, Op.body, Hoare.run_discard, hrun]
  split_ifs with hraises
  · simp [hraises]
  · simp [hraises]

theorem kept_iff (op : Op) :
    (∀ r ∈ s.settled, ∀ record, (s.next op).service.store.get? r.id = some record →
      record = r) ↔ ∀ now, op = .restart now → Fresh s op := by
  constructor
  · rintro hkept now rfl
    exact (kept_of_restart hs now).mp hkept
  · intro hfresh
    rcases next_cases s.service op with hmoves | ⟨now, hop, hnext⟩
    · exact kept_of_moves hs hmoves
    · change ∀ r ∈ s.settled, ∀ record,
        (next Op.body s.service op).store.get? r.id = some record → record = r
      rw [hnext]
      exact (kept_of_restart hs now).mpr (hop ▸ hfresh now hop)

theorem singleUse_iff_parts (op : Op) : SingleUse s op ↔
    (∀ now, op = .restart now → Fresh s op) ∧
      ∀ r ∈ s.settled, op.nonce? = some r.nonce → ¬ Succeeds s.service op := by
  rw [← kept_iff hs op]
  constructor
  · intro h
    exact ⟨fun r hr => h.keeps r (mem_settled_next.mpr (.inl hr)), h.refuses⟩
  · intro ⟨hkept, hrefuses⟩
    exact ⟨resolves_next hs op, (wf_next hs hkept).2, hrefuses⟩

theorem singleUse_iff (op : Op) : SingleUse s op ↔ Fresh s op := by
  rw [singleUse_iff_parts hs op]
  cases op with
  | pause invocationId tenantId toolName toolInput nonce now outcome =>
    simp only [succeeds_pause_iff hs, Op.nonce?, Option.some.injEq, not_not, reduceCtorEq,
      false_imp_iff, implies_true, true_and, Fresh]
    constructor
    · rintro h ⟨r, hr, rfl⟩
      exact h r hr rfl
    · rintro h r hr rfl
      exact h ⟨r, hr, rfl⟩
  | resume approvalId approved approvedBy now outcome => simp [Op.nonce?, Fresh]
  | restart now => simp [Op.nonce?]

theorem wf_of_fresh (hfresh : Fresh s op) : Wf (s.next op) :=
  (wf_next hs ((kept_iff hs op).mpr fun _ _ => hfresh)).1

end

def initial (timeoutSeconds : ℤ) (durable : Bool) : Tracked where
  service :=
    { timeoutSeconds, persistence := if durable then some Dict.empty else none }

theorem wf_initial (timeoutSeconds : ℤ) (durable : Bool) : Wf (initial timeoutSeconds durable) := by
  constructor
  · simp [initial, IdsBelow]
  · cases durable <;> simp [initial, IdsBelow]
  · simp [initial]
  · simp [initial]
  · simp [initial]
  · simp [initial]

/-- In a run every record is resolved once and every nonce used once if and only if every
operation is fresh. -/
theorem run_singleUse_iff (timeoutSeconds : ℤ) (durable : Bool) (ops : List Op) :
    History.Along Tracked.next SingleUse (initial timeoutSeconds durable) ops ↔
      History.Along Tracked.next Fresh (initial timeoutSeconds durable) ops :=
  History.along_congr (I := Wf) (fun _ _ hs h => wf_of_fresh hs h)
    (fun _ op hs => singleUse_iff hs op) (wf_initial timeoutSeconds durable) ops

def approvedInvocation : PausedInvocation where
  id := 0
  invocationId := "run-1"
  tenantId := "acme"
  toolName := "shell"
  toolInput := .obj []
  nonce := "n"
  status := .approved
  createdAt := 0
  expiresAt := 300000000
  resolvedAt := some 1
  approvedBy := some "ops"

/-- A nonce that was approved is accepted again. -/
theorem approvedNonce_not_singleUse :
    ¬ History.Along Tracked.next SingleUse (initial 300 false)
      [.pause "run-1" "acme" "shell" (.obj []) "n" 0 .written, .resume 0 true "ops" 1 .written,
        .pause "run-1" "acme" "shell" (.obj []) "n" 2 .written] := by
  intro h
  exact h.2.2.1.refuses approvedInvocation (by decide) rfl ⟨_, _, rfl⟩

end Agent33.Autonomy.P69b
