import Agent33.Library.Dict
import Agent33.Library.History
import Agent33.Library.Json

/-!
# The receipt store

`record` changes the list and the index under the lock, takes a snapshot of the list there
and writes it to the state store after the lock is released. Calls on several threads
interleave between the two.
-/

namespace Agent33.Provenance

open Library List Option

inductive EntityType
  | agentAction
  | toolCall
  | workflowStep
  | dataAccess
  deriving DecidableEq

def EntityType.value : EntityType → String
  | .agentAction => "agent_action"
  | .toolCall => "tool_call"
  | .workflowStep => "workflow_step"
  | .dataAccess => "data_access"

structure HashedReceipt where
  receiptId : String
  entityType : EntityType
  entityId : String := ""
  tenantId : String := ""
  timestamp : String
  actor : String := ""
  action : String := ""
  inputsHash : String := ""
  outputsHash : String := ""
  metadata : Dict String Json := Dict.empty
  parentReceiptId : String := ""
  sessionId : String := ""
  deriving DecidableEq

def HashedReceipt.modelDump (r : HashedReceipt) : Json :=
  .obj [("receipt_id", .str r.receiptId), ("entity_type", .str r.entityType.value),
    ("entity_id", .str r.entityId), ("tenant_id", .str r.tenantId),
    ("timestamp", .str r.timestamp), ("actor", .str r.actor), ("action", .str r.action),
    ("inputs_hash", .str r.inputsHash), ("outputs_hash", .str r.outputsHash),
    ("metadata", .obj r.metadata.entries), ("parent_receipt_id", .str r.parentReceiptId),
    ("session_id", .str r.sessionId)]

/-- `HashedReceipt.model_validate`, without a value where it raises. -/
abbrev Validate := Json → Option HashedReceipt

def RoundTrips (validate : Validate) : Prop :=
  ∀ r : HashedReceipt, validate r.modelDump = some r

structure ReceiptStore where
  maxReceipts : Int
  receipts : List HashedReceipt := []
  index : Dict String HashedReceipt := Dict.empty

namespace ReceiptStore

def add (store : ReceiptStore) (r : HashedReceipt) : ReceiptStore := { store with
  receipts := store.receipts ++ [r]
  index := store.index.set r.receiptId r }

def Full (store : ReceiptStore) : Prop := store.maxReceipts ≤ store.receipts.length

instance (store : ReceiptStore) : Decidable store.Full :=
  inferInstanceAs (Decidable (store.maxReceipts ≤ store.receipts.length))

/-- `_load_state` from the saved items. -/
def loadItems (validate : Validate) : List Json → ReceiptStore → ReceiptStore
  | [], store => store
  | .obj fields :: items, store =>
    if store.Full then store
    else
      match validate (.obj fields) with
      | some r => loadItems validate items (store.add r)
      | none => loadItems validate items store
  | _ :: items, store => loadItems validate items store

def load (validate : Validate) (maxReceipts : Int) (saved : List Json) : ReceiptStore :=
  loadItems validate saved { maxReceipts }

/-- `record` under the lock; `pop(0)` of an empty list raises. -/
def record (store : ReceiptStore) (r : HashedReceipt) : Option ReceiptStore :=
  if store.Full then
    match store.receipts with
    | [] => none
    | evicted :: receipts => some
      ({ store with receipts, index := store.index.erase evicted.receiptId }.add r)
  else some (store.add r)

end ReceiptStore

/-- A call of `record` after it has released the lock. -/
structure Call where
  snapshot : List HashedReceipt
  returned : Bool := false

/-- A store, the receipts of its namespace in the state store, and the calls of `record`
in the order in which they had the lock. -/
structure Recording where
  store : ReceiptStore
  saved : List Json
  calls : List Call := []

inductive Step
  | record (r : HashedReceipt)
  | persist (call : ℕ)

namespace Recording

def start (validate : Validate) (maxReceipts : Int) (saved : List Json) : Recording where
  store := ReceiptStore.load validate maxReceipts saved
  saved

def next (s : Recording) : Step → Recording
  | .record r =>
    match s.store.record r with
    | none => s
    | some store => { s with store, calls := s.calls ++ [{ snapshot := store.receipts }] }
  | .persist n =>
    match s.calls[n]? with
    | some ⟨snapshot, false⟩ => { s with
        saved := snapshot.map HashedReceipt.modelDump
        calls := s.calls.set n ⟨snapshot, true⟩ }
    | _ => s

def AllReturned (s : Recording) : Prop := ∀ call ∈ s.calls, call.returned = true

/-- The saved items contain every receipt, and a new store loads the same receipts and
finds the same one under each id. -/
structure Restorable (validate : Validate) (s : Recording) : Prop where
  contained : ∀ r ∈ s.store.receipts, ∃ item ∈ s.saved, validate item = some r
  receipts : (ReceiptStore.load validate s.store.maxReceipts s.saved).receipts = s.store.receipts
  index : ∀ receiptId : String,
    (ReceiptStore.load validate s.store.maxReceipts s.saved).index.get? receiptId =
      s.store.index.get? receiptId

def Durable (validate : Validate) (s : Recording) : Prop := s.AllReturned → s.Restorable validate

/-- The write that leaves no call waiting is the one of the last call; an evicted receipt
shares its id with none that stays. -/
def Orderly (s : Recording) : Step → Prop
  | .record _ =>
    s.store.Full → ∀ evicted ∈ s.store.receipts.head?, ∀ r ∈ s.store.receipts.tail,
      r.receiptId ≠ evicted.receiptId
  | .persist n => ∀ call ∈ s.calls[n]?, call.returned = false →
      (∀ m < s.calls.length, m ≠ n → ∀ other ∈ s.calls[m]?, other.returned = true) →
        n + 1 = s.calls.length

instance (s : Recording) (e : Step) : Decidable (s.Orderly e) :=
  match e with
  | .record _ => inferInstanceAs (Decidable (s.store.Full →
      ∀ evicted ∈ s.store.receipts.head?, ∀ r ∈ s.store.receipts.tail,
        r.receiptId ≠ evicted.receiptId))
  | .persist n => inferInstanceAs (Decidable (∀ call ∈ s.calls[n]?, call.returned = false →
      (∀ m < s.calls.length, m ≠ n → ∀ other ∈ s.calls[m]?, other.returned = true) →
        n + 1 = s.calls.length))

end Recording

def indexOf (rs : List HashedReceipt) : Dict String HashedReceipt :=
  rs.foldl (fun index r => index.set r.receiptId r) Dict.empty

theorem indexOf_concat (rs : List HashedReceipt) (r : HashedReceipt) :
    indexOf (rs ++ [r]) = (indexOf rs).set r.receiptId r := by
  simp [indexOf]

theorem get?_indexOf_cons (h : ∀ r' ∈ rs, r'.receiptId ≠ r.receiptId) (receiptId : String) :
    ((indexOf (r :: rs)).erase r.receiptId).get? receiptId = (indexOf rs).get? receiptId := by
  induction rs using List.reverseRecOn with
  | nil =>
    rw [Dict.get?_erase]
    split_ifs with hid
    · rfl
    · simp [indexOf, hid]
  | append_singleton rs r' ih =>
    have ih := ih fun r'' h'' => h r'' (mem_append_left _ h'')
    have hr' := h r' (mem_append_right _ (mem_singleton_self r'))
    rw [Dict.get?_erase] at ih ⊢
    rw [← cons_append, indexOf_concat, indexOf_concat, Dict.get?_set, Dict.get?_set, ← ih]
    split_ifs with hid hid'
    · exact absurd (hid'.symm.trans hid) hr'
    · rfl
    · rfl
    · rfl

namespace ReceiptStore

structure Sound (store : ReceiptStore) : Prop where
  bounded : store.receipts.length ≤ store.maxReceipts.toNat
  indexed : ∀ receiptId : String,
    store.index.get? receiptId = (indexOf store.receipts).get? receiptId

variable {store : ReceiptStore}

theorem Sound.add (h : store.Sound) (hroom : ¬store.Full) (r : HashedReceipt) :
    (store.add r).Sound where
  bounded := by
    rw [Full] at hroom
    have hlength : (store.add r).receipts.length = store.receipts.length + 1 := by
      simp [ReceiptStore.add]
    change (store.add r).receipts.length ≤ store.maxReceipts.toNat
    omega
  indexed receiptId := by
    change (store.index.set r.receiptId r).get? receiptId =
      (indexOf (store.receipts ++ [r])).get? receiptId
    rw [indexOf_concat, Dict.get?_set, Dict.get?_set, h.indexed]

theorem Sound.loadItems (h : store.Sound) : (loadItems validate items store).Sound := by
  fun_induction ReceiptStore.loadItems validate items store with
  | case1 store => exact h
  | case2 store fields items hfull => exact h
  | case3 store fields items hroom r hr ih => exact ih (h.add hroom r)
  | case4 store fields items hroom hr ih => exact ih h
  | case5 store item items _ ih => exact ih h

theorem maxReceipts_loadItems (validate : Validate) (items : List Json) (store : ReceiptStore) :
    (loadItems validate items store).maxReceipts = store.maxReceipts := by
  fun_induction ReceiptStore.loadItems validate items store with
  | case1 store => rfl
  | case2 store fields items hfull => rfl
  | case3 store fields items hroom r hr ih => exact ih
  | case4 store fields items hroom hr ih => exact ih
  | case5 store item items _ ih => exact ih

theorem mem_loadItems (h : r ∈ (loadItems validate items store).receipts) :
    r ∈ store.receipts ∨ ∃ item ∈ items, validate item = some r := by
  fun_induction ReceiptStore.loadItems validate items store with
  | case1 store => exact .inl h
  | case2 store fields items hfull => exact .inl h
  | case3 store fields items hroom r' hr' ih =>
    rcases ih h with hmem | ⟨item, hitem, hr⟩
    · rcases mem_append.mp hmem with hmem | hmem
      · exact .inl hmem
      · exact .inr ⟨_, mem_cons_self, mem_singleton.mp hmem ▸ hr'⟩
    · exact .inr ⟨item, mem_cons_of_mem _ hitem, hr⟩
  | case4 store fields items hroom hr' ih =>
    rcases ih h with hmem | ⟨item, hitem, hr⟩
    · exact .inl hmem
    · exact .inr ⟨item, mem_cons_of_mem _ hitem, hr⟩
  | case5 store item' items _ ih =>
    rcases ih h with hmem | ⟨item, hitem, hr⟩
    · exact .inl hmem
    · exact .inr ⟨item, mem_cons_of_mem _ hitem, hr⟩

theorem loadItems_dump (hvalidate : RoundTrips validate) (rs : List HashedReceipt)
    (store : ReceiptStore) (hroom : store.receipts.length + rs.length ≤ store.maxReceipts.toNat) :
    loadItems validate (rs.map HashedReceipt.modelDump) store = rs.foldl add store := by
  induction rs generalizing store with
  | nil => rfl
  | cons r rs ih =>
    rw [length_cons] at hroom
    have hnot : ¬store.Full := by
      rw [Full]
      omega
    have hadd : (store.add r).receipts.length = store.receipts.length + 1 := by simp [add]
    rw [map_cons, foldl_cons, ← ih (store.add r)]
    · have hr := hvalidate r
      rw [HashedReceipt.modelDump] at hr ⊢
      rw [loadItems, if_neg hnot, hr]
    · change (store.add r).receipts.length + rs.length ≤ store.maxReceipts.toNat
      omega

theorem foldl_add (rs : List HashedReceipt) (store : ReceiptStore) :
    (rs.foldl add store).receipts = store.receipts ++ rs ∧
      (rs.foldl add store).index =
        rs.foldl (fun index r => index.set r.receiptId r) store.index := by
  induction rs generalizing store with
  | nil => simp
  | cons r rs ih =>
    obtain ⟨hreceipts, hindex⟩ := ih (store.add r)
    refine ⟨?_, hindex⟩
    rw [foldl_cons, hreceipts]
    simp [add]

theorem load_dump (hvalidate : RoundTrips validate) (h : store.Sound) :
    (load validate store.maxReceipts (store.receipts.map HashedReceipt.modelDump)).receipts =
        store.receipts ∧
      (load validate store.maxReceipts (store.receipts.map HashedReceipt.modelDump)).index =
        indexOf store.receipts := by
  have hload := loadItems_dump hvalidate store.receipts
    { maxReceipts := store.maxReceipts } (by simpa using h.bounded)
  obtain ⟨hreceipts, hindex⟩ := foldl_add store.receipts { maxReceipts := store.maxReceipts }
  rw [load, hload]
  exact ⟨hreceipts, hindex⟩

/-- `record` keeps the index right when no receipt that stays has the evicted id. -/
theorem Sound.record (h : store.Sound)
    (hids : store.Full → ∀ evicted ∈ store.receipts.head?, ∀ r' ∈ store.receipts.tail,
      r'.receiptId ≠ evicted.receiptId)
    (hrecord : store.record r = some store') :
    store'.Sound ∧ store'.maxReceipts = store.maxReceipts := by
  rw [ReceiptStore.record] at hrecord
  split_ifs at hrecord with hfull
  · cases hreceipts : store.receipts with
    | nil =>
      rw [hreceipts] at hrecord
      cases hrecord
    | cons evicted rs =>
      rw [hreceipts] at hrecord
      obtain rfl := some.inj hrecord
      have hlength := h.bounded
      rw [hreceipts, length_cons] at hlength
      have hkept : ({ store with receipts := rs, index := store.index.erase evicted.receiptId } :
          ReceiptStore).Sound := by
        refine ⟨by dsimp only; omega, fun receiptId => ?_⟩
        change (store.index.erase evicted.receiptId).get? receiptId = (indexOf rs).get? receiptId
        have hids := hids hfull evicted (by rw [hreceipts]; rfl)
        rw [hreceipts, tail_cons] at hids
        rw [← get?_indexOf_cons hids, Dict.get?_erase, Dict.get?_erase, h.indexed, hreceipts]
      refine ⟨hkept.add ?_ r, rfl⟩
      change ¬store.maxReceipts ≤ (rs.length : Int)
      omega
  · obtain rfl := some.inj hrecord
    exact ⟨h.add hfull r, rfl⟩

end ReceiptStore

namespace Recording

/-- Before the first call what is saved restores the store; then the last snapshot is what
the store holds. -/
structure Sound (validate : Validate) (s : Recording) : Prop where
  store : s.store.Sound
  before : s.calls = [] → s.Restorable validate
  last : ∀ call ∈ s.calls[s.calls.length - 1]?, call.snapshot = s.store.receipts
  saved : s.calls ≠ [] → s.AllReturned → s.saved = s.store.receipts.map HashedReceipt.modelDump

variable {validate : Validate} {s : Recording}

theorem Sound.start (validate : Validate) (maxReceipts : Int) (saved : List Json) :
    (start validate maxReceipts saved).Sound validate where
  store := ReceiptStore.Sound.loadItems ⟨by simp, fun _ => rfl⟩
  before _ := by
    have hload : ReceiptStore.load validate
        (Recording.start validate maxReceipts saved).store.maxReceipts saved =
          (Recording.start validate maxReceipts saved).store :=
      congrArg (ReceiptStore.load validate · saved)
        (ReceiptStore.maxReceipts_loadItems validate saved { maxReceipts })
    refine ⟨fun r hr => ?_, congrArg _ hload, fun receiptId => ?_⟩
    · rcases ReceiptStore.mem_loadItems hr with hmem | hitem
      · cases hmem
      · exact hitem
    · exact congrArg (fun store : ReceiptStore => store.index.get? receiptId) hload
  last call hcall := by cases hcall
  saved h := absurd rfl h

theorem Sound.durable (hvalidate : RoundTrips validate) (h : s.Sound validate) :
    s.Durable validate := by
  intro hreturned
  by_cases hcalls : s.calls = []
  · exact h.before hcalls
  · obtain ⟨hreceipts, hindex⟩ := ReceiptStore.load_dump hvalidate h.store
    refine ⟨fun r hr => ⟨r.modelDump, ?_, hvalidate r⟩, ?_, fun receiptId => ?_⟩
    · rw [h.saved hcalls hreturned]
      exact mem_map_of_mem hr
    · rw [h.saved hcalls hreturned, hreceipts]
    · rw [h.saved hcalls hreturned, hindex, h.store.indexed]

theorem Sound.record (h : s.Sound validate) (horderly : s.Orderly (.record r)) :
    (s.next (.record r)).Sound validate := by
  rw [next]
  cases hrecord : s.store.record r with
  | none => exact h
  | some store =>
    obtain ⟨hstore, hmax⟩ := h.store.record horderly hrecord
    refine ⟨hstore, fun hcalls => ?_, fun call hcall => ?_, fun _ hreturned => ?_⟩
    · exact absurd hcalls (append_ne_nil_of_right_ne_nil _ (cons_ne_nil _ _))
    · dsimp only at hcall
      rw [length_append, length_singleton, Nat.add_sub_cancel,
        getElem?_concat_length, Option.mem_some] at hcall
      rw [← hcall]
    · have hlast := hreturned ⟨store.receipts, false⟩ (mem_append_right _ mem_cons_self)
      cases hlast

theorem Sound.persist (h : s.Sound validate) (horderly : s.Orderly (.persist n)) :
    (s.next (.persist n)).Sound validate := by
  rw [next]
  split
  case h_2 => exact h
  case h_1 snapshot hcall =>
    have hn : n < s.calls.length := (List.getElem?_eq_some_iff.mp hcall).1
    refine ⟨h.store, fun hcalls => ?_, fun call hlast => ?_, fun _ hreturned => ?_⟩
    · rw [set_eq_nil_iff] at hcalls
      rw [hcalls] at hn
      exact absurd hn (Nat.not_lt_zero n)
    · dsimp only at hlast
      rw [List.length_set, getElem?_set, if_pos hn, Option.mem_def] at hlast
      split_ifs at hlast with hlen
      · rw [← some.inj hlast]
        exact h.last ⟨snapshot, false⟩ (by rw [← hlen]; exact hcall)
      · exact h.last call hlast
    · have hothers : ∀ m < s.calls.length, m ≠ n → ∀ other ∈ s.calls[m]?,
          other.returned = true := by
        intro m _ hmn other hother
        refine hreturned other (mem_iff_getElem?.mpr ⟨m, ?_⟩)
        rw [getElem?_set_ne hmn.symm]
        exact hother
      have hlen := horderly _ hcall rfl hothers
      have hlast : snapshot = s.store.receipts :=
        h.last ⟨snapshot, false⟩ (by rw [← hlen, Nat.add_sub_cancel]; exact hcall)
      exact congrArg (List.map HashedReceipt.modelDump) hlast

/-- If no snapshot is written over a newer one for good, and no evicted receipt takes the
index entry of another one, the state store restores what the store holds as soon as all
calls have returned. -/
theorem run_durable {validate : Validate} (hvalidate : RoundTrips validate) (maxReceipts : Int)
    (saved : List Json) (steps : List Step)
    (h : History.Along next Orderly (start validate maxReceipts saved) steps) :
    History.Along next (fun s e => (s.next e).Durable validate)
      (start validate maxReceipts saved) steps := by
  have hsound (s : Recording) (e : Step) (hs : s.Sound validate) (he : s.Orderly e) :
      (s.next e).Sound validate := by
    cases e with
    | record r => exact hs.record he
    | persist n => exact hs.persist he
  exact History.Along.imp (I := Sound validate) (R := Orderly)
    (fun s e hs he _ => hsound s e hs he)
    (fun s e hs he _ => (hsound s e hs he).durable hvalidate) (Sound.start ..) h h

end Recording

def text (fields : Json) (name default : String) : Option String :=
  match fields.field? name with
  | none => some default
  | some (.str s) => some s
  | some _ => none

/-- A `model_validate` that reads the fields of a dump. -/
def validateText : Validate := fun item => do
  let receiptId ← text item "receipt_id" ""
  let entityType ← ([.agentAction, .toolCall, .workflowStep, .dataAccess] : List EntityType).find?
    fun e => item.field? "entity_type" = some (.str e.value)
  let entityId ← text item "entity_id" ""
  let tenantId ← text item "tenant_id" ""
  let timestamp ← text item "timestamp" ""
  let actor ← text item "actor" ""
  let action ← text item "action" ""
  let inputsHash ← text item "inputs_hash" ""
  let outputsHash ← text item "outputs_hash" ""
  let metadata ← match item.field? "metadata" with
    | none => some Dict.empty
    | some (.obj entries) => some (Dict.ofList entries)
    | some _ => none
  let parentReceiptId ← text item "parent_receipt_id" ""
  let sessionId ← text item "session_id" ""
  return { receiptId, entityType, entityId, tenantId, timestamp, actor, action, inputsHash,
           outputsHash, metadata, parentReceiptId, sessionId }

theorem validateText_dump : RoundTrips validateText := by
  intro r
  have hmetadata : Dict.ofList r.metadata.entries = r.metadata :=
    Dict.ext (Dict.entries_ofList r.metadata.nodup)
  obtain ⟨_, entityType, _, _, _, _, _, _, _, _, _, _⟩ := r
  cases entityType <;>
    simp [validateText, text, HashedReceipt.modelDump, Json.field?, EntityType.value, hmetadata]

def receipt (receiptId : String) : HashedReceipt where
  receiptId
  entityType := .toolCall
  timestamp := "2026-01-01T00:00:00Z"

def inOrder : List Step :=
  [.record (receipt "a"), .record (receipt "b"), .persist 0, .persist 1]

theorem run_durable_inOrder :
    History.Along Recording.next (fun s e => (s.next e).Durable validateText)
      (Recording.start validateText 10 []) inOrder :=
  Recording.run_durable validateText_dump 10 [] inOrder (by decide +kernel)

def outOfOrder : List Step :=
  [.record (receipt "a"), .record (receipt "b"), .persist 1, .persist 0]

theorem outOfOrder_not_durable :
    ¬History.Along Recording.next (fun s e => (s.next e).Durable validateText)
      (Recording.start validateText 10 []) outOfOrder := by
  intro h
  obtain ⟨_, _, _, h, _⟩ := h
  have hreturned : (outOfOrder.foldl Recording.next
      (Recording.start validateText 10 [])).AllReturned := by
    intro call hcall
    revert call hcall
    decide +kernel
  have hlost := (h hreturned).contained (receipt "b") (by decide +kernel)
  revert hlost
  decide +kernel

end Agent33.Provenance
