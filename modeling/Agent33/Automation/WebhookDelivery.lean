import Agent33.Library.Dict
import Agent33.Library.History
import Agent33.Library.Json
import Mathlib.Algebra.Order.Ring.Unbundled.Rat

/-!
# Webhook deliveries

An attempt is started and its result is processed in two steps under the lock, so that the
results of overlapping attempts come late and in any order. A record is evicted when a new one
finds no room.
-/

namespace Agent33.Automation

open Library List Option

inductive WebhookDeliveryStatus
  | pending
  | inFlight
  | delivered
  | failed
  | retrying
  | deadLettered
  deriving DecidableEq

/-- The id from `uuid4` of a delivery: the number of the call that enqueues it. -/
abbrev DeliveryId := ℕ

structure DeliveryAttempt where
  attemptNumber : ℕ
  timestamp : ℚ
  statusCode : Int := 0
  responseBody : String := ""
  durationMs : ℚ := 0
  errorMessage : String := ""

def DeliveryAttempt.success (attempt : DeliveryAttempt) : Bool :=
  decide (200 ≤ attempt.statusCode ∧ attempt.statusCode < 300)

structure WebhookDeliveryRecord where
  deliveryId : DeliveryId
  webhookId : String
  url : String
  payload : Json
  headers : List (String × String) := []
  status : WebhookDeliveryStatus := .pending
  attempts : List DeliveryAttempt := []
  createdAt : ℚ
  nextRetryAt : Option ℚ := none
  maxRetries : ℕ := 5
  currentRetry : ℕ := 0

structure WebhookDeliveryManager where
  maxRetries : ℕ := 5
  baseDelaySeconds : ℚ := 1
  maxDelaySeconds : ℚ := 300
  maxRecords : Int := 10000
  records : Dict DeliveryId WebhookDeliveryRecord := Dict.empty

namespace WebhookDeliveryManager

variable (m : WebhookDeliveryManager)

variable (deliveryId : DeliveryId)

def put (r : WebhookDeliveryRecord) : WebhookDeliveryManager :=
  { m with records := m.records.set deliveryId r }

def computeBackoff (attempt : ℕ) (jitter : ℚ) : ℚ :=
  min (m.baseDelaySeconds * 2 ^ attempt) m.maxDelaySeconds * jitter

def isDelivered (r : WebhookDeliveryRecord) : Bool := decide (r.status = .delivered)

/-- Remove the oldest delivered record, or else the oldest one; `popitem` of no records raises. -/
def evictOne (records : Dict DeliveryId WebhookDeliveryRecord) :
    Option (Dict DeliveryId WebhookDeliveryRecord) :=
  match records.entries.find? fun entry => isDelivered entry.2 with
  | some entry => some (records.erase entry.1)
  | none => records.entries.head?.map fun entry => records.erase entry.1

def evictLoop (maxRecords : Int) :
    ℕ → Dict DeliveryId WebhookDeliveryRecord → Option (Dict DeliveryId WebhookDeliveryRecord)
  | 0, _ => none
  | fuel + 1, records =>
    if maxRecords ≤ records.entries.length then
      (evictOne records).bind (evictLoop maxRecords fuel)
    else some records

/-- `_evict_if_needed`; without a value it raises, after it has removed all records. -/
def evictIfNeeded : Option (Dict DeliveryId WebhookDeliveryRecord) :=
  evictLoop m.maxRecords (m.records.entries.length + 1) m.records

def enqueue (webhookId url : String) (payload : Json)
    (headers : List (String × String)) (now : ℚ) : WebhookDeliveryManager :=
  match m.evictIfNeeded with
  | none => { m with records := Dict.empty }
  | some records => { m with records }.put deliveryId
      { deliveryId, webhookId, url, payload, headers, createdAt := now, maxRetries := m.maxRetries }

def attemptDelivery : Option (ℕ × WebhookDeliveryManager) :=
  (m.records.get? deliveryId).map fun r =>
    (r.currentRetry + 1, m.put deliveryId { r with status := .inFlight })

def processed (r : WebhookDeliveryRecord) (attempt : DeliveryAttempt) (now jitter : ℚ) :
    WebhookDeliveryRecord :=
  let r := { r with attempts := r.attempts ++ [attempt], currentRetry := attempt.attemptNumber }
  if attempt.success then { r with status := .delivered, nextRetryAt := none }
  else if r.maxRetries ≤ r.currentRetry then { r with status := .deadLettered, nextRetryAt := none }
  else { r with
    status := .retrying
    nextRetryAt := some (now + m.computeBackoff r.currentRetry jitter) }

def processResult (attempt : DeliveryAttempt) (now jitter : ℚ) : Option WebhookDeliveryManager :=
  (m.records.get? deliveryId).map fun r => m.put deliveryId (m.processed r attempt now jitter)

def retryDeadLetter : Option WebhookDeliveryManager :=
  match m.records.get? deliveryId with
  | none => none
  | some r =>
    if r.status = .deadLettered then some (m.put deliveryId
      { r with status := .pending, currentRetry := 0, attempts := [], nextRetryAt := none })
    else none

def purgeDelivered (now olderThanHours : ℚ) : WebhookDeliveryManager := { m with
  records := m.records.filterMapValues fun _ r =>
    if r.status = .delivered ∧ r.createdAt < now - olderThanHours * 3600 then none else some r }

end WebhookDeliveryManager

/-- A manager with the number of calls of `enqueue` and the attempts whose results have not
been processed. -/
structure Deliveries where
  manager : WebhookDeliveryManager
  enqueued : ℕ := 0
  started : List (DeliveryId × ℕ) := []

structure Outcome where
  timestamp : ℚ := 0
  statusCode : Int
  responseBody : String := ""
  durationMs : ℚ := 0
  errorMessage : String := ""

def Outcome.attempt (outcome : Outcome) (attemptNumber : ℕ) : DeliveryAttempt where
  attemptNumber
  timestamp := outcome.timestamp
  statusCode := outcome.statusCode
  responseBody := outcome.responseBody
  durationMs := outcome.durationMs
  errorMessage := outcome.errorMessage

inductive DeliveryStep
  | enqueue (webhookId url : String) (payload : Json) (headers : List (String × String)) (now : ℚ)
  | attemptDelivery (deliveryId : DeliveryId)
  | processResult (n : ℕ) (outcome : Outcome) (now jitter : ℚ)
  | retryDeadLetter (deliveryId : DeliveryId)
  | purgeDelivered (now olderThanHours : ℚ)

namespace Deliveries

def next (s : Deliveries) : DeliveryStep → Deliveries
  | .enqueue webhookId url payload headers now => { s with
      manager := s.manager.enqueue s.enqueued webhookId url payload headers now
      enqueued := s.enqueued + 1 }
  | .attemptDelivery deliveryId =>
    match s.manager.attemptDelivery deliveryId with
    | none => s
    | some (attemptNumber, manager) =>
      { s with manager, started := s.started ++ [(deliveryId, attemptNumber)] }
  | .processResult n outcome now jitter =>
    match s.started[n]? with
    | none => s
    | some (deliveryId, attemptNumber) => { s with
        manager := (s.manager.processResult deliveryId (outcome.attempt attemptNumber) now
          jitter).getD s.manager
        started := s.started.eraseIdx n }
  | .retryDeadLetter deliveryId =>
    { s with manager := (s.manager.retryDeadLetter deliveryId).getD s.manager }
  | .purgeDelivered now olderThanHours =>
    { s with manager := s.manager.purgeDelivered now olderThanHours }

def get? (s : Deliveries) (deliveryId : DeliveryId) : Option WebhookDeliveryRecord :=
  s.manager.records.get? deliveryId

/-- The records fit, and a record that is not delivered is removed only when no delivered one
is held. -/
structure Roomy (s s' : Deliveries) : Prop where
  bounded : 0 ≤ s.manager.maxRecords → s'.manager.records.entries.length ≤ s'.manager.maxRecords
  evicted : ∀ {deliveryId r}, s.get? deliveryId = some r → r.status ≠ .delivered →
    s'.get? deliveryId = none → ∀ deliveryId' r', s'.get? deliveryId' = some r' →
      r'.status ≠ .delivered

/-- What is delivered stays so, no more than the allowed attempts are recorded, and a dead
letter has exactly those, all failed. -/
structure Safe (s s' : Deliveries) : Prop where
  delivered : ∀ {deliveryId r r'}, s.get? deliveryId = some r → r.status = .delivered →
    s'.get? deliveryId = some r' → r'.status = .delivered
  attempts : ∀ {deliveryId r}, s'.get? deliveryId = some r →
    r.attempts.length ≤ s'.manager.maxRetries
  deadLettered : ∀ {deliveryId r}, s'.get? deliveryId = some r → r.status = .deadLettered →
    r.attempts.length = s'.manager.maxRetries ∧ ∀ attempt ∈ r.attempts, attempt.success = false

/-- No attempt is made on a delivered record, and a result is that of the next attempt that
the record waits for. -/
def InOrder (s : Deliveries) : DeliveryStep → Prop
  | .attemptDelivery deliveryId => ∀ r ∈ s.get? deliveryId, r.status ≠ .delivered
  | .processResult n _ _ _ => ∀ start ∈ s.started[n]?, ∀ r ∈ s.get? start.1,
      r.status ≠ .delivered ∧ start.2 = r.currentRetry + 1 ∧ r.currentRetry < r.maxRetries
  | _ => True

instance (s : Deliveries) (e : DeliveryStep) : Decidable (s.InOrder e) :=
  match e with
  | .attemptDelivery deliveryId =>
    inferInstanceAs (Decidable (∀ r ∈ s.get? deliveryId, r.status ≠ .delivered))
  | .processResult n _ _ _ => inferInstanceAs (Decidable
      (∀ start ∈ s.started[n]?, ∀ r ∈ s.get? start.1,
        r.status ≠ .delivered ∧ start.2 = r.currentRetry + 1 ∧ r.currentRetry < r.maxRetries))
  | .enqueue _ _ _ _ _ | .retryDeadLetter _ | .purgeDelivered _ _ => .isTrue trivial

end Deliveries

namespace WebhookDeliveryManager

variable {m : WebhookDeliveryManager} {records records' : Dict DeliveryId WebhookDeliveryRecord}

structure Evicts (records records' : Dict DeliveryId WebhookDeliveryRecord) : Prop where
  kept : ∀ {deliveryId r}, records'.get? deliveryId = some r → records.get? deliveryId = some r
  evicted : ∀ {deliveryId r}, records.get? deliveryId = some r → r.status ≠ .delivered →
    records'.get? deliveryId = none → ∀ deliveryId' r', records'.get? deliveryId' = some r' →
      r'.status ≠ .delivered

theorem Evicts.refl (records : Dict DeliveryId WebhookDeliveryRecord) : Evicts records records :=
  ⟨fun h => h, fun h _ hnone => absurd (hnone.symm.trans h) (by simp)⟩

theorem Evicts.trans
    (h : Evicts records records') (h' : Evicts records' records'') : Evicts records records'' := by
  refine ⟨fun hget => h.kept (h'.kept hget), fun {deliveryId r} hget hr hnone => ?_⟩
  cases hget' : records'.get? deliveryId with
  | none => exact fun deliveryId' r' hr' => h.evicted hget hr hget' deliveryId' r' (h'.kept hr')
  | some r' =>
    obtain rfl : r' = r := some.inj ((h.kept hget').symm.trans hget)
    exact h'.evicted hget' hr hnone

theorem evictOne_evicts (h : evictOne records = some records') :
    Evicts records records' ∧ records'.entries.length < records.entries.length := by
  have key {entry : DeliveryId × WebhookDeliveryRecord} (hentry : entry ∈ records.entries)
      (hstatus : entry.2.status = .delivered ∨
        ∀ deliveryId r, records.get? deliveryId = some r → r.status ≠ .delivered) :
      Evicts records (records.erase entry.1) ∧
        (records.erase entry.1).entries.length < records.entries.length := by
    refine ⟨⟨fun hget => ?_, fun {deliveryId r} hget hr hnone deliveryId' r' hr' => ?_⟩,
      Dict.length_erase_lt hentry⟩
    · rw [Dict.get?_erase] at hget
      split_ifs at hget
      exact hget
    · rw [Dict.get?_erase] at hnone hr'
      split_ifs at hr'
      split_ifs at hnone with hid
      · rcases hstatus with hstatus | hstatus
        · have hget' := (Dict.mem_entries records entry.1 entry.2).mp hentry
          rw [hid, hget'] at hget
          exact absurd (some.inj hget ▸ hstatus) hr
        · exact hstatus deliveryId' r' hr'
      · exact absurd (hnone.symm.trans hget) (by simp)
  rw [evictOne] at h
  split at h
  case h_1 entry hfind =>
    obtain rfl := some.inj h
    exact key (mem_of_find?_eq_some hfind)
      (.inl (by simpa [isDelivered] using find?_some hfind))
  case h_2 hfind =>
    obtain ⟨entry, hentry, rfl⟩ := map_eq_some_iff.mp h
    refine key (mem_of_mem_head? hentry) (.inr fun deliveryId r hget => ?_)
    have hnot := find?_eq_none.mp hfind (deliveryId, r) ((Dict.mem_entries _ _ _).mpr hget)
    simpa [isDelivered] using hnot

theorem evictLoop_evicts {maxRecords : Int}
    (h : evictLoop maxRecords fuel records = some records') :
    Evicts records records' ∧ records'.entries.length < maxRecords := by
  induction fuel generalizing records with
  | zero => cases h
  | succ fuel ih =>
    rw [evictLoop] at h
    split_ifs at h with hfull
    · obtain ⟨records₁, hone, hloop⟩ := bind_eq_some_iff.mp h
      obtain ⟨hevicts, hlength⟩ := ih hloop
      exact ⟨(evictOne_evicts hone).1.trans hevicts, hlength⟩
    · obtain rfl := some.inj h
      exact ⟨Evicts.refl _, not_le.mp hfull⟩

theorem enqueue_cases (m : WebhookDeliveryManager) (deliveryId : DeliveryId)
    (webhookId url : String) (payload : Json) (headers : List (String × String)) (now : ℚ) :
    m.enqueue deliveryId webhookId url payload headers now = { m with records := Dict.empty } ∨
      ∃ records, Evicts m.records records ∧ records.entries.length < m.maxRecords ∧
        m.enqueue deliveryId webhookId url payload headers now = { m with records }.put deliveryId
          { deliveryId, webhookId, url, payload, headers, createdAt := now
            maxRetries := m.maxRetries } := by
  rw [enqueue]
  cases hevict : m.evictIfNeeded with
  | none => exact .inl rfl
  | some records =>
    obtain ⟨hevicts, hlength⟩ := evictLoop_evicts hevict
    exact .inr ⟨records, hevicts, hlength, rfl⟩

end WebhookDeliveryManager

namespace Deliveries

open WebhookDeliveryManager

variable {s s' : Deliveries}

inductive Change (s : Deliveries) : DeliveryStep → WebhookDeliveryManager → Prop
  | refused (e : DeliveryStep) : Change s e s.manager
  | emptied (webhookId url : String) (payload : Json) (headers : List (String × String)) (now : ℚ) :
    Change s (.enqueue webhookId url payload headers now)
      { s.manager with records := Dict.empty }
  | enqueued {records : Dict DeliveryId WebhookDeliveryRecord} (webhookId url : String)
    (payload : Json) (headers : List (String × String)) (now : ℚ)
    (hevicts : Evicts s.manager.records records)
    (hroom : records.entries.length < s.manager.maxRecords) :
    Change s (.enqueue webhookId url payload headers now) ({ s.manager with records }.put s.enqueued
      { deliveryId := s.enqueued, webhookId, url, payload, headers, createdAt := now
        maxRetries := s.manager.maxRetries })
  | started {deliveryId : DeliveryId} {r : WebhookDeliveryRecord}
    (hget : s.get? deliveryId = some r) :
    Change s (.attemptDelivery deliveryId) (s.manager.put deliveryId { r with status := .inFlight })
  | processed {n : ℕ} {deliveryId : DeliveryId} {attemptNumber : ℕ} {r : WebhookDeliveryRecord}
    (outcome : Outcome) (now jitter : ℚ) (hn : s.started[n]? = some (deliveryId, attemptNumber))
    (hget : s.get? deliveryId = some r) :
    Change s (.processResult n outcome now jitter) (s.manager.put deliveryId
      (s.manager.processed r (outcome.attempt attemptNumber) now jitter))
  | retried {deliveryId : DeliveryId} {r : WebhookDeliveryRecord}
    (hget : s.get? deliveryId = some r) (hdead : r.status = .deadLettered) :
    Change s (.retryDeadLetter deliveryId) (s.manager.put deliveryId
      { r with status := .pending, currentRetry := 0, attempts := [], nextRetryAt := none })
  | purged (now olderThanHours : ℚ) :
    Change s (.purgeDelivered now olderThanHours) (s.manager.purgeDelivered now olderThanHours)

theorem change_next (s : Deliveries) (e : DeliveryStep) : Change s e (s.next e).manager := by
  cases e with
  | enqueue webhookId url payload headers now =>
    change Change s _ (s.manager.enqueue s.enqueued webhookId url payload headers now)
    rcases enqueue_cases s.manager s.enqueued webhookId url payload headers now with
      h | ⟨records, hevicts, hroom, h⟩
    · rw [h]
      exact .emptied webhookId url payload headers now
    · rw [h]
      exact .enqueued webhookId url payload headers now hevicts hroom
  | attemptDelivery deliveryId =>
    rw [next, attemptDelivery]
    cases hget : s.manager.records.get? deliveryId with
    | none => exact .refused _
    | some r => exact .started hget
  | processResult n outcome now jitter =>
    rw [next]
    split
    case h_1 => exact .refused _
    case h_2 deliveryId attemptNumber hn =>
      rw [processResult]
      cases hget : s.manager.records.get? deliveryId with
      | none => exact .refused _
      | some r => exact .processed outcome now jitter hn hget
  | retryDeadLetter deliveryId =>
    rw [next, retryDeadLetter]
    cases hget : s.manager.records.get? deliveryId with
    | none => exact .refused _
    | some r =>
      simp only
      split_ifs with hdead
      · exact .retried hget hdead
      · exact .refused _
  | purgeDelivered now olderThanHours => exact .purged now olderThanHours

def Numbered (s : Deliveries) : Prop := ∀ deliveryId r, s.get? deliveryId = some r →
  deliveryId < s.enqueued

theorem get?_put (m : WebhookDeliveryManager) (deliveryId deliveryId' : DeliveryId)
    (r : WebhookDeliveryRecord) : (m.put deliveryId r).records.get? deliveryId' =
      if deliveryId' = deliveryId then some r else m.records.get? deliveryId' :=
  Dict.get?_set ..

variable {m : WebhookDeliveryManager} {e : DeliveryStep} {r r' : WebhookDeliveryRecord}
    {deliveryId : DeliveryId}

theorem get?_purged {now olderThanHours : ℚ} (deliveryId : DeliveryId) :
    (m.purgeDelivered now olderThanHours).records.get? deliveryId =
      (m.records.get? deliveryId).bind fun r =>
        if r.status = .delivered ∧ r.createdAt < now - olderThanHours * 3600 then none
        else some r :=
  Dict.get?_filterMapValues ..

theorem Change.config (h : Change s e m) :
    m.maxRecords = s.manager.maxRecords ∧ m.maxRetries = s.manager.maxRetries := by
  cases h <;> exact ⟨rfl, rfl⟩

theorem Change.numbered (h : Change s e m) (hs : s.Numbered)
    (hget : m.records.get? deliveryId = some r) :
    deliveryId < s.enqueued ∨ deliveryId = s.enqueued ∧ (s.next e).enqueued = s.enqueued + 1 := by
  have hput {deliveryId' : DeliveryId} {r₀ r' : WebhookDeliveryRecord}
      (hheld : s.get? deliveryId' = some r₀)
      (hget : (s.manager.put deliveryId' r').records.get? deliveryId = some r) :
      deliveryId < s.enqueued := by
    rw [get?_put] at hget
    split_ifs at hget with hid
    · exact hid ▸ hs _ _ hheld
    · exact hs _ _ hget
  cases h with
  | refused e => exact .inl (hs _ _ hget)
  | emptied => cases hget
  | enqueued webhookId url payload headers now hevicts hroom =>
    rw [get?_put] at hget
    split_ifs at hget with hid
    · exact .inr ⟨hid, rfl⟩
    · exact .inl (hs _ _ (hevicts.kept hget))
  | started hheld => exact .inl (hput hheld hget)
  | processed outcome now jitter hn hheld => exact .inl (hput hheld hget)
  | retried hheld hdead => exact .inl (hput hheld hget)
  | purged now olderThanHours =>
    rw [get?_purged] at hget
    obtain ⟨r', hr', _⟩ := bind_eq_some_iff.mp hget
    exact .inl (hs _ _ hr')

theorem Numbered.next (h : s.Numbered) (e : DeliveryStep) : (s.next e).Numbered := by
  intro deliveryId r hget
  rcases (change_next s e).numbered h hget with hlt | ⟨rfl, heq⟩
  · refine hlt.trans_le ?_
    cases e with
    | enqueue => exact Nat.le_succ _
    | attemptDelivery deliveryId =>
      rw [Deliveries.next]
      split <;> exact le_refl _
    | processResult n outcome now jitter =>
      rw [Deliveries.next]
      split <;> exact le_refl _
    | retryDeadLetter deliveryId => exact le_refl _
    | purgeDelivered now olderThanHours => exact le_refl _
  · rw [heq]
    exact Nat.lt_succ_self _

def Bounded (s : Deliveries) : Prop :=
  0 ≤ s.manager.maxRecords → s.manager.records.entries.length ≤ s.manager.maxRecords

theorem length_put (hget : m.records.get? deliveryId = some r) :
    (m.put deliveryId r').records.entries.length = m.records.entries.length := by
  have hmem : deliveryId ∈ m.records.keys :=
    List.mem_map_of_mem ((Dict.mem_entries _ _ _).mpr hget)
  rw [put, Dict.length_set, if_pos hmem]

theorem Change.bounded (h : Change s e m) (hs : s.Bounded) (hmax : 0 ≤ s.manager.maxRecords) :
    m.records.entries.length ≤ s.manager.maxRecords := by
  have hs := hs hmax
  cases h with
  | refused e => exact hs
  | emptied => exact hmax
  | enqueued webhookId url payload headers now hevicts hroom =>
    rw [put, Dict.length_set]
    dsimp only
    split_ifs <;> omega
  | started hheld => rwa [length_put hheld]
  | processed outcome now jitter hn hheld => rwa [length_put hheld]
  | retried hheld hdead => rwa [length_put hheld]
  | purged now olderThanHours =>
    have hlength : (s.manager.purgeDelivered now olderThanHours).records.entries.length ≤
        s.manager.records.entries.length := length_filterMap_le _ _
    omega

theorem Change.evicted (h : Change s e m) (hget : s.get? deliveryId = some r)
    (hr : r.status ≠ .delivered) (hnone : m.records.get? deliveryId = none)
    (hget' : m.records.get? deliveryId' = some r') :
    r'.status ≠ .delivered := by
  have hput {deliveryId' : DeliveryId} {r' : WebhookDeliveryRecord}
      (hnone : (s.manager.put deliveryId' r').records.get? deliveryId = none) :
      s.get? deliveryId = none := by
    rw [get?_put] at hnone
    split_ifs at hnone
    exact hnone
  cases h with
  | refused e => exact absurd (hnone.symm.trans hget) (by simp)
  | emptied => cases hget'
  | enqueued webhookId url payload headers now hevicts hroom =>
    rw [get?_put] at hnone hget'
    split_ifs at hnone
    split_ifs at hget'
    · obtain rfl := some.inj hget'
      simp
    · exact hevicts.evicted hget hr hnone _ _ hget'
  | started hheld => exact absurd ((hput hnone).symm.trans hget) (by simp)
  | processed outcome now jitter hn hheld => exact absurd ((hput hnone).symm.trans hget) (by simp)
  | retried hheld hdead => exact absurd ((hput hnone).symm.trans hget) (by simp)
  | purged now olderThanHours =>
    rw [get?_purged, show s.manager.records.get? deliveryId = some r from hget] at hnone
    simp [hr] at hnone

theorem Bounded.next (hs : s.Bounded) (e : DeliveryStep) : (s.next e).Bounded := by
  rw [Bounded, (change_next s e).config.1]
  exact (change_next s e).bounded hs

theorem roomy_next (hs : s.Bounded) (e : DeliveryStep) : Roomy s (s.next e) where
  bounded hmax := by
    rw [(change_next s e).config.1]
    exact (change_next s e).bounded hs hmax
  evicted hget hr hnone _ _ := (change_next s e).evicted hget hr hnone

structure Counted (n : ℕ) (r : WebhookDeliveryRecord) : Prop where
  maxRetries : r.maxRetries = n
  currentRetry : r.currentRetry = r.attempts.length
  bounded : r.attempts.length ≤ n
  failed : r.status ≠ .delivered → ∀ attempt ∈ r.attempts, attempt.success = false
  deadLettered : r.status = .deadLettered → r.attempts.length = n

theorem Counted.processed (h : Counted n r) (hr : r.status ≠ .delivered)
    (hnumber : attempt.attemptNumber = r.currentRetry + 1)
    (hlt : r.currentRetry < r.maxRetries) (m : WebhookDeliveryManager) (now jitter : ℚ) :
    Counted n (m.processed r attempt now jitter) := by
  have hlength : (r.attempts ++ [attempt]).length = attempt.attemptNumber := by
    rw [length_append, length_singleton, hnumber, h.currentRetry]
  have hbounded : (r.attempts ++ [attempt]).length ≤ n := by
    rw [hlength, hnumber, ← h.maxRetries]
    exact hlt
  have hfailed (hattempt : ¬attempt.success = true) :
      ∀ attempt' ∈ r.attempts ++ [attempt], attempt'.success = false := by
    intro attempt' hmem
    rcases mem_append.mp hmem with hmem | hmem
    · exact h.failed hr attempt' hmem
    · rw [mem_singleton.mp hmem]
      exact Bool.eq_false_iff.mpr hattempt
  rw [WebhookDeliveryManager.processed]
  split_ifs with hsuccess hdead
  · exact ⟨h.maxRetries, hlength.symm, hbounded, fun hne => absurd rfl hne,
      fun hdead => (nomatch hdead)⟩
  · refine ⟨h.maxRetries, hlength.symm, hbounded, fun _ => hfailed hsuccess, fun _ => ?_⟩
    refine le_antisymm hbounded ?_
    rw [hlength, ← h.maxRetries]
    exact hdead
  · exact ⟨h.maxRetries, hlength.symm, hbounded, fun _ => hfailed hsuccess,
      fun hdead => (nomatch hdead)⟩

def AllCounted (s : Deliveries) : Prop :=
  ∀ deliveryId r, s.get? deliveryId = some r → Counted s.manager.maxRetries r

theorem Change.counted (h : Change s e m) (hs : s.AllCounted) (horder : s.InOrder e)
    (hget : m.records.get? deliveryId = some r) : Counted s.manager.maxRetries r := by
  have hput {deliveryId' : DeliveryId} {r' : WebhookDeliveryRecord}
      (hget : (s.manager.put deliveryId' r').records.get? deliveryId = some r)
      (hr' : Counted s.manager.maxRetries r') : Counted s.manager.maxRetries r := by
    rw [get?_put] at hget
    split_ifs at hget with hid
    · exact some.inj hget ▸ hr'
    · exact hs _ _ hget
  cases h with
  | refused e => exact hs _ _ hget
  | emptied => cases hget
  | enqueued webhookId url payload headers now hevicts hroom =>
    rw [get?_put] at hget
    split_ifs at hget with hid
    · obtain rfl := some.inj hget
      exact ⟨rfl, rfl, Nat.zero_le _, fun _ _ hmem => (by cases hmem),
        fun hdead => (by cases hdead)⟩
    · exact hs _ _ (hevicts.kept hget)
  | @started deliveryId' r' hheld =>
    have hr' := hs _ _ hheld
    exact hput hget ⟨hr'.maxRetries, hr'.currentRetry, hr'.bounded,
      fun _ => hr'.failed (horder r' hheld), fun hdead => (by cases hdead)⟩
  | processed outcome now jitter hn hheld =>
    obtain ⟨hr, hnumber, hlt⟩ := horder _ hn _ hheld
    exact hput hget ((hs _ _ hheld).processed hr hnumber hlt s.manager now jitter)
  | retried hheld hdead =>
    have hr' := hs _ _ hheld
    exact hput hget ⟨hr'.maxRetries, rfl, Nat.zero_le _, fun _ _ hmem => (by cases hmem),
      fun hdead => (by cases hdead)⟩
  | purged now olderThanHours =>
    rw [get?_purged] at hget
    obtain ⟨r', hr', hif⟩ := bind_eq_some_iff.mp hget
    split_ifs at hif
    exact some.inj hif ▸ hs _ _ hr'

theorem Change.delivered (h : Change s e m) (hs : s.Numbered) (horder : s.InOrder e)
    (hget : s.get? deliveryId = some r) (hr : r.status = .delivered)
    (hget' : m.records.get? deliveryId = some r') : r'.status = .delivered := by
  have hput {deliveryId' : DeliveryId} {r₀ r₁ : WebhookDeliveryRecord}
      (hheld : s.get? deliveryId' = some r₀) (hr₀ : r₀.status ≠ .delivered)
      (hget' : (s.manager.put deliveryId' r₁).records.get? deliveryId = some r') :
      r'.status = .delivered := by
    rw [get?_put] at hget'
    split_ifs at hget' with hid
    · rw [hid, hheld] at hget
      exact absurd (some.inj hget ▸ hr) hr₀
    · exact some.inj (hget.symm.trans hget') ▸ hr
  cases h with
  | refused e => exact some.inj (hget.symm.trans hget') ▸ hr
  | emptied => cases hget'
  | enqueued webhookId url payload headers now hevicts hroom =>
    rw [get?_put, if_neg (hs _ _ hget).ne] at hget'
    exact some.inj (hget.symm.trans (hevicts.kept hget')) ▸ hr
  | @started deliveryId' r₀ hheld => exact hput hheld (horder r₀ hheld) hget'
  | processed outcome now jitter hn hheld => exact hput hheld (horder _ hn _ hheld).1 hget'
  | retried hheld hdead => exact hput hheld (by simp [hdead]) hget'
  | purged now olderThanHours =>
    rw [get?_purged, show s.manager.records.get? deliveryId = some r from hget] at hget'
    rw [bind_some] at hget'
    split_ifs at hget'
    exact some.inj hget' ▸ hr

theorem safe_next (hnumbered : s.Numbered) (hcounted : s.AllCounted) (horder : s.InOrder e) :
    Safe s (s.next e) ∧ (s.next e).AllCounted := by
  have hconfig := (change_next s e).config.2
  have hnext : (s.next e).AllCounted := by
    intro deliveryId r hget
    rw [hconfig]
    exact (change_next s e).counted hcounted horder hget
  refine ⟨⟨fun hget hr hget' => (change_next s e).delivered hnumbered horder hget hr hget',
    fun hget => (hnext _ _ hget).bounded, fun {deliveryId r} hget hdead => ?_⟩, hnext⟩
  exact ⟨(hnext _ _ hget).deadLettered hdead, (hnext _ _ hget).failed (by simp [hdead])⟩

def start (maxRetries : ℕ) (baseDelaySeconds maxDelaySeconds : ℚ) (maxRecords : Int) :
    Deliveries where
  manager := { maxRetries, baseDelaySeconds, maxDelaySeconds, maxRecords }

/-- Records are bounded and evicted as they should in every run; if no attempt is made on a
delivered record and results come in order, deliveries are safe. -/
theorem run_safe (maxRetries : ℕ) (baseDelaySeconds maxDelaySeconds : ℚ) (maxRecords : Int)
    (steps : List DeliveryStep) :
    History.Along next (fun s e => Roomy s (s.next e))
        (start maxRetries baseDelaySeconds maxDelaySeconds maxRecords) steps ∧
      (History.Along next InOrder (start maxRetries baseDelaySeconds maxDelaySeconds maxRecords)
          steps →
        History.Along next (fun s e => Safe s (s.next e))
          (start maxRetries baseDelaySeconds maxDelaySeconds maxRecords) steps) := by
  have hstart : (start maxRetries baseDelaySeconds maxDelaySeconds maxRecords).Bounded :=
    fun hmax => hmax
  constructor
  · exact History.along_of_invariant (I := Bounded) (fun _ e hs => hs.next e)
      (fun _ e hs => roomy_next hs e) hstart steps
  · intro h
    exact History.Along.imp (I := fun s => s.Numbered ∧ s.AllCounted) (R := InOrder)
      (fun s e hs he _ => ⟨hs.1.next e, (safe_next hs.1 hs.2 he).2⟩)
      (fun s e hs he _ => (safe_next hs.1 hs.2 he).1)
      ⟨fun _ _ hget => (nomatch hget), fun _ _ hget => (nomatch hget)⟩ h h

def twoInOrder : List DeliveryStep :=
  [.enqueue "w" "https://example.com" (.obj []) [] 0, .attemptDelivery 0,
    .processResult 0 { statusCode := 500 } 1 1, .attemptDelivery 0,
    .processResult 0 { statusCode := 200 } 2 1]

theorem run_safe_twoInOrder :
    History.Along next (fun s e => Safe s (s.next e)) (start 2 1 300 10) twoInOrder :=
  (run_safe 2 1 300 10 twoInOrder).2 (by decide +kernel)

def lateFailure : List DeliveryStep :=
  [.enqueue "w" "https://example.com" (.obj []) [] 0, .attemptDelivery 0, .attemptDelivery 0,
    .processResult 0 { statusCode := 200 } 1 1, .processResult 0 { statusCode := 500 } 2 1]

theorem lateFailure_not_safe :
    ¬History.Along next (fun s e => Safe s (s.next e)) (start 2 1 300 10) lateFailure := by
  intro h
  obtain ⟨_, _, _, _, h, _⟩ := h
  have hstays {s s' : Deliveries} (h : Safe s s')
      (hdelivered : (s.get? 0).map WebhookDeliveryRecord.status = some .delivered) :
      (s'.get? 0).map WebhookDeliveryRecord.status ≠ some .retrying := by
    obtain ⟨r, hr, hstatus⟩ := map_eq_some_iff.mp hdelivered
    intro hretrying
    obtain ⟨r', hr', hstatus'⟩ := map_eq_some_iff.mp hretrying
    exact absurd (hstatus'.symm.trans (h.delivered hr hstatus hr')) (by decide)
  exact hstays h (by decide +kernel) (by decide +kernel)

end Deliveries

end Agent33.Automation
