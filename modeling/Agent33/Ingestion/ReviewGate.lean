import Agent33.Ingestion.Effects

/-!
# The intake pipeline

Assets are submitted as payloads and routed by their confidence: validated at once,
or flagged for review. In a batch a submission that fails leaves a candidate that says
so.
-/

namespace Agent33.Ingestion

open Library

structure AssetData where
  name : Option Json := none
  assetType : Option Json := none
  sourceUri : Option Json := none
  confidence : Option Json := none
  metadata : Option Json := none

/-- A pair of a text and a value, of two characters, or of the two keys of an object. -/
def pairOf : Json → Option (String × Json)
  | .arr [.str key, value] => some (key, value)
  | .str text =>
    match text.toList with
    | [key, value] => some (String.ofList [key], .str (String.ofList [value]))
    | _ => none
  | .obj [(key, _), (value, _)] => some (key, .str value)
  | _ => none

/-- `dict(value or {})` with texts as keys, none where it raises. -/
def dictOf : Json → Option Metadata
  | .obj fields => some (Dict.ofList fields)
  | .arr items => (items.mapM pairOf).map Dict.ofList
  | value => if value.truthy then none else some Dict.empty

variable (python : Python)

def strOf (value : Json) : String := String.ofList (python.str value)

/-- `str(value or default)`. -/
def strOr (value : Option Json) (default : String) : String :=
  match value.filter Json.truthy with
  | none => default
  | some value => strOf python value

def confidenceOf (data : AssetData) : Option ConfidenceLevel :=
  ConfidenceLevel.ofValue? (String.ofList (python.lower
    (python.str (data.confidence.getD (.str ConfidenceLevel.low.value)))))

def routingUpdates (confidence : ConfidenceLevel) : Metadata :=
  if confidence = .low then
    Dict.ofList [("review_required", .bool true), ("quarantine", .bool true)]
  else Dict.ofList [("review_required", .bool true)]

def applyRouting (asset : CandidateAsset) (confidence : ConfidenceLevel) :
    IngestionM CandidateAsset :=
  if confidence = .high then validate asset.id (some "intake_pipeline") "validated"
  else patchMetadata asset.id (routingUpdates confidence)

def submit (data : AssetData) (source tenantId : String) : IngestionM CandidateAsset := do
  match dictOf (data.metadata.getD .null) with
  | none => throw .value
  | some metadata =>
    match confidenceOf python data with
    | none => throw .value
    | some confidence =>
      match data.name with
      | none => throw (.keyError "name")
      | some name =>
        let asset ← ingest (strOf python name)
          (strOf python (data.assetType.getD (.str "")))
          (some (strOr python data.sourceUri "")) tenantId confidence
          (metadata.set "intake_source" (.str source))
        applyRouting asset confidence

variable (errorText : IngestionError → String)

def ingestError (data : AssetData) (source tenantId : String) (error : IngestionError) :
    IngestionM CandidateAsset :=
  let name := strOr python data.name "<unknown>"
  let sourceUri := strOr python data.sourceUri ""
  ingest (if name = "" then "<unknown>" else name) (strOr python data.assetType "")
    (if sourceUri = "" then none else some sourceUri) tenantId .low
    (Dict.ofList [("intake_source", .str source), ("intake_error", .str (errorText error))])

def batchSubmit (source tenantId : String) : List AssetData → IngestionM (List CandidateAsset)
  | [] => pure []
  | data :: rest => do
    let asset ← tryCatch (submit python data source tenantId)
      (ingestError python errorText data source tenantId)
    let assets ← batchSubmit source tenantId rest
    return asset :: assets

end Agent33.Ingestion

/-!
## The operator review gate

An asset that was flagged stays open until an approval clears its flags. The promotion
of an asset does not look at them, so that what keeps a flagged asset from being
published is that nobody promotes it and nothing else clears its flags.
-/

namespace Agent33.Ingestion

open Library
open Skills (SkillRegistry)

def CandidateAsset.flagged (asset : CandidateAsset) : Bool :=
  asset.flag "review_required" || asset.flag "quarantine"

inductive Request
  | operation (op : Op)
  | submit (data : AssetData) (source tenantId : String)
  | batchSubmit (assets : List AssetData) (source tenantId : String)

section Gate

variable (python : Python) (errorText : IngestionError → String) (loader : SkillLoader)

def Request.body : Request → IngestionM Unit
  | .operation op => discard (op.body loader)
  | .submit data source tenantId => discard (Ingestion.submit python data source tenantId)
  | .batchSubmit assets source tenantId =>
    discard (Ingestion.batchSubmit python errorText source tenantId assets)

def Request.approves? : Request → Option ℕ
  | .operation (.approve assetId _ _) => some assetId
  | _ => none

def Request.promotes? : Request → Option ℕ
  | .operation (.promote assetId _ _) => some assetId
  | _ => none

structure Reviewing where
  service : IngestionService
  flagged : List ℕ := []

def IngestionService.flagged (service : IngestionService) : List ℕ :=
  (service.store.entries.filter fun entry => entry.2.flagged).map Prod.fst

def Reviewing.next (s : Reviewing) (request : Request) : Reviewing :=
  let service := History.next (Request.body python errorText loader) s.service request
  { service
    flagged := s.flagged.filter
        (fun id => ¬ (request.approves? = some id ∧ id ∈ s.service.flagged)) ++ service.flagged }

def Publishes (s t : IngestionService) (id : ℕ) : Prop :=
  (∃ asset, t.store.get? id = some asset ∧ asset.status = .published) ∧
    ∀ asset, s.store.get? id = some asset → asset.status ≠ .published

structure ReviewGated (s : Reviewing) (request : Request) : Prop where
  unflagged : ∀ id, Publishes s.service (s.next python errorText loader request).service id →
    ∀ asset, s.service.store.get? id = some asset → asset.flagged = false
  cleared : ∀ id, Publishes s.service (s.next python errorText loader request).service id →
    id ∉ s.flagged

end Gate

/-- A promotion finds no flags on its asset, and a patch clears none that an asset has on its
way to publication. -/
def Reviewed (s : Reviewing) : Request → Prop
  | .operation (.promote assetId _ _) => ∀ asset ∈ s.service.store.get? assetId,
      asset.status = .validated → asset.flagged = false
  | .operation (.patchMetadata assetId updates) => ∀ asset ∈ s.service.store.get? assetId,
      asset.status ∈ [.candidate, .validated] → asset.flagged = true →
        (asset.patched updates 0).flagged = true
  | _ => True

def Fresh (s : IngestionService) : Prop := ∀ id, s.nextId ≤ id → s.store.get? id = none

def CandidateAsset.settled (asset : CandidateAsset) : Bool :=
  asset.status = .published || asset.status = .revoked

structure Evolution (promoting approving : Option ℕ) (old new : Dict ℕ CandidateAsset) :
    Prop where
  published : ∀ id asset, new.get? id = some asset → asset.status = .published →
    ∃ before, old.get? id = some before ∧
      (before.status = .published ∨ before.status = .validated ∧ promoting = some id)
  settled : ∀ id before, old.get? id = some before → before.settled = true →
    ∃ asset, new.get? id = some asset ∧ asset.settled = true
  flagged : ∀ id before, approving ≠ some id → old.get? id = some before →
    before.flagged = true →
    ∃ asset, new.get? id = some asset ∧ (asset.flagged = true ∨ asset.settled = true)

def Evolves (promoting approving : Option ℕ) (s t : IngestionService) : Prop :=
  Fresh s → Fresh t ∧ Evolution promoting approving s.store t.store

section Evolves

theorem evolution_refl (promoting approving : Option ℕ) (old : Dict ℕ CandidateAsset) :
    Evolution promoting approving old old where
  published _ asset hget hstatus := ⟨asset, hget, .inl hstatus⟩
  settled _ before hget hsettled := ⟨before, hget, hsettled⟩
  flagged _ before _ hget hflagged := ⟨before, hget, .inl hflagged⟩

theorem evolves_refl (promoting approving : Option ℕ) (s : IngestionService) :
    Evolves promoting approving s s := fun hfresh => ⟨hfresh, evolution_refl _ _ _⟩

theorem evolves_trans (s t u : IngestionService) (hst : Evolves none approving s t)
    (htu : Evolves none approving t u) : Evolves none approving s u := by
  intro hs
  obtain ⟨ht, hold⟩ := hst hs
  obtain ⟨hu, hnew⟩ := htu ht
  refine ⟨hu, ?_, ?_, ?_⟩
  · intro id asset hget hstatus
    obtain ⟨mid, hmid, hpublished⟩ := hnew.published id asset hget hstatus
    exact hold.published id mid hmid (hpublished.resolve_right fun h => nomatch h.2)
  · intro id before hget hsettled
    obtain ⟨mid, hmid, hsettled⟩ := hold.settled id before hget hsettled
    exact hnew.settled id mid hmid hsettled
  · intro id before happroving hget hflagged
    obtain ⟨mid, hmid, hflagged | hsettled⟩ := hold.flagged id before happroving hget hflagged
    · exact hnew.flagged id mid happroving hmid hflagged
    · obtain ⟨asset, hasset, hsettled⟩ := hnew.settled id mid hmid hsettled
      exact ⟨asset, hasset, .inr hsettled⟩

theorem evolution_set {id : ℕ} (hget : old.get? id = some before)
    (hpublished : asset.status = .published →
      before.status = .published ∨ before.status = .validated ∧ promoting = some id)
    (hsettled : before.settled = true → asset.settled = true)
    (hflagged : approving ≠ some id → before.flagged = true →
      asset.flagged = true ∨ asset.settled = true) :
    Evolution promoting approving old (old.set id asset) := by
  have hother {other : ℕ} (h : other ≠ id) : (old.set id asset).get? other = old.get? other := by
    rw [Dict.get?_set, if_neg h]
  have hsame : (old.set id asset).get? id = some asset := by rw [Dict.get?_set, if_pos rfl]
  refine ⟨fun other new hnew hstatus => ?_, fun other was hwas h => ?_,
    fun other was happroving hwas h => ?_⟩ <;> by_cases hid : other = id
  · subst hid
    rw [hsame, Option.some_inj] at hnew
    exact ⟨before, hget, hpublished (hnew ▸ hstatus)⟩
  · exact ⟨new, hother hid ▸ hnew, .inl hstatus⟩
  · subst hid
    obtain rfl := Option.some.inj (hget.symm.trans hwas)
    exact ⟨asset, hsame, hsettled h⟩
  · exact ⟨was, hother hid ▸ hwas, h⟩
  · subst hid
    obtain rfl := Option.some.inj (hget.symm.trans hwas)
    exact ⟨asset, hsame, hflagged happroving h⟩
  · exact ⟨was, hother hid ▸ hwas, .inl h⟩

theorem evolves_holding {id : ℕ} (hget : s.store.get? id = some before)
    (h : Evolution promoting approving s.store (s.store.set id asset)) :
    Evolves promoting approving s (s.holding id asset) := by
  refine fun hfresh => ⟨fun other hother => ?_, h⟩
  have hnone := hfresh other hother
  change (s.store.set id asset).get? other = none
  rw [Dict.get?_set, if_neg, hnone]
  intro heq
  rw [heq, hget] at hnone
  exact nomatch hnone

theorem evolves_adding (hstatus : asset.status = .candidate) :
    Evolves promoting approving s (s.adding asset) := by
  intro hfresh
  have hother {other : ℕ} (h : other ≠ s.nextId) :
      (s.adding asset).store.get? other = s.store.get? other := by
    change (s.store.set s.nextId asset).get? other = _
    rw [Dict.get?_set, if_neg h]
  have hne {other : ℕ} {before : CandidateAsset} (h : s.store.get? other = some before) :
      other ≠ s.nextId := by
    rintro rfl
    rw [hfresh s.nextId le_rfl] at h
    exact nomatch h
  refine ⟨fun other hle => ?_, fun other new hnew hpublished => ?_, fun other was hwas h => ?_,
    fun other was _ hwas h => ?_⟩
  · rw [hother (by change s.nextId + 1 ≤ other at hle; omega)]
    exact hfresh other (by change s.nextId + 1 ≤ other at hle; omega)
  · by_cases hid : other = s.nextId
    · subst hid
      have hsame : (s.adding asset).store.get? s.nextId = some asset := by
        change (s.store.set s.nextId asset).get? s.nextId = _
        rw [Dict.get?_set, if_pos rfl]
      rw [hsame, Option.some_inj] at hnew
      rw [← hnew, hstatus] at hpublished
      exact nomatch hpublished
    · exact ⟨new, hother hid ▸ hnew, .inl hpublished⟩
  · exact ⟨was, (hother (hne hwas)).trans hwas, h⟩
  · exact ⟨was, (hother (hne hwas)).trans hwas, .inl h⟩

end Evolves

section Operations

theorem save_evolves (asset : CandidateAsset) :
    Hoare.Keeps (Evolves promoting approving s) (save asset) :=
  save_keeps (fun _ _ _ h => h) asset

theorem record_evolves (asset : CandidateAsset) (fromStatus : CandidateStatus)
    (operator reason eventType : String) (details : Json) :
    Hoare.Keeps (Evolves promoting approving s)
      (record asset fromStatus operator reason eventType details) :=
  record_keeps (fun _ _ _ _ h => h) asset fromStatus operator reason eventType details

theorem announceFlags_evolves (asset : CandidateAsset)
    (priorReviewRequired priorQuarantine : Bool) :
    Hoare.Keeps (Evolves promoting approving s)
      (announceFlags asset priorReviewRequired priorQuarantine) :=
  announceFlags_keeps (fun _ _ _ _ h => h) (fun _ _ h => h) asset priorReviewRequired
    priorQuarantine

theorem ingest_evolves (name assetType : String) (sourceUri : Option String) (tenantId : String)
    (confidence : ConfidenceLevel) (metadata : Metadata) :
    Hoare.Steps (Evolves promoting approving)
      (ingest name assetType sourceUri tenantId confidence metadata) := by
  intro s
  refine ingest_spec ?_ fun asset details _ hstatus => ?_
  · exact fun hfresh => ⟨fun id hle => hfresh id (Nat.le_of_succ_le hle), evolution_refl _ _ _⟩
  · have hrest : Hoare.Keeps (Evolves promoting approving s) (do
        save asset
        recordEvent asset "ingested" "system" "Asset entered the ingestion lifecycle." details
        announceFlags asset false false
        return asset) :=
      (save_evolves asset).bind fun _ => (record_evolves asset _ _ _ _ _).bind fun _ =>
        (announceFlags_evolves asset false false).bind fun _ => Hoare.keeps_pure _
    exact hrest.conseq (fun t ht => ht ▸ evolves_adding hstatus) (fun _ _ => id) fun _ _ => id

theorem advance_evolves (assetId : ℕ) (target : CandidateStatus) (operator : Option String)
    (reason : String) (revocationReason : Option String)
    (hpromoting : target = .published → promoting = some assetId) :
    Hoare.Steps (Evolves promoting approving)
      (advance assetId target operator reason revocationReason) := by
  intro s
  refine advance_spec (fun _ => evolves_refl _ _ s) (fun _ _ _ => evolves_refl _ _ s)
    fun asset updated hget htarget hupdated => ?_
  have hrest : Hoare.Keeps (Evolves promoting approving s) (do
      save updated
      record updated asset.status (operatorOr operator) reason
      return updated) :=
    (save_evolves updated).bind fun _ => (record_evolves updated _ _ _ _ _).bind fun _ =>
      Hoare.keeps_pure _
  have hset : Evolution promoting approving s.store (s.store.set assetId updated) := by
    rw [hupdated]
    refine evolution_set hget (fun hstatus => ?_) (fun hsettled => ?_) fun _ hflagged => ?_
    · obtain rfl : target = .published := hstatus
      exact .inr ⟨eq_validated_of_published htarget, hpromoting rfl⟩
    · cases hstatus : asset.status <;>
        simp_all [CandidateAsset.settled, CandidateAsset.moved, validTransitions]
    · exact .inl hflagged
  exact hrest.conseq (fun t ht => ht ▸ evolves_holding hget hset) (fun _ _ => id) fun _ _ => id

theorem patchMetadata_evolves (assetId : ℕ) (updates : Metadata)
    (hkept : approving ≠ some assetId → ∀ asset ∈ s.store.get? assetId,
      asset.settled = false → asset.flagged = true → (asset.patched updates 0).flagged = true) :
    Hoare.Triple (fun t => t = s) (patchMetadata assetId updates)
      (fun _ => Evolves promoting approving s) fun _ => Evolves promoting approving s := by
  refine patchMetadata_spec (fun _ => evolves_refl _ _ s) fun asset updated hget hupdated => ?_
  have hrest : Hoare.Keeps (Evolves promoting approving s) (do
      save updated
      announceFlags updated (asset.flag "review_required") (asset.flag "quarantine")
      return updated) :=
    (save_evolves updated).bind fun _ => (announceFlags_evolves updated _ _).bind fun _ =>
      Hoare.keeps_pure _
  have hset : Evolution promoting approving s.store (s.store.set assetId updated) := by
    rw [hupdated]
    refine evolution_set hget .inl id fun happroving hflagged => ?_
    cases hsettled : asset.settled with
    | false => exact .inl (hkept happroving asset hget hsettled hflagged)
    | true => exact .inr hsettled
  exact hrest.conseq (fun t ht => ht ▸ evolves_holding hget hset) (fun _ _ => id) fun _ _ => id

theorem emit_evolves : Hoare.Keeps (Evolves promoting approving s) emit :=
  emit_keeps fun _ _ h => h

theorem approve_evolves (assetId : ℕ) (operator reason : String) :
    Hoare.Steps (Evolves none (some assetId)) (approve assetId operator reason) := by
  have hpatch : Hoare.Steps (Evolves none (some assetId)) (patchMetadata assetId cleared) :=
    fun s => patchMetadata_evolves assetId cleared fun h => absurd rfl h
  intro s
  refine Hoare.Triple.bind (advance_evolves assetId .validated _ _ _ nofun s).discard fun _ => ?_
  refine Hoare.Triple.bind (hpatch.keeps (evolves_trans s)) fun asset => ?_
  exact (record_evolves asset _ _ _ _ _).bind fun _ => emit_evolves.bind fun _ =>
    Hoare.keeps_pure _

theorem reject_evolves (assetId : ℕ) (operator reason : String) :
    Hoare.Steps (Evolves none none) (reject assetId operator reason) := by
  intro s
  refine Hoare.Triple.bind (advance_evolves assetId .revoked _ _ _ nofun s) fun asset => ?_
  exact (record_evolves asset _ _ _ _ _).bind fun _ => emit_evolves.bind fun _ =>
    Hoare.keeps_pure _

theorem promote_evolves (loader : SkillLoader) (assetId : ℕ) (operator : Option String)
    (reason : String) :
    Hoare.Steps (Evolves (some assetId) none) (promote loader assetId operator reason) := by
  intro s
  refine Hoare.Triple.bind (advance_evolves assetId .published _ _ _ (fun _ => rfl) s)
    fun asset => ?_
  exact (registerPublishedSkill_keeps loader (fun _ _ h => h) asset).bind fun _ =>
    Hoare.keeps_pure _

theorem flagged_routed (asset : CandidateAsset) (confidence : ConfidenceLevel) (time : ℕ) :
    (asset.patched (routingUpdates confidence) time).flagged = true := by
  have hupdate : (routingUpdates confidence).get? "review_required" = some (.bool true) := by
    cases confidence <;> decide
  have hflag : (asset.patched (routingUpdates confidence) time).flag "review_required" = true := by
    rw [CandidateAsset.flag, CandidateAsset.patched, Dict.get?_update, hupdate]
    rfl
  rw [CandidateAsset.flagged, hflag, Bool.true_or]

theorem submit_evolves (python : Python) (data : AssetData) (source tenantId : String) :
    Hoare.Steps (Evolves none none) (submit python data source tenantId) := by
  unfold submit
  split
  · exact Hoare.steps_throw (evolves_refl _ _) _
  · split
    · exact Hoare.steps_throw (evolves_refl _ _) _
    · rename_i confidence _
      split
      · exact Hoare.steps_throw (evolves_refl _ _) _
      · refine Hoare.Steps.bind evolves_trans (ingest_evolves _ _ _ _ _ _) fun asset => ?_
        unfold applyRouting
        split_ifs
        · exact advance_evolves asset.id .validated _ _ _ nofun
        · exact fun s => patchMetadata_evolves asset.id (routingUpdates confidence)
            fun _ asset _ _ _ => flagged_routed asset confidence 0

theorem batchSubmit_evolves (python : Python) (errorText : IngestionError → String)
    (source tenantId : String) (assets : List AssetData) :
    Hoare.Steps (Evolves none none) (batchSubmit python errorText source tenantId assets) := by
  induction assets with
  | nil => exact Hoare.steps_pure (evolves_refl _ _) _
  | cons data rest ih =>
    refine Hoare.Steps.bind evolves_trans ?_ fun asset => ?_
    · exact Hoare.Steps.tryCatch evolves_trans (submit_evolves python data source tenantId)
        fun _ => ingest_evolves _ _ _ _ _ _
    · exact Hoare.Steps.bind evolves_trans ih fun _ => Hoare.steps_pure (evolves_refl _ _) _

end Operations

section Runs

variable (python : Python) (errorText : IngestionError → String) (loader : SkillLoader)

theorem settled_eq_false {asset : CandidateAsset} :
    asset.settled = false ↔ asset.status ∈ [.candidate, .validated] := by
  cases h : asset.status <;> simp [CandidateAsset.settled, h]

theorem op_evolves (hreviewed : Reviewed s (.operation op)) :
    Hoare.Triple (fun t => t = s.service) (op.body loader)
      (fun _ => Evolves (Request.promotes? (.operation op)) (Request.approves? (.operation op))
        s.service)
      fun _ => Evolves (Request.promotes? (.operation op)) (Request.approves? (.operation op))
        s.service := by
  cases op with
  | ingest name assetType sourceUri tenantId confidence metadata =>
    exact ingest_evolves name assetType sourceUri tenantId confidence metadata s.service
  | validate assetId operator reason =>
    exact advance_evolves assetId .validated operator reason none nofun s.service
  | promote assetId operator reason =>
    exact promote_evolves loader assetId operator reason s.service
  | revoke assetId reason operator =>
    exact advance_evolves assetId .revoked operator reason (some reason) nofun s.service
  | patchMetadata assetId updates =>
    refine patchMetadata_evolves assetId updates fun _ asset hget hsettled hflagged => ?_
    exact hreviewed asset hget (settled_eq_false.mp hsettled) hflagged
  | approve assetId operator reason => exact approve_evolves assetId operator reason s.service
  | reject assetId operator reason => exact reject_evolves assetId operator reason s.service

theorem request_evolves (hreviewed : Reviewed s request) :
    Evolves request.promotes? request.approves? s.service
      (s.next python errorText loader request).service := by
  refine History.next_of_triple (P := fun t => t = s.service) (Request.body python errorText loader)
    ?_ rfl
  cases request with
  | operation op => exact (op_evolves loader hreviewed).discard
  | submit data source tenantId =>
    exact (submit_evolves python data source tenantId s.service).discard
  | batchSubmit assets source tenantId =>
    exact (batchSubmit_evolves python errorText source tenantId assets s.service).discard

structure Kept (s : Reviewing) : Prop where
  fresh : Fresh s.service
  flagged : ∀ id ∈ s.flagged, ∃ asset, s.service.store.get? id = some asset ∧
    (asset.flagged = true ∨ asset.settled = true)

theorem mem_flagged {service : IngestionService} {id : ℕ} : id ∈ service.flagged ↔
    ∃ asset, service.store.get? id = some asset ∧ asset.flagged = true := by
  simp [IngestionService.flagged, Dict.mem_entries]

variable {python errorText loader}

section

variable (hs : Kept s) (hreviewed : Reviewed s request)
include hs hreviewed

theorem kept_next : Kept (s.next python errorText loader request) := by
  obtain ⟨hfresh, hnext⟩ := request_evolves python errorText loader hreviewed hs.fresh
  refine ⟨hfresh, fun id hid => ?_⟩
  rcases List.mem_append.mp hid with hold | hnew
  · rw [List.mem_filter, decide_eq_true_iff] at hold
    obtain ⟨before, hget, hflagged | hsettled⟩ := hs.flagged id hold.1
    · refine hnext.flagged id before (fun happroves => ?_) hget hflagged
      exact hold.2 ⟨happroves, mem_flagged.mpr ⟨before, hget, hflagged⟩⟩
    · obtain ⟨asset, hasset, hsettled⟩ := hnext.settled id before hget hsettled
      exact ⟨asset, hasset, .inr hsettled⟩
  · obtain ⟨asset, hget, hflagged⟩ := mem_flagged.mp hnew
    exact ⟨asset, hget, .inl hflagged⟩

theorem reviewed_of_publishes {id : ℕ}
    (h : Publishes s.service (s.next python errorText loader request).service id) :
    ∃ asset, s.service.store.get? id = some asset ∧ asset.status = .validated ∧
      asset.flagged = false := by
  obtain ⟨-, hnext⟩ := request_evolves python errorText loader hreviewed hs.fresh
  obtain ⟨⟨asset, hget, hstatus⟩, hnot⟩ := h
  obtain ⟨before, hbefore, hpublished | ⟨hvalidated, hpromotes⟩⟩ :=
    hnext.published id asset hget hstatus
  · exact absurd hpublished (hnot before hbefore)
  · refine ⟨before, hbefore, hvalidated, ?_⟩
    cases request with
    | operation op =>
      cases op with
      | promote assetId operator reason =>
        obtain rfl := Option.some.inj hpromotes
        exact hreviewed before hbefore hvalidated
      | _ => exact nomatch hpromotes
    | submit data source tenantId => exact nomatch hpromotes
    | batchSubmit assets source tenantId => exact nomatch hpromotes

theorem reviewGated : ReviewGated python errorText loader s request := by
  refine ⟨fun id h asset hget => ?_, fun id h hflagged => ?_⟩
  · obtain ⟨before, hbefore, -, hunflagged⟩ := reviewed_of_publishes hs hreviewed h
    obtain rfl := Option.some.inj (hbefore.symm.trans hget)
    exact hunflagged
  · obtain ⟨before, hbefore, hvalidated, hunflagged⟩ := reviewed_of_publishes hs hreviewed h
    obtain ⟨asset, hget, hkept⟩ := hs.flagged id hflagged
    obtain rfl := Option.some.inj (hbefore.symm.trans hget)
    simp [hunflagged, CandidateAsset.settled, hvalidated] at hkept

end

theorem kept_opened (service : IngestionService) : Kept ⟨service.opened, []⟩ :=
  ⟨fun _ _ => rfl, nofun⟩

end Runs

/-- Where no flagged asset is promoted and only approvals clear flags, no asset is published
with a flag, or after a flag that no approval has cleared. -/
theorem run_reviewGated (python : Python) (errorText : IngestionError → String)
    (loader : SkillLoader) (service : IngestionService) (requests : List Request)
    (h : History.Along (Reviewing.next python errorText loader) Reviewed ⟨service.opened, []⟩
      requests) :
    History.Along (Reviewing.next python errorText loader)
      (ReviewGated python errorText loader) ⟨service.opened, []⟩ requests := by
  refine History.Along.imp (I := Kept) ?_ ?_ (kept_opened service) h h
  · exact fun _ _ hs hreviewed _ => kept_next hs hreviewed
  · exact fun _ _ hs hreviewed _ => reviewGated hs hreviewed

/-! A submission of low confidence, published with and without an approval. -/

def textPython : Python :=
  { asciiPython [] with
    str := fun value => match value with
      | .str text => text.toList
      | _ => [] }

def scraper : AssetData where
  name := some (.str "scraper")
  assetType := some (.str "tool")
  confidence := some (.str "low")

theorem approved_reviewGated :
    History.Along (Reviewing.next textPython (fun _ => "") noSkills)
      (ReviewGated textPython (fun _ => "") noSkills) ⟨({} : IngestionService).opened, []⟩
      [.submit scraper "web" "t1", .operation (.approve 0 "ops" "checked"),
        .operation (.promote 0 (some "ops") "promoted")] := by
  apply run_reviewGated textPython (fun _ => "") noSkills {}
  refine ⟨trivial, trivial, fun asset hget _ => ?_, trivial⟩
  obtain rfl := Option.some.inj (show some _ = some asset from hget)
  decide

/-- Validated and promoted, an asset in quarantine is published. -/
theorem quarantined_not_reviewGated :
    ¬ History.Along (Reviewing.next textPython (fun _ => "") noSkills)
      (ReviewGated textPython (fun _ => "") noSkills) ⟨({} : IngestionService).opened, []⟩
      [.submit scraper "web" "t1", .operation (.validate 0 none "validated"),
        .operation (.promote 0 (some "ops") "promoted")] := by
  intro h
  have hgate := h.2.2.1.unflagged 0 ⟨⟨_, rfl, rfl⟩, fun asset hget => ?_⟩ _ rfl
  · revert hgate
    decide
  · obtain rfl := Option.some.inj (show some _ = some asset from hget)
    decide

end Agent33.Ingestion
