import Agent33.Ingestion.Effects
import Agent33.Skills.RestartTransparency

/-!
# Runtime exposure

The skills that the registry serves against those that published assets define. A
promotion registers its skill; nothing takes one back, and a restart registers the
skills of all assets, whatever their status.
-/

namespace Agent33.Ingestion

open Library Library.Hoare List Option Triple Dict
open Skills (SkillDefinition SkillRegistry Directories)

inductive Event
  | operation (op : Op)
  | restart

section Exposed

variable (loader : SkillLoader) (directories : Directories) (paths : List String)

def Event.body : Event → IngestionM Unit
  | .operation op => discard (op.body loader)
  | .restart => Ingestion.restart loader directories paths

def Defines (asset : CandidateAsset) (skill : SkillDefinition) : Prop :=
  asset.status = .published ∧ asset.definition? loader = some skill

def Publishing (assets : Dict ℕ CandidateAsset) (skill : SkillDefinition) : Prop :=
  ∃ id asset, assets.get? id = some asset ∧ Defines loader asset skill

/-- The registry serves the skills of the published assets, and beside them only those that
it has from elsewhere. -/
structure Exposed (elsewhere : List SkillDefinition) (s : IngestionService) : Prop where
  published : ∀ registry ∈ s.skillRegistry, ∀ name skill,
    registry.skills.get? name = some skill →
      skill ∈ elsewhere ∨ Publishing loader s.store skill
  registered : ∀ registry ∈ s.skillRegistry, ∀ skill, Publishing loader s.store skill →
    registry.skills.get? skill.name = some skill

def elsewhere (service : IngestionService) : List SkillDefinition :=
  (service.skillRegistry.elim [] fun registry =>
    registry.skills.values ++ registry.stateStore.getD []) ++
      (Skills.fileSkills directories paths).map Subtype.val

/-- Where an asset changes and the registry does not, the skill that it no longer publishes is
published by another asset or comes from elsewhere, and the one that it now publishes is
registered. -/
def Replaces (others : List SkillDefinition) (s : IngestionService) (id : ℕ)
    (asset updated : CandidateAsset) : Prop :=
  s.skillRegistry.isSome → (∀ skill, Defines loader asset skill → Defines loader updated skill ∨
      skill ∈ others ∨ Publishing loader (s.store.erase id) skill) ∧
    ∀ skill, Defines loader updated skill → ∀ registry ∈ s.skillRegistry,
      registry.skills.get? skill.name = some skill

def loaded (rows : Dict ℕ CandidateAsset) : List CandidateAsset :=
  CandidateStatus.all.flatMap (loadByStatus rows)

/-- Each skill that the rows define, and each one in the store of the registry, is the skill of
a published row or from elsewhere, published rows define one skill for a name, and nothing
raises while the rows are read. -/
structure Hydrates (others : List SkillDefinition) (registry : SkillRegistry)
    (rows : Dict ℕ CandidateAsset) : Prop where
  defined : ∀ id asset, rows.get? id = some asset → ∀ skill, asset.definition? loader = some skill →
    Publishing loader rows skill
  named : ∀ skill skill', Publishing loader rows skill → Publishing loader rows skill' →
    skill.name = skill'.name → skill = skill'
  saved : ∀ skill ∈ registry.stateStore.getD [], skill ∈ others ∨ Publishing loader rows skill
  loads : ∀ id asset, rows.get? id = some asset → skillDefinition loader asset ≠ .error .other
  records : ∀ fault ∈ (registry.fresh directories paths).lineageFaults.take
    ((loaded rows).filterMap (CandidateAsset.definition? loader)).length, fault = false

/-- A promotion records its transition and registers a skill with a name of its own, what else
changes a published asset leaves the skills as they are, and a restart finds none but those of
published assets. -/
def Follows (others : List SkillDefinition) (s : IngestionService) : Event → Prop
  | .operation (.promote assetId _ _) => ∀ asset ∈ s.store.get? assetId,
      asset.status = .validated → ∀ skill, asset.definition? loader = some skill →
        ∀ registry ∈ s.skillRegistry,
          if Records s then ∀ other, Publishing loader s.store other →
            other.name = skill.name → other = skill
          else registry.skills.get? skill.name = some skill
  | .operation (.revoke assetId _ _) | .operation (.reject assetId _ _) =>
    ∀ asset ∈ s.store.get? assetId,
      Replaces loader others s assetId asset (asset.moved .revoked none 0)
  | .operation (.patchMetadata assetId updates) => ∀ asset ∈ s.store.get? assetId,
      Replaces loader others s assetId asset (asset.patched updates 0)
  | .restart => ∀ registry ∈ s.skillRegistry,
      Hydrates loader directories paths others registry (s.persistence.getD Dict.empty)
  | _ => True

end Exposed

section Changes

variable {id : ℕ} {assets : Dict ℕ CandidateAsset}


theorem publishing_set : Publishing loader (assets.set id asset) skill ↔
      Defines loader asset skill ∨ Publishing loader (assets.erase id) skill := by
  constructor
  · intro h
    obtain ⟨other, found, hget, hdefines⟩ := h
    rw [get?_set] at hget
    split_ifs at hget with hid
    · exact .inl (some.inj hget ▸ hdefines)
    · exact .inr ⟨other, found, by rw [get?_erase, if_neg hid, hget], hdefines⟩
  · intro h
    rcases h with hdefines | ⟨other, found, hget, hdefines⟩
    · exact ⟨id, asset, by rw [get?_set, if_pos rfl], hdefines⟩
    · rw [get?_erase] at hget
      split_ifs at hget with hid
      exact ⟨other, found, by rw [get?_set, if_neg hid, hget], hdefines⟩

theorem publishing_of_get? (hget : assets.get? id = some asset) : Publishing loader assets skill ↔
      Defines loader asset skill ∨ Publishing loader (assets.erase id) skill := by
  rw [← publishing_set, set_eq_self hget]

theorem publishing_congr (h : ∀ id, assets.get? id = assets'.get? id) :
    Publishing loader assets skill ↔ Publishing loader assets' skill := by
  simp only [Publishing, h]

theorem exposed_of_same (hs : Exposed loader others s) (hstore : t.store = s.store)
    (hregistry : t.skillRegistry = s.skillRegistry) : Exposed loader others t :=
  ⟨by rw [hstore, hregistry]; exact hs.published, by rw [hstore, hregistry]; exact hs.registered⟩

theorem exposed_set (hs : Exposed loader others s) (hget : s.store.get? id = some asset)
    (hreplaces : Replaces loader others s id asset updated)
    (hstore : t.store = s.store.set id updated) (hregistry : t.skillRegistry = s.skillRegistry) :
    Exposed loader others t := by
  refine ⟨fun registry hsome name skill hserved => ?_, fun registry hsome skill hskill => ?_⟩
  · rw [hregistry] at hsome
    obtain ⟨hlost, -⟩ := hreplaces (isSome_of_mem hsome)
    rw [hstore, publishing_set]
    rcases hs.published registry hsome name skill hserved with hother | hpublishing
    · exact .inl hother
    · rcases (publishing_of_get? hget).mp hpublishing with hdefines | hrest
      · rcases hlost skill hdefines with hupdated | hother | hrest
        · exact .inr (.inl hupdated)
        · exact .inl hother
        · exact .inr (.inr hrest)
      · exact .inr (.inr hrest)
  · rw [hregistry] at hsome
    obtain ⟨-, hgained⟩ := hreplaces (isSome_of_mem hsome)
    rw [hstore, publishing_set] at hskill
    rcases hskill with hupdated | hrest
    · exact hgained skill hupdated registry hsome
    · exact hs.registered registry hsome skill ((publishing_of_get? hget).mpr (.inr hrest))

theorem replaces_of_unpublished (hasset : asset.status ≠ .published)
    (hupdated : updated.status ≠ .published) : Replaces loader others s id asset updated :=
  fun _ => ⟨fun _ h => absurd h.1 hasset, fun _ h => absurd h.1 hupdated⟩

theorem exposed_add (hs : Exposed loader others s) (hnone : s.store.get? id = none)
    (hstatus : asset.status = .candidate) (hstore : t.store = s.store.set id asset)
    (hregistry : t.skillRegistry = s.skillRegistry) : Exposed loader others t := by
  have hpublishing (skill : SkillDefinition) :
      Publishing loader t.store skill ↔ Publishing loader s.store skill := by
    have herase (other : ℕ) : (s.store.erase id).get? other = s.store.get? other := by
      rw [get?_erase]
      split_ifs with hid
      · rw [hid, hnone]
      · rfl
    rw [hstore, publishing_set, publishing_congr herase]
    refine or_iff_right fun h => ?_
    exact nomatch hstatus.symm.trans h.1
  refine ⟨fun registry hsome name skill hserved => ?_, fun registry hsome skill hskill => ?_⟩
  · rw [hregistry] at hsome
    rw [hpublishing]
    exact hs.published registry hsome name skill hserved
  · rw [hregistry] at hsome
    rw [hpublishing] at hskill
    exact hs.registered registry hsome skill hskill

end Changes

def Houses (assets : Dict ℕ CandidateAsset) (nextId : ℕ) : Prop :=
  ∀ id asset, assets.get? id = some asset → id < nextId ∧ asset.id = id

def Housed (s : IngestionService) : Prop :=
  Houses s.store s.nextId ∧ ∀ rows ∈ s.persistence, Houses rows s.nextId

section Housed

theorem houses_set {nextId id : ℕ}
    (h : Houses assets nextId) (hlt : id < nextId) (hid : asset.id = id) :
    Houses (assets.set id asset) nextId := by
  intro other found hget
  rw [get?_set] at hget
  split_ifs at hget with hsame
  · rw [hsame, ← some.inj hget]
    exact ⟨hlt, hid⟩
  · exact h other found hget

theorem houses_erase (h : Houses assets nextId) (id : ℕ) : Houses (assets.erase id) nextId := by
  intro other found hget
  rw [get?_erase] at hget
  split_ifs at hget
  exact h other found hget

theorem save_housed (asset : CandidateAsset) :
    Keeps (fun t => Housed t ∧ asset.id < t.nextId) (save asset) := by
  refine get_bind fun t ht => ?_
  cases hrows : t.persistence with
  | none => exact triple_pure fun _ heq => heq ▸ ht
  | some rows =>
    have hhouses : Houses rows t.nextId := ht.1.2 rows hrows
    have hupsert : Houses (upsert rows asset) t.nextId :=
      houses_set (houses_erase hhouses asset.id) ht.2 rfl
    cases t.saves.headD .written with
    | written => exact fun _ _ => ⟨⟨ht.1.1, fun rows h => some.inj h ▸ hupsert⟩, ht.2⟩
    | skipped => exact fun _ _ => ⟨⟨ht.1.1, fun rows h => some.inj h ▸ hhouses⟩, ht.2⟩
    | raises => exact fun _ _ => ⟨⟨ht.1.1, fun rows h => some.inj h ▸ hhouses⟩, ht.2⟩

theorem ingest_housed (name assetType : String) (sourceUri : Option String) (tenantId : String)
    (confidence : ConfidenceLevel) (metadata : Metadata) :
    Keeps Housed (ingest name assetType sourceUri tenantId confidence metadata) := by
  intro s hs
  have hnext {assets : Dict ℕ CandidateAsset} (h : Houses assets s.nextId) :
      Houses assets (s.nextId + 1) :=
    fun id asset hget => ⟨Nat.lt_succ_of_lt (h id asset hget).1, (h id asset hget).2⟩
  refine ingest_spec (Q := fun _ => Housed) (E := fun _ => Housed)
    ⟨hnext hs.1, fun rows h => hnext (hs.2 rows h)⟩ (fun asset details hid _ => ?_) s rfl
  have hadded : Housed (s.adding asset) ∧ asset.id < (s.adding asset).nextId :=
    ⟨⟨houses_set (hnext hs.1) (Nat.lt_succ_self _) hid, fun rows h => hnext (hs.2 rows h)⟩,
      hid ▸ Nat.lt_succ_self _⟩
  have hrest : Keeps (fun t => Housed t ∧ asset.id < t.nextId) (do
      save asset
      recordEvent asset "ingested" "system" "Asset entered the ingestion lifecycle." details
      announceFlags asset false false
      return asset) :=
    (save_housed asset).bind fun _ => (record_keeps (fun _ _ _ _ h => h) asset _ _ _ _ _).bind
      fun _ => (announceFlags_keeps (fun _ _ _ _ h => h) (fun _ _ h => h) asset _ _).bind
        fun _ => keeps_pure _
  exact hrest.conseq (fun t ht => ht ▸ hadded) (fun _ _ h => h.1) fun _ _ h => h.1

theorem housed_holding (hs : Housed s)
    (hget : s.store.get? assetId = some asset) (hid : updated.id = asset.id) :
    Housed (s.holding assetId updated) ∧ updated.id < (s.holding assetId updated).nextId := by
  obtain ⟨hlt, hown⟩ := hs.1 assetId asset hget
  exact ⟨⟨houses_set hs.1 hlt (hid.trans hown), hs.2⟩, by rw [hid, hown]; exact hlt⟩

theorem advance_housed (assetId : ℕ) (target : CandidateStatus) (operator : Option String)
    (reason : String) (revocationReason : Option String) :
    Keeps Housed (advance assetId target operator reason revocationReason) := by
  intro s hs
  refine advance_spec (Q := fun _ => Housed) (E := fun _ => Housed) (fun _ => hs)
    (fun _ _ _ => hs) (fun asset updated hget _ hupdated => ?_) s rfl
  have hrest : Keeps (fun t => Housed t ∧ updated.id < t.nextId) (do
      save updated
      record updated asset.status (operatorOr operator) reason
      return updated) :=
    (save_housed updated).bind fun _ =>
      (record_keeps (fun _ _ _ _ h => h) updated _ _ _ _ _).bind fun _ => keeps_pure _
  exact hrest.conseq (fun t ht => ht ▸ housed_holding hs hget (hupdated ▸ rfl))
    (fun _ _ h => h.1) fun _ _ h => h.1

theorem patchMetadata_housed (assetId : ℕ) (updates : Metadata) :
    Keeps Housed (patchMetadata assetId updates) := by
  intro s hs
  refine patchMetadata_spec (Q := fun _ => Housed) (E := fun _ => Housed) (fun _ => hs)
    (fun asset updated hget hupdated => ?_) s rfl
  have hrest : Keeps (fun t => Housed t ∧ updated.id < t.nextId) (do
      save updated
      announceFlags updated (asset.flag "review_required") (asset.flag "quarantine")
      return updated) :=
    (save_housed updated).bind fun _ =>
      (announceFlags_keeps (fun _ _ _ _ h => h) (fun _ _ h => h) updated _ _).bind fun _ =>
        keeps_pure _
  exact hrest.conseq (fun t ht => ht ▸ housed_holding hs hget (hupdated ▸ rfl))
    (fun _ _ h => h.1) fun _ _ h => h.1

theorem event_housed (asset : CandidateAsset) (eventType operator reason : String)
    (details : Json) : Keeps Housed (do
      recordEvent asset eventType operator reason details
      emit
      return asset) :=
  (record_keeps (fun _ _ _ _ h => h) asset _ _ _ _ _).bind fun _ =>
    (emit_keeps fun _ _ h => h).bind fun _ => keeps_pure _

theorem op_housed (loader : SkillLoader) (op : Op) : Keeps Housed (op.body loader) := by
  cases op with
  | ingest name assetType sourceUri tenantId confidence metadata =>
    exact ingest_housed name assetType sourceUri tenantId confidence metadata
  | validate assetId operator reason => exact advance_housed assetId .validated operator reason none
  | promote assetId operator reason =>
    exact (advance_housed assetId .published operator reason none).bind fun asset =>
      (registerPublishedSkill_keeps loader (fun _ _ h => h) asset).bind fun _ => keeps_pure _
  | revoke assetId reason operator =>
    exact advance_housed assetId .revoked operator reason (some reason)
  | patchMetadata assetId updates => exact patchMetadata_housed assetId updates
  | approve assetId operator reason =>
    exact (advance_housed assetId .validated (some operator) reason none).discard.bind fun _ =>
      (patchMetadata_housed assetId cleared).bind fun asset =>
        event_housed asset "approved" operator reason _
  | reject assetId operator reason =>
    exact (advance_housed assetId .revoked (some operator) reason (some reason)).bind fun asset =>
      event_housed asset "rejected" operator reason _

end Housed

section Operations

theorem save_exposed (asset : CandidateAsset) : Keeps (Exposed loader others) (save asset) :=
  save_keeps (fun _ _ _ h => ⟨h.published, h.registered⟩) asset

theorem record_exposed (asset : CandidateAsset) (fromStatus : CandidateStatus)
    (operator reason eventType : String) (details : Json) :
    Keeps (Exposed loader others)
      (record asset fromStatus operator reason eventType details) :=
  record_keeps (fun _ _ _ _ h => ⟨h.published, h.registered⟩) asset fromStatus operator reason
    eventType details

theorem emit_exposed : Keeps (Exposed loader others) emit :=
  emit_keeps fun _ _ h => ⟨h.published, h.registered⟩

theorem announceFlags_exposed (asset : CandidateAsset)
    (priorReviewRequired priorQuarantine : Bool) :
    Keeps (Exposed loader others)
      (announceFlags asset priorReviewRequired priorQuarantine) :=
  announceFlags_keeps (fun _ _ _ _ h => ⟨h.published, h.registered⟩)
    (fun _ _ h => ⟨h.published, h.registered⟩) asset priorReviewRequired priorQuarantine

section

variable (hs : Exposed loader others s)
include hs

theorem ingest_exposed (hhoused : Housed s)
    (name assetType : String) (sourceUri : Option String) (tenantId : String)
    (confidence : ConfidenceLevel) (metadata : Metadata) :
    Triple (fun t => t = s) (ingest name assetType sourceUri tenantId confidence metadata)
      (fun _ => Exposed loader others) fun _ => Exposed loader others := by
  have hnone : s.store.get? s.nextId = none := by
    cases hget : s.store.get? s.nextId with
    | none => rfl
    | some asset => exact absurd (hhoused.1 s.nextId asset hget).1 (Nat.lt_irrefl _)
  refine ingest_spec (exposed_of_same hs rfl rfl) fun asset details _ hstatus => ?_
  have hrest : Keeps (Exposed loader others) (do
      save asset
      recordEvent asset "ingested" "system" "Asset entered the ingestion lifecycle." details
      announceFlags asset false false
      return asset) :=
    (save_exposed asset).bind fun _ => (record_exposed asset _ _ _ _ _).bind fun _ =>
      (announceFlags_exposed asset _ _).bind fun _ => keeps_pure _
  exact hrest.pre fun t ht => ht ▸ exposed_add hs hnone hstatus rfl rfl

theorem advance_exposed (assetId : ℕ)
    (operator : Option String) (reason : String) (revocationReason : Option String)
    (hreplaces : ∀ asset ∈ s.store.get? assetId, target ∈ validTransitions asset.status →
      Replaces loader others s assetId asset (asset.moved target none 0)) :
    Triple (fun t => t = s) (advance assetId target operator reason revocationReason)
      (fun _ t => Exposed loader others t ∧
        ∀ asset ∈ t.store.get? assetId, asset.status = target)
      fun _ => Exposed loader others := by
  refine advance_spec (fun _ => hs) (fun _ _ _ => hs) fun asset updated hget htarget hupdated => ?_
  have hset : Exposed loader others (s.holding assetId updated) := by
    refine exposed_set hs hget ?_ rfl rfl
    rw [hupdated]
    exact hreplaces asset hget htarget
  have hstatus : ∀ asset ∈ (s.holding assetId updated).store.get? assetId,
      asset.status = target := by
    intro other hother
    have hsame : (s.store.set assetId updated).get? assetId = some other := hother
    rw [get?_set, if_pos rfl, some_inj] at hsame
    rw [← hsame, hupdated]
    rfl
  have hrest : Keeps (fun t => Exposed loader others t ∧
      ∀ asset ∈ t.store.get? assetId, asset.status = target) (do
      save updated
      record updated asset.status (operatorOr operator) reason
      return updated) :=
    (save_keeps (fun _ _ _ h => ⟨⟨h.1.published, h.1.registered⟩, h.2⟩) updated).bind fun _ =>
      (record_keeps (fun _ _ _ _ h => ⟨⟨h.1.published, h.1.registered⟩, h.2⟩) updated _ _ _ _
        _).bind fun _ => keeps_pure _
  exact hrest.conseq (fun t ht => ht ▸ ⟨hset, hstatus⟩) (fun _ _ h => h) fun _ _ h => h.1

theorem validate_exposed (assetId : ℕ) (operator : Option String)
    (reason : String) :
    Triple (fun t => t = s) (validate assetId operator reason)
      (fun _ t => Exposed loader others t ∧
        ∀ asset ∈ t.store.get? assetId, asset.status = .validated)
      fun _ => Exposed loader others := by
  refine advance_exposed hs assetId operator reason none fun asset _ htarget => ?_
  refine replaces_of_unpublished (fun hpublished => ?_) (by simp [CandidateAsset.moved])
  rw [hpublished] at htarget
  exact absurd htarget (by decide)

theorem patchMetadata_exposed (assetId : ℕ) (updates : Metadata)
    (hreplaces : ∀ asset ∈ s.store.get? assetId,
      Replaces loader others s assetId asset (asset.patched updates 0)) :
    Triple (fun t => t = s) (patchMetadata assetId updates)
      (fun _ => Exposed loader others) fun _ => Exposed loader others := by
  refine patchMetadata_spec (fun _ => hs) fun asset updated hget hupdated => ?_
  have hset : Exposed loader others (s.holding assetId updated) := by
    refine exposed_set hs hget ?_ rfl rfl
    rw [hupdated]
    exact hreplaces asset hget
  have hrest : Keeps (Exposed loader others) (do
      save updated
      announceFlags updated (asset.flag "review_required") (asset.flag "quarantine")
      return updated) :=
    (save_exposed updated).bind fun _ => (announceFlags_exposed updated _ _).bind fun _ =>
      keeps_pure _
  exact hrest.pre fun t ht => ht ▸ hset

end

theorem event_exposed (asset : CandidateAsset) (eventType operator reason : String)
    (details : Json) : Keeps (Exposed loader others) (do
      recordEvent asset eventType operator reason details
      emit
      return asset) :=
  (record_exposed asset _ _ _ _ _).bind fun _ => emit_exposed.bind fun _ => keeps_pure _

theorem approve_exposed (hs : Exposed loader others s) (assetId : ℕ) (operator reason : String) :
    Triple (fun t => t = s) (approve assetId operator reason)
      (fun _ => Exposed loader others) fun _ => Exposed loader others := by
  refine bind (validate_exposed hs assetId (some operator) reason).discard
    fun _ => ?_
  refine bind (Q := fun _ => Exposed loader others) (fun t ht => ?_)
    fun asset => event_exposed asset "approved" operator reason _
  refine patchMetadata_exposed ht.1 assetId cleared (fun asset hget => ?_) t rfl
  have hstatus : asset.status ≠ .published := by
    rw [ht.2 asset hget]
    decide
  exact replaces_of_unpublished hstatus hstatus

theorem revoke_exposed (hs : Exposed loader others s) (assetId : ℕ) (reason : String)
    (operator : Option String) (hreplaces : ∀ asset ∈ s.store.get? assetId,
      Replaces loader others s assetId asset (asset.moved .revoked none 0)) :
    Triple (fun t => t = s) (revoke assetId reason operator)
      (fun _ => Exposed loader others) fun _ => Exposed loader others :=
  (advance_exposed hs assetId operator reason (some reason) fun asset hget _ =>
    hreplaces asset hget).conseq (fun _ h => h) (fun _ _ h => h.1) fun _ _ h => h

end Operations

section Promotion

theorem writes_spec (updated : CandidateAsset) (fromStatus : CandidateStatus)
    (operator reason : String) :
    Triple (fun t => t = s)
      (do
        save updated
        record updated fromStatus operator reason
        return updated)
      (fun asset t => asset = updated ∧ (t.store = s.store ∧ t.skillRegistry = s.skillRegistry) ∧
        Records s)
      fun _ t => (t.store = s.store ∧ t.skillRegistry = s.skillRegistry) ∧ ¬ Records s := by
  have hsave : Keeps (fun t => t.store = s.store ∧ t.skillRegistry = s.skillRegistry)
      (save updated) := save_keeps (fun _ _ _ h => h) updated
  have hrecord : Keeps (fun t => t.store = s.store ∧ t.skillRegistry = s.skillRegistry)
      (record updated fromStatus operator reason) :=
    record_keeps (fun _ _ _ _ h => h) updated fromStatus operator reason _ _
  refine bind ((hsave.and (save_raises s updated)).conseq
    (fun t ht => ⟨ht ▸ ⟨rfl, rfl⟩, ht⟩) (fun _ _ h => h)
    fun _ _ h => ⟨h.1, fun hrecords => hrecords.1 h.2⟩) fun _ t ht => ?_
  refine (?_ : Triple (fun u => u = t) _ (fun asset u => asset = updated ∧
    (u.store = s.store ∧ u.skillRegistry = s.skillRegistry) ∧ Records s) fun _ u =>
      (u.store = s.store ∧ u.skillRegistry = s.skillRegistry) ∧ ¬ Records s) t rfl
  refine bind ((hrecord.and (record_raises t updated _ _ _ _ _)).conseq
    (fun u hu => ⟨hu ▸ ht.1, hu⟩) (fun _ _ h => h)
    fun _ _ h => ⟨h.1, fun hrecords => hrecords.2 (ht.2.2.mp h.2)⟩) fun _ => ?_
  exact triple_pure fun u hu => ⟨rfl, hu.1, ht.2.1, fun h => hu.2 (ht.2.2.mpr h)⟩

theorem register_run_spec (skill : SkillDefinition) (skills : Dict String SkillDefinition)
    (faults : List Bool) :
    Triple (fun r : SkillRegistry => r.skills = skills ∧ r.lineageFaults = faults)
      (Skills.register skill)
      (fun _ r => r.skills = skills.set skill.name skill ∧ r.lineageFaults = faults.tail)
      fun _ r => r.skills = skills.set skill.name skill ∧ faults.head? = some true := by
  refine bind (Q := fun _ r => r.skills = skills.set skill.name skill ∧
    r.lineageFaults = faults) ?_ fun _ => ?_
  · exact triple_modify fun r hr => ⟨congrArg (·.set skill.name skill) hr.1, hr.2⟩
  · refine bind (Q := fun _ r => r.skills = skills.set skill.name skill ∧
      r.lineageFaults = faults.tail) (fun r hr => ?_) fun _ => ?_
    · rw [Skills.run_recordLineage, hr.2]
      split_ifs with hfault
      · exact ⟨hr.1, hfault⟩
      · exact ⟨hr.1, rfl⟩
    · split_ifs
      · refine triple_modify fun r hr => ?_
        unfold Skills.SkillRegistry.persisted
        split
        · exact hr
        · exact hr
      · exact triple_pure fun _ hr => hr

theorem registerSkill_spec (skill : SkillDefinition) (hregistry : s.skillRegistry = some registry) :
    Triple (fun t => t = s) (registerSkill skill)
      (fun _ t => t.store = s.store ∧ ∃ r, t.skillRegistry = some r ∧
        r.skills = registry.skills.set skill.name skill ∧
          r.lineageFaults = registry.lineageFaults.tail)
      fun _ t => t.store = s.store ∧ (∃ r, t.skillRegistry = some r ∧
        r.skills = registry.skills.set skill.name skill) ∧
          registry.lineageFaults.head? = some true := by
  refine get_bind fun t ht => ?_
  rw [ht, hregistry]
  dsimp only
  have hrun := register_run_spec skill registry.skills registry.lineageFaults registry ⟨rfl, rfl⟩
  cases hr : (Skills.register skill).run registry with
  | ok a r =>
    rw [hr] at hrun
    exact fun _ _ => ⟨rfl, r, rfl, hrun⟩
  | error e r =>
    rw [hr] at hrun
    exact fun _ _ => ⟨rfl, ⟨r, rfl, hrun.1⟩, hrun.2⟩

theorem exposed_of_no_registry (h : s.skillRegistry = none) : Exposed loader others s := by
  refine ⟨fun registry hsome => ?_, fun registry hsome => ?_⟩
  · exact nomatch h.symm.trans hsome
  · exact nomatch h.symm.trans hsome

theorem exposed_registered {id : ℕ} (hs : Exposed loader others s)
    (hget : s.store.get? id = some asset) (hasset : asset.status ≠ .published)
    (hregistry : s.skillRegistry = some registry) (hupdated : Defines loader updated skill)
    (hname : ∀ other, Publishing loader s.store other → other.name = skill.name → other = skill)
    (hstore : t.store = s.store.set id updated) (ht : t.skillRegistry = some r)
    (hr : r.skills = registry.skills.set skill.name skill) : Exposed loader others t := by
  have hbefore {other : SkillDefinition} : Publishing loader s.store other →
      Publishing loader (s.store.erase id) other := fun h =>
    ((publishing_of_get? hget).mp h).resolve_left fun h => hasset h.1
  refine ⟨fun r' hr' name other hserved => ?_, fun r' hr' other hother => ?_⟩
  · obtain rfl : r = r' := some.inj (ht.symm.trans hr')
    rw [hr, get?_set] at hserved
    rw [hstore, publishing_set]
    split_ifs at hserved with hnew
    · exact .inr (.inl (some.inj hserved ▸ hupdated))
    · exact (hs.published registry hregistry name other hserved).imp_right
        fun h => .inr (hbefore h)
  · obtain rfl : r = r' := some.inj (ht.symm.trans hr')
    rw [hr, get?_set]
    rw [hstore, publishing_set] at hother
    rcases hother with hdefines | hrest
    · obtain rfl := some.inj (hupdated.2.symm.trans hdefines.2)
      rw [if_pos rfl]
    · have hpublishing := (publishing_of_get? hget).mpr (.inr hrest)
      split_ifs with hsame
      · rw [hname other hpublishing hsame]
      · exact hs.registered registry hregistry other hpublishing

theorem promote_exposed (hs : Exposed loader others s) (assetId : ℕ) (operator : Option String)
    (reason : String) (hfollows : ∀ asset ∈ s.store.get? assetId, asset.status = .validated →
      ∀ skill, asset.definition? loader = some skill → ∀ registry ∈ s.skillRegistry,
        if Records s then ∀ other, Publishing loader s.store other →
          other.name = skill.name → other = skill
        else registry.skills.get? skill.name = some skill) :
    Triple (fun t => t = s) (promote loader assetId operator reason)
      (fun _ => Exposed loader others) fun _ => Exposed loader others := by
  refine bind (Q := fun updated t => ∃ asset, s.store.get? assetId = some asset ∧
    asset.status = .validated ∧ updated.status = .published ∧
    skillDefinition loader updated = skillDefinition loader asset ∧
    t.store = s.store.set assetId updated ∧ t.skillRegistry = s.skillRegistry ∧ Records s) ?_
    fun updated => ?_
  · refine advance_spec (fun _ => hs) (fun _ _ _ => hs)
      fun asset updated hget htarget hupdated => ?_
    have hvalidated := eq_validated_of_published htarget
    have hdefinition : updated.definition? loader = asset.definition? loader := by
      rw [hupdated]
      rfl
    have hraised (t : IngestionService) (hstore : t.store = s.store.set assetId updated)
        (hregistry : t.skillRegistry = s.skillRegistry) (hnot : ¬ Records s) :
        Exposed loader others t := by
      refine exposed_set hs hget (fun _ => ⟨fun skill h => ?_, fun skill h registry hsome => ?_⟩)
        hstore hregistry
      · exact nomatch hvalidated.symm.trans h.1
      · have h := hfollows asset hget hvalidated skill (hdefinition ▸ h.2) registry hsome
        rwa [if_neg hnot] at h
    refine (writes_spec updated _ _ _).conseq (fun _ h => h) (fun other t h => ?_) fun _ t h => ?_
    · obtain ⟨rfl, ⟨hstore, hregistry⟩, hrecords⟩ := h
      exact ⟨asset, hget, hvalidated, hupdated ▸ rfl, hupdated ▸ rfl, hstore, hregistry, hrecords⟩
    · exact hraised t h.1.1 h.1.2 h.2
  · intro t ht
    obtain ⟨asset, hget, hvalidated, hpublished, hdefinition, hstore, hregistry, hrecords⟩ := ht
    have hasset : asset.status ≠ .published := by
      rw [hvalidated]
      decide
    have hplain (hnone : updated.definition? loader = none) : Exposed loader others t := by
      refine exposed_set hs hget (fun _ => ⟨fun skill h => absurd h.1 hasset, fun skill h => ?_⟩)
        hstore hregistry
      exact nomatch hnone.symm.trans h.2
    refine (?_ : Triple (fun u => u = t) _ (fun _ => Exposed loader others)
      fun _ => Exposed loader others) t rfl
    refine bind (Q := fun _ => Exposed loader others) ?_ fun _ =>
      triple_pure fun _ h => h
    unfold registerPublishedSkill
    cases hskill : skillDefinition loader updated with
    | ok definition =>
      have hdefined : updated.definition? loader = definition := by
        rw [CandidateAsset.definition?, hskill]
      cases definition with
      | none => exact fun u hu => hu ▸ hplain hdefined
      | some skill =>
        cases hsome : s.skillRegistry with
        | none =>
          have hnone : t.skillRegistry = none := hregistry.trans hsome
          refine get_bind fun u hu => ?_
          rw [hu, hnone]
          refine triple_pure fun v hv => ?_
          rw [hv]
          exact exposed_of_no_registry hnone
        | some registry =>
          have hdefines : Defines loader updated skill := ⟨hpublished, hdefined⟩
          have hname := hfollows asset hget hvalidated skill
            (by rw [CandidateAsset.definition?, ← hdefinition, hskill]) registry hsome
          rw [if_pos hrecords] at hname
          have hregistered (u : IngestionService) (hu : u.store = t.store) (r : SkillRegistry)
              (hr : u.skillRegistry = some r)
              (hskills : r.skills = registry.skills.set skill.name skill) :
              Exposed loader others u :=
            exposed_registered hs hget hasset hsome hdefines hname (hu.trans hstore) hr hskills
          refine (registerSkill_spec skill (hregistry.trans hsome)).conseq (fun _ h => h)
            (fun _ u h => ?_) fun _ u h => ?_
          · obtain ⟨hu, r, hr, hskills, -⟩ := h
            exact hregistered u hu r hr hskills
          · obtain ⟨hu, ⟨r, hr, hskills⟩, -⟩ := h
            exact hregistered u hu r hr hskills
    | error error =>
      have hnone : updated.definition? loader = none := by rw [CandidateAsset.definition?, hskill]
      cases error with
      | value => exact fun u hu => hu ▸ hplain hnone
      | other =>
        refine get_bind fun u hu => ?_
        split_ifs
        · exact fun v hv => hv ▸ hu ▸ hplain hnone
        · exact fun v hv => hv ▸ hu ▸ hplain hnone

end Promotion

section Restart

variable {paths : List String}
  {s : IngestionService}

variable {registry : SkillRegistry}

theorem mem_loaded {asset : CandidateAsset} :
    asset ∈ loaded rows ↔ ∃ id, rows.get? id = some asset := by
  have hall : asset.status ∈ CandidateStatus.all := by cases asset.status <;> decide
  simp only [loaded, loadByStatus, mem_flatMap, mem_insertionSort, List.mem_filter,
    mem_values, decide_eq_true_iff]
  constructor
  · intro h
    obtain ⟨-, -, hget, -⟩ := h
    exact hget
  · intro h
    exact ⟨asset.status, hall, h, rfl⟩

def registerAll (skills : Dict String SkillDefinition) (definitions : List SkillDefinition) :
    Dict String SkillDefinition :=
  (definitions.map fun skill => (skill.name, skill)).foldl
    (fun skills entry => skills.set entry.1 entry.2) skills

def putAll (store : Dict ℕ CandidateAsset) (assets : List CandidateAsset) : Dict ℕ CandidateAsset :=
  (assets.map fun asset => (asset.id, asset)).foldl
    (fun store entry => store.set entry.1 entry.2) store

def Holding (store : Dict ℕ CandidateAsset) (skills : Dict String SkillDefinition)
    (faults : List Bool) (s : IngestionService) : Prop :=
  s.store = store ∧ ∃ registry, s.skillRegistry = some registry ∧ registry.skills = skills ∧
    registry.lineageFaults = faults

theorem registerPublishedSkill_spec (store : Dict ℕ CandidateAsset)
    (skills : Dict String SkillDefinition) (faults : List Bool) (asset : CandidateAsset)
    (hloads : skillDefinition loader asset ≠ .error .other)
    (hfaults : ∀ fault ∈ faults.take (asset.definition? loader).toList.length, fault = false) :
    Triple (Holding store skills faults) (registerPublishedSkill loader asset)
      (fun _ => Holding store (registerAll skills (asset.definition? loader).toList)
        (faults.drop (asset.definition? loader).toList.length)) fun _ _ => False := by
  unfold registerPublishedSkill
  unfold CandidateAsset.definition? at hfaults ⊢
  cases hskill : skillDefinition loader asset with
  | error error =>
    cases error with
    | value => exact triple_pure fun _ h => h
    | other => exact absurd hskill hloads
  | ok definition =>
    cases definition with
    | none => exact triple_pure fun _ h => h
    | some skill =>
      intro t ht
      obtain ⟨hstore, registry, hregistry, hskills, hlineage⟩ := ht
      refine (registerSkill_spec skill hregistry).conseq (fun _ h => h) (fun _ u h => ?_)
        (fun _ u h => ?_) t rfl
      · obtain ⟨hu, r, hr, hset, htail⟩ := h
        refine ⟨hu.trans hstore, r, hr, ?_, ?_⟩
        · rw [hset, hskills]
          rfl
        · rw [htail, hlineage]
          cases faults <;> rfl
      · have hhead := h.2
        rw [hlineage] at hhead
        rw [hskill] at hfaults
        cases faults with
        | nil => exact nomatch hhead
        | cons fault faults =>
          have hfalse := hfaults fault mem_cons_self
          rw [head?_cons, hfalse] at hhead
          exact nomatch hhead

theorem hydrate_spec (assets : List CandidateAsset) (store : Dict ℕ CandidateAsset)
    (skills : Dict String SkillDefinition) (faults : List Bool)
    (hloads : ∀ asset ∈ assets, skillDefinition loader asset ≠ .error .other)
    (hfaults : ∀ fault ∈ faults.take
      (assets.filterMap (CandidateAsset.definition? loader)).length, fault = false) :
    Triple (Holding store skills faults) (hydrate loader assets)
      (fun _ t => ∃ faults, Holding (putAll store assets)
        (registerAll skills (assets.filterMap (CandidateAsset.definition? loader))) faults t)
      fun _ _ => False := by
  induction assets generalizing store skills faults with
  | nil => exact triple_pure fun t ht => ⟨faults, ht⟩
  | cons asset assets ih =>
    have hsplit : (asset :: assets).filterMap (CandidateAsset.definition? loader) =
        (asset.definition? loader).toList ++
          assets.filterMap (CandidateAsset.definition? loader) := by
      cases hdefinition : asset.definition? loader with
      | none => exact filterMap_cons_none hdefinition
      | some skill => exact filterMap_cons_some hdefinition
    rw [hsplit, length_append, take_add] at hfaults
    refine bind (Q := fun _ => Holding (store.set asset.id asset) skills faults)
      (triple_modify fun t ht => ⟨congrArg (·.set asset.id asset) ht.1, ht.2⟩) fun _ => ?_
    refine bind (registerPublishedSkill_spec _ skills faults asset
      (hloads asset mem_cons_self)
      fun fault hfault => hfaults fault (mem_append_left _ hfault)) fun _ => ?_
    have hrest := ih (store.set asset.id asset)
      (registerAll skills (asset.definition? loader).toList)
      (faults.drop (asset.definition? loader).toList.length)
      (fun other hother => hloads other (mem_cons_of_mem asset hother))
      fun fault hfault => hfaults fault (mem_append_right _ hfault)
    refine hrest.conseq (fun _ h => h) (fun _ t h => ?_) fun _ _ h => h
    obtain ⟨rest, hholding⟩ := h
    refine ⟨rest, ?_⟩
    rw [hsplit]
    simpa [registerAll, putAll, foldl_append] using hholding

theorem get?_putAll_loaded (h : Houses rows nextId) (id : ℕ) :
    (putAll empty (loaded rows)).get? id = rows.get? id := by
  have hmem {asset : CandidateAsset} :
      (id, asset) ∈ (loaded rows).map (fun asset => (asset.id, asset)) ↔
        rows.get? id = some asset := by
    constructor
    · intro hasset
      obtain ⟨found, hfound, heq⟩ := List.mem_map.mp hasset
      obtain ⟨rfl, rfl⟩ := Prod.mk.inj heq
      obtain ⟨other, hother⟩ := mem_loaded.mp hfound
      exact (h other found hother).2 ▸ hother
    · intro hget
      exact List.mem_map.mpr ⟨asset, mem_loaded.mpr ⟨id, hget⟩, by rw [(h id asset hget).2]⟩
  cases hget : rows.get? id with
  | none =>
    cases hput : (putAll empty (loaded rows)).get? id with
    | none => rfl
    | some asset =>
      rcases mem_or_get?_of_foldl_set hput with hasset | hempty
      · exact nomatch hget.symm.trans (hmem.mp hasset)
      · exact nomatch hempty
  | some asset =>
    refine get?_foldl_set_of_unique (.inl (hmem.mpr hget)) fun other hother => ?_
    exact some.inj ((hmem.mp hother).symm.trans hget)

theorem fresh_from (h : (registry.fresh directories paths).skills.get? name = some skill) :
    skill ∈ (Skills.fileSkills directories paths).map Subtype.val ∨
      skill ∈ registry.stateStore.getD [] := by
  rw [Skills.fresh_skills, Skills.get?_shadow, or_eq_some_iff] at h
  rcases h with hfile | ⟨-, hsaved⟩
  · obtain ⟨file, hfound, rfl⟩ := map_eq_some_iff.mp hfile
    exact .inl (List.mem_map_of_mem (mem_reverse.mp (mem_of_find?_eq_some hfound)))
  · obtain ⟨saved, hmem, heq⟩ := List.mem_map.mp (mem_of_get?_ofList hsaved)
    exact .inr ((Prod.mk.inj heq).2 ▸ hmem)

theorem exposed_hydrated (hfiles : ∀ file ∈ Skills.fileSkills directories paths, file.val ∈ others)
    (hrows : Houses rows nextId)
    (hhydrates : Hydrates loader directories paths others registry rows)
    (ht : Holding (putAll empty (loaded rows))
      (registerAll (registry.fresh directories paths).skills
        ((loaded rows).filterMap (CandidateAsset.definition? loader))) faults t) :
    Exposed loader others t := by
  obtain ⟨hstore, r, hr, hskills, -⟩ := ht
  have hpublishing {skill : SkillDefinition} :
      Publishing loader t.store skill ↔ Publishing loader rows skill := by
    rw [hstore]
    exact publishing_congr (get?_putAll_loaded hrows)
  have hdefined {name : String} {skill : SkillDefinition}
      (h : (name, skill) ∈ ((loaded rows).filterMap (CandidateAsset.definition? loader)).map
        fun skill => (skill.name, skill)) : skill.name = name ∧ Publishing loader rows skill := by
    obtain ⟨found, hfound, heq⟩ := List.mem_map.mp h
    obtain ⟨rfl, rfl⟩ := Prod.mk.inj heq
    obtain ⟨asset, hasset, hdefinition⟩ := mem_filterMap.mp hfound
    obtain ⟨id, hget⟩ := mem_loaded.mp hasset
    exact ⟨rfl, hhydrates.defined id asset hget found hdefinition⟩
  refine ⟨fun r' hr' name skill hserved => ?_, fun r' hr' skill hskill => ?_⟩
  · obtain rfl : r = r' := some.inj (hr.symm.trans hr')
    rw [hskills] at hserved
    rw [hpublishing]
    rcases mem_or_get?_of_foldl_set hserved with hmem | hfresh
    · exact .inr (hdefined hmem).2
    · rcases fresh_from hfresh with hfile | hsaved
      · obtain ⟨file, hfound, rfl⟩ := List.mem_map.mp hfile
        exact .inl (hfiles file hfound)
      · exact hhydrates.saved skill hsaved
  · obtain rfl : r = r' := some.inj (hr.symm.trans hr')
    rw [hpublishing] at hskill
    rw [hskills]
    refine get?_foldl_set_of_unique (.inl ?_) fun other hother => ?_
    · obtain ⟨id, asset, hget, hdefines⟩ := hskill
      exact List.mem_map_of_mem (mem_filterMap.mpr
        ⟨asset, mem_loaded.mpr ⟨id, hget⟩, hdefines.2⟩)
    · obtain ⟨hname, hpublished⟩ := hdefined hother
      exact hhydrates.named other skill hpublished hskill hname

theorem hydrate_housed (assets : List CandidateAsset) (nextId : ℕ)
    (hids : ∀ asset ∈ assets, asset.id < nextId) :
    Keeps (fun t => Housed t ∧ t.nextId = nextId) (hydrate loader assets) := by
  induction assets with
  | nil => exact keeps_pure _
  | cons asset assets ih =>
    refine Keeps.bind (keeps_modify fun t ht => ?_) fun _ => ?_
    · have hlt : asset.id < t.nextId := ht.2 ▸ hids asset mem_cons_self
      exact ⟨⟨houses_set ht.1.1 hlt rfl, ht.1.2⟩, ht.2⟩
    · exact (registerPublishedSkill_keeps loader (fun _ _ h => h) asset).bind fun _ =>
        ih fun other hother => hids other (mem_cons_of_mem asset hother)

theorem houses_empty (nextId : ℕ) : Houses empty nextId := by
  intro id asset hget
  rw [get?_empty] at hget
  exact nomatch hget

theorem restart_housed : Keeps Housed (restart loader directories paths) := by
  refine Keeps.bind (keeps_modify fun t ht => ⟨houses_empty t.nextId, ht.2⟩)
    fun _ => ?_
  refine get_bind fun t ht => ?_
  cases hrows : t.persistence with
  | none => exact triple_pure fun u hu => hu ▸ ht
  | some rows =>
    refine (hydrate_housed (loaded rows) t.nextId fun asset hasset => ?_).conseq
      (fun u hu => by rw [hu]; exact ⟨ht, rfl⟩) (fun _ _ h => h.1) fun _ _ h => h.1
    obtain ⟨id, hget⟩ := mem_loaded.mp hasset
    obtain ⟨hlt, hid⟩ := ht.2 rows hrows id asset hget
    exact hid ▸ hlt

theorem hydrate_no_registry (assets : List CandidateAsset) :
    Keeps (fun t => t.skillRegistry = none) (hydrate loader assets) := by
  have hregister (asset : CandidateAsset) :
      Keeps (fun t => t.skillRegistry = none) (registerPublishedSkill loader asset) := by
    unfold registerPublishedSkill
    split
    · refine get_bind fun t ht => ?_
      rw [ht]
      exact triple_pure fun u hu => hu ▸ ht
    · exact keeps_pure _
    · exact keeps_pure _
    · refine get_bind fun t ht => ?_
      rw [ht]
      exact triple_pure fun u hu => hu ▸ ht
  induction assets with
  | nil => exact keeps_pure _
  | cons asset assets ih =>
    exact Keeps.bind (keeps_modify fun _ h => h) fun _ =>
      (hregister asset).bind fun _ => ih

theorem restart_exposed (hhoused : Housed s)
    (hfiles : ∀ file ∈ Skills.fileSkills directories paths, file.val ∈ others)
    (hhydrates : ∀ registry ∈ s.skillRegistry, Hydrates loader directories paths others registry
      (s.persistence.getD empty)) :
    Triple (fun t => t = s) (restart loader directories paths)
      (fun _ => Exposed loader others) fun _ => Exposed loader others := by
  cases hregistry : s.skillRegistry with
  | none =>
    refine bind (Q := fun _ t => t.skillRegistry = none) ?_ fun _ => ?_
    · exact triple_modify fun t ht => by rw [ht, hregistry]; rfl
    · refine get_bind fun t ht => ?_
      cases t.persistence with
      | none => exact triple_pure fun u hu => exposed_of_no_registry (hu ▸ ht)
      | some rows =>
        exact (hydrate_no_registry (loaded rows)).conseq (fun u hu => hu ▸ ht)
          (fun _ _ h => exposed_of_no_registry h) fun _ _ h => exposed_of_no_registry h
  | some registry =>
    have hhydrates := hhydrates registry hregistry
    refine bind (Q := fun _ t => t.persistence = s.persistence ∧
      Holding empty (registry.fresh directories paths).skills
        (registry.fresh directories paths).lineageFaults t) ?_ fun _ => ?_
    · refine triple_modify fun t ht => ?_
      rw [ht, hregistry]
      exact ⟨rfl, rfl, registry.fresh directories paths, rfl, rfl, rfl⟩
    · refine get_bind fun t ht => ?_
      rw [ht.1]
      cases hrows : s.persistence with
      | none =>
        rw [hrows] at hhydrates
        refine triple_pure fun u hu => ?_
        rw [hu]
        exact exposed_hydrated hfiles (houses_empty 0) hhydrates ht.2
      | some rows =>
        rw [hrows] at hhydrates
        refine (hydrate_spec (loaded rows) _ _ _ (fun asset hasset => ?_)
          hhydrates.records).conseq (fun u hu => hu ▸ ht.2) (fun _ u h => ?_) fun _ _ h => h.elim
        · obtain ⟨id, hget⟩ := mem_loaded.mp hasset
          exact hhydrates.loads id asset hget
        · obtain ⟨faults, hholding⟩ := h
          exact exposed_hydrated hfiles (hhoused.2 rows hrows) hhydrates hholding

end Restart

section Runs

variable {paths : List String}


theorem op_exposed (hs : Exposed loader others s) (hhoused : Housed s)
    (hfollows : Follows loader directories paths others s (.operation op)) :
    Triple (fun t => t = s) (op.body loader) (fun _ => Exposed loader others)
      fun _ => Exposed loader others := by
  cases op with
  | ingest name assetType sourceUri tenantId confidence metadata =>
    exact ingest_exposed hs hhoused name assetType sourceUri tenantId confidence metadata
  | validate assetId operator reason =>
    exact (validate_exposed hs assetId operator reason).conseq (fun _ h => h) (fun _ _ h => h.1)
      fun _ _ h => h
  | promote assetId operator reason => exact promote_exposed hs assetId operator reason hfollows
  | revoke assetId reason operator => exact revoke_exposed hs assetId reason operator hfollows
  | patchMetadata assetId updates => exact patchMetadata_exposed hs assetId updates hfollows
  | approve assetId operator reason => exact approve_exposed hs assetId operator reason
  | reject assetId operator reason =>
    exact bind (revoke_exposed hs assetId reason (some operator) hfollows)
      fun asset => event_exposed asset "rejected" operator reason _

theorem event_next (hs : Exposed loader others s) (hhoused : Housed s)
    (hfiles : ∀ file ∈ Skills.fileSkills directories paths, file.val ∈ others)
    (hfollows : Follows loader directories paths others s event) :
    Housed (History.next (Event.body loader directories paths) s event) ∧
      Exposed loader others (History.next (Event.body loader directories paths) s event) := by
  constructor
  · refine History.next_of_triple (P := Housed) (Event.body loader directories paths) ?_ hhoused
    cases event with
    | operation op => exact (op_housed loader op).discard
    | restart => exact restart_housed
  · refine History.next_of_triple (P := fun t => t = s) (Event.body loader directories paths) ?_ rfl
    cases event with
    | operation op => exact (op_exposed hs hhoused hfollows).discard
    | restart => exact restart_exposed hhoused hfiles hfollows

theorem exposed_opened (service : IngestionService) :
    Exposed loader (elsewhere directories paths service) service.opened := by
  refine ⟨fun registry hregistry name skill hserved => .inl ?_, fun _ _ skill hskill => ?_⟩
  · have hsome : service.skillRegistry = some registry := hregistry
    rw [elsewhere, hsome]
    exact mem_append_left _ (mem_append_left _
      ((mem_values _ _).mpr ⟨name, hserved⟩))
  · obtain ⟨id, asset, hget, -⟩ := hskill
    exact absurd hget (by rw [IngestionService.opened, get?_empty]; exact nofun)

end Runs

/-- In a run whose promotions, revocations, patches and restarts leave no skill of an asset
that is not published, and none of a published one out, the registry serves the skills of
the published assets and what it has from elsewhere. -/
theorem run_exposed (loader : SkillLoader) (directories : Directories) (paths : List String)
    (service : IngestionService) (events : List Event)
    (h : History.Along (History.next (Event.body loader directories paths))
      (Follows loader directories paths (elsewhere directories paths service)) service.opened
      events) :
    History.Along (History.next (Event.body loader directories paths))
      (fun s event => Exposed loader (elsewhere directories paths service)
        (History.next (Event.body loader directories paths) s event)) service.opened events := by
  have hfiles : ∀ file ∈ Skills.fileSkills directories paths,
      file.val ∈ elsewhere directories paths service :=
    fun file hfile => mem_append_right _ (List.mem_map_of_mem hfile)
  refine History.Along.imp (I := fun s => Housed s ∧
    Exposed loader (elsewhere directories paths service) s) ?_ ?_
    ⟨⟨houses_empty _, fun rows hrows => ?_⟩, exposed_opened service⟩ h h
  · exact fun s event hs hfollows _ => event_next hs.2 hs.1 hfiles hfollows
  · exact fun s event hs hfollows _ => (event_next hs.2 hs.1 hfiles hfollows).2
  · obtain ⟨-, -, rfl⟩ := map_eq_some_iff.mp hrows
    exact houses_empty _

/-! A skill that is published, and then revoked. -/

def triageLoader : SkillLoader :=
  { noSkills with
    fromSourceUri := fun _ => .ok (some { name := "triage", basePath := some "skills" }) }

def triageService : IngestionService where
  skillRegistry := some {}

def triageEvents : List Event :=
  [.operation (.ingest "triage" "skill" (some "skills/triage.yaml") "t1" .low Dict.empty),
    .operation (.validate 0 (some "ops") "checked"), .operation (.promote 0 (some "ops") "good")]

theorem not_publishing {loader : SkillLoader}
    (h : ∀ entry ∈ assets.entries, entry.2.status ≠ .published) (skill : SkillDefinition) :
    ¬ Publishing loader assets skill := by
  intro hskill
  obtain ⟨id, asset, hget, hdefines⟩ := hskill
  exact h (id, asset) ((mem_entries assets id asset).mpr hget) hdefines.1

theorem published_exposed :
    History.Along (History.next (Event.body triageLoader (fun _ => none) []))
      (fun s event => Exposed triageLoader (elsewhere (fun _ => none) [] triageService)
        (History.next (Event.body triageLoader (fun _ => none) []) s event))
      triageService.opened triageEvents := by
  apply run_exposed triageLoader (fun _ => none) [] triageService triageEvents
  refine ⟨trivial, trivial, fun asset _ _ skill _ registry _ => ?_, trivial⟩
  rw [if_pos (by decide)]
  exact fun other hother => absurd hother (not_publishing (by decide) other)

/-- The revocation leaves the skill in the registry. -/
theorem revoked_not_exposed :
    ¬ History.Along (History.next (Event.body triageLoader (fun _ => none) []))
      (fun s event => Exposed triageLoader (elsewhere (fun _ => none) [] triageService)
        (History.next (Event.body triageLoader (fun _ => none) []) s event))
      triageService.opened (triageEvents ++ [.operation (.revoke 0 "stolen" (some "ops"))]) := by
  intro h
  have hexposed := h.2.2.2.1
  rcases hexposed.published _ rfl "triage" _ rfl with hother | hpublishing
  · exact nomatch hother
  · exact not_publishing (by decide) _ hpublishing

end Agent33.Ingestion
