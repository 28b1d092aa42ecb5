import Agent33.Ingestion.Service

/-!
# What the operations on assets change

Writes of the database, the journal and the registry leave the store of the assets alone.
An operation that is not refused goes on from the store with its asset.
-/

namespace Agent33.Ingestion

open Library Library.Hoare Triple
open Skills (SkillDefinition SkillRegistry)

section Keeps

theorem save_keeps (h : ∀ s persistence saves, I s → I { s with persistence, saves })
    (asset : CandidateAsset) : Keeps I (save asset) := by
  refine get_bind fun s hs => ?_
  cases hrows : s.persistence with
  | none => exact triple_pure fun _ heq => heq ▸ hs
  | some rows =>
    have hsaves (persistence : Option (Dict ℕ CandidateAsset)) :
        I { s with persistence, saves := s.saves.tail } := h s persistence s.saves.tail hs
    cases s.saves.headD .written with
    | written => exact fun _ _ => hsaves _
    | skipped => exact fun _ _ => hsaves _
    | raises => exact fun _ _ => hsaves _

theorem record_keeps
    (h : ∀ s journal times journalWrites, I s → I { s with journal, times, journalWrites })
    (asset : CandidateAsset) (fromStatus : CandidateStatus) (operator reason eventType : String)
    (details : Json) :
    Keeps I (record asset fromStatus operator reason eventType details) := by
  refine get_bind fun s hs => ?_
  cases s.journal with
  | none => exact triple_pure fun _ heq => heq ▸ hs
  | some journal =>
    refine bind (Q := fun _ => I) (fun t heq => ?_) fun time => ?_
    · exact heq ▸ h s s.journal s.times.tail s.journalWrites hs
    · refine get_bind fun t ht => ?_
      have hwrites (journal : Option Journal) :
          I { t with journal, journalWrites := t.journalWrites.tail } :=
        h t journal t.times t.journalWrites.tail ht
      cases t.journalWrites.headD .written with
      | written => exact fun _ _ => hwrites _
      | skipped => exact fun _ _ => hwrites _
      | raises => exact fun _ _ => hwrites t.journal

theorem emit_keeps (h : ∀ s notificationFaults, I s → I { s with notificationFaults }) :
    Keeps I emit := by
  refine get_bind fun s hs => ?_
  refine bind (Q := fun _ => I) (fun _ _ => h s _ hs) fun _ => ?_
  split_ifs
  · exact keeps_throw _
  · exact keeps_pure _

theorem registerSkill_keeps (h : ∀ s skillRegistry, I s → I { s with skillRegistry })
    (skill : SkillDefinition) : Keeps I (registerSkill skill) := by
  refine get_bind fun s hs => ?_
  cases s.skillRegistry with
  | none => exact triple_pure fun _ heq => heq ▸ hs
  | some registry =>
    dsimp only
    cases (Skills.register skill).run registry with
    | ok a registry => exact fun _ _ => h s (some registry) hs
    | error e registry => exact fun _ _ => h s (some registry) hs

theorem registerPublishedSkill_keeps (loader : SkillLoader)
    (h : ∀ s skillRegistry, I s → I { s with skillRegistry }) (asset : CandidateAsset) :
    Keeps I (registerPublishedSkill loader asset) := by
  unfold registerPublishedSkill
  split
  · exact registerSkill_keeps h _
  · exact keeps_pure _
  · exact keeps_pure _
  · refine keeps_get.bind fun s => ?_
    split_ifs
    · exact keeps_throw _
    · exact keeps_pure _

theorem announceFlags_keeps
    (hrecord : ∀ s journal times journalWrites, I s → I { s with journal, times, journalWrites })
    (hemit : ∀ s notificationFaults, I s → I { s with notificationFaults })
    (asset : CandidateAsset) (priorReviewRequired priorQuarantine : Bool) :
    Keeps I (announceFlags asset priorReviewRequired priorQuarantine) := by
  have hannounce (key eventType reason : String) (prior : Bool) :
      Keeps I (announce asset key eventType reason prior) := by
    unfold announce
    split_ifs
    · exact (record_keeps hrecord asset asset.status _ _ _ _).bind fun _ => emit_keeps hemit
    · exact keeps_pure _
  exact (hannounce _ _ _ _).bind fun _ => hannounce _ _ _ _

end Keeps

variable (s : IngestionService)

def IngestionService.SaveRaises : Prop :=
  s.persistence.isSome ∧ s.saves.head? = some .raises

def IngestionService.JournalRaises : Prop :=
  s.journal.isSome ∧ s.journalWrites.head? = some .raises

def Records : Prop := ¬ s.SaveRaises ∧ ¬ s.JournalRaises

instance (s : IngestionService) : Decidable s.SaveRaises := inferInstanceAs (Decidable (_ ∧ _))

instance (s : IngestionService) : Decidable s.JournalRaises := inferInstanceAs (Decidable (_ ∧ _))

instance (s : IngestionService) : Decidable (Records s) := inferInstanceAs (Decidable (_ ∧ _))

theorem save_raises (asset : CandidateAsset) :
    Triple (fun t => t = s) (save asset)
      (fun _ t => ¬ s.SaveRaises ∧ (t.JournalRaises ↔ s.JournalRaises))
      fun _ _ => s.SaveRaises := by
  intro t ht
  rw [ht]
  obtain ⟨store, _ | rows, journal, registry, nextId, times, saves, writes, faults⟩ := s
  · exact ⟨fun h => (nomatch h.1), Iff.rfl⟩
  · rcases saves with _ | ⟨_ | _ | _, saves⟩
    · exact ⟨fun h => (nomatch h.2), Iff.rfl⟩
    · exact ⟨fun h => (nomatch h.2), Iff.rfl⟩
    · exact ⟨fun h => (nomatch h.2), Iff.rfl⟩
    · exact ⟨rfl, rfl⟩

theorem record_raises (asset : CandidateAsset)
    (fromStatus : CandidateStatus) (operator reason eventType : String) (details : Json) :
    Triple (fun t => t = s) (record asset fromStatus operator reason eventType details)
      (fun _ _ => ¬ s.JournalRaises) fun _ _ => s.JournalRaises := by
  intro t ht
  rw [ht]
  obtain ⟨store, rows, _ | journal, registry, nextId, times, saves, writes, faults⟩ := s
  · exact fun h => nomatch h.1
  · rcases writes with _ | ⟨_ | _ | _, writes⟩
    · exact fun h => nomatch h.2
    · exact fun h => nomatch h.2
    · exact fun h => nomatch h.2
    · exact ⟨rfl, rfl⟩

section Assets

variable {s : IngestionService}


def IngestionService.holding (assetId : ℕ) (asset : CandidateAsset) : IngestionService :=
  { s with store := s.store.set assetId asset, times := s.times.tail }

def IngestionService.adding (asset : CandidateAsset) : IngestionService :=
  { s with
    store := s.store.set s.nextId asset
    times := s.times.tail
    nextId := s.nextId + 1 }

theorem ingest_spec {name assetType : String} {sourceUri : Option String} {tenantId : String}
    {confidence : ConfidenceLevel} {metadata : Metadata}
    (hinvalid : E .validation { s with times := s.times.tail, nextId := s.nextId + 1 })
    (hadded : ∀ asset details, asset.id = s.nextId → asset.status = .candidate →
      Triple (fun t => t = s.adding asset)
        (do
          save asset
          recordEvent asset "ingested" "system" "Asset entered the ingestion lifecycle." details
          announceFlags asset false false
          return asset) Q E) :
    Triple (fun t => t = s)
      (ingest name assetType sourceUri tenantId confidence metadata) Q E := by
  refine bind (Q := fun _ t => t = { s with times := s.times.tail })
    (fun t ht => by rw [ht]; rfl) fun time => ?_
  refine bind
    (Q := fun id t => t = { s with times := s.times.tail, nextId := s.nextId + 1 } ∧ id = s.nextId)
    (fun t ht => by rw [ht]; exact ⟨rfl, rfl⟩) fun id => of_fact fun hid => ?_
  split_ifs with hname
  · intro t ht
    rw [ht, hid]
    exact hadded _ _ rfl rfl _ rfl
  · exact fun t ht => ht ▸ hinvalid

theorem require_spec (hmissing : s.store.get? assetId = none → E (.keyError (toString assetId)) s)
    (hfound : ∀ asset, s.store.get? assetId = some asset →
      Triple (fun t => t = s) (f asset) Q E) :
    Triple (fun t => t = s) (require assetId >>= f) Q E := by
  refine bind (Q := fun asset t => t = s ∧ s.store.get? assetId = some asset)
    (get_bind fun t ht => ?_) fun asset => of_fact (hfound asset)
  rw [ht]
  cases hget : s.store.get? assetId with
  | none => exact fun t ht => ht ▸ hmissing hget
  | some asset => exact fun t ht => ⟨ht, rfl⟩

theorem advance_spec (hmissing : s.store.get? assetId = none → E (.keyError (toString assetId)) s)
    (hrefused : ∀ asset, s.store.get? assetId = some asset →
      target ∉ validTransitions asset.status → E (.transition asset.status target) s)
    (hmoved : ∀ asset updated, s.store.get? assetId = some asset →
      target ∈ validTransitions asset.status →
      updated = asset.moved target revocationReason (s.times.headD 0) →
      Triple (fun t => t = s.holding assetId updated)
        (do
          save updated
          record updated asset.status (operatorOr operator) reason
          return updated) Q E) :
    Triple (fun t => t = s) (advance assetId target operator reason revocationReason)
      Q E := by
  refine require_spec hmissing fun asset hget => ?_
  unfold transition
  split_ifs with htarget
  · intro t ht
    rw [ht]
    exact hmoved asset _ hget htarget rfl _ rfl
  · exact fun t ht => ht ▸ hrefused asset hget htarget

theorem patchMetadata_spec
    (hmissing : s.store.get? assetId = none → E (.keyError (toString assetId)) s)
    (hpatched : ∀ asset updated, s.store.get? assetId = some asset →
      updated = asset.patched updates (s.times.headD 0) →
      Triple (fun t => t = s.holding assetId updated)
        (do
          save updated
          announceFlags updated (asset.flag "review_required") (asset.flag "quarantine")
          return updated) Q E) :
    Triple (fun t => t = s) (patchMetadata assetId updates) Q E := by
  refine require_spec hmissing fun asset hget => ?_
  intro t ht
  rw [ht]
  exact hpatched asset _ hget rfl _ rfl

end Assets

end Agent33.Ingestion
