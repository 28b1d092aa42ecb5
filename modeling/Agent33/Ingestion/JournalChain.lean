import Agent33.Ingestion.Effects

/-!
# The chain of journalled transitions

The transition entries of an asset lead from candidate to its status. A transition first
changes the asset, then writes the database and then the journal, so that the chain
breaks where one of the two writes raises.
-/

namespace Agent33.Ingestion

open Library Library.Hoare List Option IngestionService History

def Chain : CandidateStatus → List JournalEntry → CandidateStatus → Prop
  | current, [], last => current = last
  | current, entry :: entries, last => entry.fromStatus = current ∧
      entry.toStatus ∈ validTransitions current ∧ Chain entry.toStatus entries last

theorem chain_concat (h : Chain current entries last) (hfrom : entry.fromStatus = last)
    (hto : entry.toStatus ∈ validTransitions last) :
    Chain current (entries ++ [entry]) entry.toStatus := by
  induction entries generalizing current with
  | nil =>
    obtain rfl : current = last := h
    exact ⟨hfrom, hto, rfl⟩
  | cons first entries ih => exact ⟨h.1, h.2.1, ih h.2.2⟩

theorem chain_unique
    (h : Chain current entries last) (h' : Chain current entries last') : last = last' := by
  induction entries generalizing current with
  | nil => exact h.symm.trans h'
  | cons first entries ih => exact ih h.2.2 h'.2.2

def IngestionService.entries (s : IngestionService) : List JournalEntry :=
  s.journal.elim [] Journal.entries

def IngestionService.transitions (s : IngestionService) (id : ℕ) : List JournalEntry :=
  s.entries.filter fun entry => entry.assetId = id ∧ entry.eventType = "transition"

def IngestionService.statusOf (s : IngestionService) (id : ℕ) : Option CandidateStatus :=
  (s.store.get? id).map CandidateAsset.status

def Op.target? : Op → Option (ℕ × CandidateStatus)
  | .ingest .. => none
  | .validate assetId _ _ => some (assetId, .validated)
  | .promote assetId _ _ => some (assetId, .published)
  | .revoke assetId _ _ => some (assetId, .revoked)
  | .patchMetadata .. => none
  | .approve assetId _ _ => some (assetId, .validated)
  | .reject assetId _ _ => some (assetId, .revoked)

def IngestionError.refuses : IngestionError → Bool
  | .keyError _ => true
  | .transition _ _ => true
  | _ => false

/-- The transitions of each asset form a chain to its status, an operation adds the one entry
of its transition and none if it is refused, and nothing leaves revoked. -/
structure Journalled (loader : SkillLoader) (s : IngestionService) (op : Op) : Prop where
  chains : ∀ id status, (History.next (Op.body loader) s op).statusOf id = some status →
    Chain .candidate ((History.next (Op.body loader) s op).transitions id) status
  accepted : ∀ updated t, (op.body loader).run s = .ok updated t →
    ∀ id target, op.target? = some (id, target) → ∃ status entry,
      s.statusOf id = some status ∧ t.transitions id = s.transitions id ++ [entry] ∧
        entry.fromStatus = status ∧ entry.toStatus = target
  counted : ∀ id, ∃ entries,
    (History.next (Op.body loader) s op).transitions id = s.transitions id ++ entries ∧
      entries.length = if ((History.next (Op.body loader) s op).statusOf id).getD .candidate =
        (s.statusOf id).getD .candidate then 0 else 1
  refused : ∀ error t, (op.body loader).run s = .error error t → error.refuses = true →
    ∀ id, t.statusOf id = s.statusOf id ∧ t.transitions id = s.transitions id
  terminal : ∀ id, s.statusOf id = some .revoked →
    (History.next (Op.body loader) s op).statusOf id = some .revoked

def Permitted (s : IngestionService) (id : ℕ) (target : CandidateStatus) : Prop :=
  ∃ asset ∈ s.store.get? id, target ∈ validTransitions asset.status

def Recorded (s : IngestionService) (op : Op) : Prop :=
  ∀ id target, op.target? = some (id, target) → Permitted s id target → Records s

structure Sound (s : IngestionService) : Prop where
  journalled : s.journal.isSome
  fresh : ∀ id, s.nextId ≤ id → s.store.get? id = none
  ids : ∀ id asset, s.store.get? id = some asset → asset.id = id

structure Quiet (s t : IngestionService) : Prop where
  sound : Sound s → Sound t
  status : ∀ id, t.statusOf id = s.statusOf id
  transitions : ∀ id, t.transitions id = s.transitions id

structure Moved (s t : IngestionService) (id : ℕ) (target : CandidateStatus) : Prop where
  sound : Sound s → Sound t
  status : ∀ other, t.statusOf other = if other = id then some target else s.statusOf other
  entry : ∃ entry status, s.statusOf id = some status ∧ target ∈ validTransitions status ∧
    entry.fromStatus = status ∧ entry.toStatus = target ∧
      ∀ other, t.transitions other = s.transitions other ++ if other = id then [entry] else []

structure Unrecorded (s t : IngestionService) (id : ℕ) (target : CandidateStatus) : Prop where
  status : t.statusOf id = some target
  transitions : t.transitions id = s.transitions id

theorem quiet_of_same (hstore : t.store = s.store)
    (hjournal : t.journal = s.journal) (hid : t.nextId = s.nextId) : Quiet s t where
  sound hs := ⟨hjournal ▸ hs.journalled, by rw [hstore, hid]; exact hs.fresh,
    by rw [hstore]; exact hs.ids⟩
  status id := by rw [statusOf, hstore]; rfl
  transitions id := by rw [transitions, entries, hjournal]; rfl

theorem quiet_refl (s : IngestionService) : Quiet s s := quiet_of_same rfl rfl rfl

theorem quiet_trans (s t u : IngestionService) (hst : Quiet s t) (htu : Quiet t u) : Quiet s u where
  sound hs := htu.sound (hst.sound hs)
  status id := (htu.status id).trans (hst.status id)
  transitions id := (htu.transitions id).trans (hst.transitions id)

theorem Moved.quiet {id : ℕ} (h : Moved s t id target) (htu : Quiet t u) : Moved s u id target where
  sound hs := htu.sound (h.sound hs)
  status other := (htu.status other).trans (h.status other)
  entry := by
    obtain ⟨entry, status, hstatus, htarget, hfrom, hto, htransitions⟩ := h.entry
    exact ⟨entry, status, hstatus, htarget, hfrom, hto, fun other =>
      (htu.transitions other).trans (htransitions other)⟩

section Record

theorem record_spec {P : IngestionService → Prop} {E : IngestionError → IngestionService → Prop}
    (hjournal : s.journal.isSome)
    (hrecorded : s.journalWrites.head? ≠ some .raises → ∀ t entry,
      t.entries = s.entries ++ [entry] → entry.assetId = asset.id →
      entry.eventType = eventType → entry.fromStatus = fromStatus →
      entry.toStatus = asset.status → t.store = s.store → t.nextId = s.nextId →
      t.journal.isSome → P t)
    (hraised : s.journalWrites.head? = some .raises → ∀ t, t.store = s.store →
      t.nextId = s.nextId → t.journal = s.journal → E .journal t) :
    Triple (fun t => t = s) (record asset fromStatus operator reason eventType details)
      (fun _ => P) E := by
  obtain ⟨store, persistence, _ | journal, registry, nextId, times, saves, writes, faults⟩ := s
  · exact nomatch hjournal
  · intro t ht
    rw [ht]
    rcases writes with _ | ⟨_ | _ | _, writes⟩
    · exact hrecorded (by simp) _ _ rfl rfl rfl rfl rfl rfl rfl rfl
    · exact hrecorded (by simp) _ _ rfl rfl rfl rfl rfl rfl rfl rfl
    · exact hrecorded (by simp) _ _ rfl rfl rfl rfl rfl rfl rfl rfl
    · exact hraised rfl _ rfl rfl rfl

end Record

theorem transitions_concat {s t : IngestionService} {entry : JournalEntry}
    (h : t.entries = s.entries ++ [entry]) (id : ℕ) : t.transitions id = s.transitions id ++
      if entry.assetId = id ∧ entry.eventType = "transition" then [entry] else [] := by
  rw [transitions, h, filter_append, filter_singleton]
  simp [transitions]

section Quiet

variable (asset : CandidateAsset)

theorem event_quiet (operator reason : String)
    (details : Json) (hevent : eventType ≠ "transition") :
    Steps Quiet (recordEvent asset eventType operator reason details) := by
  intro s
  cases hjournal : s.journal with
  | none =>
    intro t ht
    rw [ht]
    obtain ⟨store, persistence, journal, registry, nextId, times, saves, writes, faults⟩ := s
    obtain rfl : journal = none := hjournal
    exact quiet_refl _
  | some journal =>
    refine record_spec (by rw [hjournal]; rfl) (fun _ t entry hentries _ htype _ _ hstore hid hj =>
      ?_) fun _ t hstore hid hj => quiet_of_same hstore hj hid
    refine ⟨fun hs => ⟨hj, by rw [hstore, hid]; exact hs.fresh, by rw [hstore]; exact hs.ids⟩,
      fun id => by rw [statusOf, hstore]; rfl, fun id => ?_⟩
    rw [transitions_concat hentries, if_neg fun h => hevent (htype ▸ h.2), append_nil]

theorem save_quiet : Steps Quiet (save asset) :=
  steps_of_keeps quiet_refl fun s =>
    save_keeps (fun t _ _ h => quiet_trans s t _ h (quiet_of_same rfl rfl rfl)) asset

theorem emit_quiet : Steps Quiet emit :=
  steps_of_keeps quiet_refl fun s =>
    emit_keeps fun t _ h => quiet_trans s t _ h (quiet_of_same rfl rfl rfl)

theorem announceFlags_quiet (priorReviewRequired priorQuarantine : Bool) :
    Steps Quiet (announceFlags asset priorReviewRequired priorQuarantine) := by
  have hannounce (key reason : String) {eventType : String} (prior : Bool)
      (hevent : eventType ≠ "transition") :
      Steps Quiet (announce asset key eventType reason prior) := by
    unfold announce
    split_ifs
    · exact (event_quiet asset _ _ _ hevent).bind quiet_trans fun _ => emit_quiet
    · exact steps_pure quiet_refl _
  exact (hannounce _ _ _ (by decide)).bind quiet_trans fun _ => hannounce _ _ _ (by decide)

theorem registerPublishedSkill_quiet (loader : SkillLoader) (asset : CandidateAsset) :
    Steps Quiet (registerPublishedSkill loader asset) :=
  steps_of_keeps quiet_refl fun s => registerPublishedSkill_keeps loader
    (fun t _ h => quiet_trans s t _ h (quiet_of_same rfl rfl rfl)) asset

end Quiet

def Faults {α : Type} (x : IngestionM α) : Prop :=
  Triple (fun _ => True) x (fun _ _ => True) fun error _ => error.refuses = false

section Faults

variable {α β : Type}

theorem Faults.bind (hx : Faults x)
    (hf : ∀ a, Faults (f a)) : Faults (x >>= f) := Triple.bind hx hf

theorem faults_pure (a : α) : Faults (pure a) := fun _ h => h

theorem Faults.keeps {I : IngestionService → Prop} (hx : Faults x)
    (hI : Keeps I x) :
    Triple I x (fun _ => I) fun error t => I t ∧ error.refuses = false :=
  (hI.and hx).conseq (fun _ h => ⟨h, trivial⟩) (fun _ _ h => h.1) fun _ _ h => h

theorem save_faults (asset : CandidateAsset) : Faults (save asset) := by
  refine Triple.get_bind fun s _ => ?_
  cases s.persistence with
  | none => exact fun _ _ => trivial
  | some rows => cases s.saves.headD .written <;> exact fun _ _ => by trivial

theorem record_faults (asset : CandidateAsset) (fromStatus : CandidateStatus)
    (operator reason eventType : String) (details : Json) :
    Faults (record asset fromStatus operator reason eventType details) := by
  refine Triple.get_bind fun s _ => ?_
  cases s.journal with
  | none => exact fun _ _ => trivial
  | some journal =>
    refine Triple.bind (Q := fun _ _ => True) (fun _ _ => trivial) fun time => ?_
    refine Triple.get_bind fun t _ => ?_
    cases t.journalWrites.headD .written <;> exact fun _ _ => by trivial

theorem emit_faults : Faults emit := by
  refine Triple.get_bind fun s _ => ?_
  refine Triple.bind (Q := fun _ _ => True) (fun _ _ => trivial) fun _ => ?_
  split_ifs <;> exact fun _ _ => by trivial

theorem announceFlags_faults (asset : CandidateAsset)
    (priorReviewRequired priorQuarantine : Bool) :
    Faults (announceFlags asset priorReviewRequired priorQuarantine) := by
  have hannounce (key eventType reason : String) (prior : Bool) :
      Faults (announce asset key eventType reason prior) := by
    unfold announce
    split_ifs
    · exact (record_faults asset _ _ _ _ _).bind fun _ => emit_faults
    · exact faults_pure _
  exact (hannounce _ _ _ _).bind fun _ => hannounce _ _ _ _

theorem registerPublishedSkill_faults (loader : SkillLoader) (asset : CandidateAsset) :
    Faults (registerPublishedSkill loader asset) := by
  unfold registerPublishedSkill
  split
  · refine Triple.get_bind fun s _ => ?_
    cases s.skillRegistry with
    | none => exact fun _ _ => trivial
    | some registry =>
      dsimp only
      cases (Skills.register _).run registry <;> exact fun _ _ => by trivial
  · exact faults_pure _
  · exact faults_pure _
  · refine Triple.get_bind fun s _ => ?_
    split_ifs <;> exact fun _ _ => by trivial

end Faults

structure Extended (s t : IngestionService) : Prop where
  sound : Sound s → Sound t
  status : ∀ id, t.statusOf id = s.statusOf id ∨
    s.statusOf id = none ∧ t.statusOf id = some .candidate
  transitions : ∀ id, t.transitions id = s.transitions id

theorem Quiet.extended (h : Quiet s t) : Extended s t :=
  ⟨h.sound, fun id => .inl (h.status id), h.transitions⟩

theorem Extended.quiet (s t u : IngestionService) (h : Extended s t) (htu : Quiet t u) :
    Extended s u where
  sound hs := htu.sound (h.sound hs)
  status id := by rw [htu.status id]; exact h.status id
  transitions id := (htu.transitions id).trans (h.transitions id)

theorem statusOf_set {s t : IngestionService} {id : ℕ} {asset : CandidateAsset}
    (h : t.store = s.store.set id asset) (other : ℕ) :
    t.statusOf other = if other = id then some asset.status else s.statusOf other := by
  rw [statusOf, h, Dict.get?_set]
  split_ifs <;> rfl

theorem sound_set (hs : Sound s) {id : ℕ}
    (hid : asset.id = id) (hlt : id < t.nextId) (hle : s.nextId ≤ t.nextId)
    (hstore : t.store = s.store.set id asset) (hjournal : t.journal.isSome) : Sound t := by
  refine ⟨hjournal, fun other hother => ?_, fun other found hfound => ?_⟩
  · rw [hstore, Dict.get?_set, if_neg (by omega)]
    exact hs.fresh other (hle.trans hother)
  · rw [hstore, Dict.get?_set] at hfound
    split_ifs at hfound with hsame
    · rw [hsame, ← some.inj hfound, hid]
    · exact hs.ids other found hfound

theorem lt_nextId (hs : Sound s) {id : ℕ}
    (hget : s.store.get? id = some asset) : id < s.nextId := by
  by_contra hle
  rw [hs.fresh id (by omega)] at hget
  exact nomatch hget

section Outcome

variable {s : IngestionService}

theorem ingest_extended (hs : Sound s) (name assetType : String) (sourceUri : Option String)
    (tenantId : String) (confidence : ConfidenceLevel) (metadata : Metadata) :
    Triple (fun t => t = s)
      (ingest name assetType sourceUri tenantId confidence metadata) (fun _ => Extended s)
      fun error t => Extended s t ∧ error.refuses = false := by
  refine ingest_spec ⟨⟨fun hs => ⟨hs.journalled, fun id hle => hs.fresh id (Nat.le_of_succ_le hle),
    hs.ids⟩, fun _ => .inl rfl, fun _ => rfl⟩, rfl⟩ fun asset details hid hstatus => ?_
  have hadded : Extended s (s.adding asset) := by
    refine ⟨fun _ => sound_set hs hid (Nat.lt_succ_self _) (Nat.le_succ _) rfl hs.journalled,
      fun id => ?_, fun _ => rfl⟩
    rw [statusOf_set (s := s) (t := s.adding asset) rfl id]
    split_ifs with hnew
    · refine .inr ⟨?_, congrArg some hstatus⟩
      rw [statusOf, hs.fresh id hnew.ge, map_none]
    · exact .inl rfl
  have hquiet : Steps Quiet (do
      save asset
      recordEvent asset "ingested" "system" "Asset entered the ingestion lifecycle." details
      announceFlags asset false false
      return asset) :=
    (save_quiet asset).bind quiet_trans fun _ =>
      (event_quiet asset _ _ _ (by decide)).bind quiet_trans fun _ =>
        (announceFlags_quiet asset _ _).bind quiet_trans fun _ => steps_pure quiet_refl _
  have hfaults : Faults (do
      save asset
      recordEvent asset "ingested" "system" "Asset entered the ingestion lifecycle." details
      announceFlags asset false false
      return asset) :=
    (save_faults asset).bind fun _ => (record_faults asset _ _ _ _ _).bind fun _ =>
      (announceFlags_faults asset _ _).bind fun _ => faults_pure _
  exact (hfaults.keeps (hquiet.keeps (Extended.quiet s))).conseq (fun t ht => ht ▸ hadded)
    (fun _ _ => id) fun _ _ => id

theorem patchMetadata_quiet (hs : Sound s) (assetId : ℕ) (updates : Metadata) :
    Triple (fun t => t = s) (patchMetadata assetId updates) (fun _ => Quiet s)
      fun error t => Quiet s t ∧ (error.refuses = true → s.store.get? assetId = none) := by
  refine patchMetadata_spec (fun hnone => ⟨quiet_refl s, fun _ => hnone⟩)
    fun asset updated hget hupdated => ?_
  have hset : Quiet s (s.holding assetId updated) := by
    refine ⟨fun _ => sound_set hs (hupdated ▸ hs.ids assetId asset hget) (lt_nextId hs hget) le_rfl
      rfl hs.journalled, fun id => ?_, fun _ => rfl⟩
    rw [statusOf_set (s := s) (t := s.holding assetId updated) rfl id]
    split_ifs with hid
    · rw [hid, statusOf, hget, hupdated]
      rfl
    · rfl
  have hquiet : Steps Quiet (do
      save updated
      announceFlags updated (asset.flag "review_required") (asset.flag "quarantine")
      return updated) :=
    (save_quiet updated).bind quiet_trans fun _ =>
      (announceFlags_quiet updated _ _).bind quiet_trans fun _ => steps_pure quiet_refl _
  have hfaults : Faults (do
      save updated
      announceFlags updated (asset.flag "review_required") (asset.flag "quarantine")
      return updated) :=
    (save_faults updated).bind fun _ => (announceFlags_faults updated _ _).bind fun _ =>
      faults_pure _
  refine (hfaults.keeps (hquiet.keeps (quiet_trans s))).conseq (fun t ht => ht ▸ hset)
    (fun _ _ => id) fun error t h => ⟨h.1, fun hrefuses => ?_⟩
  rw [h.2] at hrefuses
  exact nomatch hrefuses

def Done (s : IngestionService) (id : ℕ) (target : CandidateStatus) (t : IngestionService) : Prop :=
  Permitted s id target ∧ Records s ∧ Moved s t id target

def Failed (s : IngestionService) (id : ℕ) (target : CandidateStatus) (error : IngestionError)
    (t : IngestionService) : Prop :=
  (t = s ∧ error.refuses = true ∧ ¬ Permitted s id target) ∨
    error.refuses = false ∧ Permitted s id target ∧
      ((¬ Records s ∧ Unrecorded s t id target) ∨ Done s id target t)

theorem save_spec (asset : CandidateAsset) {P : IngestionService → Prop}
    {E : IngestionError → IngestionService → Prop}
    (hsaved : ¬ (s.persistence.isSome ∧ s.saves.head? = some .raises) → ∀ t, t.store = s.store →
      t.journal = s.journal → t.nextId = s.nextId → t.journalWrites = s.journalWrites → P t)
    (hraised : s.persistence.isSome → s.saves.head? = some .raises → ∀ t, t.store = s.store →
      t.journal = s.journal → E .storage t) :
    Triple (fun t => t = s) (save asset) (fun _ => P) E := by
  obtain ⟨store, _ | rows, journal, registry, nextId, times, saves, writes, faults⟩ := s
  · intro t ht
    rw [ht]
    exact hsaved (by simp) _ rfl rfl rfl rfl
  · intro t ht
    rw [ht]
    rcases saves with _ | ⟨_ | _ | _, saves⟩
    · exact hsaved (by simp) _ rfl rfl rfl rfl
    · exact hsaved (by simp) _ rfl rfl rfl rfl
    · exact hsaved (by simp) _ rfl rfl rfl rfl
    · exact hraised rfl rfl _ rfl rfl

theorem advance_logs (hs : Sound s) (assetId : ℕ) (target : CandidateStatus)
    (operator : Option String) (reason : String) (revocationReason : Option String) :
    Triple (fun t => t = s) (advance assetId target operator reason revocationReason)
      (fun _ => Done s assetId target) (Failed s assetId target) := by
  refine advance_spec (fun hnone => ?_) (fun asset hget hnot => ?_)
    fun asset updated hget htarget hupdated => ?_
  · refine .inl ⟨rfl, rfl, fun h => ?_⟩
    obtain ⟨asset, hget, -⟩ := h
    exact nomatch hnone.symm.trans hget
  · refine .inl ⟨rfl, rfl, fun h => ?_⟩
    obtain ⟨other, hother, htarget⟩ := h
    obtain rfl := some.inj (hget.symm.trans hother)
    exact hnot htarget
  · have hpermitted : Permitted s assetId target := ⟨asset, hget, htarget⟩
    have hid : updated.id = assetId := hupdated ▸ hs.ids assetId asset hget
    have hstatus : updated.status = target := hupdated ▸ rfl
    have hmoved (other : ℕ) : (s.holding assetId updated).statusOf other =
        if other = assetId then some target else s.statusOf other := by
      rw [statusOf_set (s := s) (t := s.holding assetId updated) rfl other, hstatus]
    have hunrecorded (t : IngestionService) (hstore : t.store = (s.holding assetId updated).store)
        (hjournal : t.journal = s.journal) : Unrecorded s t assetId target := by
      refine ⟨?_, ?_⟩
      · rw [statusOf_set hstore, if_pos rfl, hstatus]
      · rw [transitions, entries, hjournal]
        rfl
    refine Triple.bind (Q := fun _ t => t.store = (s.holding assetId updated).store ∧
      t.journal = s.journal ∧ t.nextId = s.nextId ∧ t.journalWrites = s.journalWrites ∧
        ¬ (s.persistence.isSome ∧ s.saves.head? = some .raises)) ?_ fun _ => ?_
    · refine save_spec updated (fun hok t hstore hjournal hnext hwrites => ?_)
        fun hsome hraises t hstore hjournal => ?_
      · exact ⟨hstore, hjournal, hnext, hwrites, hok⟩
      · refine .inr ⟨rfl, hpermitted, .inl ⟨fun h => h.1 ⟨hsome, hraises⟩, ?_⟩⟩
        exact hunrecorded t hstore hjournal
    · intro t ht
      obtain ⟨hstore, hjournal, hnext, hwrites, hok⟩ := ht
      refine (?_ : Triple (fun u => u = t) _ (fun _ => Done s assetId target)
        (Failed s assetId target)) t rfl
      refine Triple.bind (Q := fun _ => Done s assetId target) ?_ fun _ =>
        triple_pure fun _ => id
      refine record_spec (by rw [hjournal]; exact hs.journalled)
        (fun hwrite u entry hentries hasset htype hfrom hto hsame hnextId hsome => ?_)
        fun hwrite u hsame _ hkept => ?_
      · have hrecords : Records s := ⟨hok, fun h => hwrite (hwrites ▸ h.2)⟩
        have hconcat : u.entries = s.entries ++ [entry] := by
          rw [hentries, entries, hjournal]
          rfl
        refine ⟨hpermitted, hrecords, fun _ => ?_, fun other => ?_, entry, asset.status, ?_,
          htarget, hfrom, hto.trans hstatus, fun other => ?_⟩
        · exact sound_set hs hid (hnextId.trans hnext ▸ lt_nextId hs hget)
            (hnextId.trans hnext).ge (hsame.trans hstore) hsome
        · rw [statusOf_set (hsame.trans hstore), hstatus]
        · rw [statusOf, hget]
          rfl
        · rw [transitions_concat hconcat, hasset, hid]
          simp only [htype, and_true, eq_comm]
      · refine .inr ⟨rfl, hpermitted, .inl ⟨fun h => h.2 ⟨hs.journalled, hwrites ▸ hwrite⟩, ?_⟩⟩
        exact hunrecorded u (hsame.trans hstore) (hkept.trans hjournal)

theorem done_quiet {α : Type} {x : IngestionM α} {id : ℕ} {target : CandidateStatus}
    (hquiet : Steps Quiet x) (hfaults : Faults x) :
    Triple (Done s id target) x (fun _ => Done s id target) (Failed s id target) :=
  (hfaults.keeps (hquiet.keeps fun _ _ h htu => ⟨h.1, h.2.1, h.2.2.quiet htu⟩)).conseq
    (fun _ h => h) (fun _ _ h => h) fun _ _ h => .inr ⟨h.2, h.1.1, .inr h.1⟩

theorem promote_logs (loader : SkillLoader) (hs : Sound s) (assetId : ℕ)
    (operator : Option String) (reason : String) :
    Triple (fun t => t = s) (promote loader assetId operator reason)
      (fun _ => Done s assetId .published) (Failed s assetId .published) := by
  refine Triple.bind (advance_logs hs assetId .published _ _ _) fun updated => ?_
  exact done_quiet
    ((registerPublishedSkill_quiet loader updated).bind quiet_trans fun _ =>
      steps_pure quiet_refl _)
    ((registerPublishedSkill_faults loader updated).bind fun _ => faults_pure _)

theorem patchMetadata_done (hs : Sound s) (assetId : ℕ) (target : CandidateStatus)
    (updates : Metadata) :
    Triple (Done s assetId target) (patchMetadata assetId updates)
      (fun _ => Done s assetId target) (Failed s assetId target) := by
  intro t ht
  have hpatch := patchMetadata_quiet (ht.2.2.sound hs) assetId updates
  refine (hpatch.conseq (fun _ => id) (fun _ u h => ⟨ht.1, ht.2.1, ht.2.2.quiet h⟩)
    fun error u h => ?_) t rfl
  refine .inr ⟨?_, ht.1, .inr ⟨ht.1, ht.2.1, ht.2.2.quiet h.1⟩⟩
  cases hrefuses : error.refuses with
  | false => rfl
  | true =>
    have hstatus := ht.2.2.status assetId
    rw [if_pos rfl, statusOf, h.2 hrefuses] at hstatus
    exact nomatch hstatus

theorem approve_logs (hs : Sound s) (assetId : ℕ) (operator reason : String) :
    Triple (fun t => t = s) (approve assetId operator reason)
      (fun _ => Done s assetId .validated) (Failed s assetId .validated) := by
  refine Triple.bind (advance_logs hs assetId .validated _ _ _).discard fun _ => ?_
  refine Triple.bind (patchMetadata_done hs assetId .validated cleared) fun asset => ?_
  exact done_quiet
    ((event_quiet asset _ _ _ (by decide)).bind quiet_trans fun _ =>
      emit_quiet.bind quiet_trans fun _ => steps_pure quiet_refl _)
    ((record_faults asset _ _ _ _ _).bind fun _ => emit_faults.bind fun _ => faults_pure _)

theorem reject_logs (hs : Sound s) (assetId : ℕ) (operator reason : String) :
    Triple (fun t => t = s) (reject assetId operator reason)
      (fun _ => Done s assetId .revoked) (Failed s assetId .revoked) := by
  refine Triple.bind (advance_logs hs assetId .revoked _ _ _) fun asset => ?_
  exact done_quiet
    ((event_quiet asset _ _ _ (by decide)).bind quiet_trans fun _ =>
      emit_quiet.bind quiet_trans fun _ => steps_pure quiet_refl _)
    ((record_faults asset _ _ _ _ _).bind fun _ => emit_faults.bind fun _ => faults_pure _)

theorem op_logs (loader : SkillLoader) (hs : Sound s) {op : Op} {id : ℕ}
    {target : CandidateStatus} (htarget : op.target? = some (id, target)) :
    Triple (fun t => t = s) (op.body loader) (fun _ => Done s id target)
      (Failed s id target) := by
  cases op with
  | ingest => exact nomatch htarget
  | patchMetadata => exact nomatch htarget
  | validate assetId operator reason =>
    obtain ⟨rfl, rfl⟩ := Prod.mk.inj (some.inj htarget)
    exact advance_logs hs assetId .validated operator reason none
  | promote assetId operator reason =>
    obtain ⟨rfl, rfl⟩ := Prod.mk.inj (some.inj htarget)
    exact promote_logs loader hs assetId operator reason
  | revoke assetId reason operator =>
    obtain ⟨rfl, rfl⟩ := Prod.mk.inj (some.inj htarget)
    exact advance_logs hs assetId .revoked operator reason (some reason)
  | approve assetId operator reason =>
    obtain ⟨rfl, rfl⟩ := Prod.mk.inj (some.inj htarget)
    exact approve_logs hs assetId operator reason
  | reject assetId operator reason =>
    obtain ⟨rfl, rfl⟩ := Prod.mk.inj (some.inj htarget)
    exact reject_logs hs assetId operator reason

theorem op_extended (loader : SkillLoader) (hs : Sound s) {op : Op} (htarget : op.target? = none) :
    Triple (fun t => t = s) (op.body loader) (fun _ => Extended s)
      fun error t => Extended s t ∧ (error.refuses = true → Quiet s t) := by
  cases op with
  | ingest name assetType sourceUri tenantId confidence metadata =>
    refine (ingest_extended hs name assetType sourceUri tenantId confidence metadata).conseq
      (fun _ => id) (fun _ _ => id) fun error t h => ⟨h.1, fun hrefuses => ?_⟩
    rw [h.2] at hrefuses
    exact nomatch hrefuses
  | patchMetadata assetId updates =>
    exact (patchMetadata_quiet hs assetId updates).conseq (fun _ => id)
      (fun _ _ h => h.extended) fun _ _ h => ⟨h.1.extended, fun _ => h.1⟩
  | _ => exact nomatch htarget

end Outcome

structure Complete (s : IngestionService) : Prop where
  sound : Sound s
  chains : ∀ id status, s.statusOf id = some status →
    Chain .candidate (s.transitions id) status
  empty : ∀ id, s.statusOf id = none → s.transitions id = []

section Runs

variable {id : ℕ}


theorem Complete.extended (hs : Complete s) (h : Extended s t) : Complete t where
  sound := h.sound hs.sound
  chains other status hstatus := by
    rw [h.transitions]
    rcases h.status other with hsame | ⟨hnone, hcandidate⟩
    · exact hs.chains other status (hsame ▸ hstatus)
    · rw [hs.empty other hnone]
      exact some.inj (hcandidate.symm.trans hstatus)
  empty other hnone := by
    rw [h.transitions]
    rcases h.status other with hsame | ⟨-, hcandidate⟩
    · exact hs.empty other (hsame ▸ hnone)
    · exact nomatch hcandidate.symm.trans hnone

theorem Complete.moved (hs : Complete s) (h : Moved s t id target) : Complete t := by
  obtain ⟨entry, from_, hfrom_, htarget, hfrom, hto, htransitions⟩ := h.entry
  refine ⟨h.sound hs.sound, fun other status hstatus => ?_, fun other hnone => ?_⟩
  · rw [h.status other] at hstatus
    rw [htransitions other]
    split_ifs at hstatus ⊢ with hid
    · subst hid
      rw [← some.inj hstatus, ← hto]
      exact chain_concat (hs.chains other from_ hfrom_) hfrom (hto ▸ htarget)
    · rw [append_nil]
      exact hs.chains other status hstatus
  · rw [h.status other] at hnone
    rw [htransitions other]
    split_ifs at hnone ⊢ with hid
    rw [append_nil]
    exact hs.empty other hnone

theorem counted_of_moved (h : Moved s t id target) (other : ℕ) : ∃ entries,
    t.transitions other = s.transitions other ++ entries ∧
      entries.length = if (t.statusOf other).getD .candidate =
        (s.statusOf other).getD .candidate then 0 else 1 := by
  obtain ⟨entry, status, hstatus, htarget, -, -, htransitions⟩ := h.entry
  refine ⟨_, htransitions other, ?_⟩
  rw [h.status other]
  split_ifs with hid hsame hsame
  · subst hid
    rw [hstatus, getD_some, getD_some] at hsame
    exact absurd (hsame ▸ htarget) (not_mem_validTransitions_self status)
  · rfl
  · rfl
  · exact absurd rfl hsame

theorem terminal_of_moved (h : Moved s t id target) (other : ℕ)
    (hrevoked : s.statusOf other = some .revoked) : t.statusOf other = some .revoked := by
  obtain ⟨entry, status, hstatus, htarget, -⟩ := h.entry
  rw [h.status other, if_neg, hrevoked]
  rintro rfl
  obtain rfl := some.inj (hrevoked.symm.trans hstatus)
  exact nomatch htarget

theorem journalled_of_extended (hs : Complete s)
    (hnext : Extended s (next (Op.body loader) s op))
    (hrun : ∀ updated t, (op.body loader).run s = .ok updated t → op.target? = none)
    (hrefused : ∀ error t, (op.body loader).run s = .error error t → error.refuses = true →
      Quiet s t) : Journalled loader s op where
  chains := (hs.extended hnext).chains
  accepted updated t hok id target htarget := nomatch (hrun updated t hok).symm.trans htarget
  counted id := by
    refine ⟨[], by rw [hnext.transitions, append_nil], ?_⟩
    rcases hnext.status id with hsame | ⟨hnone, hcandidate⟩
    · rw [hsame, if_pos rfl]
      rfl
    · rw [hnone, hcandidate]
      rfl
  refused error t herror hrefuses id := by
    have hquiet := hrefused error t herror hrefuses
    exact ⟨hquiet.status id, hquiet.transitions id⟩
  terminal id hrevoked := by
    rcases hnext.status id with hsame | ⟨hnone, -⟩
    · exact hsame.trans hrevoked
    · exact nomatch hnone.symm.trans hrevoked

theorem journalled_of_moved (hs : Complete s) (htarget : op.target? = some (id, target))
    (hnext : Moved s (next (Op.body loader) s op) id target)
    (hrun : ∀ updated t, (op.body loader).run s = .ok updated t → Moved s t id target)
    (hrefused : ∀ error t, (op.body loader).run s = .error error t → error.refuses = false) :
    Journalled loader s op where
  chains := (hs.moved hnext).chains
  accepted updated t hok other target' htarget' := by
    obtain ⟨rfl, rfl⟩ := Prod.mk.inj (some.inj (htarget.symm.trans htarget'))
    obtain ⟨entry, status, hstatus, -, hfrom, hto, htransitions⟩ := (hrun updated t hok).entry
    exact ⟨status, entry, hstatus, by rw [htransitions, if_pos rfl], hfrom, hto⟩
  counted := counted_of_moved hnext
  refused error t herror hrefuses := by
    rw [hrefused error t herror] at hrefuses
    exact nomatch hrefuses
  terminal := terminal_of_moved hnext

theorem not_chain_of_unrecorded (hs : Complete s) (hpermitted : Permitted s id target)
    (h : Unrecorded s t id target) : ¬ Chain .candidate (t.transitions id) target := by
  obtain ⟨asset, hget, htarget⟩ := hpermitted
  have hstatus : s.statusOf id = some asset.status := by
    rw [statusOf, show s.store.get? id = some asset from hget]
    rfl
  intro hchain
  rw [h.transitions] at hchain
  obtain rfl := chain_unique (hs.chains id asset.status hstatus) hchain
  exact not_mem_validTransitions_self asset.status htarget

theorem complete_next (hs : Complete s) (hrecorded : Recorded s op) :
    Complete (next (Op.body loader) s op) := by
  cases htarget : op.target? with
  | none =>
    have hextended := next_of_triple (Op.body loader)
      ((op_extended loader hs.sound htarget).conseq (fun _ h => h) (fun _ _ h => h)
        fun _ _ h => h.1) rfl
    exact hs.extended hextended
  | some move =>
    obtain ⟨id, target⟩ := move
    have hlogs := next_of_triple (Op.body loader) (Q := fun t =>
      t = s ∨ Permitted s id target ∧ (¬ Records s ∨ Moved s t id target))
      ((op_logs loader hs.sound htarget).conseq (fun _ h => h)
        (fun _ _ h => .inr ⟨h.1, .inr h.2.2⟩)
        fun _ _ h => h.imp (fun h => h.1) fun h => ⟨h.2.1, h.2.2.imp (fun h => h.1)
          fun h => h.2.2⟩) rfl
    rcases hlogs with hsame | ⟨hpermitted, hraised | hmoved⟩
    · rw [hsame]
      exact hs
    · exact absurd (hrecorded id target htarget hpermitted) hraised
    · exact hs.moved hmoved

theorem journalled_iff (hs : Complete s) (op : Op) : Journalled loader s op ↔ Recorded s op := by
  cases htarget : op.target? with
  | none =>
    have hrun := op_extended loader hs.sound htarget s rfl
    refine iff_of_true ?_ fun id target h => by cases htarget.symm.trans h
    cases hr : (op.body loader).run s with
    | ok updated t =>
      rw [hr] at hrun
      refine journalled_of_extended hs ?_ (fun _ _ _ => htarget) fun error u h => ?_
      · rw [History.next, hr]
        exact hrun
      · cases hr.symm.trans h
    | error error t =>
      rw [hr] at hrun
      refine journalled_of_extended hs ?_ (fun _ _ _ => htarget) fun error' u h hrefuses => ?_
      · rw [History.next, hr]
        exact hrun.1
      · obtain ⟨rfl, rfl⟩ := EStateM.Result.error.inj (hr.symm.trans h)
        exact hrun.2 hrefuses
  | some move =>
    obtain ⟨id, target⟩ := move
    have hrun := op_logs loader hs.sound htarget s rfl
    cases hr : (op.body loader).run s with
    | ok updated t =>
      rw [hr] at hrun
      obtain ⟨-, hrecords, hmoved⟩ := hrun
      refine iff_of_true ?_ fun _ _ _ _ => hrecords
      refine journalled_of_moved hs htarget ?_ (fun updated' u h => ?_) fun error u h => ?_
      · rw [History.next, hr]
        exact hmoved
      · obtain ⟨rfl, rfl⟩ := EStateM.Result.ok.inj (hr.symm.trans h)
        exact hmoved
      · cases hr.symm.trans h
    | error error t =>
      rw [hr] at hrun
      have hnext : next (Op.body loader) s op = t := by rw [History.next, hr]
      rcases hrun with ⟨rfl, hrefuses, hnot⟩ | ⟨hrefuses, hpermitted, hraised | hdone⟩
      · refine iff_of_true ?_ fun other target' h hpermitted => ?_
        · refine journalled_of_extended hs (by rw [hnext]; exact (quiet_refl _).extended)
            (fun updated u h => by cases hr.symm.trans h) fun error' u h _ => ?_
          obtain ⟨-, rfl⟩ := EStateM.Result.error.inj (hr.symm.trans h)
          exact quiet_refl t
        · obtain ⟨rfl, rfl⟩ := Prod.mk.inj (some.inj (htarget.symm.trans h))
          exact absurd hpermitted hnot
      · refine iff_of_false (fun h => ?_) fun h => hraised.1 (h id target htarget hpermitted)
        have hchain := h.chains id target (hnext ▸ hraised.2.status)
        exact not_chain_of_unrecorded hs hpermitted hraised.2 (hnext ▸ hchain)
      · refine iff_of_true ?_ fun _ _ _ _ => hdone.2.1
        refine journalled_of_moved hs htarget (hnext ▸ hdone.2.2)
          (fun updated u h => by cases hr.symm.trans h) fun error' u h => ?_
        obtain ⟨rfl, -⟩ := EStateM.Result.error.inj (hr.symm.trans h)
        exact hrefuses

def IngestionService.journalling (service : IngestionService) : IngestionService :=
  { service with journal := some {} }.opened

theorem complete_journalling (service : IngestionService) : Complete service.journalling := by
  have hnone (id : ℕ) : service.journalling.store.get? id = none := rfl
  have hstatus (id : ℕ) : service.journalling.statusOf id = none := by
    rw [statusOf, hnone, map_none]
  refine ⟨⟨rfl, fun id _ => hnone id, fun id asset h => ?_⟩, fun id status h => ?_, fun _ _ => rfl⟩
  · rw [hnone] at h
    exact nomatch h
  · rw [hstatus] at h
    exact nomatch h

end Runs

/-- The journal of a run is complete exactly when no permitted transition meets a write of the
database or of the journal that raises. -/
theorem run_journalled_iff (loader : SkillLoader) (service : IngestionService) (ops : List Op) :
    History.Along (History.next (Op.body loader)) (Journalled loader) service.journalling ops ↔
      History.Along (History.next (Op.body loader)) Recorded service.journalling ops :=
  History.along_congr (I := Complete) (fun _ _ hs hrecorded => complete_next hs hrecorded)
    (fun _ op hs => journalled_iff hs op) (complete_journalling service) ops

/-- The status of the asset is validated, and its journal says nothing about it. -/
theorem raised_not_journalled :
    ¬ History.Along (History.next (Op.body noSkills)) (Journalled noSkills)
      ({ persistence := some Dict.empty, saves := [.written, .raises] } :
        IngestionService).journalling
      [.ingest "scraper" "tool" none "t1" .low Dict.empty, .validate 0 (some "ops") "checked"] := by
  intro h
  have hvalidate := h.2.1
  have hchain : CandidateStatus.candidate = .validated :=
    hvalidate.chains 0 .validated (by decide)
  exact nomatch hchain

end Agent33.Ingestion
