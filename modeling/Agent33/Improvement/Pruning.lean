import Agent33.Improvement.Learning

/-!
# What a prune leaves behind

A prune keeps the newest signals and their newest intakes, within the caps. The links
between those that are kept survive it, and what is saved is what is left.
-/

namespace Agent33.Improvement

open Library List Option EStateM

def CapHolds (cap : Option ℤ) (n : ℕ) : Prop := ∀ c, cap = some c → 0 ≤ c → (n : ℤ) ≤ c

theorem CapHolds.mono (h : CapHolds cap n) (hm : m ≤ n) : CapHolds cap m := by
  intro c hc hpos
  have hn := h c hc hpos
  omega

section

variable {α κ : Type} (cap : Option ℤ) (time : α → ℤ) (id : α → Text) (items : List α)

theorem capped_sublist : (capped cap items).Sublist items := by
  cases cap with
  | none => exact List.Sublist.refl items
  | some n =>
    unfold capped
    dsimp only
    split_ifs
    · exact take_sublist _ _
    · exact List.Sublist.refl items

theorem capHolds_capped : CapHolds cap (capped cap items).length := by
  intro c hc hpos
  subst hc
  rw [capped, if_pos hpos, length_take]
  omega

variable {cap items} in
theorem capped_eq_self (h : CapHolds cap items.length) : capped cap items = items := by
  cases cap with
  | none => rfl
  | some n =>
    unfold capped
    dsimp only
    split_ifs with hpos
    · have hle := h n rfl hpos
      exact take_of_length_le (by omega)
    · rfl

theorem perm_sorted : (items.insertionSort fun a b => newestFirst time id a b = true).Perm items :=
  perm_insertionSort _ _

variable {cap items} in
theorem newest_perm (h : CapHolds cap items.length) : (newest cap time id items).Perm items := by
  rw [newest, capped_eq_self]
  · exact perm_sorted time id items
  · rwa [(perm_sorted time id items).length_eq]

theorem newest_subset : newest cap time id items ⊆ items := by
  intro a ha
  exact (perm_sorted time id items).subset ((capped_sublist cap _).subset ha)

variable {items} in
theorem nodup_map_newest (h : (items.map f).Nodup) : ((newest cap time id items).map f).Nodup :=
  (((perm_sorted time id items).map f).nodup_iff.mpr h).sublist ((capped_sublist cap _).map f)

theorem perm_byId : (byId id items).Perm items := perm_insertionSort _ _

end

namespace ImprovementService

section

variable (s : ImprovementService) (cutoff : Option ℤ)

def HasSignal (id : Text) : Prop := ∃ signal ∈ s.signals, signal.signalId = id

def keptIds : List Text := (s.keptSignals cutoff).map (·.signalId)

def keptIntakeIds : List Text := (s.keptIntakes (s.keptIds cutoff)).map (·.intakeId)

def generatedIntakes : List ResearchIntake :=
  s.intakes.toList.filter fun intake => intake.generatedFromSignalId.isSome

theorem keptSignals_subset : s.keptSignals cutoff ⊆ s.signals.toList := by
  intro signal h
  exact (List.mem_filter.mp (newest_subset _ _ _ _ h)).1

theorem mem_of_mem_keptIntakes (h : intake ∈ s.keptIntakes ids) :
    intake ∈ s.intakes ∧ ∃ id ∈ ids, intake.generatedFromSignalId = some id := by
  obtain ⟨hmem, hgenerated⟩ := List.mem_filter.mp (newest_subset _ _ _ _ h)
  obtain ⟨id, hid, hkept⟩ := (Option.any_eq_true _ _).mp hgenerated
  exact ⟨hmem, id, of_decide_eq_true hkept, hid⟩

variable {s cutoff} {id : Text}

theorem hasSignal_of_kept (h : id ∈ s.keptIds cutoff) : s.HasSignal id := by
  obtain ⟨signal, hsignal, rfl⟩ := List.mem_map.mp h
  exact ⟨signal, s.keptSignals_subset cutoff hsignal, rfl⟩

theorem exists_intake_of_kept (h : intakeId ∈ s.keptIntakeIds cutoff) :
    ∃ intake ∈ s.intakes, intake.intakeId = intakeId ∧
      ∃ id ∈ s.keptIds cutoff, intake.generatedFromSignalId = some id := by
  obtain ⟨intake, hintake, rfl⟩ := List.mem_map.mp h
  obtain ⟨hmem, hgenerated⟩ := s.mem_of_mem_keptIntakes hintake
  exact ⟨intake, hmem, rfl, hgenerated⟩

theorem mem_signals_persisted : signal ∈ (s.persisted cutoff).signals ↔
      ∃ old ∈ s.signals, old.signalId ∈ s.keptIds cutoff ∧
        relinked (s.keptIntakeIds cutoff) old = signal := by
  have hsignals : (s.persisted cutoff).signals =
      (s.signals.filter fun signal => signal.signalId ∈ s.keptIds cutoff).mapRecords
        (relinked (s.keptIntakeIds cutoff)) (signalId_relinked _) := rfl
  rw [hsignals, Records.mem_mapRecords]
  simp only [Records.mem_filter, decide_eq_true_eq, and_assoc]

theorem hasSignal_persisted : (s.persisted cutoff).HasSignal id ↔ id ∈ s.keptIds cutoff := by
  constructor
  · rintro ⟨signal, hsignal, rfl⟩
    obtain ⟨old, -, hkept, rfl⟩ := mem_signals_persisted.mp hsignal
    rwa [signalId_relinked]
  · intro h
    obtain ⟨old, hold, rfl⟩ := hasSignal_of_kept h
    exact ⟨_, mem_signals_persisted.mpr ⟨old, hold, h, rfl⟩, signalId_relinked _ old⟩

theorem mem_intakes_persisted {intake : ResearchIntake} :
    intake ∈ (s.persisted cutoff).intakes ↔
      intake ∈ s.intakes ∧
        (intake.generatedFromSignalId = none ∨ intake.intakeId ∈ s.keptIntakeIds cutoff) := by
  refine Records.mem_filter.trans ?_
  rw [decide_eq_true_eq]
  rfl

theorem get?_map_persisted : (s.persisted cutoff).signalIntakeMap.get? id = some intakeId ↔
      s.signalIntakeMap.get? id = some intakeId ∧ id ∈ s.keptIds cutoff ∧
        intakeId ∈ s.keptIntakeIds cutoff := by
  change (s.signalIntakeMap.filterMapValues fun signalId intakeId =>
    if signalId ∈ s.keptIds cutoff ∧ intakeId ∈ s.keptIntakeIds cutoff then some intakeId
    else none).get? id = some intakeId ↔ _
  rw [Dict.get?_filterMapValues, bind_eq_some_iff]
  constructor
  · rintro ⟨found, hfound, hkept⟩
    split_ifs at hkept with h
    rw [some.injEq] at hkept
    subst hkept
    exact ⟨hfound, h⟩
  · rintro ⟨hfound, h⟩
    exact ⟨intakeId, hfound, if_pos h⟩

theorem relatedIntakeId_relinked {intakeIds : List Text} :
    (relinked intakeIds signal).relatedIntakeId = some intakeId ↔
      signal.relatedIntakeId = some intakeId ∧ intakeId ∈ intakeIds := by
  unfold relinked
  cases hrelated : signal.relatedIntakeId with
  | none => simp [hrelated]
  | some related =>
    dsimp only
    split_ifs with hkept
    · rw [hrelated, some.injEq]
      constructor
      · rintro rfl
        exact ⟨rfl, hkept⟩
      · exact And.left
    · constructor
      · intro h
        cases h
      · rintro ⟨heq, hmem⟩
        rw [some.injEq] at heq
        exact absurd (heq ▸ hmem) hkept

end

section

variable (s : ImprovementService)

/-- A signal's recorded intake, the map and the intake's back link agree, and name an intake
and a signal that there are. -/
structure Linked : Prop where
  related : ∀ signal ∈ s.signals,
    signal.relatedIntakeId = s.signalIntakeMap.get? signal.signalId
  named : ∀ id intakeId, s.signalIntakeMap.get? id = some intakeId →
    s.HasSignal id ∧ ∃ intake ∈ s.intakes, intake.intakeId = intakeId ∧
      intake.generatedFromSignalId = some id
  back : ∀ intake ∈ s.intakes, ∀ id, intake.generatedFromSignalId = some id →
    s.HasSignal id ∧ s.signalIntakeMap.get? id = some intake.intakeId

structure Linking : Prop where
  related : ∀ signal ∈ s.signals, ∀ intake ∈ s.generatedIntakes,
    (signal.relatedIntakeId = some intake.intakeId ↔
      s.signalIntakeMap.get? signal.signalId = some intake.intakeId)
  named : ∀ id, ∀ intake ∈ s.intakes,
    s.signalIntakeMap.get? id = some intake.intakeId → intake.generatedFromSignalId = some id
  back : ∀ intake ∈ s.intakes, ∀ id, intake.generatedFromSignalId = some id → s.HasSignal id →
    s.signalIntakeMap.get? id = some intake.intakeId

def Backed : Prop := ∀ id intakeId, s.signalIntakeMap.get? id = some intakeId → s.HasSignal id →
  ∃ intake ∈ s.intakes, intake.intakeId = intakeId ∧ intake.generatedFromSignalId = some id

structure Capped : Prop where
  signals : CapHolds s.policy.maxSignals s.signals.toList.length
  intakes : CapHolds s.policy.maxGeneratedIntakes s.generatedIntakes.length

structure Stored : Prop where
  signals : s.store.signals.Perm s.signals.toList
  intakes : s.store.generatedIntakes.Perm s.generatedIntakes
  signalIntakeMap : s.store.signalIntakeMap = s.signalIntakeMap

/-- No signal had two intakes generated from it, and one that is still there and had an
intake generated from it has its entry in the map. -/
structure Once : Prop where
  nodup : s.generatedFrom.Nodup
  mapped : ∀ id ∈ s.generatedFrom, s.HasSignal id → (s.signalIntakeMap.get? id).isSome = true

def Seen : Prop := ∀ signal ∈ s.signals, seen signal = signal

end

section

variable {s : ImprovementService} {id : Text}

theorem mem_generatedIntakes {intake : ResearchIntake} :
    intake ∈ s.generatedIntakes ↔
      intake ∈ s.intakes ∧ ∃ id, intake.generatedFromSignalId = some id := by
  rw [generatedIntakes, List.mem_filter, isSome_iff_exists]
  rfl

theorem Linked.linking (h : s.Linked) : s.Linking where
  related := by
    intro signal hsignal intake _
    rw [h.related signal hsignal]
  named := by
    intro id intake hintake hmap
    obtain ⟨-, other, hother, hid, hgenerated⟩ := h.named id _ hmap
    rwa [Records.eq_of_mem hother hintake hid] at hgenerated
  back := fun intake hintake id hgenerated _ => (h.back intake hintake id hgenerated).2

theorem Linked.backed (h : s.Linked) : s.Backed := fun id _ hmap _ => (h.named id _ hmap).2

theorem Linking.linked_persisted (h : s.Linking) : (s.persisted cutoff).Linked where
  related := by
    intro signal hsignal
    obtain ⟨old, hold, hkept, rfl⟩ := mem_signals_persisted.mp hsignal
    apply Option.ext
    intro intakeId
    rw [relatedIntakeId_relinked, signalId_relinked, get?_map_persisted]
    constructor
    · rintro ⟨hrelated, hintake⟩
      obtain ⟨intake, hmem, rfl, id, -, hgenerated⟩ := exists_intake_of_kept hintake
      have hiff := h.related old hold intake (mem_generatedIntakes.mpr ⟨hmem, id, hgenerated⟩)
      exact ⟨hiff.mp hrelated, hkept, hintake⟩
    · rintro ⟨hmap, -, hintake⟩
      obtain ⟨intake, hmem, rfl, id, -, hgenerated⟩ := exists_intake_of_kept hintake
      have hiff := h.related old hold intake (mem_generatedIntakes.mpr ⟨hmem, id, hgenerated⟩)
      exact ⟨hiff.mpr hmap, hintake⟩
  named := by
    intro id intakeId hmap
    obtain ⟨hold, hkept, hintake⟩ := get?_map_persisted.mp hmap
    obtain ⟨intake, hmem, rfl, -⟩ := exists_intake_of_kept hintake
    exact ⟨hasSignal_persisted.mpr hkept, intake,
      mem_intakes_persisted.mpr ⟨hmem, Or.inr hintake⟩, rfl, h.named id intake hmem hold⟩
  back := by
    intro intake hintake id hgenerated
    obtain ⟨hmem, hnone | hkept⟩ := mem_intakes_persisted.mp hintake
    · rw [hnone] at hgenerated
      cases hgenerated
    · obtain ⟨other, hother, hsame, id', hid', hfrom⟩ := exists_intake_of_kept hkept
      rw [Records.eq_of_mem hother hmem hsame, hgenerated, some.injEq] at hfrom
      subst hfrom
      have hmap := h.back intake hmem id hgenerated (hasSignal_of_kept hid')
      exact ⟨hasSignal_persisted.mpr hid', get?_map_persisted.mpr ⟨hmap, hid', hkept⟩⟩

theorem signals_persisted_perm :
    (s.persisted cutoff).signals.toList.Perm
      ((s.keptSignals cutoff).map (relinked (s.keptIntakeIds cutoff))) := by
  have hnodup : (s.keptSignals cutoff).Nodup :=
    (nodup_map_newest _ _ _ (s.signals.nodup.sublist (filter_sublist.map _))).of_map
  have hkept : (s.signals.toList.filter fun signal => signal.signalId ∈ s.keptIds cutoff).Perm
      (s.keptSignals cutoff) := by
    refine Records.filter_perm hnodup ?_
    intro signal
    rw [decide_eq_true_eq]
    constructor
    · intro h
      exact ⟨s.keptSignals_subset cutoff h, List.mem_map_of_mem h⟩
    · rintro ⟨hmem, hid⟩
      obtain ⟨other, hother, heq⟩ := List.mem_map.mp hid
      rwa [← Records.eq_of_mem (s.keptSignals_subset cutoff hother) hmem heq]
  exact hkept.map _

theorem generatedIntakes_persisted_perm :
    (s.persisted cutoff).generatedIntakes.Perm (s.keptIntakes (s.keptIds cutoff)) := by
  have hnodup : (s.keptIntakes (s.keptIds cutoff)).Nodup :=
    (nodup_map_newest _ _ _ (s.intakes.nodup.sublist (filter_sublist.map _))).of_map
  refine Records.filter_perm hnodup ?_
  intro intake
  rw [mem_intakes_persisted, isSome_iff_exists]
  constructor
  · intro h
    obtain ⟨hmem, id, -, hgenerated⟩ := s.mem_of_mem_keptIntakes h
    exact ⟨⟨hmem, Or.inr (List.mem_map_of_mem h)⟩, id, hgenerated⟩
  · rintro ⟨⟨hmem, hnone | hkept⟩, id, hgenerated⟩
    · rw [hnone] at hgenerated
      cases hgenerated
    · obtain ⟨other, hother, heq⟩ := List.mem_map.mp hkept
      rwa [← Records.eq_of_mem (s.mem_of_mem_keptIntakes hother).1 hmem heq]

theorem capped_persisted (s : ImprovementService) (cutoff : Option ℤ) :
    (s.persisted cutoff).Capped where
  signals := by
    rw [signals_persisted_perm.length_eq, length_map]
    exact capHolds_capped _ _
  intakes := by
    rw [generatedIntakes_persisted_perm.length_eq]
    exact capHolds_capped _ _

theorem stored_persisted (s : ImprovementService) (cutoff : Option ℤ) :
    (s.persisted cutoff).Stored where
  signals := (perm_byId _ _).trans signals_persisted_perm.symm
  intakes := (perm_byId _ _).trans generatedIntakes_persisted_perm.symm
  signalIntakeMap := rfl

theorem seen_eq_self_iff (signal : LearningSignal) :
    seen signal = signal ↔ signal.firstSeenAt.isSome = true ∧ signal.lastSeenAt.isSome = true := by
  cases signal with
  | mk id at' type severity tenant summary details source context score label reasons enrichment
      count first last generated related =>
    cases first <;> cases last <;> simp [seen]

theorem seen_relinked {ids : List Text} (h : seen signal = signal) :
    seen (relinked ids signal) = relinked ids signal := by
  rw [seen_eq_self_iff] at h ⊢
  unfold relinked
  split
  · exact h
  · split_ifs
    · exact h
    · exact h

theorem Seen.persisted (h : s.Seen) : (s.persisted cutoff).Seen := by
  intro signal hsignal
  obtain ⟨old, hold, -, rfl⟩ := mem_signals_persisted.mp hsignal
  exact seen_relinked (h old hold)

theorem mem_keptIds
    (hcap : CapHolds s.policy.maxSignals s.signals.toList.length) (hmem : signal ∈ s.signals)
    (hrecent : ∀ time, cutoff = some time → time ≤ signal.recordedAt) :
    signal.signalId ∈ s.keptIds cutoff := by
  refine List.mem_map_of_mem ((newest_perm _ _ ?_).symm.subset ?_)
  · exact hcap.mono (length_filter_le _ _)
  · refine List.mem_filter.mpr ⟨hmem, ?_⟩
    cases cutoff with
    | none => rfl
    | some time => exact decide_eq_true (hrecent time rfl)

theorem mem_keptIntakeIds (hcap : CapHolds s.policy.maxGeneratedIntakes s.generatedIntakes.length)
    (hmem : intake ∈ s.intakes) (hgenerated : intake.generatedFromSignalId = some id)
    (hid : id ∈ s.keptIds cutoff) : intake.intakeId ∈ s.keptIntakeIds cutoff := by
  refine List.mem_map_of_mem ((newest_perm _ _ ?_).symm.subset ?_)
  · refine hcap.mono (List.Sublist.length_le ?_)
    refine monotone_filter_right _ ?_
    intro other hother
    cases hfrom : other.generatedFromSignalId with
    | none =>
      rw [hfrom] at hother
      cases hother
    | some from' => rfl
  · refine List.mem_filter.mpr ⟨hmem, ?_⟩
    rw [hgenerated]
    exact decide_eq_true hid

theorem Once.persisted (h : s.Once) (hbacked : s.Backed)
    (hcap : CapHolds s.policy.maxGeneratedIntakes s.generatedIntakes.length) :
    (s.persisted cutoff).Once where
  nodup := h.nodup
  mapped := by
    intro id hfrom hsignal
    have hkept := hasSignal_persisted.mp hsignal
    have hold := hasSignal_of_kept hkept
    obtain ⟨intakeId, hmap⟩ := isSome_iff_exists.mp (h.mapped id hfrom hold)
    obtain ⟨intake, hmem, rfl, hgenerated⟩ := hbacked id intakeId hmap hold
    exact isSome_iff_exists.mpr ⟨_, get?_map_persisted.mpr
      ⟨hmap, hkept, mem_keptIntakeIds hcap hmem hgenerated hkept⟩⟩

structure Settled (s : ImprovementService) : Prop where
  linked : s.Linked
  capped : s.Capped
  stored : s.Stored
  once : s.Once
  seen : s.Seen

structure Sound (s : ImprovementService) : Prop where
  linking : s.Linking
  backed : s.Backed
  room : CapHolds s.policy.maxGeneratedIntakes s.generatedIntakes.length
  once : s.Once
  seen : s.Seen

theorem Sound.settled_persisted (h : s.Sound) (cutoff : Option ℤ) :
    (s.persisted cutoff).Settled where
  linked := h.linking.linked_persisted
  capped := s.capped_persisted cutoff
  stored := s.stored_persisted cutoff
  once := h.once.persisted h.backed h.room
  seen := h.seen.persisted

theorem Settled.sound (h : s.Settled) : s.Sound :=
  ⟨h.linked.linking, h.linked.backed, h.capped.intakes, h.once, h.seen⟩

def Dated (policy : LearningPersistencePolicy) (now : ℤ) : Prop :=
  ∀ days, policy.retentionDays = some days → 0 < days → days * day ≤ now

def cutoffTime (policy : LearningPersistencePolicy) (now : ℤ) : Option ℤ :=
  policy.retentionDays.bind fun days => if 0 < days then some (now - days * day) else none

theorem cutoffAt_run (h : Dated s.policy now) :
    (cutoffAt now).run s = .ok (cutoffTime s.policy now) s := by
  unfold cutoffAt cutoffTime
  rw [run_bind]
  dsimp only [run_get]
  cases hdays : s.policy.retentionDays with
  | none => rfl
  | some days =>
    rw [bind_some]
    dsimp only
    split_ifs with hpos
    · have hle := h days hdays hpos
      rw [before, if_neg (by omega)]
      rfl
    · rfl

theorem persistLearningState_run (h : Dated s.policy now) :
    (persistLearningState now).run s = .ok () (s.persisted (cutoffTime s.policy now)) := by
  rw [persistLearningState, run_bind, cutoffAt_run h]
  rfl

end

end ImprovementService

end Agent33.Improvement
