import Agent33.Improvement.Pruning

/-!
# One intake for a signal

A run in which no cap and no expiry takes away an intake whose signal may ask for another
one generates at most one intake from each signal, and keeps the links, the caps and the
store in order.
-/

namespace Agent33.Improvement

open Library List EStateM Records

namespace ImprovementService

section

variable {s : ImprovementService}

theorem Settled.transfer {s' : ImprovementService} (h : s.Settled)
    (hsignals : s'.signals.toList.Perm s.signals.toList)
    (hintakes : s'.generatedIntakes.Perm s.generatedIntakes)
    (hmap : s'.signalIntakeMap = s.signalIntakeMap) (hstore : s'.store = s.store)
    (hfrom : s'.generatedFrom = s.generatedFrom) (hcapped : s'.Capped) : s'.Settled := by
  have hmem : ∀ signal, signal ∈ s'.signals ↔ signal ∈ s.signals := fun _ => hsignals.mem_iff
  have hhas : ∀ id, s'.HasSignal id ↔ s.HasSignal id := by
    intro id
    simp only [HasSignal, hmem]
  have hgenerated : ∀ intake id, intake.generatedFromSignalId = some id →
      (intake ∈ s'.intakes ↔ intake ∈ s.intakes) := by
    intro intake id hid
    have hiff := hintakes.mem_iff (a := intake)
    rw [mem_generatedIntakes, mem_generatedIntakes] at hiff
    exact ⟨fun hi => (hiff.mp ⟨hi, id, hid⟩).1, fun hi => (hiff.mpr ⟨hi, id, hid⟩).1⟩
  refine ⟨⟨?_, ?_, ?_⟩, hcapped, ⟨?_, ?_, ?_⟩, ⟨?_, ?_⟩, ?_⟩
  · intro signal hsignal
    rw [hmap]
    exact h.linked.related signal ((hmem signal).mp hsignal)
  · intro id intakeId hid
    rw [hmap] at hid
    obtain ⟨hsignal, intake, hi, hiid, hif⟩ := h.linked.named id intakeId hid
    exact ⟨(hhas id).mpr hsignal, intake, (hgenerated intake id hif).mpr hi, hiid, hif⟩
  · intro intake hi id hif
    obtain ⟨hsignal, hid⟩ := h.linked.back intake ((hgenerated intake id hif).mp hi) id hif
    rw [hmap]
    exact ⟨(hhas id).mpr hsignal, hid⟩
  · rw [hstore]
    exact h.stored.signals.trans hsignals.symm
  · rw [hstore]
    exact h.stored.intakes.trans hintakes.symm
  · rw [hstore, hmap]
    exact h.stored.signalIntakeMap
  · rw [hfrom]
    exact h.once.nodup
  · intro id hid hsignal
    rw [hfrom] at hid
    rw [hmap]
    exact h.once.mapped id hid ((hhas id).mp hsignal)
  · intro signal hsignal
    exact h.seen signal ((hmem signal).mp hsignal)

theorem settled_next_of_persist {x : ServiceM Unit} (s₁ : ImprovementService) {now : ℤ}
    (hx : x.run s = (persistLearningState now).run s₁) (hdated : Dated s₁.policy now)
    (h : s₁.Sound) : ∃ s', x.run s = .ok () s' ∧ s'.Settled := by
  rw [hx, persistLearningState_run hdated]
  exact ⟨_, rfl, h.settled_persisted _⟩

theorem Settled.sound_mapSignals (h : s.Settled)
    (hf : ∀ signal, (f signal).signalId = signal.signalId)
    (hrelated : ∀ signal, (f signal).relatedIntakeId = signal.relatedIntakeId)
    (hseen : ∀ signal, ImprovementService.seen signal = signal →
      ImprovementService.seen (f signal) = f signal) :
    Sound { s with signals := s.signals.mapRecords f hf } := by
  have hold := h.sound
  have hhas : ∀ id, HasSignal { s with signals := s.signals.mapRecords f hf } id →
      s.HasSignal id := by
    rintro id ⟨signal, hsignal, rfl⟩
    obtain ⟨old, hmem, rfl⟩ := (mem_mapRecords hf).mp hsignal
    exact ⟨old, hmem, (hf old).symm⟩
  refine ⟨⟨?_, hold.linking.named, ?_⟩, ?_, hold.room, ⟨hold.once.nodup, ?_⟩, ?_⟩
  · intro signal hsignal intake hintake
    obtain ⟨old, hmem, rfl⟩ := (mem_mapRecords hf).mp hsignal
    rw [hrelated, hf]
    exact hold.linking.related old hmem intake hintake
  · intro intake hintake id hgenerated hsignal
    exact hold.linking.back intake hintake id hgenerated (hhas id hsignal)
  · intro id intakeId hmap hsignal
    exact hold.backed id intakeId hmap (hhas id hsignal)
  · intro id hfrom hsignal
    exact hold.once.mapped id hfrom (hhas id hsignal)
  · intro signal hsignal
    obtain ⟨old, hmem, rfl⟩ := (mem_mapRecords hf).mp hsignal
    exact hseen old (hold.seen old hmem)

end

section

variable {s : ImprovementService} (python : Python) (quality : LearningSignal → Quality)

theorem Settled.next (h : s.Settled) (hrun : (∃ e, (op.run python quality).run s = .error e s) ∨
      ∃ s', (op.run python quality).run s = .ok () s' ∧ s'.Settled) :
    Settled (History.next (Op.run python quality) s op) := by
  rcases hrun with ⟨e, herror⟩ | ⟨s', hok, hs'⟩
  · rwa [History.next_of_error (Op.run python quality) op herror]
  · rwa [History.next_of_ok (Op.run python quality) op hok]

theorem findRecentDuplicate_run (signal : LearningSignal) :
    (findRecentDuplicate python signal).run s = .error .overflowError s ∨
      ∃ found, (findRecentDuplicate python signal).run s = .ok found s := by
  unfold findRecentDuplicate
  rw [run_bind]
  dsimp only [run_get]
  split_ifs
  · exact Or.inr ⟨none, rfl⟩
  · rw [run_bind, before]
    split_ifs
    · exact Or.inl rfl
    · exact Or.inr ⟨_, rfl⟩

theorem seen_received (signal : LearningSignal) :
    seen (received quality signal) = received quality signal := by
  rw [seen_eq_self_iff]
  exact ⟨rfl, rfl⟩

theorem seen_mergedSignal {incoming target : LearningSignal} (h : seen target = target) :
    seen (mergedSignal quality incoming target) = mergedSignal quality incoming target := by
  rw [seen_eq_self_iff] at h ⊢
  exact ⟨h.1, rfl⟩

/-- A signal that is recorded carries no link but the one in the map, and no intake was
generated from a signal of its id that is gone. -/
structure Joins (s : ImprovementService) (signal : LearningSignal) : Prop where
  related : ∀ intake ∈ s.generatedIntakes,
    (signal.relatedIntakeId = some intake.intakeId ↔
      s.signalIntakeMap.get? signal.signalId = some intake.intakeId)
  present : signal.signalId ∈ s.generatedFrom → s.HasSignal signal.signalId

theorem Settled.sound_put (h : s.Settled) (hjoins : s.Joins signal)
    (hseen : ImprovementService.seen signal = signal) :
    Sound { s with signals := s.signals.put signal } := by
  have hold := h.sound
  refine ⟨⟨?_, hold.linking.named, ?_⟩, ?_, hold.room, ⟨hold.once.nodup, ?_⟩, ?_⟩
  · intro other hother intake hintake
    rcases mem_put.mp hother with rfl | ⟨hmem, -⟩
    · exact hjoins.related intake hintake
    · exact hold.linking.related other hmem intake hintake
  · intro intake hintake id hgenerated _
    exact (h.linked.back intake hintake id hgenerated).2
  · intro id intakeId hmap _
    exact (h.linked.named id intakeId hmap).2
  · rintro id hfrom ⟨other, hother, rfl⟩
    rcases mem_put.mp hother with rfl | ⟨hmem, -⟩
    · exact hold.once.mapped _ hfrom (hjoins.present hfrom)
    · exact hold.once.mapped _ hfrom ⟨other, hmem, rfl⟩
  · intro other hother
    rcases mem_put.mp hother with rfl | ⟨hmem, -⟩
    · exact hseen
    · exact hold.seen other hmem

theorem Settled.next_recordLearningSignal (h : s.Settled) (hdated : Dated s.policy now)
    (hjoins : (findRecentDuplicate python (received quality signal)).run s = .ok none s →
      s.Joins signal) :
    Settled (History.next (Op.run python quality) s (.recordLearningSignal signal now)) := by
  have hrun : (∃ e, (recordLearningSignal python quality signal now).run s = .error e s) ∨
      ∃ s', (recordLearningSignal python quality signal now).run s = .ok () s' ∧ s'.Settled := by
    unfold recordLearningSignal
    rcases findRecentDuplicate_run (s := s) python (received quality signal) with herror |
      ⟨found, hfound⟩
    · left
      refine ⟨.overflowError, ?_⟩
      rw [run_bind, herror]
    · right
      cases found with
      | none =>
        refine settled_next_of_persist
          { s with signals := s.signals.put (received quality signal) } ?_ hdated ?_
        · rw [run_bind, hfound]
          rfl
        · exact h.sound_put ⟨(hjoins hfound).related, (hjoins hfound).present⟩
            (seen_received quality signal)
      | some duplicate =>
        refine settled_next_of_persist
          { s with
            signals := s.signals.modify duplicate.signalId
              (mergedSignal quality (received quality signal)) fun _ => rfl } ?_ hdated ?_
        · rw [run_bind, hfound]
          rfl
        · refine h.sound_mapSignals _ ?_ ?_
          · intro other
            split_ifs <;> rfl
          · intro other hother
            split_ifs
            · exact seen_mergedSignal quality hother
            · exact hother
  exact h.next python quality hrun

end

section

variable {s : ImprovementService} (python : Python) (quality : LearningSignal → Quality)

variable {policy : LearningPersistencePolicy}

theorem generatedIntakes_mapRecords (s : ImprovementService)
    (hf : ∀ intake, (f intake).intakeId = intake.intakeId)
    (hfrom : ∀ intake, (f intake).generatedFromSignalId = intake.generatedFromSignalId) :
    generatedIntakes { s with intakes := s.intakes.mapRecords f hf } =
      s.generatedIntakes.map f := by
  have hcomp : ((fun intake : ResearchIntake => intake.generatedFromSignalId.isSome) ∘ f) =
      fun intake => intake.generatedFromSignalId.isSome := by
    funext intake
    rw [Function.comp_apply, hfrom]
  change (s.intakes.toList.map f).filter _ = _
  rw [filter_map, hcomp]
  rfl

theorem Settled.sound_mapIntakes (h : s.Settled)
    (hf : ∀ intake, (f intake).intakeId = intake.intakeId)
    (hfrom : ∀ intake, (f intake).generatedFromSignalId = intake.generatedFromSignalId) :
    Sound { s with intakes := s.intakes.mapRecords f hf } := by
  have hold := h.sound
  refine ⟨⟨?_, ?_, ?_⟩, ?_, ?_, ⟨hold.once.nodup, hold.once.mapped⟩, hold.seen⟩
  · intro signal hsignal intake hintake
    rw [generatedIntakes_mapRecords s hf hfrom] at hintake
    obtain ⟨old, hmem, rfl⟩ := mem_map.mp hintake
    rw [hf]
    exact hold.linking.related signal hsignal old hmem
  · intro id intake hintake hmap
    obtain ⟨old, hmem, rfl⟩ := (mem_mapRecords hf).mp hintake
    rw [hf] at hmap
    rw [hfrom]
    exact hold.linking.named id old hmem hmap
  · intro intake hintake id hgenerated hsignal
    obtain ⟨old, hmem, rfl⟩ := (mem_mapRecords hf).mp hintake
    rw [hfrom] at hgenerated
    rw [hf]
    exact hold.linking.back old hmem id hgenerated hsignal
  · intro id intakeId hmap hsignal
    obtain ⟨intake, hmem, hid, hgenerated⟩ := hold.backed id intakeId hmap hsignal
    exact ⟨f intake, (mem_mapRecords hf).mpr ⟨intake, hmem, rfl⟩, (hf intake).trans hid,
      (hfrom intake).trans hgenerated⟩
  · rw [generatedIntakes_mapRecords s hf hfrom, length_map]
    exact hold.room

theorem Settled.next_transitionIntake (h : s.Settled) {intakeId : Text} {newStatus : IntakeStatus}
    {decision : Decision} (hdated : Dated s.policy now) :
    Settled (History.next (Op.run python quality) s
      (.transitionIntake intakeId newStatus decision now)) := by
  have hrun : (∃ e, (transitionIntake intakeId newStatus decision now).run s = .error e s) ∨
      ∃ s', (transitionIntake intakeId newStatus decision now).run s = .ok () s' ∧
        s'.Settled := by
    unfold transitionIntake
    rw [run_bind]
    dsimp only [run_get]
    cases hget : s.intakes.get? intakeId with
    | none => exact Or.inl ⟨_, rfl⟩
    | some intake =>
      have hkept : ∀ other, (if other.intakeId = intakeId then decided newStatus decision other
          else other).generatedFromSignalId = other.generatedFromSignalId := by
        intro other
        split_ifs <;> rfl
      dsimp only
      split_ifs with hallowed hgenerated
      · right
        refine settled_next_of_persist
          { s with
            intakes := s.intakes.modify intakeId (decided newStatus decision) fun _ => rfl } ?_
          hdated (h.sound_mapIntakes _ hkept)
        rfl
      · have hsame : generatedIntakes { s with
            intakes := s.intakes.modify intakeId (decided newStatus decision) fun _ => rfl } =
              s.generatedIntakes := by
          refine (generatedIntakes_mapRecords s _ hkept).trans ?_
          refine (map_congr_left fun other hother => if_neg ?_).trans (map_id _)
          rintro hid
          obtain ⟨hmem, id, hfrom⟩ := mem_generatedIntakes.mp hother
          have hfound := (get?_eq_some_iff _ _ _).mpr ⟨hmem, hid⟩
          rw [hget, Option.some.injEq] at hfound
          rw [hfound, hfrom] at hgenerated
          exact hgenerated rfl
        refine Or.inr ⟨_, rfl, h.transfer (List.Perm.refl _) (List.Perm.of_eq ?_) rfl rfl rfl ?_⟩
        · exact hsame
        · refine ⟨h.capped.signals, ?_⟩
          rw [hsame]
          exact h.capped.intakes
      · exact Or.inl ⟨_, rfl⟩
  exact h.next python quality hrun

theorem generatedIntakes_put (s : ImprovementService) (intake : ResearchIntake)
    (hfrom : intake.generatedFromSignalId = none)
    (hid : ∀ other ∈ s.generatedIntakes, other.intakeId ≠ intake.intakeId) :
    (generatedIntakes { s with intakes := s.intakes.put intake }).Perm s.generatedIntakes := by
  refine filter_perm (s.intakes.nodup.of_map.filter _) ?_
  intro other
  rw [mem_generatedIntakes, Option.isSome_iff_exists]
  constructor
  · rintro ⟨hmem, id, hgenerated⟩
    refine ⟨mem_put.mpr (Or.inr ⟨hmem, ?_⟩), id, hgenerated⟩
    exact hid other (mem_generatedIntakes.mpr ⟨hmem, id, hgenerated⟩)
  · rintro ⟨hmem, id, hgenerated⟩
    rcases mem_put.mp hmem with rfl | ⟨hold, -⟩
    · rw [hfrom] at hgenerated
      cases hgenerated
    · exact ⟨hold, id, hgenerated⟩

theorem Settled.next_submitIntake (h : s.Settled) {now : ℤ}
    (hfrom : intake.generatedFromSignalId = none)
    (hid : ∀ other ∈ s.generatedIntakes, other.intakeId ≠ intake.intakeId) :
    Settled (History.next (Op.run python quality) s (.submitIntake intake now)) := by
  refine h.next python quality (Or.inr ⟨{ s with intakes := s.intakes.put { intake with
    disposition := { intake.disposition with status := .submitted } } }, ?_, ?_⟩)
  · unfold Op.run submitIntake
    rw [Hoare.run_discard, run_bind]
    dsimp only
    rw [hfrom]
    rfl
  · have hperm := s.generatedIntakes_put { intake with
      disposition := { intake.disposition with status := .submitted } } hfrom hid
    refine h.transfer (List.Perm.refl _) hperm rfl rfl rfl ⟨h.capped.signals, ?_⟩
    rw [hperm.length_eq]
    exact h.capped.intakes

theorem checkPolicy_run (s : ImprovementService) (policy : LearningPersistencePolicy) :
    (∃ e, (checkPolicy policy).run s = .error e s) ∨ (checkPolicy policy).run s = .ok () s := by
  unfold checkPolicy
  split_ifs
  · exact Or.inl ⟨_, rfl⟩
  · exact Or.inl ⟨_, rfl⟩
  · exact Or.inr rfl

theorem Settled.next_of_checked (h : s.Settled) {op : Op}
    {f : ImprovementService → ImprovementService} (hf : (f s).Settled)
    (hop : op.run python quality = do checkPolicy policy; modify f) :
    Settled (History.next (Op.run python quality) s op) := by
  refine h.next python quality ?_
  rw [hop, run_bind]
  rcases checkPolicy_run s policy with ⟨e, herror⟩ | hok
  · rw [herror]
    exact Or.inl ⟨e, rfl⟩
  · rw [hok]
    exact Or.inr ⟨f s, rfl, hf⟩

section

variable (h : s.Settled) (hcapped : Capped { s with policy })
include h hcapped

theorem Settled.next_updatePolicy :
    Settled (History.next (Op.run python quality) s (.updatePolicy policy)) :=
  h.next_of_checked python quality
    (h.transfer (List.Perm.refl _) (List.Perm.refl _) rfl rfl rfl hcapped) rfl

theorem Settled.loaded : (s.loaded policy).Settled := by
  have hseen : s.store.signals.map ImprovementService.seen = s.store.signals := by
    refine (map_congr_left fun signal hsignal => ?_).trans (map_id _)
    exact h.seen signal (h.stored.signals.subset hsignal)
  have hsignals : (s.loaded policy).signals.toList = s.store.signals := by
    change (ofList (s.store.signals.map ImprovementService.seen)).toList = _
    rw [hseen, toList_ofList]
    exact ((h.stored.signals.map _).nodup_iff).mpr s.signals.nodup
  have hintakes : (s.loaded policy).intakes.toList = s.store.generatedIntakes := by
    refine toList_ofList ((h.stored.intakes.map _).nodup_iff.mpr ?_)
    exact s.intakes.nodup.sublist (filter_sublist.map _)
  have hgenerated : (s.loaded policy).generatedIntakes = s.store.generatedIntakes := by
    rw [generatedIntakes, hintakes, filter_eq_self]
    intro intake hintake
    exact (List.mem_filter.mp (h.stored.intakes.subset hintake)).2
  have hsignalsPerm := (List.Perm.of_eq hsignals).trans h.stored.signals
  have hintakesPerm := (List.Perm.of_eq hgenerated).trans h.stored.intakes
  refine h.transfer hsignalsPerm hintakesPerm h.stored.signalIntakeMap rfl rfl ⟨?_, ?_⟩
  · rw [hsignalsPerm.length_eq]
    exact hcapped.signals
  · rw [hintakesPerm.length_eq]
    exact hcapped.intakes

theorem Settled.next_reload : Settled (History.next (Op.run python quality) s (.reload policy)) :=
  h.next_of_checked python quality (h.loaded hcapped) rfl

end

end

end ImprovementService

end Agent33.Improvement
