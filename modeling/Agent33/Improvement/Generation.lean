import Agent33.Improvement.IntakeOnce

/-!
# The generation of intakes

The loop goes through the candidates while each submission prunes. A candidate that had
its intake when the loop began still has it when its turn comes, as long as the retention
does not reach it and the cap has room for what is made.
-/

namespace Agent33.Improvement

open Library List Option EStateM

namespace ImprovementService

section

variable (s : ImprovementService) (request : Request)

def minSeverityOf : LearningSignalSeverity :=
  request.minSeverity.getD s.policy.autoIntakeMinSeverity

def maxItemsOf : ℤ := request.maxItems.getD s.policy.autoIntakeMaxItems

def Asks (signal : LearningSignal) : Bool :=
  qualifies s.policy (s.minSeverityOf request) signal

/-- How many intakes a request comes to: one from each candidate that qualifies and has no
entry in the map, as many as it asks for. -/
def toCreate : ℕ :=
  min (s.maxItemsOf request).toNat ((s.candidates request.tenantId).countP fun signal =>
    s.Asks request signal && (s.signalIntakeMap.get? signal.signalId).isNone)

/-- What a generation needs: the cutoffs are dates, the ids that are drawn are new, the cap
has room for the intakes that are made, and no candidate that qualifies and has an intake
expires before the last of them is made. -/
structure Ample (draws : ℕ → Draw) (now : ℤ) : Prop where
  dated : ∀ k < s.toCreate request, Dated s.policy (draws k).now
  datedLast : Dated s.policy now
  fresh : ∀ k < s.toCreate request, ∀ intake ∈ s.intakes, intake.intakeId ≠ (draws k).intakeId
  distinct : ∀ j < s.toCreate request, ∀ k < s.toCreate request,
    (draws j).intakeId = (draws k).intakeId → j = k
  room : CapHolds s.policy.maxGeneratedIntakes (s.generatedIntakes.length + s.toCreate request)
  lasting : ∀ signal ∈ s.candidates request.tenantId, s.Asks request signal = true →
    (s.signalIntakeMap.get? signal.signalId).isSome = true → ∀ k < s.toCreate request,
      ∀ time, cutoffTime s.policy (draws k).now = some time → time ≤ signal.recordedAt

end

structure Plan where
  policy : LearningPersistencePolicy
  asks : LearningSignal → Bool
  mapped : Text → Bool
  draws : ℕ → Draw
  maxItems : ℤ
  total : ℕ

/-- The state in the loop, with the candidates that are left and the number of intakes that
were made. -/
structure Looping (plan : Plan) (s : ImprovementService) (rest : List LearningSignal)
    (made : ℕ) : Prop where
  policy : s.policy = plan.policy
  related : ∀ signal ∈ s.signals, signal.relatedIntakeId = s.signalIntakeMap.get? signal.signalId
  linking : s.Linking
  backed : s.Backed
  once : s.Once
  seen : s.Seen
  full : CapHolds s.policy.maxSignals s.signals.toList.length
  room : CapHolds s.policy.maxGeneratedIntakes (s.generatedIntakes.length + (plan.total - made))
  fresh : ∀ k, made ≤ k → k < plan.total →
    (∀ intake ∈ s.intakes, intake.intakeId ≠ (plan.draws k).intakeId) ∧
      ∀ id, s.signalIntakeMap.get? id ≠ some (plan.draws k).intakeId
  mapped : ∀ signal ∈ rest, plan.asks signal = true →
    (s.signalIntakeMap.get? signal.signalId).isSome = plan.mapped signal.signalId
  present : ∀ signal ∈ rest, plan.asks signal = true → plan.mapped signal.signalId = true →
    ∃ other ∈ s.signals, other.signalId = signal.signalId ∧ other.recordedAt = signal.recordedAt
  unused : ∀ signal ∈ rest, plan.asks signal = true → plan.mapped signal.signalId = false →
    signal.signalId ∉ s.generatedFrom
  distinct : (rest.map (·.signalId)).Nodup
  left : made + min (plan.maxItems - made).toNat
    (rest.countP fun signal => plan.asks signal && !plan.mapped signal.signalId) ≤ plan.total

variable {s : ImprovementService} {draw : Draw}

theorem Looping.sound (h : Looping plan s rest made) : s.Sound where
  linking := h.linking
  backed := h.backed
  room := h.room.mono (Nat.le_add_right _ _)
  once := h.once
  seen := h.seen

structure Plan.Promises (plan : Plan) (candidates : List LearningSignal) : Prop where
  dated : ∀ k < plan.total, Dated plan.policy (plan.draws k).now
  distinct : ∀ j < plan.total, ∀ k < plan.total,
    (plan.draws j).intakeId = (plan.draws k).intakeId → j = k
  lasting : ∀ signal ∈ candidates, plan.asks signal = true → plan.mapped signal.signalId = true →
    ∀ k < plan.total, ∀ time, cutoffTime plan.policy (plan.draws k).now = some time →
      time ≤ signal.recordedAt

def submitted (signal : LearningSignal) (draw : Draw) : ResearchIntake :=
  { intakeFor signal draw with
    disposition := { (intakeFor signal draw).disposition with status := .submitted } }

def stock (s : ImprovementService) (signal : LearningSignal) (draw : Draw) : ImprovementService :=
  { s with intakes := s.intakes.put (submitted signal draw) }

def generated (s : ImprovementService) (signal : LearningSignal) (draw : Draw) :
    ImprovementService :=
  ((s.stock signal draw).persisted (cutoffTime s.policy draw.now)).link signal.signalId
    draw.intakeId

theorem generateFrom_run (signal : LearningSignal) (hdated : Dated s.policy draw.now) :
    (generateFrom signal draw).run s =
      .ok (submitted signal draw) (s.generated signal draw) := by
  have hpersist : (persistLearningState draw.now).run (s.stock signal draw) =
      .ok () ((s.stock signal draw).persisted (cutoffTime s.policy draw.now)) :=
    persistLearningState_run hdated
  have hsubmit : (submitIntake (intakeFor signal draw) draw.now).run s =
      .ok (submitted signal draw)
        ((s.stock signal draw).persisted (cutoffTime s.policy draw.now)) := by
    unfold submitIntake
    rw [run_bind]
    change (do
      persistLearningState draw.now
      pure (submitted signal draw) : ServiceM ResearchIntake).run (s.stock signal draw) = _
    rw [run_bind, hpersist]
    rfl
  rw [generateFrom, run_bind, hsubmit]
  rfl

structure Generated (s s' : ImprovementService) (signal : LearningSignal) (draw : Draw)
    (kept keptIntake : Text → Prop) : Prop where
  policy : s'.policy = s.policy
  generatedFrom : s'.generatedFrom = signal.signalId :: s.generatedFrom
  hasSignal : ∀ id, s'.HasSignal id ↔ kept id
  old : ∀ id, kept id → s.HasSignal id
  signals : ∀ new ∈ s'.signals, ∃ old ∈ s.signals, old.signalId = new.signalId ∧
    (ImprovementService.seen old = old → ImprovementService.seen new = new) ∧
      ∀ intakeId, new.relatedIntakeId = some intakeId ↔
        if new.signalId = signal.signalId then draw.intakeId = intakeId
        else old.relatedIntakeId = some intakeId ∧ keptIntake intakeId
  surviving : ∀ old ∈ s.signals, kept old.signalId →
    ∃ new ∈ s'.signals, new.signalId = old.signalId ∧ new.recordedAt = old.recordedAt
  map : ∀ id intakeId, s'.signalIntakeMap.get? id = some intakeId ↔
    if id = signal.signalId then draw.intakeId = intakeId
    else s.signalIntakeMap.get? id = some intakeId ∧ kept id ∧ keptIntake intakeId
  intakes : ∀ intake, intake ∈ s'.intakes ↔
    (intake = submitted signal draw ∨ intake ∈ s.intakes) ∧
      (intake.generatedFromSignalId = none ∨ keptIntake intake.intakeId)
  made : ∀ intakeId, keptIntake intakeId → ∃ intake,
    (intake = submitted signal draw ∨ intake ∈ s.intakes) ∧ intake.intakeId = intakeId ∧
      ∃ id, kept id ∧ intake.generatedFromSignalId = some id
  recent : CapHolds s.policy.maxSignals s.signals.toList.length → ∀ old ∈ s.signals,
    (∀ time, cutoffTime s.policy draw.now = some time → time ≤ old.recordedAt) → kept old.signalId
  roomy : CapHolds s.policy.maxGeneratedIntakes (s.generatedIntakes.length + 1) →
    ∀ intake, (intake = submitted signal draw ∨ intake ∈ s.intakes) → ∀ id,
      intake.generatedFromSignalId = some id → kept id → keptIntake intake.intakeId
  count : s'.generatedIntakes.length ≤ s.generatedIntakes.length + 1
  full : CapHolds s.policy.maxSignals s'.signals.toList.length

theorem toList_mapRecords_length {κ ν : Type} {key : ν → κ} (records : Records key) (f : ν → ν)
    (hf : ∀ v, key (f v) = key v) :
    (records.mapRecords f hf).toList.length = records.toList.length := length_map _

theorem length_generatedIntakes_stock (signal : LearningSignal)
    (hfresh : ∀ intake ∈ s.intakes, intake.intakeId ≠ draw.intakeId) :
    (s.stock signal draw).generatedIntakes.length = s.generatedIntakes.length + 1 := by
  have hnew : (submitted signal draw).intakeId ∉ s.intakes.toList.map (·.intakeId) := by
    intro hmem
    obtain ⟨intake, hintake, heq⟩ := List.mem_map.mp hmem
    exact hfresh intake hintake heq
  have hput := Records.toList_put_of_notMem hnew
  change ((s.intakes.put (submitted signal draw)).toList.filter _).length = _
  rw [hput, filter_append, length_append]
  rfl

theorem recordedAt_relinked (intakeIds : List Text) (signal : LearningSignal) :
    (relinked intakeIds signal).recordedAt = signal.recordedAt := by
  unfold relinked
  split
  · rfl
  · split_ifs <;> rfl

theorem generated_spec (signal : LearningSignal)
    (hfresh : ∀ intake ∈ s.intakes, intake.intakeId ≠ draw.intakeId) :
    ∃ kept keptIntake, Generated s (s.generated signal draw) signal draw kept keptIntake := by
  have hstocked : ∀ intake, intake ∈ (s.stock signal draw).intakes ↔
      intake = submitted signal draw ∨ intake ∈ s.intakes := by
    intro intake
    refine Records.mem_put.trans (or_congr Iff.rfl ⟨And.left, fun h => ⟨h, hfresh intake h⟩⟩)
  have hcount := length_generatedIntakes_stock signal hfresh
  generalize hcutoff : cutoffTime s.policy draw.now = cutoff
  have hlinked : ∀ other : LearningSignal,
      (if other.signalId = signal.signalId then linkedTo draw.intakeId other else other).signalId =
        other.signalId := by
    intro other
    split_ifs <;> rfl
  have hmem : ∀ new, new ∈ (s.generated signal draw).signals ↔
      ∃ pruned ∈ ((s.stock signal draw).persisted cutoff).signals,
        (if pruned.signalId = signal.signalId then linkedTo draw.intakeId pruned
          else pruned) = new := by
    intro new
    rw [← hcutoff]
    exact Records.mem_mapRecords hlinked
  refine ⟨(· ∈ (s.stock signal draw).keptIds cutoff),
    (· ∈ (s.stock signal draw).keptIntakeIds cutoff), ?_⟩
  refine ⟨rfl, rfl, ?_, ?_, ?_, ?_, ?_, ?_, ?_, ?_, ?_, ?_, ?_⟩
  · intro id
    rw [← hasSignal_persisted]
    constructor
    · rintro ⟨new, hnew, rfl⟩
      obtain ⟨pruned, hpruned, rfl⟩ := (hmem new).mp hnew
      exact ⟨pruned, hpruned, (hlinked pruned).symm⟩
    · rintro ⟨pruned, hpruned, rfl⟩
      exact ⟨_, (hmem _).mpr ⟨pruned, hpruned, rfl⟩, hlinked pruned⟩
  · intro id hkept
    exact hasSignal_of_kept hkept
  · intro new hnew
    obtain ⟨pruned, hpruned, rfl⟩ := (hmem new).mp hnew
    obtain ⟨old, hold, -, rfl⟩ := mem_signals_persisted.mp hpruned
    refine ⟨old, hold, ((hlinked _).trans (signalId_relinked _ old)).symm, ?_, ?_⟩
    · intro hseen
      have hrelinked : seen (relinked ((s.stock signal draw).keptIntakeIds cutoff) old) =
          relinked ((s.stock signal draw).keptIntakeIds cutoff) old := seen_relinked hseen
      split_ifs
      · rw [seen_eq_self_iff] at hrelinked ⊢
        exact hrelinked
      · exact hrelinked
    · intro intakeId
      rw [hlinked]
      split_ifs
      · exact some_inj
      · exact relatedIntakeId_relinked
  · intro old hold hkept
    have hpruned : relinked ((s.stock signal draw).keptIntakeIds cutoff) old ∈
        ((s.stock signal draw).persisted cutoff).signals :=
      mem_signals_persisted.mpr ⟨old, hold, hkept, rfl⟩
    refine ⟨_, (hmem _).mpr ⟨_, hpruned, rfl⟩, (hlinked _).trans (signalId_relinked _ old), ?_⟩
    rw [← recordedAt_relinked ((s.stock signal draw).keptIntakeIds cutoff) old]
    split_ifs <;> rfl
  · intro id intakeId
    have hmap : (s.generated signal draw).signalIntakeMap =
        ((s.stock signal draw).persisted cutoff).signalIntakeMap.set signal.signalId
          draw.intakeId := by
      rw [← hcutoff]
      rfl
    rw [hmap, Dict.get?_set]
    by_cases hid : id = signal.signalId
    · rw [if_pos hid, if_pos hid, some.injEq]
    · rw [if_neg hid, if_neg hid]
      exact get?_map_persisted
  · intro intake
    rw [← hstocked, ← mem_intakes_persisted, ← hcutoff]
    rfl
  · intro intakeId hkept
    obtain ⟨intake, hintake, hid, hfrom⟩ := exists_intake_of_kept hkept
    exact ⟨intake, (hstocked intake).mp hintake, hid, hfrom⟩
  · intro hfull old hold hrecent
    rw [hcutoff] at hrecent
    exact mem_keptIds (s := s.stock signal draw) hfull hold hrecent
  · intro hroom intake hintake id hfrom hkept
    rw [← hcount] at hroom
    exact mem_keptIntakeIds (s := s.stock signal draw) hroom ((hstocked intake).mpr hintake) hfrom
      hkept
  · rw [← hcount]
    exact (filter_sublist.filter _).length_le
  · subst hcutoff
    have hfull := ((s.stock signal draw).capped_persisted (cutoffTime s.policy draw.now)).signals
    rw [← toList_mapRecords_length _ _ hlinked] at hfull
    exact hfull

section

variable {plan : Plan} {s s' : ImprovementService}


section

variable (h : Looping plan s (signal :: rest) made)
include h

theorem Looping.made_lt_total (hasks : plan.asks signal = true)
    (hnone : s.signalIntakeMap.get? signal.signalId = none) (hmax : (made : ℤ) < plan.maxItems) :
    made < plan.total := by
  have hmapped := h.mapped signal mem_cons_self hasks
  rw [hnone, isSome_none] at hmapped
  have hleft := h.left
  rw [countP_cons, hasks, ← hmapped] at hleft
  simp only [Bool.not_false, Bool.and_self, if_true] at hleft
  omega

theorem Looping.unmapped_draw (htotal : made < plan.total) :
    (∀ intake ∈ s.intakes, intake.intakeId ≠ (plan.draws made).intakeId) ∧
      ∀ id, s.signalIntakeMap.get? id ≠ some (plan.draws made).intakeId :=
  h.fresh made le_rfl htotal

theorem Looping.related_next (g : Generated s s' signal (plan.draws made) kept keptIntake) :
    ∀ new ∈ s'.signals, new.relatedIntakeId = s'.signalIntakeMap.get? new.signalId := by
  intro new hnew
  obtain ⟨old, hold, hid, -, hrelated⟩ := g.signals new hnew
  apply Option.ext
  intro intakeId
  rw [hrelated, g.map]
  split_ifs
  · rfl
  · have hkept := (g.hasSignal _).mp ⟨new, hnew, rfl⟩
    rw [h.related old hold, hid]
    constructor
    · rintro ⟨hmap, hintake⟩
      exact ⟨hmap, hkept, hintake⟩
    · rintro ⟨hmap, -, hintake⟩
      exact ⟨hmap, hintake⟩

theorem Looping.linking_next
    (hnone : s.signalIntakeMap.get? signal.signalId = none) (htotal : made < plan.total)
    (g : Generated s s' signal (plan.draws made) kept keptIntake) : s'.Linking := by
  obtain ⟨hfresh, hunmapped⟩ := h.unmapped_draw htotal
  refine ⟨?_, ?_, ?_⟩
  · intro new hnew intake _
    rw [h.related_next g new hnew]
  · intro id intake hintake hmap
    rw [g.map] at hmap
    obtain ⟨rfl | hmem, -⟩ := (g.intakes intake).mp hintake
    · split_ifs at hmap with hid
      · rw [hid]
        rfl
      · exact absurd hmap.1 (hunmapped id)
    · split_ifs at hmap with hid
      · exact absurd hmap.symm (hfresh intake hmem)
      · exact h.linking.named id intake hmem hmap.1
  · intro intake hintake id hfrom hsignal
    rw [g.map]
    obtain ⟨rfl | hmem, hnot | hkept⟩ := (g.intakes intake).mp hintake
    · cases hnot
    · rw [if_pos (some.inj hfrom).symm]
      rfl
    · rw [hnot] at hfrom
      cases hfrom
    · have hid := (g.hasSignal id).mp hsignal
      have hmap := h.linking.back intake hmem id hfrom (g.old id hid)
      rw [if_neg]
      · exact ⟨hmap, hid, hkept⟩
      · rintro rfl
        rw [hnone] at hmap
        cases hmap

theorem Looping.room_one (htotal : made < plan.total) :
    CapHolds s.policy.maxGeneratedIntakes (s.generatedIntakes.length + 1) :=
  h.room.mono (by omega)

theorem Looping.map_next_of_kept
    (hnone : s.signalIntakeMap.get? signal.signalId = none) (htotal : made < plan.total)
    (g : Generated s s' signal (plan.draws made) kept keptIntake) {id intakeId : Text}
    (hkept : kept id) (hmap : s.signalIntakeMap.get? id = some intakeId) :
    s'.signalIntakeMap.get? id = some intakeId := by
  obtain ⟨intake, hintake, rfl, hfrom⟩ := h.backed id intakeId hmap (g.old id hkept)
  rw [g.map, if_neg]
  · exact ⟨hmap, hkept, g.roomy (h.room_one htotal) intake (Or.inr hintake) id hfrom hkept⟩
  · rintro rfl
    rw [hnone] at hmap
    cases hmap

theorem Looping.backed_next (htotal : made < plan.total)
    (g : Generated s s' signal (plan.draws made) kept keptIntake) : s'.Backed := by
  intro id intakeId hmap hsignal
  have hkept := (g.hasSignal id).mp hsignal
  rw [g.map] at hmap
  split_ifs at hmap with hid
  · subst hid hmap
    have hintake := g.roomy (h.room_one htotal) (submitted signal (plan.draws made)) (Or.inl rfl)
      signal.signalId rfl hkept
    exact ⟨_, (g.intakes _).mpr ⟨Or.inl rfl, Or.inr hintake⟩, rfl, rfl⟩
  · obtain ⟨intake, hmem, heq, hfrom⟩ := h.backed id intakeId hmap.1 (g.old id hkept)
    subst heq
    exact ⟨intake, (g.intakes intake).mpr ⟨Or.inr hmem, Or.inr hmap.2.2⟩, rfl, hfrom⟩

theorem Looping.once_next (hasks : plan.asks signal = true)
    (hnone : s.signalIntakeMap.get? signal.signalId = none) (htotal : made < plan.total)
    (g : Generated s s' signal (plan.draws made) kept keptIntake) : s'.Once := by
  have hmapped := h.mapped signal mem_cons_self hasks
  rw [hnone, isSome_none] at hmapped
  refine ⟨?_, ?_⟩
  · rw [g.generatedFrom]
    exact nodup_cons.mpr
      ⟨h.unused signal mem_cons_self hasks hmapped.symm, h.once.nodup⟩
  · intro id hid hsignal
    rw [g.generatedFrom, mem_cons] at hid
    have hkept := (g.hasSignal id).mp hsignal
    by_cases heq : id = signal.signalId
    · exact isSome_iff_exists.mpr ⟨_, (g.map id _).mpr (by rw [if_pos heq])⟩
    · have hold := hid.resolve_left heq
      obtain ⟨intakeId, hmap⟩ :=
        isSome_iff_exists.mp (h.once.mapped id hold (g.old id hkept))
      rw [h.map_next_of_kept hnone htotal g hkept hmap]
      rfl

theorem Looping.next (hpromises : plan.Promises (signal :: rest)) (hasks : plan.asks signal = true)
    (hnone : s.signalIntakeMap.get? signal.signalId = none) (hmax : (made : ℤ) < plan.maxItems)
    (g : Generated s s' signal (plan.draws made) kept keptIntake) :
    Looping plan s' rest (made + 1) := by
  have htotal := h.made_lt_total hasks hnone hmax
  obtain ⟨hfresh, hunmapped⟩ := h.unmapped_draw htotal
  have hmapped := h.mapped signal mem_cons_self hasks
  rw [hnone, isSome_none] at hmapped
  have hdistinct := nodup_cons.mp h.distinct
  have hne : ∀ other ∈ rest, other.signalId ≠ signal.signalId := by
    intro other hother heq
    exact hdistinct.1 (List.mem_map.mpr ⟨other, hother, heq⟩)
  have hkept : ∀ other ∈ rest, plan.asks other = true → plan.mapped other.signalId = true →
      kept other.signalId := by
    intro other hother hasks' hmapped'
    have hmem := mem_cons_of_mem signal hother
    obtain ⟨present, hpresent, hid, hat⟩ := h.present other hmem hasks' hmapped'
    rw [← hid]
    refine g.recent h.full present hpresent ?_
    rw [h.policy, hat]
    exact hpromises.lasting other hmem hasks' hmapped' made htotal
  refine ⟨g.policy.trans h.policy, h.related_next g, h.linking_next hnone htotal g,
    h.backed_next htotal g, h.once_next hasks hnone htotal g, ?_, ?_, ?_, ?_, ?_, ?_, ?_,
    hdistinct.2, ?_⟩
  · intro new hnew
    obtain ⟨old, hold, -, hseen, -⟩ := g.signals new hnew
    exact hseen (h.seen old hold)
  · rw [g.policy]
    exact g.full
  · have hcount := g.count
    rw [g.policy]
    exact h.room.mono (by omega)
  · intro k hk hlt
    have hother : (plan.draws made).intakeId ≠ (plan.draws k).intakeId := by
      intro heq
      have hk' := hpromises.distinct made htotal k hlt heq
      omega
    obtain ⟨hnew, hnotMapped⟩ := h.fresh k (by omega) hlt
    refine ⟨?_, ?_⟩
    · intro intake hintake
      obtain ⟨rfl | hmem, -⟩ := (g.intakes intake).mp hintake
      · exact hother
      · exact hnew intake hmem
    · intro id hmap
      rw [g.map] at hmap
      split_ifs at hmap
      · exact hother hmap
      · exact hnotMapped id hmap.1
  · intro other hother hasks'
    have hold := h.mapped other (mem_cons_of_mem signal hother) hasks'
    cases hmap : s.signalIntakeMap.get? other.signalId with
    | none =>
      rw [hmap] at hold
      rw [← hold, isSome_none, isSome_eq_false_iff, isNone_iff_eq_none,
        eq_none_iff_forall_ne_some]
      intro intakeId hnew
      rw [g.map, if_neg (hne other hother), hmap] at hnew
      cases hnew.1
    | some intakeId =>
      rw [hmap] at hold
      rw [h.map_next_of_kept hnone htotal g (hkept other hother hasks' hold.symm) hmap, ← hold,
        isSome_some]
  · intro other hother hasks' hmapped'
    obtain ⟨present, hpresent, hid, hat⟩ :=
      h.present other (mem_cons_of_mem signal hother) hasks' hmapped'
    have hpresentKept := hid ▸ hkept other hother hasks' hmapped'
    obtain ⟨new, hnew, hnewId, hnewAt⟩ := g.surviving present hpresent hpresentKept
    exact ⟨new, hnew, hnewId.trans hid, hnewAt.trans hat⟩
  · intro other hother hasks' hmapped'
    rw [g.generatedFrom, mem_cons, not_or]
    exact ⟨hne other hother, h.unused other (mem_cons_of_mem signal hother) hasks' hmapped'⟩
  · have hleft := h.left
    rw [countP_cons, hasks, ← hmapped] at hleft
    simp only [Bool.not_false, Bool.and_self, if_true] at hleft
    omega

theorem Looping.skip : Looping plan s rest made where
  policy := h.policy
  related := h.related
  linking := h.linking
  backed := h.backed
  once := h.once
  seen := h.seen
  full := h.full
  room := h.room
  fresh := h.fresh
  mapped := fun other hother => h.mapped other (mem_cons_of_mem signal hother)
  present := fun other hother => h.present other (mem_cons_of_mem signal hother)
  unused := fun other hother => h.unused other (mem_cons_of_mem signal hother)
  distinct := (nodup_cons.mp h.distinct).2
  left := by
    have hleft := h.left
    rw [countP_cons] at hleft
    omega

end

theorem Plan.Promises.tail (h : plan.Promises (signal :: rest)) : plan.Promises rest where
  dated := h.dated
  distinct := h.distinct
  lasting := fun other hother => h.lasting other (mem_cons_of_mem signal hother)

def Leaves (s : ImprovementService) (created created' : List ResearchIntake)
    (s' : ImprovementService) : Prop :=
  s'.Sound ∧ s'.policy = s.policy ∧
    (created' = created ∧ s' = s ∨ created.length < created'.length)

theorem generateLoop_run (hplan : plan.asks = qualifies plan.policy minSeverity)
    (h : Looping plan s rest created.length) (hmax : (created.length : ℤ) < plan.maxItems)
    (hpromises : plan.Promises rest) :
    ∃ created' s', (generateLoop minSeverity plan.maxItems plan.draws rest created).run s =
      .ok created' s' ∧ s.Leaves created created' s' := by
  induction rest generalizing s created with
  | nil => exact ⟨created, s, rfl, h.sound, rfl, Or.inl ⟨rfl, rfl⟩⟩
  | cons signal rest ih =>
    rw [generateLoop, run_bind]
    dsimp only [run_get]
    split_ifs with hcreates
    · obtain ⟨hqualifies, hnone⟩ := hcreates
      have hasks : plan.asks signal = true := by
        rw [hplan, ← h.policy]
        exact hqualifies
      have htotal := h.made_lt_total hasks hnone hmax
      have hdated := hpromises.dated created.length htotal
      rw [← h.policy] at hdated
      obtain ⟨kept, keptIntake, g⟩ := generated_spec signal (h.unmapped_draw htotal).1
      have hnext := h.next hpromises hasks hnone hmax g
      rw [run_bind, generateFrom_run signal hdated]
      dsimp only
      have hlength : (created ++ [submitted signal (plan.draws created.length)]).length =
          created.length + 1 := length_append
      split_ifs with hdone
      · exact ⟨_, _, rfl, hnext.sound, g.policy, Or.inr (by omega)⟩
      · rw [← hlength] at hnext
        obtain ⟨created', s', hrun, hsound, hpolicy, hmade⟩ :=
          ih hnext (by omega) hpromises.tail
        refine ⟨created', s', hrun, hsound, hpolicy.trans g.policy, Or.inr ?_⟩
        rcases hmade with ⟨rfl, -⟩ | hlt
        · omega
        · omega
    · exact ih h.skip hmax hpromises.tail

end

section

variable {s : ImprovementService} {request : Request} {draws : ℕ → Draw}

theorem mem_candidates (h : signal ∈ s.candidates tenantId) : signal ∈ s.signals := by
  have hlisted := (perm_insertionSort _ _).subset h
  exact (List.mem_filter.mp ((perm_insertionSort _ _).subset hlisted)).1

theorem nodup_candidates (s : ImprovementService) (tenantId : Option Text) :
    ((s.candidates tenantId).map (·.signalId)).Nodup := by
  have hperm : (s.candidates tenantId).Perm (s.signals.toList.filter fun signal =>
      tenantId.all fun tenant => signal.tenantId = tenant) :=
    (perm_insertionSort _ _).trans (perm_insertionSort _ _)
  rw [(hperm.map _).nodup_iff]
  exact s.signals.nodup.sublist (filter_sublist.map _)

def planOf (s : ImprovementService) (request : Request) (draws : ℕ → Draw) : Plan where
  policy := s.policy
  asks := s.Asks request
  mapped id := (s.signalIntakeMap.get? id).isSome
  draws := draws
  maxItems := s.maxItemsOf request
  total := s.toCreate request

theorem Settled.looping (h : s.Settled) (hample : s.Ample request draws now) :
    Looping (s.planOf request draws) s (s.candidates request.tenantId) 0 where
  policy := rfl
  related := h.linked.related
  linking := h.linked.linking
  backed := h.linked.backed
  once := h.once
  seen := h.seen
  full := h.capped.signals
  room := hample.room
  fresh := by
    intro k _ hk
    refine ⟨hample.fresh k hk, ?_⟩
    intro id hmap
    obtain ⟨-, intake, hintake, hid, -⟩ := h.linked.named id _ hmap
    exact hample.fresh k hk intake hintake hid
  mapped := fun _ _ _ => rfl
  present := fun signal hsignal _ _ => ⟨signal, mem_candidates hsignal, rfl, rfl⟩
  unused := by
    intro signal hsignal _ hmapped hfrom
    have hmap := h.once.mapped signal.signalId hfrom ⟨signal, mem_candidates hsignal, rfl⟩
    exact absurd hmap (Bool.eq_false_iff.mp hmapped)
  distinct := s.nodup_candidates request.tenantId
  left := by
    have hcount : (s.candidates request.tenantId).countP (fun signal =>
        (s.planOf request draws).asks signal &&
          !(s.planOf request draws).mapped signal.signalId) =
        (s.candidates request.tenantId).countP fun signal =>
          s.Asks request signal && (s.signalIntakeMap.get? signal.signalId).isNone := by
      congr 1
      funext signal
      rw [← not_isSome]
      rfl
    rw [hcount, zero_add, Nat.cast_zero, sub_zero]
    exact le_rfl

theorem Ample.promises (h : s.Ample request draws now) :
    (s.planOf request draws).Promises (s.candidates request.tenantId) where
  dated := h.dated
  distinct := h.distinct
  lasting := h.lasting

theorem Settled.next_generateIntakes (h : s.Settled) (python : Python)
    (quality : LearningSignal → Quality) (hample : s.Ample request draws now) :
    Settled (History.next (Op.run python quality) s (.generateIntakes request draws now)) := by
  have hrun : ∃ created s', (generateIntakesFromLearningSignals request draws now).run s =
      .ok created s' ∧ s'.Settled := by
    unfold generateIntakesFromLearningSignals
    rw [run_bind]
    dsimp only [run_get]
    split_ifs with hmax
    · exact ⟨[], s, rfl, h⟩
    · have hsome : (([] : List ResearchIntake).length : ℤ) < (s.planOf request draws).maxItems :=
        lt_of_not_ge hmax
      obtain ⟨created, s', hloop, hsound, hpolicy, hmade⟩ :=
        generateLoop_run rfl (h.looping hample) hsome hample.promises
      have hpersist : (persistLearningState now).run s' =
          .ok () (s'.persisted (cutoffTime s'.policy now)) := by
        refine persistLearningState_run ?_
        rw [hpolicy]
        exact hample.datedLast
      have hloop' : (generateLoop (request.minSeverity.getD s.policy.autoIntakeMinSeverity)
        (request.maxItems.getD s.policy.autoIntakeMaxItems) draws (s.candidates request.tenantId)
        []).run s = .ok created s' := hloop
      rw [run_bind, hloop']
      dsimp only
      rcases hmade with ⟨rfl, rfl⟩ | hlt
      · exact ⟨[], s', rfl, h⟩
      · have hne : created.isEmpty = false := by
          rw [isEmpty_eq_false_iff]
          exact ne_nil_of_length_pos (by simpa using hlt)
        refine ⟨created, _, ?_, hsound.settled_persisted (cutoffTime s'.policy now)⟩
        rw [hne, if_neg Bool.false_ne_true, run_bind, hpersist]
        rfl
  obtain ⟨created, s', hok, hs'⟩ := hrun
  refine h.next python quality (Or.inr ⟨s', ?_, hs'⟩)
  change (do discard (generateIntakesFromLearningSignals request draws now) : ServiceM Unit).run s =
    _
  rw [Hoare.run_discard, hok]

end

section

variable (python : Python) (quality : LearningSignal → Quality)

/-- At most one intake was generated from each signal, the links agree, the caps hold and
the persisted learning state is the one in memory. -/
structure InOrder (s : ImprovementService) : Prop where
  once : s.generatedFrom.Nodup
  linked : s.Linked
  capped : s.Capped
  stored : s.Stored

theorem Settled.inOrder (h : s.Settled) : s.InOrder :=
  ⟨h.once.nodup, h.linked, h.capped, h.stored⟩

/-- An operation that takes no intake away from a signal that may ask for another one. -/
def Careful (s : ImprovementService) : Op → Prop
  | .recordLearningSignal signal now =>
    Dated s.policy now ∧
      ((findRecentDuplicate python (received quality signal)).run s = .ok none s → s.Joins signal)
  | .generateIntakes request draws now => s.Ample request draws now
  | .submitIntake intake _ =>
    intake.generatedFromSignalId = none ∧
      ∀ other ∈ s.generatedIntakes, other.intakeId ≠ intake.intakeId
  | .transitionIntake _ _ _ now => Dated s.policy now
  | .updatePolicy policy => Capped { s with policy }
  | .reload policy => Capped { s with policy }

theorem Settled.next_of_careful (h : s.Settled)
    (hcareful : s.Careful python quality op) :
    Settled (History.next (Op.run python quality) s op) := by
  cases op with
  | recordLearningSignal signal now =>
    exact h.next_recordLearningSignal python quality hcareful.1 hcareful.2
  | generateIntakes request draws now => exact h.next_generateIntakes python quality hcareful
  | submitIntake intake now => exact h.next_submitIntake python quality hcareful.1 hcareful.2
  | transitionIntake intakeId newStatus decision now =>
    exact h.next_transitionIntake python quality hcareful
  | updatePolicy policy => exact h.next_updatePolicy python quality hcareful
  | reload policy => exact h.next_reload python quality hcareful

def opened (policy : LearningPersistencePolicy) : ImprovementService := { policy }

theorem settled_opened (policy : LearningPersistencePolicy) : (opened policy).Settled where
  linked := {
    related := fun signal h => absurd h (Records.not_mem_empty signal)
    named := fun _ _ h => by cases h
    back := fun intake h => absurd h (Records.not_mem_empty intake) }
  capped := {
    signals := fun _ _ h => h
    intakes := fun _ _ h => h }
  stored := ⟨List.Perm.refl _, List.Perm.refl _, rfl⟩
  once := ⟨nodup_nil, fun _ h => absurd h not_mem_nil⟩
  seen := fun signal h => absurd h (Records.not_mem_empty signal)

theorem inOrder_along_of_careful (policy : LearningPersistencePolicy) (ops : List Op)
    (h : History.Along (History.next (Op.run python quality)) (Careful python quality)
      (opened policy) ops) :
    History.Along (History.next (Op.run python quality))
      (fun s op => (History.next (Op.run python quality) s op).InOrder) (opened policy) ops :=
  History.Along.imp (I := Settled) (fun _ _ hs hcareful _ => hs.next_of_careful _ _ hcareful)
    (fun _ _ hs hcareful _ => (hs.next_of_careful _ _ hcareful).inOrder) (settled_opened policy) h
    h

end

def plainQuality (_ : LearningSignal) : Quality := ⟨1, "high".toList, [], Dict.empty⟩

def incident (id : Char) (time : ℤ) : LearningSignal :=
  { signalId := [id], recordedAt := time, severity := .critical, summary := [id] }

def drawn (first : Char) (time : ℤ) (k : ℕ) : Draw :=
  ⟨[first, Char.ofNat (k + 48)], time + k, time + k⟩

def quiet : List Op :=
  [.recordLearningSignal (incident 'a' 1) 1, .generateIntakes {} (drawn 'x' 3) 9]

theorem inOrder_along_quiet : History.Along (History.next (Op.run (asciiPython []) plainQuality))
    (fun s op => (History.next (Op.run (asciiPython []) plainQuality) s op).InOrder) (opened {})
    quiet := by
  have hone : toCreate (History.next (Op.run (asciiPython []) plainQuality) (opened {})
      (.recordLearningSignal (incident 'a' 1) 1)) {} = 1 := by decide +kernel
  refine inOrder_along_of_careful (asciiPython []) plainQuality {} quiet ⟨⟨?_, ?_⟩, ?_, trivial⟩
  · intro days h
    cases h
  · intro _
    exact ⟨fun intake h => absurd h not_mem_nil, fun h => absurd h not_mem_nil⟩
  · refine ⟨?_, ?_, ?_, ?_, ?_, ?_⟩
    · intro k _ days h
      cases h
    · intro days h
      cases h
    · intro k _ intake h
      exact absurd h not_mem_nil
    · intro j hj k hk _
      rw [hone] at hj hk
      omega
    · intro c h
      cases h
    · intro signal _ _ _ k _ time h
      cases h

def crowded : List Op :=
  [ .recordLearningSignal (incident 'a' 1) 1, .recordLearningSignal (incident 'b' 2) 2,
    .generateIntakes {} (drawn 'x' 3) 9, .generateIntakes {} (drawn 'y' 10) 19 ]

theorem not_inOrder_crowded :
    ¬ (crowded.foldl (History.next (Op.run (asciiPython []) plainQuality))
      (opened { maxGeneratedIntakes := some 1 })).InOrder := by
  intro h
  have hnodup := h.once
  revert hnodup
  decide +kernel

end ImprovementService

end Agent33.Improvement
