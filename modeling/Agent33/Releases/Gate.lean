import Agent33.Releases.Service

/-!
# The release gate

When a release moves to released, its required items should pass with results
from after its last failure, and RL-06 should be answered in its last validation.
Publishing asks only for the first half of that, the generic transition for
nothing.
-/

namespace Agent33.Releases

open Library Library.Hoare List Option Triple

def sinceLast (event : ReleaseEvent) (log : List ReleaseEvent) : List ReleaseEvent :=
  log.rtakeWhile fun e => decide (e ≠ event)

theorem sinceLast_of_notMem (h : event ∉ log) : sinceLast event log = log := by
  rw [sinceLast, rtakeWhile_eq_self_iff]
  intro e he
  exact decide_eq_true fun heq => h (heq ▸ he)

def sinceFailure (releaseId : String) (log : List ReleaseEvent) : List ReleaseEvent :=
  sinceLast (.moved releaseId .failed) log

def sinceValidating (releaseId : String) (log : List ReleaseEvent) : List ReleaseEvent :=
  sinceLast (.moved releaseId .validating) log

def Released (svc : ReleaseService) (releaseId : String) : Prop :=
  ∃ release, svc.releases.get? releaseId = some release ∧ release.status = .released

/-- A release becomes released only if every required item passes with a result that was
recorded after the release failed last, and RL-06 was answered since it last began to be
validated. -/
def Gated (s : ReleaseService) (op : Op) : Prop :=
  ∀ releaseId, ¬ Released s releaseId → Released (History.next Op.body s op) releaseId →
    ∃ release, s.releases.get? releaseId = some release ∧
      (∀ check ∈ release.evidence.checklist, check.required → check.passing ∧
        .checked releaseId check.checkId ∈ sinceFailure releaseId s.log) ∧
      .checked releaseId "RL-06" ∈ sinceValidating releaseId s.log

/-- If the release failed before, the required items were answered again after that; and RL-06
was since validation began. -/
def Rechecked (s : ReleaseService) (releaseId : String) (release : Release) : Prop :=
  (.moved releaseId .failed ∈ s.log → ∀ check ∈ release.evidence.checklist, check.required →
    .checked releaseId check.checkId ∈ sinceFailure releaseId s.log) ∧
  .checked releaseId "RL-06" ∈ sinceValidating releaseId s.log

/-- The generic transition is used only where publishing would do, and only releases that were
checked again are published. -/
def Checked (s : ReleaseService) : Op → Prop
  | .transition releaseId .released => ∀ release, s.releases.get? releaseId = some release →
      release.status = .validating →
        (evaluate release.evidence.checklist).1 ∧ Rechecked s releaseId release
  | .publish releaseId _ _ => ∀ release, s.releases.get? releaseId = some release →
      release.status = .validating → (evaluate release.evidence.checklist).1 →
        Rechecked s releaseId release
  | _ => True

theorem evaluate_iff {checks : List ReleaseCheck} :
    (evaluate checks).1 ↔ ∀ check ∈ checks, check.required → check.passing := by
  simp [evaluate, filter_eq_nil_iff]

def Answered (releaseId : String) (release : Release) (s : ReleaseService) : Prop :=
  ∀ check ∈ release.evidence.checklist, check.passing →
    .checked releaseId check.checkId ∈ s.log

def AllAnswered (s : ReleaseService) : Prop :=
  ∀ releaseId release, s.releases.get? releaseId = some release → Answered releaseId release s

def OnlyReleased (p : String → Prop) (s₀ s : ReleaseService) : Prop :=
  ∀ releaseId, Released s releaseId → Released s₀ releaseId ∨ p releaseId

structure Sound (p : String → Prop) (s₀ s : ReleaseService) : Prop where
  answered : AllAnswered s
  only : OnlyReleased p s₀ s

structure Fits (p : String → Prop) (s₀ : ReleaseService) (releaseId : String) (release : Release)
    (s : ReleaseService) : Prop where
  answered : Answered releaseId release s
  only : release.status = .released → Released s₀ releaseId ∨ p releaseId

variable {p : String → Prop} {s₀ s : ReleaseService} {releaseId : String} {release : Release}

theorem Sound.put (h : Sound p s₀ s) (hfits : Fits p s₀ releaseId release s) :
    Sound p s₀ { s with releases := s.releases.set releaseId release } := by
  constructor
  · intro id r hget
    dsimp only at hget
    rw [Dict.get?_set] at hget
    split_ifs at hget with hid
    · obtain rfl := some.inj hget
      exact hid ▸ hfits.answered
    · exact h.answered id r hget
  · intro id hreleased
    obtain ⟨r, hget, hstatus⟩ := hreleased
    dsimp only at hget
    rw [Dict.get?_set] at hget
    split_ifs at hget with hid
    · obtain rfl := some.inj hget
      exact hid ▸ hfits.only hstatus
    · exact h.only id ⟨r, hget, hstatus⟩

theorem Answered.log (h : Answered releaseId release s) (event : ReleaseEvent) :
    Answered releaseId release { s with log := s.log ++ [event] } :=
  fun check hcheck hpassing => mem_append_left _ (h check hcheck hpassing)

theorem Sound.log (h : Sound p s₀ s) (event : ReleaseEvent) :
    Sound p s₀ { s with log := s.log ++ [event] } :=
  ⟨fun id r hget => (h.answered id r hget).log event, h.only⟩

def Holding (p : String → Prop) (s₀ : ReleaseService) (releaseId : String) (release : Release)
    (s : ReleaseService) : Prop :=
  Sound p s₀ s ∧ Fits p s₀ releaseId release s

theorem keeps_persistState {I : ReleaseService → Prop}
    (h : ∀ s writes, I s → I { s with writes }) : Keeps I persistState := by
  refine keeps_get.bind fun svc => ?_
  split
  · exact keeps_pure _
  · refine Keeps.bind (keeps_modify fun s hs => h s _ hs) fun _ => ?_
    split_ifs
    · exact keeps_throw _
    · exact keeps_pure _

theorem keeps_sound_persistState : Keeps (Sound p s₀) persistState :=
  keeps_persistState fun _ _ h => ⟨h.answered, h.only⟩

theorem getRelease_spec (releaseId : String) :
    Triple (Sound p s₀) (getRelease releaseId)
      (fun release => Holding p s₀ releaseId release) fun _ => Sound p s₀ := by
  refine get_bind fun s hs => ?_
  cases hget : s.releases.get? releaseId with
  | none => exact triple_throw fun _ h => h ▸ hs
  | some release =>
    refine triple_pure fun _ h => ?_
    subst h
    exact ⟨hs, hs.answered releaseId release hget,
      fun hstatus => hs.only releaseId ⟨release, hget, hstatus⟩⟩

theorem putRelease_spec (releaseId : String) (release : Release) :
    Triple (Holding p s₀ releaseId release) (putRelease releaseId release)
      (fun _ => Holding p s₀ releaseId release) E :=
  triple_modify fun _ h => ⟨h.1.put h.2, h.2.answered, h.2.only⟩

theorem record_spec (event : ReleaseEvent) (releaseId : String) (release : Release) :
    Triple (Holding p s₀ releaseId release) (record event)
      (fun _ => Holding p s₀ releaseId release) E :=
  triple_modify fun _ h => ⟨h.1.log event, h.2.answered.log event, h.2.only⟩

theorem persistState_spec (releaseId : String) (release : Release) :
    Triple (Holding p s₀ releaseId release) persistState
      (fun _ => Holding p s₀ releaseId release) fun _ => Sound p s₀ :=
  conseq
    (keeps_persistState fun _ _ h => ⟨⟨h.1.answered, h.1.only⟩, h.2.answered, h.2.only⟩)
    (fun _ => id) (fun _ _ => id) fun _ _ h => h.1

theorem transition_spec (releaseId : String) (hto : toStatus = .released → p releaseId) :
    Triple (Sound p s₀) (transition releaseId toStatus)
      (fun release => Holding p s₀ releaseId release) fun _ => Sound p s₀ := by
  refine (getRelease_spec releaseId).bind fun release => ?_
  by_cases hvalid : toStatus ∈ validTransitions release.status
  · rw [if_neg (not_not_intro hvalid)]
    refine bind
      (Q := fun _ => Holding p s₀ releaseId { release with status := toStatus })
      (triple_modify fun s h => ?_) fun _ => ?_
    · have hfits : Fits p s₀ releaseId { release with status := toStatus } s :=
        ⟨h.2.answered, fun hstatus => .inr (hto hstatus)⟩
      exact ⟨h.1.put hfits, hfits.answered, hfits.only⟩
    · refine (record_spec _ releaseId _).bind fun _ => ?_
      exact (persistState_spec releaseId _).bind fun _ => triple_pure fun _ h => h
  · rw [if_pos hvalid]
    exact triple_throw fun _ h => h.1

theorem mem_updateChecks {checks checklist : List ReleaseCheck}
    (h : updateChecks checkId status message checks = some checklist) (hcheck : check ∈ checklist) :
    check ∈ checks ∨ check.checkId = checkId := by
  induction checks generalizing checklist with
  | nil => cases h
  | cons c checks ih =>
    by_cases hid : c.checkId = checkId
    · rw [updateChecks, if_pos hid] at h
      obtain rfl := some.inj h
      rcases mem_cons.mp hcheck with rfl | hcheck
      · exact .inr hid
      · exact .inl (mem_cons_of_mem c hcheck)
    · rw [updateChecks, if_neg hid] at h
      obtain ⟨rest, hrest, rfl⟩ := map_eq_some_iff.mp h
      rcases mem_cons.mp hcheck with rfl | hcheck
      · exact .inl mem_cons_self
      · exact (ih hrest hcheck).imp_left (mem_cons_of_mem c)

theorem applyCheck_spec (releaseId : String) (release : Release) (checkId : String)
    (status : CheckStatus) (message : String) :
    Triple (Holding p s₀ releaseId release)
      (applyCheck releaseId release checkId status message) (fun _ => Sound p s₀)
      fun _ => Sound p s₀ := by
  unfold applyCheck
  split
  · exact conseq (putRelease_spec releaseId release) (fun _ => id)
      (fun _ _ h => h.1) fun _ _ h => h
  · rename_i checklist hupdate
    refine bind (Q := fun _ => Holding p s₀ releaseId
      { release with evidence := { release.evidence with checklist } })
      (triple_modify fun s h => ⟨h.1.log _, ?_, h.2.only⟩) fun _ => ?_
    · intro check hcheck hpassing
      rcases mem_updateChecks hupdate hcheck with hold | rfl
      · exact mem_append_left _ (h.2.answered check hold hpassing)
      · exact mem_append_right _ (mem_singleton_self _)
    · exact conseq (putRelease_spec releaseId _) (fun _ => id)
        (fun _ _ h => h.1) fun _ _ h => h

theorem applyGate_spec (releaseId : String) (release : Release) (result : SecurityGateResult) :
    Triple (Holding p s₀ releaseId release) (applyGate releaseId release result)
      (fun _ => Sound p s₀) fun _ => Sound p s₀ := by
  refine bind (Q := fun _ => Sound p s₀) ?_ fun _ => keeps_sound_persistState
  exact conseq (applyCheck_spec releaseId _ _ _ _)
    (fun _ h => ⟨h.1, h.2.answered, h.2.only⟩) (fun _ _ => id) fun _ _ => id

theorem autoEvaluateSecurityGate_spec (releaseId : String) (release : Release)
    (lookup : ScanLookup) :
    Triple (Holding p s₀ releaseId release)
      (autoEvaluateSecurityGate releaseId release lookup) (fun _ => Sound p s₀)
      fun _ => Sound p s₀ := by
  refine bind (triple_get fun _ h => h) fun svc => ?_
  split
  · exact triple_pure fun _ h => h.1
  · split
    · exact (applyCheck_spec releaseId release _ _ _).bind fun _ => keeps_sound_persistState
    · split
      · exact (applyCheck_spec releaseId release _ _ _).bind fun _ => keeps_sound_persistState
      · exact applyGate_spec releaseId release _

theorem keeps_publish (releaseId releasedBy : String) (now : ℤ) (hp : p releaseId) :
    Keeps (Sound p s₀) (publish releaseId releasedBy now) := by
  refine bind (getRelease_spec releaseId) fun release => ?_
  split
  · exact triple_throw fun _ h => h.1
  · refine bind (conseq (transition_spec releaseId fun _ => hp)
      (fun _ h => h.1) (fun _ _ => id) fun _ _ => id) fun release => ?_
    refine bind (Q := fun _ => Sound p s₀) ?_ fun _ => ?_
    · exact triple_modify fun s h => h.1.put ⟨h.2.answered, fun _ => .inr hp⟩
    · exact Keeps.bind keeps_sound_persistState fun _ => keeps_pure _

theorem keeps_transition (releaseId : String) (hto : toStatus = .released → p releaseId) :
    Keeps (Sound p s₀) (transition releaseId toStatus) :=
  conseq (transition_spec releaseId hto) (fun _ => id) (fun _ _ h => h.1) fun _ _ => id

theorem keeps_cutRc (releaseId rcVersion : String) :
    Keeps (Sound p s₀) (cutRc releaseId rcVersion) := by
  refine bind (transition_spec releaseId (by simp)) fun release => ?_
  split_ifs
  · exact triple_pure fun _ h => h.1
  · refine bind (Q := fun _ => Sound p s₀) ?_ fun _ => keeps_pure _
    exact triple_modify fun s h => h.1.put ⟨h.2.answered, h.2.only⟩

theorem keeps_createRelease (releaseId version : String) (releaseType : ReleaseType)
    (description : String) :
    Keeps (Sound p s₀) (createRelease releaseId version releaseType description) := by
  refine Keeps.bind (keeps_modify fun s h => h.put ⟨?_, by simp⟩) fun _ => ?_
  · intro check hcheck hpassing
    obtain ⟨c, -, rfl⟩ := List.mem_map.mp hcheck
    exact absurd hpassing (by simp [ReleaseCheck.passing])
  · exact Keeps.bind keeps_sound_persistState fun _ => keeps_pure _

theorem keeps_initiateRollback (releaseId : String) :
    Keeps (Sound p s₀) (initiateRollback releaseId) := by
  refine bind (getRelease_spec releaseId) fun release => ?_
  refine bind (persistState_spec releaseId release) fun _ => ?_
  refine conseq (P := Sound p s₀) ?_ (fun _ h => h.1) (fun _ _ => id) fun _ _ => id
  split_ifs
  · refine Keeps.bind ?_ fun _ => keeps_sound_persistState
    exact Keeps.bind (keeps_transition releaseId (by simp)) fun _ => keeps_pure _
  · exact keeps_sound_persistState

theorem keeps_startValidation (releaseId : String) (lookup : ScanLookup) :
    Keeps (Sound p s₀) (startValidation releaseId lookup) :=
  bind (transition_spec releaseId (by simp)) fun release =>
    autoEvaluateSecurityGate_spec releaseId release lookup

theorem keeps_updateCheck (releaseId checkId : String) (status : CheckStatus) (message : String) :
    Keeps (Sound p s₀) (updateCheck releaseId checkId status message) :=
  bind (getRelease_spec releaseId) fun release =>
    (applyCheck_spec releaseId release _ _ _).bind fun _ => keeps_sound_persistState

theorem keeps_applyComponentSecurityGate (releaseId : String) (summary : FindingsSummary)
    (policy : Option SecurityGatePolicy) :
    Keeps (Sound p s₀) (applyComponentSecurityGate releaseId summary policy) :=
  bind (getRelease_spec releaseId) fun release =>
    (applyGate_spec releaseId release _).bind fun _ => keeps_pure _

def Op.MayRelease (op : Op) (releaseId : String) : Prop :=
  op = .transition releaseId .released ∨ ∃ releasedBy now, op = .publish releaseId releasedBy now

theorem keeps_body (op : Op) : Keeps (Sound op.MayRelease s₀) op.body := by
  cases op with
  | createRelease releaseId version releaseType description =>
    exact (keeps_createRelease releaseId version releaseType description).bind fun _ =>
      keeps_pure _
  | transition releaseId toStatus =>
    refine (keeps_transition releaseId ?_).bind fun _ => keeps_pure _
    rintro rfl
    exact .inl rfl
  | freeze releaseId =>
    exact (keeps_transition releaseId (by simp)).bind fun _ => keeps_pure _
  | cutRc releaseId rcVersion =>
    exact (keeps_cutRc releaseId rcVersion).bind fun _ => keeps_pure _
  | startValidation releaseId lookup => exact keeps_startValidation releaseId lookup
  | publish releaseId releasedBy now =>
    exact (keeps_publish releaseId releasedBy now (.inr ⟨releasedBy, now, rfl⟩)).bind fun _ =>
      keeps_pure _
  | markFailed releaseId =>
    exact (keeps_transition releaseId (by simp)).bind fun _ => keeps_pure _
  | updateCheck releaseId checkId status message =>
    exact keeps_updateCheck releaseId checkId status message
  | applyComponentSecurityGate releaseId summary policy =>
    exact (keeps_applyComponentSecurityGate releaseId summary policy).bind fun _ =>
      keeps_pure _
  | initiateRollback releaseId => exact keeps_initiateRollback releaseId

theorem sound_next (h : AllAnswered s) (op : Op) :
    Sound op.MayRelease s (History.next Op.body s op) :=
  History.next_of_triple Op.body (keeps_body op) ⟨h, fun _ => .inl⟩

theorem getRelease_state (s : ReleaseService) (releaseId : String) :
    Triple (fun s' => s' = s) (getRelease releaseId)
      (fun release s' => s' = s ∧ s.releases.get? releaseId = some release) fun _ s' => s' = s := by
  refine get_bind fun s' hs' => ?_
  rw [hs']
  cases hget : s.releases.get? releaseId with
  | none => exact triple_throw fun _ h => h
  | some release => exact triple_pure fun _ h => ⟨h, rfl⟩

theorem transition_refused (hstatus : ∀ release, s.releases.get? releaseId = some release →
      release.status ≠ .validating) :
    Triple (fun s' => s' = s) (transition releaseId .released) (fun _ _ => False)
      fun _ s' => s' = s := by
  refine (getRelease_state s releaseId).bind fun release => of_fact fun hget => ?_
  have hinvalid : ReleaseStatus.released ∉ validTransitions release.status := by
    have := hstatus release hget
    cases hr : release.status <;> simp_all [validTransitions]
  rw [if_pos hinvalid]
  exact triple_throw fun _ h => h

theorem getRelease_some (hget : s.releases.get? releaseId = some release) :
    Triple (fun s' => s' = s) (getRelease releaseId)
      (fun r s' => s' = s ∧ r = release) E := by
  refine get_bind fun s' hs' => ?_
  rw [hs', hget]
  exact triple_pure fun _ h => ⟨h, rfl⟩

theorem transition_released (hget : s.releases.get? releaseId = some release)
    (hstatus : release.status = .validating) :
    Triple (fun s' => s' = s) (transition releaseId .released)
      (fun r s' => Released s' releaseId ∧ r.status = .released)
      fun _ s' => Released s' releaseId := by
  refine (getRelease_some hget).bind fun r => of_fact fun hr => ?_
  subst hr
  rw [if_neg (by simp [hstatus, validTransitions])]
  refine bind (Q := fun _ s' => Released s' releaseId)
    (triple_modify fun s' _ => ⟨_, by rw [Dict.get?_set, if_pos rfl], rfl⟩) fun _ => ?_
  refine bind (Q := fun _ s' => Released s' releaseId)
    (triple_modify fun s' h => h) fun _ => ?_
  exact bind (keeps_persistState fun _ _ h => h) fun _ =>
    triple_pure fun _ h => ⟨h, rfl⟩

theorem publish_refused (hrefused : ∀ release, s.releases.get? releaseId = some release →
      (evaluate release.evidence.checklist).1 → release.status ≠ .validating)
    (releasedBy : String) (now : ℤ) :
    Triple (fun s' => s' = s) (publish releaseId releasedBy now) (fun _ s' => s' = s)
      fun _ s' => s' = s := by
  refine (getRelease_state s releaseId).bind fun release => of_fact fun hget => ?_
  cases hpassed : (evaluate release.evidence.checklist).1 with
  | false => exact triple_throw fun _ h => h
  | true =>
    have hstatus : ∀ r, s.releases.get? releaseId = some r → r.status ≠ .validating := by
      intro r hr
      obtain rfl := some.inj (hget.symm.trans hr)
      exact hrefused release hget hpassed
    exact (transition_refused hstatus).bind fun _ _ h => h.elim

theorem publish_released (hget : s.releases.get? releaseId = some release)
    (hstatus : release.status = .validating) (hpassed : (evaluate release.evidence.checklist).1)
    (releasedBy : String) (now : ℤ) :
    Triple (fun s' => s' = s) (publish releaseId releasedBy now)
      (fun _ s' => Released s' releaseId) fun _ s' => Released s' releaseId := by
  refine (getRelease_some hget).bind fun r => of_fact fun hr => ?_
  subst hr
  rw [if_neg (by simp [hpassed])]
  refine (transition_released hget hstatus).bind fun r' => ?_
  refine bind (Q := fun _ s' => Released s' releaseId)
    (triple_modify fun s' h => ?_) fun _ => ?_
  · exact ⟨{ r' with releasedBy, releasedAt := some now }, by rw [Dict.get?_set, if_pos rfl], h.2⟩
  · exact Keeps.bind (keeps_persistState fun _ _ h => h) fun _ => keeps_pure _

theorem next_transition (s : ReleaseService) (releaseId : String)
    {Q : Release → ReleaseService → Prop}
    (h : Triple (fun s' => s' = s) (transition releaseId .released) Q fun _ => P)
    (hQ : ∀ r s', Q r s' → P s') : P (History.next Op.body s (.transition releaseId .released)) :=
  History.next_of_triple Op.body (h.bind fun r => triple_pure (hQ r)) rfl

theorem next_publish (s : ReleaseService) (releaseId releasedBy : String) (now : ℤ)
    (h : Triple (fun s' => s' = s) (publish releaseId releasedBy now) (fun _ => P)
      fun _ => P) :
    P (History.next Op.body s (.publish releaseId releasedBy now)) :=
  History.next_of_triple Op.body (h.bind fun _ => triple_pure fun _ hP => hP) rfl

theorem not_released (hget : s.releases.get? releaseId = some release)
    (hstatus : release.status = .validating) : ¬ Released s releaseId := by
  intro ⟨r, hr, hreleased⟩
  obtain rfl := some.inj (hget.symm.trans hr)
  rw [hstatus] at hreleased
  cases hreleased

theorem checked_of_gated (hgated : Gated s op) : Checked s op := by
  cases op with
  | transition id toStatus =>
    cases toStatus with
    | released =>
      intro release hget hstatus
      obtain ⟨r, hr, hchecks, hsecurity⟩ := hgated id (not_released hget hstatus)
        (next_transition s id (transition_released hget hstatus) fun _ _ h => h.1)
      obtain rfl := some.inj (hget.symm.trans hr)
      exact ⟨evaluate_iff.mpr fun c hc hrequired => (hchecks c hc hrequired).1,
        fun _ c hc hrequired => (hchecks c hc hrequired).2, hsecurity⟩
    | _ => trivial
  | publish id releasedBy now =>
    intro release hget hstatus hpassed
    obtain ⟨r, hr, hchecks, hsecurity⟩ := hgated id (not_released hget hstatus)
      (next_publish s id releasedBy now
        (publish_released hget hstatus hpassed releasedBy now))
    obtain rfl := some.inj (hget.symm.trans hr)
    exact ⟨fun _ c hc hrequired => (hchecks c hc hrequired).2, hsecurity⟩
  | _ => trivial

theorem gate_of_rechecked (h : AllAnswered s) (hget : s.releases.get? releaseId = some release)
    (hpassed : (evaluate release.evidence.checklist).1)
    (hrechecked : Rechecked s releaseId release) :
    (∀ check ∈ release.evidence.checklist, check.required → check.passing ∧
      .checked releaseId check.checkId ∈ sinceFailure releaseId s.log) ∧
    .checked releaseId "RL-06" ∈ sinceValidating releaseId s.log := by
  refine ⟨fun check hcheck hrequired => ?_, hrechecked.2⟩
  have hpassing := evaluate_iff.mp hpassed check hcheck hrequired
  refine ⟨hpassing, ?_⟩
  by_cases hfailed : .moved releaseId .failed ∈ s.log
  · exact hrechecked.1 hfailed check hcheck hrequired
  · rw [sinceFailure, sinceLast_of_notMem hfailed]
    exact h releaseId release hget check hcheck hpassing

theorem gated_of_checked (h : AllAnswered s) (hchecked : Checked s op) : Gated s op := by
  intro id hnot hreleased
  rcases (sound_next h op).only id hreleased with hbefore | rfl | ⟨releasedBy, now, rfl⟩
  · exact absurd hbefore hnot
  · by_cases hvalidating :
        ∃ release, s.releases.get? id = some release ∧ release.status = .validating
    · obtain ⟨release, hget, hstatus⟩ := hvalidating
      obtain ⟨hpassed, hrechecked⟩ := hchecked release hget hstatus
      exact ⟨release, hget, gate_of_rechecked h hget hpassed hrechecked⟩
    · have hsame := next_transition s id (transition_refused fun release hget hstatus =>
        hvalidating ⟨release, hget, hstatus⟩) fun _ _ h => h.elim
      exact absurd (hsame ▸ hreleased) hnot
  · by_cases hready : ∃ release, s.releases.get? id = some release ∧
        (evaluate release.evidence.checklist).1 ∧ release.status = .validating
    · obtain ⟨release, hget, hpassed, hstatus⟩ := hready
      have hrechecked := hchecked release hget hstatus hpassed
      exact ⟨release, hget, gate_of_rechecked h hget hpassed hrechecked⟩
    · have hrefused := publish_refused
        (fun release hget hpassed hstatus => hready ⟨release, hget, hpassed, hstatus⟩)
      have hsame := next_publish s id releasedBy now (hrefused releasedBy now)
      exact absurd (hsame ▸ hreleased) hnot

theorem gated_iff (h : AllAnswered s) (op : Op) : Gated s op ↔ Checked s op :=
  ⟨checked_of_gated, gated_of_checked h⟩

/-- In a run every release that becomes released has passed the gate if and only if the
operations that release one come after its checks. -/
theorem run_gated_iff (hasScanService : Bool) (securityGatePolicy : SecurityGatePolicy)
    (writes : List Bool) (ops : List Op) :
    History.Along (History.next Op.body) Gated { hasScanService, securityGatePolicy, writes } ops ↔
      History.Along (History.next Op.body) Checked { hasScanService, securityGatePolicy, writes }
        ops :=
  History.along_congr (I := AllAnswered) (fun _ op h _ => (sound_next h op).answered)
    (fun _ op h => gated_iff h op) (fun _ _ hget => by cases hget) ops

def validatingService : ReleaseService :=
  [Op.createRelease "REL-1" "1.0.0" .minor "", .freeze "REL-1", .cutRc "REL-1" "1.0.0-rc.1",
    .startValidation "REL-1" (.ok [])].foldl (History.next Op.body) { hasScanService := true }

/-- The generic transition releases what no one has checked. -/
theorem unchecked_not_gated :
    ¬ History.Along (History.next Op.body) Gated { hasScanService := true }
      [.createRelease "REL-1" "1.0.0" .minor "", .freeze "REL-1", .cutRc "REL-1" "1.0.0-rc.1",
        .startValidation "REL-1" (.ok []), .transition "REL-1" .released] := by
  intro h
  have hbefore : (validatingService.releases.get? "REL-1").map (fun release =>
      (release.status, (evaluate release.evidence.checklist).1)) = some (.validating, false) := by
    decide
  have hafter : ((History.next Op.body validatingService
      (.transition "REL-1" .released)).releases.get? "REL-1").map Release.status =
        some .released := by
    decide
  obtain ⟨release, hget, hfields⟩ := map_eq_some_iff.mp hbefore
  obtain ⟨hstatus, hpassed⟩ := Prod.mk.inj hfields
  obtain ⟨r, hr, hchecks, -⟩ := h.2.2.2.2.1 "REL-1" (not_released hget hstatus)
    (map_eq_some_iff.mp hafter)
  obtain rfl := some.inj (hget.symm.trans hr)
  rw [evaluate_iff.mpr fun c hc hrequired => (hchecks c hc hrequired).1] at hpassed
  cases hpassed

end Agent33.Releases
