import Agent33.Agents.Reasoning
import Mathlib.Tactic.Linarith

/-!
# Reasoning runs end, with the output that was verified

A turn of the loop skips a phase or records a step, so that their number is bounded.
A pass of the phases goes from an execution to its verification and on to the last
phase, and everything else goes back to the first phase and withdraws the verdict.
The one way out that the configuration has to exclude is a degraded step whose
confidence is none.
-/

namespace Agent33.Agents.Reasoning

open Library Hoare List EStateM Triple

structure Frame (s s' : ReasoningState) : Prop where
  phase : s'.currentPhase = s.currentPhase
  steps : s'.steps = s.steps
  index : s'.currentStepIndex = s.currentStepIndex
  resets : s'.resetCount = s.resetCount

structure Fails (s s' : ReasoningState) : Prop extends Frame s s' where
  output : s'.phaseArtifacts.execute = s.phaseArtifacts.execute
  validated : s'.validated = s.validated

structure Dispatched (s : ReasoningState) (r : RecordedStep × NextAction) (s' : ReasoningState) :
    Prop extends Frame s s' where
  stepPhase : r.1.step.phase = s.currentPhase
  executed : s.currentPhase = .execute → r.1.outcome = .executed s'.extractOutput ∧ r.2 = .validate
  output : s.currentPhase ≠ .execute → s'.extractOutput = s.extractOutput
  verified : s.currentPhase = .verify → s'.validated = true →
    r.1.outcome = .verified true ∧ r.2 = .proceed
  validated : s.currentPhase ≠ .verify → s'.validated = s.validated
  learnt : s.currentPhase = .learn → s.validated = true → r.2 = .finalAnswer
  validates : r.2 = .validate → s.currentPhase = .execute

theorem Frame.refl (s : ReasoningState) : Frame s s := ⟨rfl, rfl, rfl, rfl⟩

theorem Fails.refl (s : ReasoningState) : Fails s s :=
  { Frame.refl s with output := rfl, validated := rfl }

theorem Frame.trans (h : Frame s s') (h' : Frame s' s'') : Frame s s'' :=
  ⟨h'.phase.trans h.phase, h'.steps.trans h.steps, h'.index.trans h.index,
    h'.resets.trans h.resets⟩

section Phases

variable {W : Type} {protocol : ReasoningProtocol W}

theorem callPort_spec {α : Type} (port : W → Except Text α × W) (s : ReasoningState) :
    Triple (fun d => d.state = s) (callPort port) (fun _ d => d.state = s)
      fun e d => d.state = s ∧ ∃ text, e = .phase text := by
  intro d hd
  simp only [callPort, run_bind, run_get, run_modify]
  cases (port d.world).1 with
  | ok a => exact hd
  | error text => exact ⟨hd, text, rfl⟩

def PhaseSpec (s : ReasoningState) (x : ReasoningM W (RecordedStep × NextAction)) : Prop :=
  Triple (fun d => d.state = s) x (fun r d => Dispatched s r d.state)
    fun e d => Fails s d.state ∧ ∃ text, e = .phase text

variable {s s' s'' : ReasoningState}

theorem phaseSpec_call {α : Type} {port : W → Except Text α × W}
    {f : α → ReasoningM W (RecordedStep × NextAction)}
    (hf : ∀ a, Triple (fun d => d.state = s) (f a) (fun r d => Dispatched s r d.state)
      fun _ _ => False) :
    PhaseSpec s (callPort port >>= f) := by
  refine (callPort_spec port s).conseq (fun _ h => h) (fun _ _ h => h) ?_ |>.bind fun a => ?_
  · rintro e d ⟨rfl, htext⟩
    exact ⟨.refl _, htext⟩
  · exact (hf a).conseq (fun _ h => h) (fun _ _ h => h) fun _ _ h => h.elim

theorem Dispatched.plain (hframe : Frame s s')
    (hplain : s.currentPhase = .observe ∨ s.currentPhase = .plan)
    (hstep : step.step.phase = s.currentPhase) (houtput : s'.extractOutput = s.extractOutput)
    (hvalidated : s'.validated = s.validated) : Dispatched s (step, .proceed) s' where
  toFrame := hframe
  stepPhase := hstep
  executed h := by simp [h] at hplain
  output _ := houtput
  verified h := by simp [h] at hplain
  validated _ := hvalidated
  learnt h := by simp [h] at hplain
  validates := nofun

theorem Dispatched.verify (hs : s.currentPhase = .verify) (hframe : Frame s s')
    (hstep : step.step.phase = s.currentPhase) (houtput : s'.extractOutput = s.extractOutput)
    (hverified : s'.validated = true → step.outcome = .verified true ∧ action = .proceed)
    (haction : action ≠ .validate) : Dispatched s (step, action) s' where
  toFrame := hframe
  stepPhase := hstep
  executed h := absurd (hs.symm.trans h) nofun
  output _ := houtput
  verified _ := hverified
  validated h := absurd hs h
  learnt h := absurd (hs.symm.trans h) nofun
  validates h := absurd h haction

theorem phaseObserve_spec (hs : s.currentPhase = .observe) :
    PhaseSpec s (phaseObserve protocol input) := by
  refine phaseSpec_call fun response => ?_
  rintro d rfl
  exact .plain ⟨rfl, rfl, rfl, rfl⟩ (.inl hs) hs.symm rfl rfl

theorem phasePlan_spec (hs : s.currentPhase = .plan) : PhaseSpec s (phasePlan protocol input) := by
  refine get_bind fun d hd => ?_
  refine (phaseSpec_call (s := s) fun response => ?_).pre ?_
  · rintro d rfl
    exact .plain ⟨rfl, rfl, rfl, rfl⟩ (.inr hs) hs.symm rfl rfl
  · rintro _ rfl
    exact hd

theorem phaseExecute_spec (hs : s.currentPhase = .execute) :
    PhaseSpec s (phaseExecute protocol input) := by
  refine phaseSpec_call fun loopResult => ?_
  rintro d rfl
  exact {
    phase := rfl, steps := rfl, index := rfl, resets := rfl
    stepPhase := hs.symm
    executed := fun _ => ⟨rfl, rfl⟩
    output := fun h => absurd hs h
    verified := fun h => absurd (hs.symm.trans h) nofun
    validated := fun _ => rfl
    learnt := fun h => absurd (hs.symm.trans h) nofun
    validates := fun _ => hs }

theorem phaseVerify_spec (hs : s.currentPhase = .verify) :
    PhaseSpec s (phaseVerify protocol input) := by
  rw [phaseVerify]
  cases protocol.iscManager with
  | none =>
    rintro d rfl
    exact .verify hs ⟨rfl, rfl, rfl, rfl⟩ hs.symm rfl (fun _ => ⟨rfl, rfl⟩) nofun
  | some evaluateAll =>
    refine get_bind fun d hd => ?_
    refine (phaseSpec_call (s := s) fun results => ?_).pre ?_
    · rintro d rfl
      simp only [modifyArtifacts, modifyState, run_bind, run_modify]
      split_ifs with hpassed
      · exact .verify hs ⟨rfl, rfl, rfl, rfl⟩ hs.symm rfl (fun _ => ⟨rfl, rfl⟩) nofun
      · exact .verify hs ⟨rfl, rfl, rfl, rfl⟩ hs.symm rfl (absurd · hpassed) nofun
    · rintro _ rfl
      exact hd

theorem phaseLearn_spec (hs : s.currentPhase = .learn) :
    PhaseSpec s (phaseLearn protocol input) := by
  refine get_bind fun d hd => ?_
  refine (phaseSpec_call (s := s) fun response => ?_).pre ?_
  · rintro d rfl
    exact {
      phase := rfl, steps := rfl, index := rfl, resets := rfl
      stepPhase := hs.symm
      executed := fun h => absurd (hs.symm.trans h) nofun
      output := fun _ => rfl
      verified := fun h => absurd (hs.symm.trans h) nofun
      validated := fun _ => rfl
      learnt := fun _ hvalidated => if_pos hvalidated
      validates := fun h => by
        dsimp only at h
        split_ifs at h }
  · rintro _ rfl
    exact hd

theorem dispatchPhase_spec (s : ReasoningState) : PhaseSpec s (dispatchPhase protocol input) := by
  refine get_bind fun d hd => ?_
  have hfound : ∀ d', d' = d → d'.state = s := by
    rintro _ rfl
    exact hd
  subst hd
  cases hs : d.state.currentPhase with
  | observe => exact (phaseObserve_spec hs).pre hfound
  | plan => exact (phasePlan_spec hs).pre hfound
  | execute => exact (phaseExecute_spec hs).pre hfound
  | verify => exact (phaseVerify_spec hs).pre hfound
  | learn => exact (phaseLearn_spec hs).pre hfound

theorem Fails.trans (h : Fails s s') (h' : Fails s' s'') : Fails s s'' :=
  { h.toFrame.trans h'.toFrame with
    output := h'.output.trans h.output
    validated := h'.validated.trans h.validated }

theorem Fails.extractOutput (h : Fails s s') : s'.extractOutput = s.extractOutput := by
  rw [ReasoningState.extractOutput, ReasoningState.extractOutput, h.output]

theorem Fails.dispatched (h : Fails s s')
    (h' : Dispatched s' r s'') :
    Dispatched s r s'' where
  toFrame := h.toFrame.trans h'.toFrame
  stepPhase := h'.stepPhase.trans h.phase
  executed hs := h'.executed (h.phase.trans hs)
  output hs := (h'.output (h.phase ▸ hs)).trans h.extractOutput
  verified hs := h'.verified (h.phase.trans hs)
  validated hs := (h'.validated (h.phase ▸ hs)).trans h.validated
  learnt hs hvalidated := h'.learnt (h.phase.trans hs) (h.validated.trans hvalidated)
  validates hr := h.phase.symm.trans (h'.validates hr)

theorem attempted_spec {α : Type} {x : ReasoningM W α} {P : ReasoningData W → Prop}
    {Q : α → ReasoningData W → Prop} {E : ReasoningError → ReasoningData W → Prop}
    (hx : Triple P x Q E) :
    Triple P (attempted x)
      (fun r d => match r with
        | .ok a => Q a d
        | .error e => E e d) fun _ _ => False := by
  have hok : Triple P (do return Except.ok (← x)) (fun r d => match r with
      | .ok a => Q a d
      | .error e => E e d) E :=
    hx.bind fun a => triple_pure fun _ h => h
  exact hok.tryCatch fun e => triple_pure fun _ h => h

def Attempted (s : ReasoningState) (r : Except ReasoningError (RecordedStep × NextAction))
    (d : ReasoningData W) : Prop :=
  match r with
  | .ok r => Dispatched s r d.state
  | .error e => Fails s d.state ∧ ∃ text, e = .phase text

theorem dispatchPhase_again (s : ReasoningState) :
    Triple (fun d => Fails s d.state) (dispatchPhase protocol input)
      (fun r d => Dispatched s r d.state) fun e d => Fails s d.state ∧ ∃ text, e = .phase text := by
  intro d hd
  exact (dispatchPhase_spec d.state).conseq (fun _ h => h) (fun _ _ h => hd.dispatched h)
    (fun _ _ h => ⟨hd.trans h.1, h.2⟩) d rfl

theorem finish_spec (s : ReasoningState) (attempt : ℕ) :
    Triple (fun d => Fails s d.state) (attempts.finish protocol input attempt) (Attempted s)
      fun _ _ => False := by
  refine (attempted_spec (dispatchPhase_again s)).bind fun r => ?_
  cases r with
  | error e =>
    simp only [Except.isOk, Except.toBool, Bool.false_eq_true, and_false, if_false]
    exact triple_pure fun _ h => h
  | ok r =>
    by_cases hattempt : 1 < attempt
    · simp only [hattempt, Except.isOk, Except.toBool, and_self, if_true]
      exact fun d hd => { hd with }
    · simp only [hattempt, false_and, if_false]
      exact triple_pure fun _ h => h

theorem attempts_spec (s : ReasoningState) (remaining attempt : ℕ) :
    Triple (fun d => Fails s d.state) (attempts protocol input attempt remaining) (Attempted s)
      fun _ _ => False := by
  induction remaining generalizing attempt with
  | zero => exact finish_spec s attempt
  | succ remaining ih =>
    refine (finish_spec s attempt).bind fun r => ?_
    cases r with
    | ok r => exact triple_pure fun _ h => h
    | error e => exact (ih (attempt + 1)).pre fun _ h => h.1

def ValidConfidence (config : ReasoningConfig) : Prop :=
  0 ≤ degradedConfidence config ∧ degradedConfidence config ≤ 1

def Raises (config : ReasoningConfig) (e : ReasoningError) : Prop :=
  (∃ text, e = .phase text) ∧ config.enableGracefulDegradation = false ∨
    e = .validationError (degradedConfidence config) ∧ ¬ValidConfidence config ∧
      config.enableGracefulDegradation = true

def Recovered (s : ReasoningState) (r : RecordedStep × NextAction × Option TerminationReason)
    (d : ReasoningData W) : Prop :=
  match r with
  | (step, action, none) => Dispatched s (step, action) d.state
  | (_, _, some reason) => Frame s d.state ∧ reason = .degradedPhaseDispatchFailure

theorem degrade_spec (s : ReasoningState) (totalAttempts : ℕ) (lastError : ReasoningError)
    (hgraceful : protocol.config.enableGracefulDegradation = true) :
    Triple (fun d => Frame s d.state) (degrade protocol totalAttempts lastError) (Recovered s)
      fun e _ => Raises protocol.config e := by
  rw [degrade]
  refine get_bind fun d hd => ?_
  dsimp only
  split_ifs with hverify hvalid hvalid
  · rintro _ rfl
    exact ⟨⟨hd.phase, hd.steps, hd.index, hd.resets⟩, rfl⟩
  · rintro _ rfl
    exact .inr ⟨rfl, hvalid, hgraceful⟩
  · rintro _ rfl
    exact ⟨⟨hd.phase, hd.steps, hd.index, hd.resets⟩, rfl⟩
  · rintro _ rfl
    exact .inr ⟨rfl, hvalid, hgraceful⟩

theorem dispatchPhaseWithRecovery_spec (s : ReasoningState) :
    Triple (fun d => d.state = s) (dispatchPhaseWithRecovery protocol input) (Recovered s)
      fun e _ => Raises protocol.config e := by
  have hfails : ∀ d : ReasoningData W, d.state = s → Fails s d.state := by
    rintro d rfl
    exact .refl _
  refine ((attempts_spec s _ 1).conseq hfails (fun _ _ h => h) fun _ _ h => h.elim).bind
    fun r => ?_
  cases r with
  | ok r => exact triple_pure fun _ h => h
  | error e =>
    refine of_fact (P := fun d : ReasoningData W => Fails s d.state) fun he => ?_
    dsimp only
    split_ifs with hgraceful
    · exact (degrade_spec s _ e hgraceful).pre fun _ h => h.toFrame
    · exact triple_throw fun _ _ => .inl ⟨he, by simpa using hgraceful⟩

end Phases

variable (steps : List RecordedStep) (output : Text)

def LatestExecute (rest : List RecordedStep) : Prop :=
  ∃ before execute, steps = before ++ execute :: rest ∧ execute.step.phase = .execute ∧
    execute.outcome = .executed output ∧ ∀ step ∈ rest, step.step.phase ≠ .execute

def HasOutput : Prop :=
  ∃ rest, LatestExecute steps output rest

def VerifiedOutput : Prop :=
  ∃ rest, LatestExecute steps output rest ∧
    ∃ verify ∈ rest, verify.step.phase = .verify ∧ verify.outcome = .verified true

section Output

variable {steps rest : List RecordedStep} {output : Text}

theorem LatestExecute.snoc (h : LatestExecute steps output rest)
    (hstep : step.step.phase ≠ .execute) :
    LatestExecute (steps ++ [step]) output (rest ++ [step]) := by
  obtain ⟨before, execute, rfl, hphase, houtcome, hrest⟩ := h
  refine ⟨before, execute, by simp, hphase, houtcome, fun other hother => ?_⟩
  rcases mem_append.mp hother with hother | hother
  · exact hrest other hother
  · obtain rfl := mem_singleton.mp hother
    exact hstep

theorem hasOutput_executed (hphase : step.step.phase = .execute)
    (houtcome : step.outcome = .executed output) : HasOutput (steps ++ [step]) output :=
  ⟨[], steps, step, rfl, hphase, houtcome, nofun⟩

theorem HasOutput.verified (h : HasOutput steps output) (hphase : step.step.phase = .verify)
    (houtcome : step.outcome = .verified true) : VerifiedOutput (steps ++ [step]) output := by
  obtain ⟨rest, hrest⟩ := h
  refine ⟨rest ++ [step], hrest.snoc (by simp [hphase]), step, ?_, hphase, houtcome⟩
  exact mem_append_right _ (mem_singleton_self step)

theorem VerifiedOutput.snoc (h : VerifiedOutput steps output)
    (hstep : step.step.phase ≠ .execute) : VerifiedOutput (steps ++ [step]) output := by
  obtain ⟨rest, hrest, verify, hmem, hverify⟩ := h
  exact ⟨rest ++ [step], hrest.snoc hstep, verify, mem_append_left _ hmem, hverify⟩

end Output

def Verifies (config : ReasoningConfig) : Prop :=
  .execute ∈ config.phasesEnabled ∧ .verify ∈ config.phasesEnabled

structure Bounded (config : ReasoningConfig) (s : ReasoningState) : Prop where
  index : s.currentStepIndex = s.steps.length
  steps : s.steps.length ≤ config.maxSteps.toNat
  resets : s.resetCount ≤ maxResets

structure Settled (config : ReasoningConfig) (s : ReasoningState) : Prop
    extends Bounded config s where
  output : Verifies config → s.currentPhase = .verify → HasOutput s.steps s.extractOutput
  verified : Verifies config → s.validated = true →
    s.currentPhase = .learn ∧ VerifiedOutput s.steps s.extractOutput

structure Ready (config : ReasoningConfig) (action : NextAction) (s : ReasoningState) : Prop
    extends Bounded config s where
  output : Verifies config → s.currentPhase = .execute → HasOutput s.steps s.extractOutput
  verified : Verifies config → s.validated = true → VerifiedOutput s.steps s.extractOutput ∧
    (s.currentPhase = .verify ∧ action = .proceed ∨
      s.currentPhase = .learn ∧ action = .finalAnswer)
  validates : action = .validate → s.currentPhase = .execute

structure GoodResult (config : ReasoningConfig) (result : ReasoningResult) (s : ReasoningState) :
    Prop where
  steps : result.steps.length ≤ config.maxSteps.toNat
  total : result.totalSteps = result.steps.length
  resets : s.resetCount ≤ maxResets + 1
  verified : Verifies config → result.terminationReason = .completed →
    VerifiedOutput result.steps result.finalOutput

section Turn

variable {config : ReasoningConfig}

theorem Bounded.record (hs : Bounded config s) (hindex : (s.currentStepIndex : ℤ) < config.maxSteps)
    (h : Frame s s') (step : RecordedStep) :
    Bounded config
      { s' with steps := s'.steps ++ [step], currentStepIndex := s'.currentStepIndex + 1 } where
  index := by simp [h.index, hs.index, h.steps]
  steps := by
    have hlength := hs.index
    simp only [h.steps, length_append, length_singleton]
    omega
  resets := h.resets.trans_le hs.resets

theorem Settled.record (hs : Settled config s)
    (hindex : (s.currentStepIndex : ℤ) < config.maxSteps)
    (h : Dispatched s (step, action) s') :
    Ready config action
      { s' with steps := s'.steps ++ [step], currentStepIndex := s'.currentStepIndex + 1 } where
  toBounded := hs.toBounded.record hindex h.toFrame step
  output _ hphase := by
    have hphase := h.phase.symm.trans hphase
    exact hasOutput_executed (h.stepPhase.trans hphase) (h.executed hphase).1
  verified hconfig hvalidated := by
    by_cases hverify : s.currentPhase = .verify
    · have hpassed := h.verified hverify hvalidated
      have houtput := hs.output hconfig hverify
      rw [← h.output (by simp [hverify]), ← h.steps] at houtput
      exact ⟨houtput.verified (h.stepPhase.trans hverify) hpassed.1,
        .inl ⟨h.phase.trans hverify, hpassed.2⟩⟩
    · have hbefore := (h.validated hverify).symm.trans hvalidated
      obtain ⟨hlearn, houtput⟩ := hs.verified hconfig hbefore
      rw [← h.output (by simp [hlearn]), ← h.steps] at houtput
      have hstep : step.step.phase = .learn := h.stepPhase.trans hlearn
      exact ⟨houtput.snoc (by simp [hstep]),
        .inr ⟨h.phase.trans hlearn, h.learnt hlearn hbefore⟩⟩
  validates haction := h.phase.trans (h.validates haction)

theorem Bounded.result (hs : Bounded config s)
    (hreason : reason ≠ .completed) : GoodResult config (buildResult s reason) s where
  steps := hs.steps
  total := hs.index
  resets := hs.resets.trans (Nat.le_succ _)
  verified _ h := absurd h hreason

variable {W : Type} {protocol : ReasoningProtocol W}

def GoesOn (config : ReasoningConfig) (steps : ℕ) (r : Option ReasoningResult)
    (d : ReasoningData W) : Prop :=
  match r with
  | none => Settled config d.state ∧ d.state.steps.length = steps
  | some result => GoodResult config result d.state

theorem advance_spec (action : NextAction) (steps : ℕ) :
    Triple
      (fun d : ReasoningData W => (Ready config action d.state ∧ d.state.steps.length = steps) ∧
        (action = .finalAnswer → d.state.validated = false ∨ d.state.currentPhase ≠ .learn))
      advance (GoesOn config steps) fun _ _ => False := by
  rintro d ⟨⟨hd, hsteps⟩, haction⟩
  refine ⟨{ hd.toBounded with output := ?_, verified := ?_ }, hsteps⟩
  · intro hconfig hverify
    refine hd.output hconfig ?_
    cases hphase : d.state.currentPhase <;> simp_all [nextPhase]
  · intro hconfig hvalidated
    obtain ⟨houtput, hphase | ⟨hphase, hfinal⟩⟩ := hd.verified hconfig hvalidated
    · refine ⟨?_, houtput⟩
      simp [hphase.1, nextPhase]
    · rcases haction hfinal with h | h
      · exact absurd (h.symm.trans hvalidated) nofun
      · exact absurd hphase h

theorem reset_spec (steps : ℕ) :
    Triple (fun d : ReasoningData W => Bounded config d.state ∧ d.state.steps.length = steps)
      (processAction .reset) (GoesOn config steps) fun _ _ => False := by
  rintro d ⟨hd, hsteps⟩
  simp only [processAction, modifyState, run_bind, run_modify, run_get]
  split_ifs with hresets
  · exact {
      steps := hd.steps
      total := hd.index
      resets := Nat.succ_le_succ hd.resets
      verified := fun _ => nofun }
  · exact ⟨{
      index := hd.index
      steps := hd.steps
      resets := not_lt.mp hresets
      output := fun _ => nofun
      verified := fun _ => nofun }, hsteps⟩

theorem processAction_spec (steps : ℕ) :
    Triple (fun d : ReasoningData W => Ready config action d.state ∧ d.state.steps.length = steps)
      (processAction action) (GoesOn config steps) fun _ _ => False := by
  cases action with
  | reset =>
    exact (reset_spec steps).pre fun _ hd => ⟨hd.1.toBounded, hd.2⟩
  | proceed =>
    exact (advance_spec .proceed steps).pre fun _ hd => ⟨hd, nofun⟩
  | validate =>
    rintro d ⟨hd, hsteps⟩
    have hphase := hd.validates rfl
    refine ⟨{ hd.toBounded with output := fun hconfig _ => ?_, verified := ?_ }, hsteps⟩
    · exact hd.output hconfig hphase
    · intro hconfig hvalidated
      obtain ⟨-, h | h⟩ := hd.verified hconfig hvalidated
      · exact absurd h.2 nofun
      · exact absurd h.2 nofun
  | finalAnswer =>
    refine get_bind fun d hd => ?_
    dsimp only
    split_ifs with hgate
    · refine (advance_spec .finalAnswer steps).pre ?_
      rintro _ rfl
      exact ⟨hd, fun _ => hgate.symm⟩
    · rw [not_or, not_not, Bool.not_eq_false] at hgate
      rintro _ rfl
      exact {
        steps := hd.1.steps
        total := hd.1.index
        resets := hd.1.resets.trans (Nat.le_succ _)
        verified := fun hconfig _ => (hd.1.verified hconfig hgate.2).1 }

theorem stuck_spec {P : ReasoningState → Prop}
    (hP : ∀ s metadata, P s →
      P { s with phaseArtifacts := { s.phaseArtifacts with stuckDetector := metadata } }) :
    Triple (fun d : ReasoningData W => P d.state) (stuck protocol action) (fun _ d => P d.state)
      fun _ _ => False := by
  rw [stuck]
  cases protocol.stuckDetector with
  | none => exact triple_pure fun _ h => h
  | some detect =>
    refine get_bind fun d hd => ?_
    have hcall := attempted_spec (callPort_spec
      (detect (d.state.steps.map RecordedStep.step) d.state.phaseArtifacts d.state.currentPhase
        action) d.state)
    refine (hcall.pre ?_).bind fun detection => ?_
    · rintro _ rfl
      rfl
    match detection with
    | .ok (some detection) =>
      rintro d' hd'
      refine hP d'.state _ ?_
      rw [hd']
      exact hd
    | .ok none =>
      refine triple_pure fun d' hd' => ?_
      rw [hd']
      exact hd
    | .error e =>
      refine triple_pure fun d' hd' => ?_
      rw [hd'.1]
      exact hd

theorem Ready.normalize (hs : Ready config action s) :
    Ready config (if action ∈ validActions s.currentPhase then action else .proceed) s := by
  split_ifs with hvalid
  · exact hs
  · refine { hs with verified := fun hconfig hvalidated => ?_, validates := nofun }
    obtain ⟨houtput, ⟨hphase, haction⟩ | ⟨hphase, haction⟩⟩ := hs.verified hconfig hvalidated
    · exact ⟨houtput, .inl ⟨hphase, rfl⟩⟩
    · refine absurd ?_ hvalid
      simp [hphase, haction, validActions]

theorem afterStep_spec (steps : ℕ) (confidence : ℚ) :
    Triple (fun d : ReasoningData W => Ready protocol.config action d.state ∧
        d.state.steps.length = steps)
      (afterStep protocol confidence action) (GoesOn protocol.config steps) fun _ _ => False := by
  refine get_bind fun d hd => ?_
  dsimp only
  generalize haction : (if action ∈ validActions d.state.currentPhase then action else
    NextAction.proceed) = action'
  have hready : Ready protocol.config action' d.state := haction ▸ hd.1.normalize
  refine bind (Q := fun _ d' => Ready protocol.config action' d'.state ∧
    d'.state.steps.length = steps) ?_ fun isStuck => ?_
  · refine (stuck_spec (P := fun t => Ready protocol.config action' t ∧ t.steps.length = steps)
      ?_).pre ?_
    · exact fun t metadata ht => ⟨{ ht.1 with }, ht.2⟩
    · rintro _ rfl
      exact ⟨hready, hd.2⟩
  cases isStuck with
  | true =>
    refine get_bind fun d' hd' => ?_
    rintro _ rfl
    exact hd'.1.toBounded.result nofun
  | false =>
    simp only [Bool.false_eq_true, if_false]
    split_ifs
    · exact (reset_spec steps).pre fun _ hd => ⟨hd.1.toBounded, hd.2⟩
    · exact processAction_spec steps

def ReasoningPhase.rank : ReasoningPhase → ℕ
  | .observe => 4
  | .plan => 3
  | .execute => 2
  | .verify => 1
  | .learn => 0

theorem ReasoningPhase.rank_le (phase : ReasoningPhase) : phase.rank ≤ 4 := by
  cases phase <;> decide

def remaining (config : ReasoningConfig) (d : ReasoningData W) : ℕ :=
  (config.maxSteps.toNat - d.state.steps.length) * 5 + d.state.currentPhase.rank

def Dispatches (config : ReasoningConfig) : Prop :=
  0 < config.maxSteps ∧ config.phasesEnabled ≠ []

theorem rank_nextPhase (h : nextPhase phase = some phase') : phase'.rank < phase.rank := by
  cases phase <;> cases h <;> decide

theorem Settled.skip (hs : Settled config s)
    (hskipped : s.currentPhase ∉ config.phasesEnabled)
    (hnext : nextPhase s.currentPhase = some phase) :
    Settled config { s with currentPhase := phase } where
  toBounded := { hs.toBounded with }
  output hconfig hverify := by
    cases hphase : s.currentPhase with
    | execute => exact absurd (hphase ▸ hconfig.1) hskipped
    | observe | plan | verify | learn => simp_all [nextPhase]
  verified hconfig hvalidated := by
    have hlearn := (hs.verified hconfig hvalidated).1
    rw [hlearn] at hnext
    cases hnext

theorem turn_spec :
    Advances (remaining protocol.config)
      (fun d : ReasoningData W => Settled protocol.config d.state) (turn protocol input)
      (fun result d => GoodResult protocol.config result d.state)
      fun e _ => Raises protocol.config e ∧ Dispatches protocol.config := by
  intro d hd
  simp only [turn, run_bind, run_get]
  split_ifs with hindex hphase
  · rw [run_bind]
    have hrecovery : Triple _ (dispatchPhaseWithRecovery protocol input) _ _ :=
      dispatchPhaseWithRecovery_spec d.state
    have hdispatch := hrecovery d rfl
    cases hrun : (dispatchPhaseWithRecovery protocol input).run d with
    | error e d₁ =>
      rw [hrun] at hdispatch
      exact ⟨hdispatch, by omega, ne_nil_of_mem hphase⟩
    | ok r d₁ =>
      rw [hrun] at hdispatch
      obtain ⟨step, action, reason⟩ := r
      cases reason with
      | some reason =>
        obtain ⟨hframe, rfl⟩ := hdispatch
        have hbounded := hd.toBounded.record hindex hframe step
        exact hbounded.result nofun
      | none =>
        have hready := hd.record hindex hdispatch
        have hlength : (d₁.state.steps ++ [step]).length = d.state.steps.length + 1 := by
          simp [hdispatch.steps]
        have hafterStep : Triple _ (afterStep protocol step.step.confidence action) _ _ :=
          afterStep_spec (d.state.steps.length + 1) step.step.confidence
        have hafter := hafterStep { state := _, world := d₁.world } ⟨hready, hlength⟩
        simp only [recordStep, modifyState, run_bind, run_modify]
        revert hafter
        generalize (afterStep protocol step.step.confidence action).run _ = result
        intro hafter
        cases result with
        | error e d' => exact hafter.elim
        | ok r d' =>
          cases r with
          | some result => exact hafter
          | none =>
            refine ⟨hafter.1, ?_⟩
            have hsteps := hafter.1.steps
            have hrank := d'.state.currentPhase.rank_le
            rw [hafter.2] at hsteps
            rw [remaining, remaining, hafter.2]
            omega
  · cases hnext : nextPhase d.state.currentPhase with
    | none => exact hd.toBounded.result nofun
    | some phase =>
      refine ⟨hd.skip hphase hnext, ?_⟩
      exact Nat.add_lt_add_left (rank_nextPhase hnext) _
  · exact hd.toBounded.result nofun

theorem settled_start (config : ReasoningConfig) : Settled config {} where
  index := rfl
  steps := Nat.zero_le _
  resets := Nat.zero_le _
  output _ := nofun
  verified _ := nofun

theorem run_spec (protocol : ReasoningProtocol W) (input : ReasoningInput) (world : W)
    (hturns : 5 * protocol.config.maxSteps.toNat + 4 < turns) :
    match run protocol input turns world with
    | .ok r d => ∃ result, r = some result ∧ GoodResult protocol.config result d.state
    | .error e _ => Raises protocol.config e ∧ Dispatches protocol.config := by
  have hfirst : remaining protocol.config ({ world } : ReasoningData W) =
      (protocol.config.maxSteps.toNat - 0) * 5 + 4 := rfl
  have hturn : Advances (remaining protocol.config) _ (turn protocol input) _ _ := turn_spec
  have hrun := hturn.iterate turns { world } ⟨settled_start protocol.config, by omega⟩
  rw [run]
  revert hrun
  generalize (iterate (turn protocol input) turns).run { world } = result
  intro hrun
  cases result with
  | ok r d => exact hrun
  | error e d => exact hrun

end Turn

/-- With this configuration, whatever the phases come to, a run ends with a good result or raises
what a phase has raised, and that only without graceful degradation. -/
def RunsWell (config : ReasoningConfig) : Prop :=
  ∀ (W : Type) (protocol : ReasoningProtocol W) (input : ReasoningInput) (world : W),
    protocol.config = config → ∃ enough, ∀ turns ≥ enough,
      match run protocol input turns world with
      | .ok r d => ∃ result, r = some result ∧ GoodResult config result d.state
      | .error e _ => (∃ text, e = .phase text) ∧ config.enableGracefulDegradation = false

def Sound (config : ReasoningConfig) : Prop :=
  config.enableGracefulDegradation = false ∨ ValidConfidence config ∨ config.maxSteps ≤ 0 ∨
    config.phasesEnabled = []

section Failing

def failingProtocol (config : ReasoningConfig) : ReasoningProtocol Unit where
  config := config
  ports :=
    { complete := fun _ _ w => (.error "unavailable".toList, w)
      toolLoop := fun _ _ w => (.error "unavailable".toList, w) }
  iscManager := some fun _ _ _ w => (.error "unavailable".toList, w)

variable {config : ReasoningConfig}

variable {α : Type} {port : Unit → Except Text α × Unit}

theorem callPort_failing (hport : ∀ w, (port w).1 = .error text) :
    Triple (fun _ => True) (callPort port) (fun _ _ => False) fun _ _ => True := by
  intro d _
  simp only [callPort, run_bind, run_get, run_modify, hport d.world]
  trivial

theorem raises_call {β : Type} {f : α → ReasoningM Unit β}
    (hport : ∀ w, (port w).1 = .error text) :
    Triple (fun _ => True) (callPort port >>= f) (fun _ _ => False) fun _ _ => True :=
  (callPort_failing hport).bind fun _ _ h => h.elim

theorem raises_get {β : Type} {f : ReasoningData Unit → ReasoningM Unit β}
    (hf : ∀ d, Triple (fun _ => True) (f d) (fun _ _ => False) fun _ _ => True) :
    Triple (fun _ => True) (get >>= f) (fun _ _ => False) fun _ _ => True :=
  get_bind fun d _ => (hf d).pre fun _ _ => trivial

theorem dispatchPhase_failing :
    Triple (fun _ => True) (dispatchPhase (failingProtocol config) input) (fun _ _ => False)
      fun _ _ => True := by
  refine get_bind fun d _ => ?_
  refine pre (P := fun _ => True) ?_ fun _ _ => trivial
  cases d.state.currentPhase with
  | observe => exact raises_call fun _ => rfl
  | plan => exact raises_get fun d => raises_call fun _ => rfl
  | execute => exact raises_call fun _ => rfl
  | verify => exact raises_get fun d => raises_call fun _ => rfl
  | learn => exact raises_get fun d => raises_call fun _ => rfl

theorem finish_failing (attempt : ℕ) :
    Triple (fun _ => True) (attempts.finish (failingProtocol config) input attempt)
      (fun r _ => ∃ e, r = .error e) fun _ _ => False := by
  refine (attempted_spec dispatchPhase_failing).bind fun r => ?_
  cases r with
  | ok r => exact fun _ h => h.elim
  | error e =>
    simp only [Except.isOk, Except.toBool, Bool.false_eq_true, and_false, if_false]
    exact triple_pure fun _ _ => ⟨e, rfl⟩

theorem attempts_failing (remaining attempt : ℕ) :
    Triple (fun _ => True) (attempts (failingProtocol config) input attempt remaining)
      (fun r _ => ∃ e, r = .error e) fun _ _ => False := by
  induction remaining generalizing attempt with
  | zero => exact finish_failing attempt
  | succ remaining ih =>
    refine (finish_failing attempt).bind fun r => ?_
    cases r with
    | ok r =>
      rintro _ ⟨e, he⟩
      cases he
    | error e => exact (ih (attempt + 1)).pre fun _ _ => trivial

theorem degrade_failing (hconfidence : ¬ValidConfidence config) (totalAttempts : ℕ)
    (lastError : ReasoningError) :
    Triple (fun _ => True) (degrade (failingProtocol config) totalAttempts lastError)
      (fun _ _ => False) fun _ _ => True := by
  rw [degrade]
  refine get_bind fun d _ => ?_
  dsimp only
  split_ifs with hverify hvalid hvalid
  · exact absurd hvalid hconfidence
  · exact fun _ _ => trivial
  · exact absurd hvalid hconfidence
  · exact fun _ _ => trivial

theorem dispatchPhaseWithRecovery_failing (hconfidence : ¬ValidConfidence config)
    (hgraceful : config.enableGracefulDegradation = true) :
    Triple (fun _ => True) (dispatchPhaseWithRecovery (failingProtocol config) input)
      (fun _ _ => False) fun _ _ => True := by
  refine ((attempts_failing _ 1).conseq (fun _ h => h) (fun _ _ h => h) fun _ _ h => h.elim).bind
    fun r => ?_
  rintro d ⟨e, rfl⟩
  have hgraceful' : (failingProtocol config).config.enableGracefulDegradation = true := hgraceful
  simp only [hgraceful', if_true]
  exact degrade_failing hconfidence _ e d trivial

def Undispatched (config : ReasoningConfig) (s : ReasoningState) : Prop :=
  s.currentStepIndex = 0 ∧ ∃ phase ∈ config.phasesEnabled, phase.rank ≤ s.currentPhase.rank

theorem rank_injective {phase phase' : ReasoningPhase} (h : phase.rank = phase'.rank) :
    phase = phase' := by
  revert h
  cases phase <;> cases phase' <;> decide

theorem rank_le_nextPhase {phase phase' : ReasoningPhase} (h : phase'.rank < phase.rank) :
    ∃ next, nextPhase phase = some next ∧ phase'.rank ≤ next.rank := by
  revert h
  cases phase <;> cases phase' <;> decide

theorem turn_failing (hconfidence : ¬ValidConfidence config)
    (hgraceful : config.enableGracefulDegradation = true) (hsteps : 0 < config.maxSteps) :
    Advances (remaining config) (fun d : ReasoningData Unit => Undispatched config d.state)
      (turn (failingProtocol config) input) (fun _ _ => False) fun _ _ => True := by
  rintro d ⟨hindex, phase, hphase, hrank⟩
  have hfirst : (d.state.currentStepIndex : ℤ) < (failingProtocol config).config.maxSteps := by
    rw [hindex]
    exact hsteps
  simp only [turn, run_bind, run_get, if_pos hfirst]
  split_ifs with henabled
  · have hfailing : Triple _ (dispatchPhaseWithRecovery (failingProtocol config) input) _ _ :=
      dispatchPhaseWithRecovery_failing hconfidence hgraceful
    have hdispatch := hfailing d trivial
    rw [run_bind]
    revert hdispatch
    generalize (dispatchPhaseWithRecovery (failingProtocol config) input).run d = result
    intro hdispatch
    cases result with
    | ok r d' => exact hdispatch.elim
    | error e d' => trivial
  · have hlater : phase.rank < d.state.currentPhase.rank := by
      refine lt_of_le_of_ne hrank fun h => henabled ?_
      exact rank_injective h ▸ hphase
    obtain ⟨next, hnext, hle⟩ := rank_le_nextPhase hlater
    rw [hnext]
    exact ⟨⟨hindex, phase, hphase, hle⟩, Nat.add_lt_add_left (rank_nextPhase hnext) _⟩

theorem run_failing (input : ReasoningInput) (hconfidence : ¬ValidConfidence config)
    (hgraceful : config.enableGracefulDegradation = true) (hdispatches : Dispatches config)
    (hturns : 5 * config.maxSteps.toNat + 4 < turns) :
    ∃ e d, run (failingProtocol config) input turns () = .error e d := by
  obtain ⟨phase, hphase⟩ := exists_mem_of_ne_nil _ hdispatches.2
  have hturn : Advances (remaining config) _ (turn (failingProtocol config) input) _ _ :=
    turn_failing hconfidence hgraceful hdispatches.1
  have hrun := hturn.iterate turns { world := () } ⟨⟨rfl, phase, hphase, phase.rank_le⟩, ?_⟩
  · cases hresult : run (failingProtocol config) input turns () with
    | error e d => exact ⟨e, d, rfl⟩
    | ok r d =>
      rw [run] at hresult
      rw [hresult] at hrun
      obtain ⟨_, _, h⟩ := hrun
      exact h.elim
  · have hfirst : remaining config ({ world := () } : ReasoningData Unit) =
        config.maxSteps.toNat * 5 + 4 := rfl
    omega

end Failing

theorem Sound.of_runsWell (h : RunsWell config) : Sound config := by
  rw [Sound]
  by_contra hsound
  simp only [not_or, Bool.not_eq_false, not_le] at hsound
  obtain ⟨hgraceful, hconfidence, hsteps, hphases⟩ := hsound
  obtain ⟨enough, hruns⟩ := h Unit (failingProtocol config) ⟨[], [], 0, none, []⟩ () rfl
  have hrun := hruns (enough + (5 * config.maxSteps.toNat + 5)) (Nat.le_add_right _ _)
  have hturns : 5 * config.maxSteps.toNat + 4 < enough + (5 * config.maxSteps.toNat + 5) := by
    omega
  obtain ⟨e, d, hraised⟩ := run_failing ⟨[], [], 0, none, []⟩ hconfidence hgraceful
    ⟨hsteps, hphases⟩ hturns
  rw [hraised] at hrun
  exact absurd (hgraceful.symm.trans hrun.2) nofun

theorem Sound.raises (h : Sound config)
    (he : Raises config e) (hdispatches : Dispatches config) :
    (∃ text, e = .phase text) ∧ config.enableGracefulDegradation = false := by
  rcases he with he | ⟨-, hconfidence, hgraceful⟩
  · exact he
  · rcases h with h | h | h | h
    · exact absurd (hgraceful.symm.trans h) nofun
    · exact absurd h hconfidence
    · exact absurd hdispatches.1 (not_lt.mpr h)
    · exact absurd h hdispatches.2

theorem runsWell_iff_sound (config : ReasoningConfig) : RunsWell config ↔ Sound config := by
  refine ⟨Sound.of_runsWell, fun hsound => ?_⟩
  rintro W protocol input world rfl
  refine ⟨5 * protocol.config.maxSteps.toNat + 5, fun turns hturns => ?_⟩
  have hrun := run_spec protocol input world (Nat.lt_of_succ_le hturns)
  revert hrun
  generalize run protocol input turns world = result
  intro hrun
  cases result with
  | ok r d => exact hrun
  | error e d => exact hsound.raises hrun.1 hrun.2

/-- A degraded step would have the confidence 3 / 2: the exception of a phase becomes one of the
step, although degradation is on. -/
theorem runs_badly_degradedStepConfidence : ¬RunsWell { degradedStepConfidence := 3 / 2 } := by
  intro hruns
  rcases Sound.of_runsWell hruns with h | h | h | h
  · cases h
  · have hle := (le_max_left _ _).trans h.2
    norm_num at hle
  · norm_num at h
  · cases h

end Agent33.Agents.Reasoning
