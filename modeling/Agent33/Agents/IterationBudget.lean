import Agent33.Agents.LoopInvariants

/-!
# The budget of iterations

How often a run calls a model under an enforcer. An iteration is counted at its end,
and the paths that go back to the top of the loop before it are not. Where no such
path is taken and no iteration calls a model twice, the limit bounds the calls.
-/

namespace Agent33.Agents

open Library Library.Hoare Llm Tools.Governance Autonomy EStateM Triple

variable {W : Type}

def isModelCall : Act → Bool
  | .llmCall _ _ => true
  | _ => false

def modelCalls (trace : List Act) : ℕ := trace.countP isModelCall

theorem modelCalls_concat (trace : List Act) (act : Act) :
    modelCalls (trace ++ [act]) = modelCalls trace + if isModelCall act then 1 else 0 := by
  rw [modelCalls, List.countP_append, List.countP_singleton, ← modelCalls]

theorem isModelCall_of_ne (h : ∀ model messages, act ≠ .llmCall model messages) :
    isModelCall act = false := by
  cases act with
  | llmCall model messages => exact absurd rfl (h model messages)
  | _ => rfl

def counted (enforcer : RuntimeEnforcer) : AutonomyBudget × Int :=
  (enforcer.budget, enforcer.context.iterations)

def AtMost (extra : ℕ) (budget : AutonomyBudget) : ViewProp (AutonomyBudget × Int) :=
  fun view _ trace => ∃ iterations, view = some (budget, iterations) ∧
    (modelCalls trace : Int) ≤ iterations + extra ∧
    (modelCalls trace : Int) ≤ budget.limits.maxIterations + extra

variable {budget : AutonomyBudget} {extra : ℕ}

theorem ignoresMessages_atMost : IgnoresMessages (AtMost extra budget) := fun _ _ _ _ h => h

theorem ignores_atMost (h : ∀ model messages, act ≠ .llmCall model messages) :
    Ignores (AtMost extra budget) act := by
  intro view messages trace hI
  rwa [AtMost, modelCalls_concat, isModelCall_of_ne h]

variable {messages : List ChatMessage}

theorem AtMost.succ (messages' : List ChatMessage) (h : AtMost extra budget view messages trace)
    (htrace : modelCalls trace' ≤ modelCalls trace + 1) :
    AtMost (extra + 1) budget view messages' trace' := by
  obtain ⟨iterations, hview, hiterations, hlimit⟩ := h
  refine ⟨iterations, hview, ?_, ?_⟩
  · push_cast
    omega
  · push_cast
    omega

abbrev Counted (extra : ℕ) (budget : AutonomyBudget) : LoopData W → Prop :=
  OnView counted (AtMost extra budget)

theorem AtMost.mono (h : AtMost extra budget view messages trace) :
    AtMost (extra + 1) budget view messages trace :=
  h.succ _ (Nat.le_succ _)

namespace ToolLoop

variable {loop : ToolLoop W}

theorem unchecked_counted : loop.Unchecked counted := by
  refine fun view => keeps_runCheck loop fun e e' hbudget hiterations h => ?_
  rw [counted, hbudget, hiterations]
  exact h

theorem complete_atMost (model : Text) (messages : List ChatMessage) :
    Triple (Counted extra budget : LoopData W → Prop)
      (loop.complete model messages) (fun _ => Counted (extra + 1) budget)
      (fun _ => Counted (extra + 1) budget) := by
  refine bind (triple_modify fun d hd => ?_) fun _ => keeps_onPorts _
  refine AtMost.succ _ hd ?_
  rw [modelCalls_concat]
  exact Nat.add_le_add_left (by split_ifs <;> omega) _

theorem keeps_call_atMost (context : Option Tools.ToolContext) (call : ToolCall) :
    Keeps (Counted extra budget) (loop.executeToolCall context call) :=
  keeps_executeToolCall_of_ignores unchecked_counted (fun _ => ignores_atMost) context call

variable (loop) in
theorem ask_atMost (model : Text) (last : Last) :
    Triple (Counted extra budget) (loop.ask model last)
      (fun _ => Counted (extra + 1) budget)
      (fun _ => Counted (extra + 1) budget) := by
  refine get_bind fun d hd => ?_
  refine bind (Q := fun _ => Counted (extra + 1) budget) ?_ fun reply => ?_
  · rintro _ rfl
    exact complete_atMost model _ _ hd
  · cases reply with
    | error e =>
      exact keeps_bumpErrors.bind fun _ => keeps_thresholdReached.bind fun _ => keeps_pure _
    | ok response =>
      refine (keeps_modifyState _).bind fun _ => ?_
      exact (keeps_respond (.of_ignores ignoresMessages_atMost) keeps_call_atMost _).bind
        fun _ => keeps_pure _

theorem recordIteration_spec (view : AutonomyBudget × Int) :
    Triple (fun e => counted e = view) recordIteration
      (fun result e => counted e = (view.1, view.2 + 1) ∧
        (result ≠ .blocked → view.2 + 1 ≤ view.1.limits.maxIterations))
      (fun _ _ => False) := by
  rintro e rfl
  simp only [recordIteration, modifyContext, checkLimit, run_bind, run_modify,
    run_get]
  split_ifs with hlimit
  · exact ⟨rfl, fun h => absurd rfl h⟩
  · rw [decide_eq_true_iff, not_lt] at hlimit
    exact ⟨rfl, fun _ => hlimit⟩

theorem budgetSpent_atMost :
    Triple (Counted (extra + 1) budget) loop.budgetSpent
      (fun spent d => Counted (extra + 1) budget d ∧
        (spent = false → Counted extra budget d))
      (fun _ => Counted (extra + 1) budget) := by
  refine bind (Q := fun result d => Counted (extra + 1) budget d ∧
    (result ≠ .blocked → Counted extra budget d)) ?_ fun result => ?_
  · rintro d ⟨iterations, hview, hiterations, hlimit⟩
    rw [Option.map_eq_some_iff] at hview
    obtain ⟨e, henf, hcounted⟩ := hview
    have hspec := recordIteration_spec _ e hcounted
    rw [onEnforcer_some henf]
    cases hrun : recordIteration.run e with
    | error err e' =>
      rw [hrun] at hspec
      exact hspec.elim
    | ok result e' =>
      rw [hrun] at hspec
      obtain ⟨hcounted, hallowed⟩ := hspec
      have hview : (some e').map counted = some (budget, iterations + 1) := by
        rw [Option.map_some, hcounted]
      push_cast at hiterations hlimit
      refine ⟨⟨iterations + 1, hview, ?_, ?_⟩, fun hresult => ⟨iterations + 1, hview, ?_, ?_⟩⟩
      · push_cast
        omega
      · push_cast
        exact hlimit
      · change (modelCalls d.trace : Int) ≤ _
        omega
      · have hle := hallowed hresult
        change (modelCalls d.trace : Int) ≤ _
        dsimp only at hle
        omega
  · split_ifs with hblocked
    · exact triple_pure fun d hd => ⟨hd.1, nofun⟩
    · refine bind (Q := fun _ => Counted extra budget)
        (triple_get fun d hd => hd.2 hblocked) fun d => ?_
      refine bind (Q := fun _ => Counted extra budget) ?_ fun result => ?_
      · refine conseq (keeps_onEnforcer fun view => keeps_checkDuration ?_ _) (fun _ h => h)
          (fun _ _ h => h) fun _ _ h => h.mono
        intro e e' hbudget hiterations h
        rwa [counted, hbudget, hiterations]
      · exact triple_pure fun d hd => ⟨hd.mono, fun _ => hd⟩

variable (loop) in
def noSummary (d : LoopData W) : Bool :=
  decide (modelCalls (traceOf (do loop.manageContext; loop.compressContext) d) =
    modelCalls d.trace)

theorem contexts_atMost :
    Triple (fun d => Counted extra budget d ∧ loop.noSummary d = true)
      (do loop.manageContext; loop.compressContext : LoopM W PUnit)
      (fun _ => Counted extra budget)
      (fun _ => Counted extra budget) := by
  rintro d ⟨hd, hsummary⟩
  have hkeeps : Keeps (OnView counted fun view _ _ => view = d.enforcer.map counted)
      (do loop.manageContext; loop.compressContext) :=
    (keeps_manageContext (fun _ _ _ _ h => h) fun _ _ _ _ _ h => h).bind fun _ =>
      keeps_compressContext (fun _ _ _ _ h => h) fun _ _ _ _ _ h => h
  have hview := hkeeps d rfl
  rw [noSummary, decide_eq_true_iff, traceOf] at hsummary
  obtain ⟨iterations, henf, hcalls⟩ := hd
  cases hrun : (do loop.manageContext; loop.compressContext : LoopM W PUnit).run d with
  | ok a d' =>
    rw [hrun] at hview hsummary
    refine ⟨iterations, hview.trans henf, ?_⟩
    rwa [hsummary]
  | error e d' =>
    rw [hrun] at hview hsummary
    refine ⟨iterations, hview.trans henf, ?_⟩
    rwa [hsummary]

theorem finishIteration_atMost :
    Triple (fun d => Counted (extra + 1) budget d ∧ loop.noSummary d = true)
      loop.finishIteration
      (fun reason d => Counted (extra + 1) budget d ∧
        (reason = none → Counted extra budget d))
      (fun _ => Counted (extra + 1) budget) := by
  rw [finishIteration_eq]
  refine bind contexts_atMost fun _ => ?_
  refine bind keeps_thresholdReached fun reached => ?_
  split_ifs
  · exact triple_pure fun d hd => ⟨hd, nofun⟩
  · refine bind budgetSpent_atMost fun spent => ?_
    split_ifs with hspent
    · exact triple_pure fun d hd => ⟨hd.1, nofun⟩
    · exact triple_pure fun d hd => ⟨hd.1, fun _ => hd.2 (Bool.eq_false_iff.mpr hspent)⟩

variable (loop) in
/-- The response takes no path back to the top before the end of the iteration, and no
model is called for a summary. -/
def iterationCounted (model : Text) (last : Last) (d : LoopData W) : Bool :=
  match (loop.ask model last).run d with
  | .ok (_, .again) _ => false
  | .ok (_, .next) d => loop.noSummary d
  | _ => true

variable (loop) in
def runCounted (model : Text) : ℕ → Last → LoopData W → Bool
  | 0, _, _ => true
  | n + 1, last, d =>
    loop.iterationCounted model last (loop.prepared d) &&
      match (loop.runIteration model last).run d with
      | .ok (last, none) d => runCounted model n last d
      | _ => true

theorem endResponse_atMost (flow : Flow Ending) :
    Triple (fun d => Counted (extra + 1) budget d ∧
        (match flow with
          | .stop _ => true
          | .again => false
          | .next => loop.noSummary d) = true)
      (loop.endResponse flow)
      (fun ending d => Counted (extra + 1) budget d ∧
        (ending = none → Counted extra budget d))
      (fun _ => Counted (extra + 1) budget) := by
  cases flow with
  | stop ending => exact triple_pure fun d hd => ⟨hd.1, nofun⟩
  | again => exact fun d hd => absurd hd.2 Bool.false_ne_true
  | next =>
    refine bind finishIteration_atMost fun reason => triple_pure fun d hd => ?_
    exact ⟨hd.1, fun hnone => hd.2 (Option.map_eq_none_iff.mp hnone)⟩

theorem runIteration_atMost (model : Text) (last : Last) :
    Triple (fun d => Counted extra budget d ∧
        loop.iterationCounted model last (loop.prepared d) = true)
      (loop.runIteration model last)
      (fun result d => Counted (extra + 1) budget d ∧
        (result.2 = none → Counted extra budget d))
      (fun _ => Counted (extra + 1) budget) := by
  rintro d ⟨hd, hcounted⟩
  have hask := ask_atMost loop model last (loop.prepared d) hd
  rw [iterationCounted] at hcounted
  rw [runIteration_prepared]
  cases hflow : (loop.ask model last).run (loop.prepared d) with
  | error e d' =>
    rw [hflow] at hask
    exact hask
  | ok result d' =>
    obtain ⟨last', flow⟩ := result
    rw [hflow] at hask hcounted
    have hend := endResponse_atMost flow d' ⟨hask, by cases flow <;> exact hcounted⟩
    dsimp only
    cases hrun : (loop.endResponse flow).run d' with
    | error e d'' =>
      rw [hrun] at hend
      exact hend
    | ok ending d'' =>
      rw [hrun] at hend
      exact hend

theorem rounds_atMost {ρ : Type} {round : ρ → LoopM W (ρ × Option Ending)}
    {fine : ρ → LoopData W → Bool} {allFine : ℕ → ρ → LoopData W → Bool}
    (hfine : ∀ n last d, allFine (n + 1) last d = true → fine last d = true ∧
      ∀ last' d', (round last).run d = .ok (last', none) d' → allFine n last' d' = true)
    (hround : ∀ last, Triple (fun d => Counted 0 budget d ∧ fine last d = true)
      (round last)
      (fun result d => Counted 1 budget d ∧
        (result.2 = none → Counted 0 budget d))
      (fun _ => Counted 1 budget))
    (n : ℕ) (last : ρ) :
    Triple (fun d => Counted 0 budget d ∧ allFine n last d = true)
      (rounds round n last) (fun _ => Counted 1 budget)
      (fun _ => Counted 1 budget) := by
  refine triple_rounds
    (I := fun n last d => Counted 0 budget d ∧ allFine n last d = true)
    (fun _ _ hd => AtMost.mono hd.1) (fun n last => ?_) n last
  rintro d ⟨hd, hall⟩
  obtain ⟨hthis, hrest⟩ := hfine n last d hall
  have hresult := hround last d ⟨hd, hthis⟩
  cases hrun : (round last).run d with
  | error e d' =>
    rw [hrun] at hresult
    exact hresult
  | ok result d' =>
    obtain ⟨last', ending⟩ := result
    rw [hrun] at hresult
    cases ending with
    | none => exact ⟨hresult.2 rfl, hrest last' d' hrun⟩
    | some ending => exact hresult.1

theorem runFrom_atMost (model : Text) (n : ℕ) (last : Last) :
    Triple (fun d => Counted 0 budget d ∧ loop.runCounted model n last d = true)
      (loop.runFrom model n last) (fun _ => Counted 1 budget)
      (fun _ => Counted 1 budget) := by
  rw [runFrom_eq_rounds]
  refine rounds_atMost (fun n last d hcounted => ?_) (runIteration_atMost model) n last
  rw [runCounted, Bool.and_eq_true] at hcounted
  refine ⟨hcounted.1, fun last' d' hrun => ?_⟩
  simpa only [hrun] using hcounted.2

variable (loop) in
def streamFlow (response : LLMResponse) : LoopM W (Flow Ending) := do
  let response ← loop.streamTextCalls response
  if response.calls ≠ [] then loop.streamToolCalls response else loop.streamText response

theorem streamHandle_eq (response : LLMResponse) :
    loop.streamHandle response = loop.streamFlow response >>= loop.endResponse := by
  rw [streamHandle, streamFlow, bind_assoc]

variable (loop) in
/-- The response takes no path back to the top before the end of the iteration, its
stream does not fall back to a second call, and no model is called for a summary. -/
def streamIterationCounted (model : Text) (d : LoopData W) : Bool :=
  decide (modelCalls (traceOf (loop.streamResponse model d.messages) d) ≤
    modelCalls d.trace + 1) &&
  match (loop.streamResponse model d.messages).run d with
  | .ok (.ok response) d =>
    match (do trackTokenUsage response; loop.streamFlow response : LoopM W (Flow Ending)).run d with
    | .ok .again _ => false
    | .ok .next d => loop.noSummary d
    | _ => true
  | .ok (.error (.typeError _)) _ => true
  | .ok (.error _) d => decide (loop.config.errorThreshold ≤ d.state.consecutiveErrors + 1)
  | .error _ _ => true

variable (loop) in
def streamCounted (model : Text) : ℕ → Text → LoopData W → Bool
  | 0, _, _ => true
  | n + 1, last, d =>
    loop.streamIterationCounted model (loop.prepared d) &&
      match (loop.streamIteration model last).run d with
      | .ok (last, none) d => streamCounted model n last d
      | _ => true

variable (loop) in
theorem keeps_streamFlow (response : LLMResponse) :
    Keeps (Counted extra budget) (loop.streamFlow response) := by
  refine (keeps_streamTextCalls response).bind fun response => ?_
  split_ifs
  · exact keeps_streamToolCalls (.of_ignores ignoresMessages_atMost) keeps_call_atMost _
  · exact keeps_streamText (.of_ignores ignoresMessages_atMost) _

theorem streamResponse_atMost (model : Text) (messages : List ChatMessage) :
    Triple (fun d => Counted extra budget d ∧
        modelCalls (traceOf (loop.streamResponse model messages) d) ≤ modelCalls d.trace + 1)
      (loop.streamResponse model messages) (fun _ => Counted (extra + 1) budget)
      (fun _ => Counted (extra + 1) budget) := by
  rintro d ⟨hd, hcalls⟩
  have hkeeps : Keeps (OnView counted fun view _ _ => view = d.enforcer.map counted)
      (loop.streamResponse model messages) := keeps_streamResponse (fun _ _ _ _ _ h => h) _ _
  have hview := hkeeps d rfl
  rw [traceOf] at hcalls
  cases hrun : (loop.streamResponse model messages).run d with
  | ok reply d' =>
    rw [hrun] at hview hcalls
    have hnext := AtMost.succ d'.messages hd hcalls
    rwa [← hview] at hnext
  | error e d' =>
    rw [hrun] at hview hcalls
    have hnext := AtMost.succ d'.messages hd hcalls
    rwa [← hview] at hnext

theorem streamHandle_atMost (response : LLMResponse) :
    Triple (fun d => Counted (extra + 1) budget d ∧
        (match (loop.streamFlow response).run d with
          | .ok .again _ => false
          | .ok .next d => loop.noSummary d
          | _ => true) = true)
      (loop.streamHandle response)
      (fun ending d => Counted (extra + 1) budget d ∧
        (ending = none → Counted extra budget d))
      (fun _ => Counted (extra + 1) budget) := by
  rintro d ⟨hd, hcounted⟩
  have hflow := keeps_streamFlow loop response d hd
  rw [streamHandle_eq, run_bind]
  cases hrun : (loop.streamFlow response).run d with
  | error e d' =>
    rw [hrun] at hflow
    exact hflow
  | ok flow d' =>
    rw [hrun] at hflow hcounted
    exact endResponse_atMost flow d' ⟨hflow, by cases flow <;> first | rfl | exact hcounted⟩

theorem streamIteration_atMost (model last : Text) :
    Triple (fun d => Counted extra budget d ∧
        loop.streamIterationCounted model (loop.prepared d) = true)
      (loop.streamIteration model last)
      (fun result d => Counted (extra + 1) budget d ∧
        (result.2 = none → Counted extra budget d))
      (fun _ => Counted (extra + 1) budget) := by
  rintro d ⟨hd, hcounted⟩
  rw [streamIterationCounted, Bool.and_eq_true, decide_eq_true_iff] at hcounted
  obtain ⟨hcalls, hcounted⟩ := hcounted
  have hresponse := streamResponse_atMost model (loop.prepared d).messages (loop.prepared d)
    ⟨hd, hcalls⟩
  rw [streamIteration, run_bind, prepare_run]
  dsimp only
  rw [streamAsk, run_bind, run_get]
  dsimp only
  rw [run_bind]
  cases hreply : (loop.streamResponse model (loop.prepared d).messages).run (loop.prepared d) with
  | error e d' =>
    rw [hreply] at hresponse
    exact hresponse
  | ok reply d' =>
    rw [hreply] at hresponse hcounted
    cases reply with
    | ok response =>
      dsimp only at hcounted ⊢
      rw [run_bind] at hcounted ⊢
      cases htrack : (trackTokenUsage response : LoopM W PUnit).run d' with
      | error e d'' => cases htrack
      | ok a d'' =>
        have htracked : Keeps (Counted (extra + 1) budget)
            (trackTokenUsage response : LoopM W PUnit) := keeps_modifyState _
        have htracked := htracked d' hresponse
        rw [htrack] at hcounted htracked
        have hhandle := streamHandle_atMost response d'' ⟨htracked, hcounted⟩
        dsimp only
        rw [run_bind, attempt_run]
        cases hrun : (loop.streamHandle response).run d'' with
        | error e d₃ =>
          rw [hrun] at hhandle
          exact ⟨hhandle, nofun⟩
        | ok ending d₃ =>
          rw [hrun] at hhandle
          exact hhandle
    | error e =>
      cases e with
      | typeError message => exact ⟨hresponse, nofun⟩
      | _ =>
        dsimp only at hcounted ⊢
        rw [run_bind, bumpErrors_run]
        dsimp only
        rw [run_bind, thresholdReached_run]
        dsimp only
        rw [hcounted, if_pos rfl]
        exact ⟨hresponse, nofun⟩

theorem streamFrom_atMost (model : Text) (n : ℕ) (last : Text) :
    Triple (fun d => Counted 0 budget d ∧ loop.streamCounted model n last d = true)
      (loop.streamFrom model n last) (fun _ => Counted 1 budget)
      (fun _ => Counted 1 budget) := by
  rw [streamFrom_eq_rounds]
  refine rounds_atMost (fun n last d hcounted => ?_) (streamIteration_atMost model) n last
  rw [streamCounted, Bool.and_eq_true] at hcounted
  refine ⟨hcounted.1, fun last' d' hrun => ?_⟩
  simpa only [hrun] using hcounted.2

theorem modelCalls_le_of_atMost {α : Type} {x : LoopM W α} {P : LoopData W → Prop} {N : ℕ}
    (hx : Triple P x (fun _ => Counted 1 budget)
      (fun _ => Counted 1 budget)) (hlimit : budget.limits.maxIterations = N)
    {d : LoopData W} (hd : P d) : modelCalls (traceOf x d) ≤ N + 1 := by
  have hend := hx d hd
  rw [traceOf]
  cases hrun : x.run d with
  | ok a d' =>
    rw [hrun] at hend
    obtain ⟨_, _, _, hcalls⟩ := hend
    rw [hlimit] at hcalls
    dsimp only
    omega
  | error e d' =>
    rw [hrun] at hend
    obtain ⟨_, _, _, hcalls⟩ := hend
    rw [hlimit] at hcalls
    dsimp only
    omega

def start (world : W) (limiter : RateLimiter) (enforcer : RuntimeEnforcer)
    (messages : List ChatMessage) : LoopData W where
  world := world
  limiter := limiter
  enforcer := some enforcer
  messages := messages

/-- Under a limit of `N` iterations a run whose iterations are all counted calls models at
most `N + 1` times, over complete responses as over streamed ones. -/
theorem modelCalls_le (loop : ToolLoop W) (model : Text) (world : W) (limiter : RateLimiter)
    (enforcer : RuntimeEnforcer) (messages : List ChatMessage) (N : ℕ)
    (hlimit : enforcer.budget.limits.maxIterations = N)
    (hiterations : 0 ≤ enforcer.context.iterations) :
    (loop.runCounted model loop.config.maxIterations.toNat ⟨[], model⟩
        (start world limiter enforcer messages) = true →
      modelCalls (traceOf (loop.run model) (start world limiter enforcer messages)) ≤ N + 1) ∧
    (loop.streamCounted model loop.config.maxIterations.toNat []
        (start world limiter enforcer messages) = true →
      modelCalls (traceOf (loop.runStream model) (start world limiter enforcer messages)) ≤
        N + 1) := by
  have hstart : OnView counted (AtMost 0 enforcer.budget)
      (start world limiter enforcer messages) := by
    refine ⟨enforcer.context.iterations, rfl, ?_, ?_⟩
    · change ((0 : ℕ) : Int) ≤ enforcer.context.iterations + (0 : ℕ)
      omega
    · rw [hlimit]
      exact Int.natCast_nonneg _
  constructor
  · intro hcounted
    refine modelCalls_le_of_atMost (Triple.bind (runFrom_atMost model _ _) fun _ =>
      keeps_get.bind fun _ => keeps_pure _) hlimit ⟨hstart, hcounted⟩
  · intro hcounted
    refine modelCalls_le_of_atMost (Triple.bind (streamFrom_atMost model _ _) fun _ =>
      keeps_get.bind fun _ => keeps_pure _) hlimit ⟨hstart, hcounted⟩

def plainLoop : ToolLoop Script :=
  { scriptedLoop [("x".toList, .obj [])] with config := { enableDoubleConfirmation := false } }

def limited (script : Script) : LoopData Script :=
  start script { perMinute := 60, burst := 10 }
    { budget := { limits := { maxIterations := 1 } } } [.say .user "Go.".toList]

def callThenText : LoopData Script :=
  limited [callResponse [("1", "look", "x")], textResponse "Done."]

theorem modelCalls_le_callThenText :
    modelCalls (traceOf (plainLoop.run "m".toList) callThenText) ≤ 1 + 1 ∧
      modelCalls (traceOf (plainLoop.runStream "m".toList) callThenText) ≤ 1 + 1 :=
  have hle := modelCalls_le plainLoop "m".toList _ _ _ _ 1 rfl le_rfl
  ⟨hle.1 (by decide), hle.2 (by decide +kernel)⟩

/-- Three calls that raise are made under a limit of one iteration. -/
theorem raisingCalls_not_le :
    ¬modelCalls (traceOf (plainLoop.run "m".toList) (limited [])) ≤ 1 + 1 ∧
      ¬modelCalls (traceOf (plainLoop.runStream "m".toList) (limited [])) ≤ 1 + 1 := by
  constructor
  · decide
  · decide

end ToolLoop

end Agent33.Agents
