import Agent33.Agents.LoopInvariants
import Agent33.Library.JsonNormal

/-!
# Repeated calls

The loop records the signature of the first call of each response with tool calls, and ends
at the first one with which the last signatures, as many as the window says, are all equal.
Two signatures of one tool are equal when the arguments are the same text, or are read as the
same value with its keys in any order.
-/

namespace Agent33.Agents

open Library Library.Hoare Llm Tools Tools.Governance Autonomy List EStateM JsonText

def Repeats (window : Int) (signatures : List Text) : Prop :=
  0 < window ∧ window.toNat ≤ signatures.length ∧
    ∃ s, ∀ t ∈ signatures.drop (signatures.length - window.toNat), t = s

theorem not_repeats_nil (window : Int) : ¬ Repeats window [] := by
  rintro ⟨hpos, hlength, -⟩
  rw [length_nil] at hlength
  omega

theorem repeats_iff_all (hpos : 0 < window)
    (hlength : window.toNat ≤ signatures.length) :
    Repeats window signatures ↔
      ∀ t ∈ signatures.drop (signatures.length - window.toNat),
        some t = (signatures.drop (signatures.length - window.toNat)).head? := by
  rw [Repeats, and_iff_right hpos, and_iff_right hlength]
  cases hdrop : signatures.drop (signatures.length - window.toNat) with
  | nil =>
    have hzero := congrArg List.length hdrop
    rw [length_drop, length_nil] at hzero
    omega
  | cons s rest =>
    rw [head?_cons]
    constructor
    · rintro ⟨u, hall⟩ t ht
      rw [hall t ht, hall s mem_cons_self]
    · intro hall
      exact ⟨s, fun t ht => Option.some.inj (hall t ht)⟩

def Detected : Option ToolLoop.Ending → Prop
  | some (reason, _) => reason = .loopDetected
  | none => False

namespace ToolLoop

variable {W : Type} (loop : ToolLoop W)

def foundIn (parse : LLMResponse → LoopM W LLMResponse) (response : LLMResponse)
    (d : LoopData W) : Option LLMResponse :=
  match (parse response).run d with
  | .ok found _ => if found.calls = [] then none else some found
  | .error _ _ => none

variable (model : Text) (d : LoopData W)

def toolResponse : Option LLMResponse :=
  match (loop.complete model d.messages).run d with
  | .ok (.ok response) d => foundIn loop.runTextCalls response d
  | _ => none

def streamToolResponse : Option LLMResponse :=
  match (loop.streamResponse model d.messages).run d with
  | .ok (.ok response) d => foundIn loop.streamTextCalls response d
  | _ => none

def signature (response : LLMResponse) : Option Text := response.calls.head?.map loop.callSignature

def signatures (responses : List LLMResponse) : List Text := responses.filterMap loop.signature

def responsesFrom {ρ : Type} (round : ρ → LoopM W (ρ × Option Ending))
    (given : LoopData W → Option LLMResponse) : ℕ → ρ → LoopData W → List LLMResponse
  | 0, _, _ => []
  | n + 1, last, d => (given d).toList ++
    match (round last).run d with
    | .ok (last, none) d => responsesFrom round given n last d
    | _ => []

def toolResponses : List LLMResponse :=
  responsesFrom (loop.runIteration model) (fun d => loop.toolResponse model (loop.prepared d))
    loop.config.maxIterations.toNat ⟨[], model⟩ d

def streamToolResponses : List LLMResponse :=
  responsesFrom (loop.streamIteration model)
    (fun d => loop.streamToolResponse model (loop.prepared d))
    loop.config.maxIterations.toNat [] d

variable {loop}

def History (h : List Text) : LoopData W → Prop := OnState fun s => s.callHistory = h

variable (loop) in
def recorded (h : List Text) (response : Option LLMResponse) : List Text :=
  if 0 < loop.config.loopDetectionThreshold then h ++ loop.signatures response.toList else h

variable (loop) in
def Stops (h : List Text) (response : Option LLMResponse) : Prop :=
  response ≠ none ∧
    Repeats loop.config.loopDetectionThreshold (h ++ loop.signatures response.toList)

theorem recorded_none (h : List Text) : loop.recorded h none = h := by
  rw [recorded]
  split_ifs
  · exact append_nil h
  · rfl

theorem not_stops_none (h : List Text) : ¬ loop.Stops h none := fun hstops => hstops.1 rfl

variable {h : List Text} {response : LLMResponse}

theorem history_modifyState (hf : ∀ s, (f s).callHistory = s.callHistory) :
    Keeps (History h) (modifyState f : LoopM W PUnit) :=
  keepsState_modifyState fun s hs => (hf s).trans hs

theorem doomLoop_spec (hcalls : response.calls ≠ []) : Triple (History h) (loop.doomLoop response)
      (fun detected d => History (loop.recorded h (some response)) d ∧
        (detected = true ↔ loop.Stops h (some response)))
      (fun _ _ => False) := by
  rw [doomLoop, recorded, Stops, and_iff_right (Option.some_ne_none _), signatures,
    Option.toList_some]
  by_cases hwindow : 0 < loop.config.loopDetectionThreshold
  · rw [if_pos hwindow, if_pos hwindow]
    cases hresponse : response.calls with
    | nil => exact absurd hresponse hcalls
    | cons call rest =>
      have hsignature : loop.signature response = some (loop.callSignature call) := by
        rw [signature, hresponse, head?_cons, Option.map_some]
      rw [filterMap_cons_some hsignature, filterMap_nil, checkDoomLoop]
      refine Triple.bind (Q := fun _ => History (h ++ [loop.callSignature call])) ?_ fun _ => ?_
      · exact triple_modify fun d hd => congrArg (· ++ _) hd
      · refine Triple.get_bind fun d hd => ?_
        have hhistory : d.state.callHistory = h ++ [loop.callSignature call] := hd
        dsimp only
        rw [hhistory]
        split_ifs with hlength
        · rintro _ rfl
          exact ⟨hd, iff_of_false Bool.false_ne_true fun hrepeats => by
            exact absurd hrepeats.2.1 (not_le.mpr hlength)⟩
        · rintro _ rfl
          refine ⟨hd, ?_⟩
          rw [repeats_iff_all hwindow (not_lt.mp hlength), List.all_eq_true]
          simp
  · rw [if_neg hwindow, if_neg hwindow]
    exact triple_pure fun d hd => ⟨hd, iff_of_false Bool.false_ne_true fun h => hwindow h.1⟩

theorem history_executeToolCall (context : Option ToolContext) (call : ToolCall) :
    Keeps (History h) (loop.executeToolCall context call) := by
  have hbump : Keeps (History h) (bumpErrors : LoopM W PUnit) := history_modifyState fun _ => rfl
  unfold executeToolCall
  cases loop.python.jsonLoads call.function.arguments with
  | none => exact hbump.bind fun _ => keeps_pure _
  | some arguments =>
    refine (keepsState_checkGovernance _ _ _).bind fun allowed => ?_
    split_ifs
    · exact keeps_pure _
    · refine (keepsState_checkAutonomy _ _).bind fun enforced => ?_
      split_ifs
      · exact keeps_pure _
      · refine (keepsState_runPreHooks _ _).bind fun outcome => ?_
        split_ifs
        · exact keeps_pure _
        · refine Keeps.bind ?_ fun result => ?_
          · refine (keepsState_record _).bind fun _ => (keepsState_onPorts _).bind fun reply => ?_
            cases reply with
            | ok result => exact keeps_pure _
            | error message => exact hbump.bind fun _ => keeps_pure _
          · exact (keepsState_finishTool (fun _ => history_modifyState fun _ => rfl) _ _ _).bind
              fun _ => keeps_pure _

theorem history_executeEach (context : Option ToolContext) (calls : List ToolCall) :
    Keeps (History h) (loop.executeEach context calls) := by
  induction calls with
  | nil => exact keeps_pure _
  | cons call rest ih =>
    refine (history_executeToolCall context call).bind fun result => ?_
    obtain ⟨result, stop⟩ := result
    dsimp only
    split_ifs
    · exact keeps_pure _
    · exact ih.bind fun _ => keeps_pure _

def Flow.ending : Flow Ending → Option Ending
  | .stop ending => some ending
  | _ => none

def Quiet (x : LoopM W (Flow Ending)) : Prop :=
  ∀ h, Triple (History h) x (fun flow d => History h d ∧ ¬ Detected flow.ending) (fun _ _ => True)

theorem quiet_pure (hflow : ¬ Detected flow.ending) : Quiet (pure flow : LoopM W (Flow Ending)) :=
  fun _ => triple_pure fun _ hd => ⟨hd, hflow⟩

theorem Quiet.bind {α : Type} {x : LoopM W α} {f : α → LoopM W (Flow Ending)}
    (hx : ∀ h, Keeps (History h) x) (hf : ∀ a, Quiet (f a)) : Quiet (x >>= f) := fun h =>
  Triple.bind ((hx h).conseq (fun _ hd => hd) (fun _ _ hd => hd) fun _ _ _ => trivial)
    fun a => hf a h

open Quiet

theorem quiet_takeResults (response : LLMResponse) (results : List ToolResult) :
    Quiet (loop.takeResults response results) := by
  refine bind (fun _ => keeps_get) fun d => ?_
  split_ifs
  · exact quiet_pure nofun
  · refine bind (fun _ => keeps_modify fun _ hd => hd) fun _ => ?_
    exact bind (fun _ => keeps_modify fun _ hd => hd) fun _ => quiet_pure nofun

/-- What a response with tool calls leaves in the history, and when it ends the loop. -/
def Notes (response : LLMResponse) (x : LoopM W (Flow Ending)) (loop : ToolLoop W) : Prop :=
  ∀ h, Triple (History h) x
    (fun flow d => History (loop.recorded h (some response)) d ∧
      (Detected flow.ending ↔ loop.Stops h (some response)))
    (fun _ _ => ¬ loop.Stops h (some response))

theorem notes_of_quiet (hcalls : response.calls ≠ []) {run : LoopM W (Flow Ending)}
    (hrun : Quiet run) : Notes response (do
      resetForToolCalls
      if ← loop.doomLoop response then return .stop (.loopDetected, none)
      else run) loop := by
  intro h
  refine Triple.bind (Q := fun _ => History h) (history_modifyState fun _ => rfl) fun _ => ?_
  refine Triple.bind ((doomLoop_spec hcalls).conseq (fun _ hd => hd) (fun _ _ hd => hd)
    fun _ _ hfalse => hfalse.elim) fun detected => ?_
  refine Triple.of_fact fun hdetected => ?_
  split_ifs with htrue
  · exact triple_pure fun d hd => ⟨hd, iff_of_true rfl (hdetected.mp htrue)⟩
  · have hnot := mt hdetected.mpr htrue
    exact (hrun _).conseq (fun _ hd => hd)
      (fun _ _ hd => ⟨hd.1, iff_of_false hd.2 hnot⟩) fun _ _ _ => hnot

theorem notes_runToolCalls (hcalls : response.calls ≠ []) :
    Notes response (loop.runToolCalls response) loop :=
  notes_of_quiet hcalls (.bind (fun _ => history_executeEach _ _) fun _ => quiet_takeResults _ _)

theorem notes_streamToolCalls (hcalls : response.calls ≠ []) :
    Notes response (loop.streamToolCalls response) loop := by
  refine notes_of_quiet hcalls (.bind (fun _ => keeps_attempt (history_executeEach _ _)) ?_)
  intro results
  cases results with
  | error e => exact quiet_pure nofun
  | ok results => exact quiet_takeResults _ _

theorem history_appendMessages (messages : List ChatMessage) :
    Keeps (History h) (appendMessages messages : LoopM W PUnit) := keeps_modify fun _ hd => hd

theorem history_setPending (pending : Bool) :
    Keeps (History h) (setPending pending : LoopM W PUnit) := history_modifyState fun _ => rfl

variable (loop) in
theorem quiet_runText (response : LLMResponse) : Quiet (loop.runText response) := by
  rw [runText]
  split_ifs
  · exact quiet_pure (by rintro ⟨⟩)
  · refine bind (fun _ => keeps_get) fun d => ?_
    split_ifs
    · refine bind (fun _ => history_setPending _) fun _ => ?_
      exact bind (fun _ => history_appendMessages _) fun _ => quiet_pure (by rintro ⟨⟩)
    · cases loop.parseConfirmation response.content with
      | none =>
        refine bind (fun _ => history_appendMessages _) fun _ => ?_
        exact bind (fun _ => history_setPending _) fun _ => quiet_pure (by rintro ⟨⟩)
      | some confirmed =>
        cases confirmed with
        | true => exact quiet_pure (by rintro ⟨⟩)
        | false =>
          refine bind (fun _ => history_setPending _) fun _ => ?_
          exact bind (fun _ => history_appendMessages _) fun _ => quiet_pure (by rintro ⟨⟩)

variable (loop) in
theorem quiet_streamText (response : LLMResponse) : Quiet (loop.streamText response) := by
  rw [streamText]
  split_ifs
  · exact quiet_pure (by rintro ⟨⟩)
  · refine bind (fun _ => keeps_get) fun d => ?_
    split_ifs
    · refine bind (fun _ => history_setPending _) fun _ => ?_
      exact bind (fun _ => history_appendMessages _) fun _ => quiet_pure (by rintro ⟨⟩)
    · cases loop.parseConfirmation response.content with
      | none => exact bind (fun _ => history_appendMessages _) fun _ => quiet_pure (by rintro ⟨⟩)
      | some confirmed =>
        cases confirmed with
        | true => exact quiet_pure (by rintro ⟨⟩)
        | false =>
          refine bind (fun _ => history_setPending _) fun _ => ?_
          exact bind (fun _ => history_appendMessages _) fun _ => quiet_pure (by rintro ⟨⟩)

theorem finishIteration_undetected (h : List Text) :
    Triple (History h) loop.finishIteration
      (fun reason d => History h d ∧ reason ≠ some .loopDetected) (fun _ _ => True) := by
  rw [finishIteration_eq]
  refine Triple.bind (keepsState_contexts.conseq (fun _ hd => hd) (fun _ _ hd => hd)
    fun _ _ _ => trivial) fun _ => ?_
  refine Triple.bind (keeps_thresholdReached.conseq (fun _ hd => hd) (fun _ _ hd => hd)
    fun _ _ _ => trivial) fun reached => ?_
  split_ifs
  · exact triple_pure fun d hd => ⟨hd, nofun⟩
  · refine Triple.bind (keepsState_budgetSpent.conseq (fun _ hd => hd) (fun _ _ hd => hd)
      fun _ _ _ => trivial) fun spent => ?_
    split_ifs
    · exact triple_pure fun d hd => ⟨hd, nofun⟩
    · exact triple_pure fun d hd => ⟨hd, nofun⟩

theorem endResponse_spec {h : List Text} {p : Prop}
    (hp : Detected flow.ending ↔ p) :
    Triple (fun d => flow.ending = none → History h d) (loop.endResponse flow)
      (fun ending d => (ending = none → History h d) ∧ (Detected ending ↔ p))
      (fun _ _ => ¬ p) := by
  cases flow with
  | stop ending => exact triple_pure fun d hd => ⟨hd, hp⟩
  | again => exact triple_pure fun d hd => ⟨hd, hp⟩
  | next =>
    have hnot : ¬ p := fun h => hp.mpr h
    refine Triple.bind ((finishIteration_undetected h).conseq (fun _ hd => hd rfl)
      (fun _ _ hd => hd) fun _ _ _ => hnot) fun reason => ?_
    refine triple_pure fun d hd => ⟨fun _ => hd.1, iff_of_false (fun hdetected => ?_) hnot⟩
    cases reason with
    | none => exact hdetected
    | some reason => exact hd.2 (congrArg some hdetected)

def Plain {α : Type} (x : LoopM W α) : Prop := (∃ a, x = pure a) ∨ ∃ e, x = throw e

theorem plain_withTextCalls (parse : Text → Except Exn (Option (List ToolCall)))
    (response : LLMResponse) : Plain (withTextCalls parse response : LoopM W LLMResponse) := by
  rw [withTextCalls]
  split
  · exact .inr ⟨_, rfl⟩
  · exact .inl ⟨_, rfl⟩
  · exact .inl ⟨_, rfl⟩
  · exact .inl ⟨_, rfl⟩

variable (loop) in
theorem plain_runTextCalls (response : LLMResponse) : Plain (loop.runTextCalls response) := by
  rw [runTextCalls]
  split
  · split_ifs
    · exact plain_withTextCalls _ _
    · exact .inl ⟨_, rfl⟩
  · exact .inl ⟨_, rfl⟩

variable (loop) in
theorem plain_streamTextCalls (response : LLMResponse) : Plain (loop.streamTextCalls response) := by
  rw [streamTextCalls]
  split
  · split_ifs
    · exact plain_withTextCalls _ _
    · exact .inl ⟨_, rfl⟩
  · exact .inl ⟨_, rfl⟩

def Handles {α : Type} (loop : ToolLoop W) (ending : α → Option Ending) (x : LoopM W α)
    (P : LoopData W → Prop) (h : List Text) (given : Option LLMResponse) : Prop :=
  Triple P x
    (fun a d => (ending a = none → History (loop.recorded h given) d) ∧
      (Detected (ending a) ↔ loop.Stops h given))
    (fun _ _ => ¬ loop.Stops h given)

theorem handles_none {α : Type} {ending : α → Option Ending} {x : LoopM W α} {h : List Text}
    (hx : Triple (History h) x (fun a d => History h d ∧ ¬ Detected (ending a))
      (fun _ _ => True)) : Handles loop ending x (History h) h none := by
  refine hx.conseq (fun _ hd => hd) (fun a d hd => ?_) fun _ _ _ => not_stops_none h
  rw [recorded_none]
  exact ⟨fun _ => hd.1, iff_of_false hd.2 (not_stops_none h)⟩

variable (loop) in
theorem handles_found {parse : LLMResponse → LoopM W LLMResponse}
    {call speak : LLMResponse → LoopM W (Flow Ending)} {response : LLMResponse}
    (hparse : Plain (parse response))
    (hcall : ∀ found : LLMResponse, found.calls ≠ [] → Notes found (call found) loop)
    (hspeak : ∀ found, Quiet (speak found)) (h : List Text) (d : LoopData W) :
    Handles loop Flow.ending
      (do
        let found ← parse response
        if found.calls ≠ [] then call found else speak found)
      (History h) h (foundIn parse response d) := by
  rcases hparse with ⟨found, hfound⟩ | ⟨e, he⟩
  · have hgiven : foundIn parse response d = if found.calls = [] then none else some found := by
      rw [foundIn, hfound]
      rfl
    rw [hfound, pure_bind, hgiven]
    by_cases hcalls : found.calls = []
    · rw [if_pos hcalls, if_neg (not_not.mpr hcalls)]
      exact handles_none (hspeak found h)
    · rw [if_neg hcalls, if_pos hcalls]
      exact (hcall found hcalls h).conseq (fun _ hd => hd)
        (fun _ _ hd => ⟨fun _ => hd.1, hd.2⟩) fun _ _ hd => hd
  · have hgiven : foundIn parse response d = none := by
      rw [foundIn, he]
      rfl
    rw [he, hgiven]
    exact fun _ _ => not_stops_none h

variable (loop) in
theorem handles_respond (response : LLMResponse) (h : List Text) (d : LoopData W) :
    Handles loop Flow.ending (loop.respond response) (History h) h
      (foundIn loop.runTextCalls response d) :=
  handles_found loop (plain_runTextCalls loop response) (fun _ => notes_runToolCalls)
    (quiet_runText loop) h d

variable (loop) in
theorem handles_streamHandle (response : LLMResponse) (h : List Text) (d : LoopData W) :
    Handles loop id (loop.streamHandle response) (History h) h
      (foundIn loop.streamTextCalls response d) := by
  have hfound := handles_found loop (plain_streamTextCalls loop response)
    (fun _ => notes_streamToolCalls) (quiet_streamText loop) h d
  rw [streamHandle, ← bind_assoc]
  refine Triple.bind hfound fun flow => ?_
  exact Triple.of_fact fun hflow => endResponse_spec hflow

theorem history_trackTokenUsage {h : List Text} {E : Exn → LoopData W → Prop}
    (response : LLMResponse) :
    Triple (History h) (trackTokenUsage response) (fun _ => History h) E := by
  apply triple_modify
  rintro d rfl
  split_ifs
  · rfl
  · rfl

theorem bumpErrors_spec (h : List Text) :
    Triple (History h) (do bumpErrors; loop.thresholdReached : LoopM W Bool)
      (fun _ => History h) (fun _ _ => True) :=
  ((history_modifyState fun _ => rfl : Keeps (History h) (bumpErrors : LoopM W PUnit)).bind
    fun _ => keeps_thresholdReached).conseq (fun _ hd => hd) (fun _ _ hd => hd)
      fun _ _ _ => trivial

theorem handles_ask (model : Text) (last : Last) {h : List Text} {d : LoopData W}
    (hd : History h d) :
    Handles loop (fun r : Last × Flow Ending => r.2.ending) (loop.ask model last)
      (fun d' => d' = d) h (loop.toolResponse model d) := by
  rw [ask]
  refine Triple.get_bind fun _ hget => ?_
  rw [hget]
  refine Triple.bind (Q := fun reply d' => History h d' ∧
    (loop.complete model d.messages).run d = .ok reply d') ?_ fun reply => ?_
  · rintro _ rfl
    exact ⟨hd, rfl⟩
  · rintro d' ⟨hd', hcomplete⟩
    rw [toolResponse, hcomplete]
    cases reply with
    | error e =>
      have hfailed : Handles loop (fun r : Last × Flow Ending => r.2.ending)
          (do
            bumpErrors
            return (last, if ← loop.thresholdReached then .stop (.error, none) else .again))
          (History h) h none := by
        apply handles_none
        rw [← bind_assoc]
        refine Triple.bind (bumpErrors_spec h) fun reached => triple_pure fun d hd => ⟨hd, ?_⟩
        split_ifs
        · exact nofun
        · exact nofun
      exact hfailed d' hd'
    | ok response =>
      have hanswered : Handles loop (fun r : Last × Flow Ending => r.2.ending)
          (do
            trackTokenUsage response
            return (⟨response.content, response.model⟩, ← loop.respond response))
          (History h) h (foundIn loop.runTextCalls response d') := by
        refine Triple.bind (history_trackTokenUsage response) fun _ => ?_
        refine Triple.bind (handles_respond loop response h d') fun flow => ?_
        exact triple_pure fun d hd => hd
      exact hanswered d' hd'

variable (loop) in
theorem handles_runIteration (model : Text) (last : Last) (d : LoopData W) :
    Handles loop Prod.snd (loop.runIteration model last) (fun d' => d' = d) d.state.callHistory
      (loop.toolResponse model (loop.prepared d)) := by
  rw [runIteration]
  refine Triple.bind (Q := fun _ d' => d' = loop.prepared d) ?_ fun _ => ?_
  · rintro _ rfl
    rw [prepare_run]
  · have hhistory : History d.state.callHistory (loop.prepared d) := rfl
    refine Triple.bind (handles_ask model last hhistory) fun result => ?_
    obtain ⟨last', flow⟩ := result
    refine Triple.of_fact fun hflow => ?_
    exact Triple.bind (endResponse_spec hflow) fun ending => triple_pure fun d hd => hd

theorem handles_attempt {text : Text}
    (hx : Handles loop id x (History h) h given) :
    Handles loop Prod.snd
      (do
        match ← attempt x with
        | .error _ => return (text, some (.error, none))
        | .ok ending => return (text, ending))
      (History h) h given := by
  intro d hd
  have hrun := hx d hd
  rw [run_bind, attempt_run]
  cases hresult : x.run d with
  | error e d' =>
    rw [hresult] at hrun
    exact ⟨nofun, iff_of_false nofun hrun⟩
  | ok ending d' =>
    rw [hresult] at hrun
    exact hrun

theorem handles_streamAsk (model last : Text) {h : List Text} {d : LoopData W}
    (hd : History h d) :
    Handles loop Prod.snd (loop.streamAsk model last) (fun d' => d' = d) h
      (loop.streamToolResponse model d) := by
  rw [streamAsk]
  refine Triple.get_bind fun _ hget => ?_
  rw [hget]
  have hkept : Keeps (History h) (loop.streamResponse model d.messages) :=
    keepsState_streamResponse model d.messages
  refine Triple.bind (Q := fun reply d' => History h d' ∧
    (loop.streamResponse model d.messages).run d = .ok reply d') ?_ fun reply => ?_
  · intro d' hd'
    have hreply := hkept d hd
    rw [hd', streamToolResponse]
    cases hrun : (loop.streamResponse model d.messages).run d with
    | ok reply d' =>
      rw [hrun] at hreply
      exact ⟨hreply, rfl⟩
    | error e d' => exact not_stops_none h
  · rintro d' ⟨hd', hstream⟩
    rw [streamToolResponse, hstream]
    cases reply with
    | error e =>
      have hfailed : Handles loop Prod.snd
          (do
            bumpErrors
            return (last, if ← loop.thresholdReached then some (.error, none) else none))
          (History h) h none := by
        apply handles_none
        rw [← bind_assoc]
        refine Triple.bind (bumpErrors_spec h) fun reached => triple_pure fun d hd => ⟨hd, ?_⟩
        split_ifs
        · exact nofun
        · exact nofun
      cases e with
      | typeError message =>
        have hended : Handles loop Prod.snd (pure (last, some (.llmError, none)))
          (History h) h none := handles_none (triple_pure fun d hd => ⟨hd, nofun⟩)
        exact hended d' hd'
      | notImplemented => exact hfailed d' hd'
      | other message => exact hfailed d' hd'
    | ok response =>
      have hanswered : Handles loop Prod.snd
          (do
            trackTokenUsage response
            match ← attempt (loop.streamHandle response) with
            | .error _ => return (response.content, some (.error, none))
            | .ok ending => return (response.content, ending))
          (History h) h (foundIn loop.streamTextCalls response d') := by
        refine Triple.bind (history_trackTokenUsage response) fun _ => ?_
        exact handles_attempt (handles_streamHandle loop response h d')
      exact hanswered d' hd'

variable (loop) in
theorem handles_streamIteration (model last : Text) (d : LoopData W) :
    Handles loop Prod.snd (loop.streamIteration model last) (fun d' => d' = d)
      d.state.callHistory (loop.streamToolResponse model (loop.prepared d)) := by
  rw [streamIteration]
  refine Triple.bind (Q := fun _ d' => d' = loop.prepared d) ?_ fun _ => ?_
  · rintro _ rfl
    rw [prepare_run]
  · exact handles_streamAsk model last rfl

/-- The loop ends because of repeated calls just when the last signatures are all equal, which
they are for the first time. -/
def Detects (window : Int) (past new : List Text) (ended : Prop) : Prop :=
  (ended ↔ Repeats window (past ++ new)) ∧
    ∀ k < new.length, ¬ Repeats window (past ++ new.take k)

theorem stops_iff (hnot : ¬ Repeats loop.config.loopDetectionThreshold h)
    (given : Option LLMResponse) : loop.Stops h given ↔
      Repeats loop.config.loopDetectionThreshold (h ++ loop.signatures given.toList) := by
  cases given with
  | none =>
    refine iff_of_false (not_stops_none h) ?_
    rw [Option.toList_none, signatures, filterMap_nil, append_nil]
    exact hnot
  | some response => exact and_iff_right (Option.some_ne_none _)

theorem length_signatures_le (given : Option LLMResponse) :
    (loop.signatures given.toList).length ≤ 1 := by
  apply (length_filterMap_le _ _).trans
  cases given with
  | none => exact Nat.zero_le 1
  | some response => exact le_rfl

theorem detects_single {ended : Prop}
    (hlength : new.length ≤ 1) (hnot : ¬ Repeats window past)
    (hended : ended ↔ Repeats window (past ++ new)) : Detects window past new ended := by
  refine ⟨hended, fun k hk => ?_⟩
  have hzero : k = 0 := by omega
  rw [hzero, take_zero, append_nil]
  exact hnot

theorem signatures_append (l l' : List LLMResponse) :
    loop.signatures (l ++ l') = loop.signatures l ++ loop.signatures l' := filterMap_append

theorem detects_cons {ended : Prop}
    (hlength : last.length ≤ 1) (hnot : ¬ Repeats loop.config.loopDetectionThreshold past)
    (hmore : ¬ Repeats loop.config.loopDetectionThreshold (past ++ last))
    (hcurrent : current = if 0 < loop.config.loopDetectionThreshold then past ++ last else past)
    (hrest : ¬ Repeats loop.config.loopDetectionThreshold current →
      Detects loop.config.loopDetectionThreshold current new ended) :
    Detects loop.config.loopDetectionThreshold past (last ++ new) ended := by
  by_cases hwindow : 0 < loop.config.loopDetectionThreshold
  · rw [if_pos hwindow] at hcurrent
    rw [hcurrent] at hrest
    obtain ⟨hended, hbefore⟩ := hrest hmore
    refine ⟨by rw [hended, append_assoc], fun k hk => ?_⟩
    rw [take_append, ← append_assoc]
    by_cases hk' : k < last.length
    · have hzero : k = 0 := by omega
      rw [hzero, Nat.zero_sub, take_zero, take_zero, append_nil, append_nil]
      exact hnot
    · rw [take_of_length_le (not_lt.mp hk')]
      apply hbefore
      rw [length_append] at hk
      omega
  · have hnever : ∀ l, ¬ Repeats loop.config.loopDetectionThreshold l := fun l h => hwindow h.1
    obtain ⟨hended, -⟩ := hrest (hnever current)
    exact ⟨iff_of_false (fun h => hnever _ (hended.mp h)) (hnever _), fun k _ => hnever _⟩

theorem rounds_detects {ρ : Type} {round : ρ → LoopM W (ρ × Option Ending)}
    (hround : ∀ last d, Handles loop Prod.snd (round last) (fun d' => d' = d)
      d.state.callHistory (given d)) (n : ℕ) (last : ρ) (d : LoopData W)
    (hnot : ¬ Repeats loop.config.loopDetectionThreshold d.state.callHistory) :
    Detects loop.config.loopDetectionThreshold d.state.callHistory
      (loop.signatures (responsesFrom round given n last d))
      (∃ last' ending d', (rounds round n last).run d = .ok (last', ending) d' ∧
        ending.1 = .loopDetected) := by
  induction n generalizing last d with
  | zero =>
    refine ⟨iff_of_false ?_ ?_, fun k hk => absurd hk (Nat.not_lt_zero k)⟩
    · rintro ⟨last', ending, d', hrun, hending⟩
      cases hrun
      cases hending
    · rw [responsesFrom, signatures, filterMap_nil, append_nil]
      exact hnot
  | succ n ih =>
    have hstep := hround last d d rfl
    have hlength : (loop.signatures (given d).toList).length ≤ 1 := length_signatures_le _
    cases hrun : (round last).run d with
    | error e d' =>
      rw [hrun] at hstep
      have hresponses : responsesFrom round given (n + 1) last d = (given d).toList := by
        rw [responsesFrom, hrun]
        exact append_nil _
      have hfailed : (rounds round (n + 1) last).run d = .error e d' := by
        rw [rounds, run_bind, hrun]
      rw [hresponses, hfailed]
      apply detects_single hlength hnot
      refine iff_of_false ?_ fun hrepeats => hstep ((stops_iff hnot _).mpr hrepeats)
      rintro ⟨_, _, _, hreturned, -⟩
      cases hreturned
    | ok result d' =>
      obtain ⟨last', ending⟩ := result
      rw [hrun] at hstep
      obtain ⟨hhistory, hdetected⟩ := hstep
      rw [stops_iff hnot] at hdetected
      cases ending with
      | some ending =>
        have hresponses : responsesFrom round given (n + 1) last d = (given d).toList := by
          rw [responsesFrom, hrun]
          exact append_nil _
        have hended : (rounds round (n + 1) last).run d = .ok (last', ending) d' := by
          rw [rounds, run_bind, hrun]
          rfl
        rw [hresponses, hended]
        apply detects_single hlength hnot
        rw [← hdetected]
        constructor
        · rintro ⟨_, _, _, hreturned, hreason⟩
          cases hreturned
          exact hreason
        · exact fun hreason => ⟨_, _, _, rfl, hreason⟩
      | none =>
        have hresponses : responsesFrom round given (n + 1) last d =
            (given d).toList ++ responsesFrom round given n last' d' := by
          rw [responsesFrom, hrun]
        have hcontinued : (rounds round (n + 1) last).run d = (rounds round n last').run d' := by
          rw [rounds, run_bind, hrun]
        rw [hresponses, hcontinued, signatures_append]
        have hmore : ¬ Repeats loop.config.loopDetectionThreshold
            (d.state.callHistory ++ loop.signatures (given d).toList) := hdetected.mpr
        exact detects_cons hlength hnot hmore (hhistory rfl) (ih last' d')

theorem exists_result_iff {ρ β : Type} (x : LoopM W (ρ × Ending))
    (result : ρ × Ending → LoopData W → β) (reason : β → TerminationReason)
    (hreason : ∀ r d, reason (result r d) = r.2.1) (d : LoopData W) :
    (∃ b d', (do return result (← x) (← get) : LoopM W β).run d = .ok b d' ∧
      reason b = .loopDetected) ↔
    ∃ last ending d', x.run d = .ok (last, ending) d' ∧ ending.1 = .loopDetected := by
  rw [run_bind]
  cases x.run d with
  | error e d' =>
    constructor
    · rintro ⟨_, _, hreturned, -⟩
      cases hreturned
    · rintro ⟨_, _, _, hreturned, -⟩
      cases hreturned
  | ok r d' =>
    constructor
    · rintro ⟨_, _, hreturned, hdetected⟩
      cases hreturned
      exact ⟨_, _, _, rfl, (hreason r d').symm.trans hdetected⟩
    · rintro ⟨_, _, _, hreturned, hdetected⟩
      cases hreturned
      exact ⟨_, _, rfl, (hreason _ _).trans hdetected⟩

variable (loop) in
theorem run_detects (hnew : d.state.callHistory = []) :
    Detects loop.config.loopDetectionThreshold [] (loop.signatures (loop.toolResponses model d))
      (∃ result d', (loop.run model).run d = .ok result d' ∧
        result.terminationReason = .loopDetected) := by
  have hrounds := rounds_detects (handles_runIteration loop model)
    loop.config.maxIterations.toNat ⟨[], model⟩ d (hnew ▸ not_repeats_nil _)
  rw [hnew, ← runFrom_eq_rounds] at hrounds
  have hresult := exists_result_iff (loop.runFrom model loop.config.maxIterations.toNat ⟨[], model⟩)
    (fun r d => ({
      output := loop.parseOutput (r.2.2.getD r.1.raw)
      rawResponse := r.1.raw
      tokensUsed := d.state.totalTokens
      model := r.1.model
      iterations := d.state.iteration
      toolCallsMade := d.state.toolCallsMade
      toolsUsed := d.state.toolsUsed
      terminationReason := r.2.1
      tokensAvailable := d.state.tokenUsageAvailable } : ToolLoopResult))
    ToolLoopResult.terminationReason (fun _ _ => rfl) d
  exact ⟨hresult.trans hrounds.1, hrounds.2⟩

variable (loop) in
theorem runStream_detects (hnew : d.state.callHistory = []) :
    Detects loop.config.loopDetectionThreshold []
      (loop.signatures (loop.streamToolResponses model d))
      (∃ event d', (loop.runStream model).run d = .ok event d' ∧
        event.terminationReason = .loopDetected) := by
  have hrounds := rounds_detects (handles_streamIteration loop model)
    loop.config.maxIterations.toNat [] d (hnew ▸ not_repeats_nil _)
  rw [hnew, ← streamFrom_eq_rounds] at hrounds
  have hresult := exists_result_iff (loop.streamFrom model loop.config.maxIterations.toNat [])
    (fun r d => ({
      iteration := d.state.iteration
      terminationReason := r.2.1
      totalTokens := if d.state.tokenUsageAvailable then some d.state.totalTokens else none
      tokensAvailable := d.state.tokenUsageAvailable
      toolCallsMade := d.state.toolCallsMade
      toolsUsed := d.state.toolsUsed
      output := loop.parseOutput (r.2.2.getD r.1) } : CompletedEvent))
    CompletedEvent.terminationReason (fun _ _ => rfl) d
  exact ⟨hresult.trans hrounds.1, hrounds.2⟩

/-- What is documented of `json.loads` and `json.dumps` on a text. -/
def Reads (floats : JsonText.Floats) (python : Python) (text : Text) : Prop :=
  match JsonText.loads floats text with
  | .ok v => (python.jsonLoads text).map python.jsonDumpsSorted =
      some (JsonText.print floats JsonText.compact 0 (JsonText.sortKeys v))
  | .error .decode => python.jsonLoads text = none
  | .error .tooManyDigits => True

theorem reads_of_ok {python : Python}
    (hv : loads floats text = .ok v)
    (h : (python.jsonLoads text).map python.jsonDumpsSorted =
      some (print floats compact 0 (sortKeys v))) :
    Reads floats python text ∧ loads floats text ≠ .error .tooManyDigits := by
  rw [Reads, hv]
  exact ⟨h, nofun⟩

def SameArguments (floats : JsonText.Floats) (s t : Text) : Prop :=
  s = t ∨ ∃ v w, JsonText.loads floats s = .ok v ∧ JsonText.loads floats t = .ok w ∧
    JsonText.Same v w

variable (loop) in
def canonicalArguments (text : Text) : Text :=
  match loop.python.jsonLoads text with
  | some arguments => loop.python.jsonDumpsSorted arguments
  | none => text

theorem canonicalArguments_ok (hreads : Reads floats loop.python text)
    (hv : loads floats text = .ok v) : loop.canonicalArguments text =
      print floats compact 0 (sortKeys v) := by
  rw [Reads, hv] at hreads
  rw [canonicalArguments]
  cases hloads : loop.python.jsonLoads text with
  | none =>
    rw [hloads] at hreads
    cases hreads
  | some arguments =>
    rw [hloads] at hreads
    exact Option.some.inj hreads

theorem canonicalArguments_error (hreads : Reads floats loop.python text)
    (he : loads floats text = .error .decode) : loop.canonicalArguments text = text := by
  rw [Reads, he] at hreads
  rw [canonicalArguments, show loop.python.jsonLoads text = none from hreads]

theorem loads_print_sortKeys (hfloats : floats.Lawful) (hv : loads floats text = .ok v) :
    loads floats (print floats compact 0 (sortKeys v)) =
      .ok (sortKeys v) := by
  rw [loads_print compact hfloats, normalise_of_normal
    (normal_sortKeys (loads_normal hfloats hv))]

theorem canonicalArguments_eq_iff (hfloats : floats.Lawful)
    (hs : Reads floats loop.python s) (ht : Reads floats loop.python t)
    (hdigits : loads floats s ≠ .error .tooManyDigits)
    (hdigits' : loads floats t ≠ .error .tooManyDigits) :
    loop.canonicalArguments s = loop.canonicalArguments t ↔ SameArguments floats s t := by
  constructor
  · intro heq
    have hloads := congrArg (loads floats) heq
    cases hv : loads floats s with
    | ok v =>
      rw [canonicalArguments_ok hs hv, loads_print_sortKeys hfloats hv] at hloads
      cases hw : loads floats t with
      | ok w =>
        rw [canonicalArguments_ok ht hw, loads_print_sortKeys hfloats hw] at hloads
        exact .inr ⟨v, w, hv, hw, Except.ok.inj hloads⟩
      | error e =>
        cases e with
        | tooManyDigits => exact absurd hw hdigits'
        | decode =>
          rw [canonicalArguments_error ht hw, hw] at hloads
          cases hloads
    | error e =>
      cases e with
      | tooManyDigits => exact absurd hv hdigits
      | decode =>
        rw [canonicalArguments_error hs hv, hv] at hloads
        cases hw : loads floats t with
        | ok w =>
          rw [canonicalArguments_ok ht hw, loads_print_sortKeys hfloats hw] at hloads
          cases hloads
        | error e =>
          cases e with
          | tooManyDigits => exact absurd hw hdigits'
          | decode =>
            rw [canonicalArguments_error hs hv, canonicalArguments_error ht hw] at heq
            exact .inl heq
  · rintro (rfl | ⟨v, w, hv, hw, hsame⟩)
    · rfl
    · rw [canonicalArguments_ok hs hv, canonicalArguments_ok ht hw, show _ = _ from hsame]

theorem callSignature_eq (call : ToolCall) : loop.callSignature call =
    call.function.name ++ ':' :: loop.canonicalArguments call.function.arguments := rfl

theorem append_cons_inj {α : Type} {a : α} {x y s t : List α} (hx : a ∉ x) (hy : a ∉ y) :
    x ++ a :: s = y ++ a :: t ↔ x = y ∧ s = t := by
  induction x generalizing y with
  | nil =>
    cases y with
    | nil => simp
    | cons b y => simp [ne_of_not_mem_cons hy]
  | cons c x ih =>
    cases y with
    | nil => simp [(ne_of_not_mem_cons hx).symm]
    | cons b y =>
      have htails := ih (not_mem_of_not_mem_cons hx) (not_mem_of_not_mem_cons hy)
      rw [cons_append, cons_append, cons_eq_cons, htails, cons_eq_cons,
        and_assoc]

theorem callSignature_eq_iff
    (hname : a.function.name = b.function.name ∨ ':' ∉ a.function.name ∧ ':' ∉ b.function.name) :
    loop.callSignature a = loop.callSignature b ↔ a.function.name = b.function.name ∧
      loop.canonicalArguments a.function.arguments =
        loop.canonicalArguments b.function.arguments := by
  rw [callSignature_eq, callSignature_eq]
  rcases hname with hname | ⟨ha, hb⟩
  · rw [hname, append_cancel_left_eq, cons_eq_cons, and_iff_right rfl, and_iff_right rfl]
  · exact append_cons_inj ha hb

/-- A run ends because of repeated calls just at the first response with which the last
signatures are all equal, and calls of one tool are equal when their arguments are. -/
theorem loop_detected_iff (loop : ToolLoop W) (model : Text) (world : W)
    (limiter : RateLimiter) (enforcer : Option RuntimeEnforcer) (messages : List ChatMessage) :
    let d : LoopData W := { world, limiter, enforcer, messages }
    Detects loop.config.loopDetectionThreshold [] (loop.signatures (loop.toolResponses model d))
      (∃ result d', (loop.run model).run d = .ok result d' ∧
        result.terminationReason = .loopDetected) ∧
    Detects loop.config.loopDetectionThreshold []
      (loop.signatures (loop.streamToolResponses model d))
      (∃ event d', (loop.runStream model).run d = .ok event d' ∧
        event.terminationReason = .loopDetected) ∧
    ∀ floats : JsonText.Floats, floats.Lawful → ∀ a b : ToolCall,
      (∀ call ∈ [a, b], Reads floats loop.python call.function.arguments ∧
        JsonText.loads floats call.function.arguments ≠ .error .tooManyDigits) →
      (a.function.name = b.function.name ∨ ∀ call ∈ [a, b], ':' ∉ call.function.name) →
      (loop.callSignature a = loop.callSignature b ↔ a.function.name = b.function.name ∧
        SameArguments floats a.function.arguments b.function.arguments) := by
  refine ⟨run_detects loop model _ rfl, runStream_detects loop model _ rfl, ?_⟩
  intro floats hfloats a b hreads hnames
  obtain ⟨ha, hdigits⟩ := hreads a mem_cons_self
  obtain ⟨hb, hdigits'⟩ := hreads b (mem_cons_of_mem _ mem_cons_self)
  rw [callSignature_eq_iff (hnames.imp_right fun h =>
      ⟨h a mem_cons_self, h b (mem_cons_of_mem _ mem_cons_self)⟩),
    canonicalArguments_eq_iff hfloats ha hb hdigits hdigits']

def alertLoop (table : List (Text × Json)) (written : String) : ToolLoop Script :=
  { scriptedLoop table with
    python := { asciiPython table with jsonDumpsSorted := fun _ => written.toList }
    config := { loopDetectionThreshold := 2 } }

def moveCall (arguments : String) : ToolCall := ⟨"1".toList, "move".toList, arguments.toList⟩

def moves (first second : String) : LoopData Script where
  world := [callResponse [("1", "move", first)], callResponse [("1", "move", second)]]
  limiter := { perMinute := 60, burst := 10 }
  messages := [.say .user "Go.".toList]

def switches (first second : String) : JsonText.JsonValue :=
  .obj [(JsonText.strOf first.toList, .bool true), (JsonText.strOf second.toList, .bool true)]

def swappedLoop : ToolLoop Script :=
  alertLoop [("\x7b\"x\": true, \"y\": true\x7d".toList,
      .obj [("x", .bool true), ("y", .bool true)]),
    ("\x7b\"y\": true, \"x\": true\x7d".toList, .obj [("y", .bool true), ("x", .bool true)])]
    "\x7b\"x\": true, \"y\": true\x7d"

theorem loop_detected_swapped :
    (∃ result d', (swappedLoop.run "m".toList).run
        (moves "\x7b\"x\": true, \"y\": true\x7d" "\x7b\"y\": true, \"x\": true\x7d") =
          .ok result d' ∧
      result.terminationReason = .loopDetected) ∧
    swappedLoop.callSignature (moveCall "\x7b\"x\": true, \"y\": true\x7d") =
      swappedLoop.callSignature (moveCall "\x7b\"y\": true, \"x\": true\x7d") := by
  obtain ⟨hdetects, -, hequal⟩ := loop_detected_iff swappedLoop "m".toList
    (moves "\x7b\"x\": true, \"y\": true\x7d" "\x7b\"y\": true, \"x\": true\x7d").world
    { perMinute := 60, burst := 10 } none [.say .user "Go.".toList]
  have hfirst : JsonText.loads JsonText.plainFloats "\x7b\"x\": true, \"y\": true\x7d".toList =
      .ok (switches "x" "y") :=
    JsonText.loads_print JsonText.compact JsonText.plainFloats_lawful (switches "x" "y")
  have hsecond : JsonText.loads JsonText.plainFloats "\x7b\"y\": true, \"x\": true\x7d".toList =
      .ok (switches "y" "x") :=
    JsonText.loads_print JsonText.compact JsonText.plainFloats_lawful (switches "y" "x")
  have hsame : JsonText.sortKeys (switches "y" "x") = switches "x" "y" := by
    simp only [switches, JsonText.sortKeys, JsonText.sortKeysFields]
    rfl
  have hordered : JsonText.sortKeys (switches "x" "y") = switches "x" "y" := by
    rw [← hsame, JsonText.sortKeys_sortKeys]
  constructor
  · apply hdetects.1.mpr
    refine ⟨by decide, by decide, "move:\x7b\"x\": true, \"y\": true\x7d".toList, ?_⟩
    decide
  · have hequals : SameArguments JsonText.plainFloats "\x7b\"x\": true, \"y\": true\x7d".toList
        "\x7b\"y\": true, \"x\": true\x7d".toList :=
      .inr ⟨_, _, hfirst, hsecond, hordered.trans hsame.symm⟩
    refine (hequal JsonText.plainFloats JsonText.plainFloats_lawful
      (moveCall "\x7b\"x\": true, \"y\": true\x7d")
      (moveCall "\x7b\"y\": true, \"x\": true\x7d") ?_ (.inl rfl)).mpr ⟨rfl, hequals⟩
    intro call hcall
    rcases mem_pair.mp hcall with rfl | rfl
    · exact reads_of_ok hfirst (by rw [hordered]; rfl)
    · exact reads_of_ok hsecond (by rw [hsame]; rfl)

def spacedLoop : ToolLoop Script :=
  alertLoop [("\x7b\"x\":1\x7d".toList, .obj [("x", .int 1)]),
    ("\x7b\"x\": 1\x7d".toList, .obj [("x", .int 1)])] "\x7b\"x\": 1\x7d"

/-- White space between the tokens of the arguments does not count. -/
theorem spaced_detected :
    ¬ (moveCall "\x7b\"x\":1\x7d").function.arguments.Perm
      (moveCall "\x7b\"x\": 1\x7d").function.arguments ∧
    (spacedLoop.toolResponses "m".toList (moves "\x7b\"x\":1\x7d" "\x7b\"x\": 1\x7d")).map
      LLMResponse.calls = [[moveCall "\x7b\"x\":1\x7d"], [moveCall "\x7b\"x\": 1\x7d"]] ∧
    ∃ result d', (spacedLoop.run "m".toList).run
        (moves "\x7b\"x\":1\x7d" "\x7b\"x\": 1\x7d") = .ok result d' ∧
      result.terminationReason = .loopDetected := by
  refine ⟨fun hperm => ?_, rfl, _, _, rfl, rfl⟩
  exact absurd hperm.length_eq (by decide)

end ToolLoop

end Agent33.Agents
