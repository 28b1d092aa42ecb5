import Agent33.Agents.CallArguments

/-!
# Malformed output of a model

Whatever a model answers, the loop should return, and a tool call whose arguments are
not an object should be answered by an error. This is so when the parsers, the
governance and the enforcer can read what the model gives them in every round.
-/

namespace Agent33.Agents

open Library Library.Hoare Llm Tools List

variable {W : Type}

namespace TextLoop

open ToolLoop

variable (tl : TextLoop W)

def AllAnswered (s : Session W) : Prop := ∀ p ∈ s.answers, tl.Answered p

def Copes (model : Text) (d : LoopData W) : Prop :=
  Returns (tl.run model) ⟨d, []⟩ fun _ s => tl.AllAnswered s

def CallFine (context : Option ToolContext) (call : ToolCall) (d : LoopData W) : Prop :=
  tl.runtime.refused call.function.arguments = none ∧
    ∀ arguments, tl.runtime.python.jsonLoads call.function.arguments = some arguments →
      tl.ArgumentsFine context call.function.name arguments d

def CallsFine (context : Option ToolContext) : List ToolCall → Session W → Prop
  | [], _ => True
  | call :: rest, s => tl.CallFine context call s.data ∧ ∀ result s',
      (tl.executeToolCall context call).run s = .ok (result, false) s' → CallsFine context rest s'

/-- The signature of the first call can be taken, and the calls are fine one after
another. -/
def ToolCallsFine (response : LLMResponse) (s : Session W) : Prop :=
  (0 < tl.loop.config.loopDetectionThreshold → ∀ call, response.calls.head? = some call →
      tl.runtime.refused call.function.arguments = none) ∧
    ∀ s₁, (tl.doomLoop response).run s = .ok false s₁ → tl.CallsFine tl.loop.toolContext
      (callsToProcess tl.loop.config.maxToolCallsPerIteration response.calls) s₁

def ResponseFine (response : LLMResponse) (s : Session W) : Prop :=
  (∀ parser, tl.parser = some parser → response.calls = [] →
      TextToolParser.Legible tl.runtime response.content parser) ∧
    ∀ response' s₁, (onLoop (tl.loop.runTextCalls response)).run s = .ok response' s₁ →
      response'.calls ≠ [] → ∀ s₂, (onLoop resetForToolCalls).run s₁ = .ok ⟨⟩ s₂ →
        tl.ToolCallsFine response' s₂

def RoundFine (model : Text) (s : Session W) : Prop :=
  ∀ s₁, (onLoop tl.loop.prepare).run s = .ok ⟨⟩ s₁ →
    ∀ response s₂, (onLoop (tl.callModel model)).run s₁ = .ok (.ok response) s₂ →
      ∀ s₃, (onLoop (trackTokenUsage response)).run s₂ = .ok ⟨⟩ s₃ → tl.ResponseFine response s₃

/-- `json.loads` reads the last text or raises `JSONDecodeError`. -/
def OutputFine (raw : Text) : Prop :=
  tl.runtime.refused (Text.strip raw) = none ∧
    ((asObject (tl.runtime.python.jsonLoads (Text.strip raw))).isNone ∧
      "```".toList.isPrefixOf (Text.strip raw) →
        tl.runtime.refused (fencedText (Text.strip raw)) = none)

def RoundsFine (model : Text) : ℕ → Last → Session W → Prop
  | 0, last, _ => tl.OutputFine last.raw
  | n + 1, last, s => tl.RoundFine model s ∧ ∀ last' ending s',
      (tl.runIteration model last).run s = .ok (last', ending) s' →
        match ending with
        | none => RoundsFine model n last' s'
        | some (_, final) => tl.OutputFine (final.getD last'.raw)

section Sessions

variable {tl} {α : Type} {s : Session W}

def Spoilt (tl : TextLoop W) (s : Session W) : Prop := ¬ tl.AllAnswered s

theorem loads_returns_iff {text : Text} {Q : PUnit → Session W → Prop} :
    Returns (tl.loads text) s Q ↔ tl.runtime.refused text = none ∧ Q ⟨⟩ s := by
  rw [loads]
  cases tl.runtime.refused text with
  | none => simp [returns_pure]
  | some e => simp [returns_throw]

section Keeps

variable {I : Session W → Prop}

theorem keeps_loads (text : Text) : Keeps I (tl.loads text) := by
  rw [loads]
  cases tl.runtime.refused text with
  | none => exact keeps_pure _
  | some e => exact keeps_throw _

variable (hI : ∀ s data, I s → I { s with data })

include hI

theorem keeps_onLoop (x : LoopM W α) : Keeps I (onLoop x) := by
  refine Triple.zoom fun s hs => ?_
  cases x.run s.data with
  | ok a d => exact hI s d hs
  | error e d => exact hI s d hs

theorem keeps_doomLoop (response : LLMResponse) : Keeps I (tl.doomLoop response) := by
  refine Keeps.bind ?_ fun _ => keeps_onLoop hI _
  rw [loadsSignature]
  cases response.calls with
  | nil => exact keeps_pure _
  | cons call rest =>
    dsimp only
    split_ifs
    · exact keeps_loads _
    · exact keeps_pure _

end Keeps

theorem spoilt_onLoop (x : LoopM W α) : Keeps tl.Spoilt (onLoop x) :=
  keeps_onLoop (fun _ _ h => h) x

theorem spoilt_executeToolCall (context : Option ToolContext) (call : ToolCall) :
    Keeps tl.Spoilt (tl.executeToolCall context call) := by
  refine (keeps_loads _).bind fun _ => (spoilt_onLoop _).bind fun answered => ?_
  refine Keeps.bind (keeps_modify fun s hs hall => ?_) fun _ => keeps_pure _
  exact hs fun p hp => hall p (mem_append_left _ hp)

theorem spoilt_executeEach (context : Option ToolContext) (calls : List ToolCall) :
    Keeps tl.Spoilt (tl.executeEach context calls) := by
  induction calls with
  | nil => exact keeps_pure _
  | cons call rest ih =>
    refine (spoilt_executeToolCall context call).bind fun answered => ?_
    obtain ⟨result, stop⟩ := answered
    cases stop with
    | true => exact keeps_pure _
    | false => exact ih.bind fun _ => keeps_pure _

theorem spoilt_runToolCalls (response : LLMResponse) :
    Keeps tl.Spoilt (tl.runToolCalls response) := by
  refine (spoilt_onLoop _).bind fun _ =>
    (keeps_doomLoop (fun _ _ h => h) response).bind fun detected => ?_
  split_ifs
  · exact keeps_pure _
  · exact (spoilt_executeEach _ _).bind fun _ => spoilt_onLoop _

theorem spoilt_respond (response : LLMResponse) : Keeps tl.Spoilt (tl.respond response) := by
  refine (spoilt_onLoop _).bind fun response => ?_
  split_ifs
  · exact spoilt_runToolCalls response
  · exact spoilt_onLoop _

theorem spoilt_ask (model : Text) (last : Last) : Keeps tl.Spoilt (tl.ask model last) := by
  refine (spoilt_onLoop _).bind fun reply => ?_
  cases reply with
  | error e => exact (spoilt_onLoop _).bind fun _ => (spoilt_onLoop _).bind fun _ => keeps_pure _
  | ok response =>
    exact (spoilt_onLoop _).bind fun _ => (spoilt_respond response).bind fun _ => keeps_pure _

theorem spoilt_runIteration (model : Text) (last : Last) :
    Keeps tl.Spoilt (tl.runIteration model last) :=
  (spoilt_onLoop _).bind fun _ => (spoilt_ask model last).bind fun _ =>
    (spoilt_onLoop _).bind fun _ => keeps_pure _

theorem spoilt_runFrom (model : Text) (n : ℕ) (last : Last) :
    Keeps tl.Spoilt (tl.runFrom model n last) := by
  induction n generalizing last with
  | zero => exact keeps_pure _
  | succ n ih =>
    refine (spoilt_runIteration model last).bind fun iterated => ?_
    obtain ⟨last, ending⟩ := iterated
    cases ending with
    | none => exact ih last
    | some ending => exact keeps_pure _

variable {x : LoopM W α}

theorem onLoop_returns_iff : Returns (onLoop x) s (fun _ => tl.AllAnswered) ↔
    Returns x s.data (fun _ _ => True) ∧ tl.AllAnswered s := by
  rw [onLoop, returns_zoom]
  cases hrun : x.run s.data with
  | ok a d =>
    rw [returns_of_ok hrun, returns_of_ok hrun, true_and]
    rfl
  | error e d => simp only [not_returns_of_error hrun, false_and]

theorem allAnswered_push {call : ToolCall} {result : ToolResult} (hs : tl.AllAnswered s)
    (data : LoopData W) :
    tl.AllAnswered ⟨data, s.answers ++ [(call, result)]⟩ ↔ tl.Answered (call, result) := by
  constructor
  · intro h
    exact h _ (mem_append_right _ (mem_singleton.mpr rfl))
  · intro h p hp
    rcases mem_append.mp hp with hp | hp
    · exact hs p hp
    · rwa [mem_singleton.mp hp]

theorem executeToolCall_iff (hs : tl.AllAnswered s) (context : Option ToolContext)
    (call : ToolCall) : Returns (tl.executeToolCall context call) s (fun _ => tl.AllAnswered) ↔
      tl.CallFine context call s.data := by
  rw [executeToolCall, returns_bind, loads_returns_iff, CallFine, ← executeToolCall_returns_iff,
    returns_bind, onLoop, returns_zoom]
  refine and_congr_right fun _ => returns_congr fun answered data _ => ?_
  exact allAnswered_push hs data

theorem executeEach_iff (hs : tl.AllAnswered s) (context : Option ToolContext)
    (calls : List ToolCall) : Returns (tl.executeEach context calls) s (fun _ => tl.AllAnswered) ↔
      tl.CallsFine context calls s := by
  induction calls generalizing s with
  | nil => exact iff_of_true hs trivial
  | cons call rest ih =>
    rw [executeEach, CallsFine, ← executeToolCall_iff hs]
    refine Iff.trans (returns_bind_of_keeps (fun _ _ h => h) fun answered => ?_) ?_
    · obtain ⟨result, stop⟩ := answered
      cases stop with
      | true => exact keeps_pure _
      | false => exact (spoilt_executeEach context rest).bind fun _ => keeps_pure _
    refine and_congr_right fun hcall => ⟨fun h result s' hrun => ?_, fun h answered s' hrun => ?_⟩
    · exact (ih ((returns_of_ok hrun).mp hcall)).mp (returns_bind.mp (h _ s' hrun))
    · obtain ⟨result, stop⟩ := answered
      have hs' := (returns_of_ok hrun).mp hcall
      cases stop with
      | true => exact hs'
      | false => exact returns_bind.mpr ((ih hs').mpr (h result s' hrun))

theorem onLoop_bind_iff {β : Type} {f : α → SessionM W β} {R : β → Session W → Prop} (hx : Total x)
    (hs : tl.AllAnswered s) : Returns (onLoop x >>= f) s R ↔ ∀ a s', tl.AllAnswered s' →
      (onLoop x).run s = .ok a s' → Returns (f a) s' R := by
  have hx : Total (onLoop x) := total_zoom hx
  rw [returns_bind, hx.returns_iff]
  exact ⟨fun h a s' _ hrun => h a s' hrun,
    fun h a s' hrun => h a s' ((keeps_onLoop (fun _ _ h => h) x).of_ok hs hrun) hrun⟩

theorem loadsSignature_iff {response : LLMResponse} : Returns (tl.loadsSignature response) s Q ↔
      (0 < tl.loop.config.loopDetectionThreshold → ∀ call, response.calls.head? = some call →
        tl.runtime.refused call.function.arguments = none) ∧ Q ⟨⟩ s := by
  rw [loadsSignature]
  cases response.calls with
  | nil => simp [returns_pure]
  | cons call rest =>
    dsimp only
    split_ifs with hthreshold
    · simp [loads_returns_iff, hthreshold]
    · simp [returns_pure, hthreshold]

theorem onLoop_iff (hx : Total x) :
    Returns (onLoop x) s (fun _ => tl.AllAnswered) ↔ tl.AllAnswered s := by
  rw [onLoop_returns_iff]
  exact and_iff_right (hx s.data)

theorem executeToolCalls_iff (hs : tl.AllAnswered s) (response : LLMResponse) :
    Returns (do
      let results ← tl.executeToolCalls tl.loop.toolContext response.calls
      onLoop (tl.loop.takeResults response results)) s (fun _ => tl.AllAnswered) ↔
      tl.CallsFine tl.loop.toolContext
        (callsToProcess tl.loop.config.maxToolCallsPerIteration response.calls) s := by
  rw [returns_bind, ← executeEach_iff hs]
  exact returns_congr fun results s' _ => onLoop_iff (total_takeResults response results)

theorem toolCalls_iff (hs : tl.AllAnswered s) (response : LLMResponse) :
    Returns (do
      if ← tl.doomLoop response then return .stop (.loopDetected, none)
      else
        let results ← tl.executeToolCalls tl.loop.toolContext response.calls
        onLoop (tl.loop.takeResults response results)) s (fun _ => tl.AllAnswered) ↔
      tl.ToolCallsFine response s := by
  have hsignature : Returns (tl.doomLoop response) s (fun _ _ => True) ↔
      (0 < tl.loop.config.loopDetectionThreshold → ∀ call, response.calls.head? = some call →
        tl.runtime.refused call.function.arguments = none) := by
    rw [doomLoop, returns_bind, loadsSignature_iff]
    exact and_iff_left (total_zoom (total_doomLoop response) s)
  have hdoom : ∀ {detected s₁}, (tl.doomLoop response).run s = .ok detected s₁ →
      tl.AllAnswered s₁ := fun hrun =>
    (keeps_doomLoop (fun _ _ h => h) response).of_ok hs hrun
  rw [returns_bind, returns_iff, hsignature, ToolCallsFine]
  refine and_congr_right fun _ => ⟨fun h s₁ hrun => ?_, fun h detected s₁ hrun => ?_⟩
  · exact (executeToolCalls_iff (hdoom hrun) response).mp (h false s₁ hrun)
  · cases detected with
    | true => exact hdoom hrun
    | false => exact (executeToolCalls_iff (hdoom hrun) response).mpr (h s₁ hrun)

theorem total_resetForToolCalls : Total (resetForToolCalls : LoopM W PUnit) :=
  total_modifyState _

theorem runToolCalls_iff (hs : tl.AllAnswered s) (response : LLMResponse) :
    Returns (tl.runToolCalls response) s (fun _ => tl.AllAnswered) ↔
      ∀ s₁, (onLoop resetForToolCalls).run s = .ok ⟨⟩ s₁ → tl.ToolCallsFine response s₁ := by
  rw [runToolCalls, onLoop_bind_iff total_resetForToolCalls hs]
  refine ⟨fun h s₁ hrun => ?_, fun h _ s₁ hs₁ hrun => (toolCalls_iff hs₁ response).mpr (h s₁ hrun)⟩
  have hs₁ := (keeps_onLoop (fun _ _ h => h) _).of_ok hs hrun
  exact (toolCalls_iff hs₁ response).mp (h ⟨⟩ s₁ hs₁ hrun)

theorem withTextCalls_returns_iff {parse : Text → Except Exn (Option (List ToolCall))}
    (response : LLMResponse) (d : LoopData W) :
    Returns (withTextCalls parse response) d (fun _ _ => True) ↔
      ∃ found, parse response.content = .ok found := by
  rw [withTextCalls]
  cases parse response.content with
  | error e => simp [returns_throw]
  | ok found =>
    refine iff_of_true ?_ ⟨found, rfl⟩
    split <;> trivial

theorem runTextCalls_returns_iff (response : LLMResponse) (d : LoopData W) :
    Returns (tl.loop.runTextCalls response) d (fun _ _ => True) ↔
      ∀ parser, tl.parser = some parser → response.calls = [] →
        TextToolParser.Legible tl.runtime response.content parser := by
  have hparser : tl.loop.config.textToolParser =
      tl.parser.map fun parser text => parser.parse tl.runtime text := rfl
  rw [runTextCalls, hparser]
  cases tl.parser with
  | none => exact iff_of_true trivial fun _ h => by cases h
  | some parser =>
    simp only [Option.map_some, Option.some.injEq, forall_eq']
    by_cases hcalls : response.calls = []
    · rw [if_pos hcalls, withTextCalls_returns_iff, TextToolParser.parse_ok_iff]
      exact (imp_iff_right hcalls).symm
    · rw [if_neg hcalls]
      exact iff_of_true trivial fun h => absurd h hcalls

theorem respond_iff (hs : tl.AllAnswered s) (response : LLMResponse) :
    Returns (tl.respond response) s (fun _ => tl.AllAnswered) ↔ tl.ResponseFine response s := by
  have hreturns : Returns (onLoop (tl.loop.runTextCalls response)) s (fun _ _ => True) ↔
      ∀ parser, tl.parser = some parser → response.calls = [] →
        TextToolParser.Legible tl.runtime response.content parser := by
    rw [onLoop, returns_zoom]
    exact runTextCalls_returns_iff response s.data
  rw [respond, returns_bind, returns_iff, hreturns, ResponseFine]
  refine and_congr_right fun _ => forall_congr' fun response' => forall_congr' fun s₁ =>
    forall_congr' fun hrun => ?_
  have hs₁ := (keeps_onLoop (fun _ _ h => h) _).of_ok hs hrun
  by_cases hcalls : response'.calls = []
  · rw [if_neg (not_not_intro hcalls), onLoop_iff (total_runText response')]
    exact iff_of_true hs₁ fun h => absurd hcalls h
  · rw [if_pos hcalls, runToolCalls_iff hs₁]
    exact (imp_iff_right hcalls).symm

theorem total_callModel (model : Text) : Total (tl.callModel model) :=
  total_get.bind fun _ => total_complete model _

theorem total_trackTokenUsage (response : LLMResponse) :
    Total (trackTokenUsage response : LoopM W PUnit) := total_modifyState _

theorem total_prepare : Total tl.loop.prepare := by
  refine (total_modifyState _).bind fun _ => ?_
  split_ifs
  · exact total_modify _
  · exact total_pure _

theorem ask_iff (hs : tl.AllAnswered s) (model : Text) (last : Last) :
    Returns (tl.ask model last) s (fun _ => tl.AllAnswered) ↔
      ∀ response s₁, (onLoop (tl.callModel model)).run s = .ok (.ok response) s₁ →
        ∀ s₂, (onLoop (trackTokenUsage response)).run s₁ = .ok ⟨⟩ s₂ →
          tl.ResponseFine response s₂ := by
  have hresponse : ∀ (response : LLMResponse) s₁, tl.AllAnswered s₁ → (Returns (do
      onLoop (trackTokenUsage response)
      return (⟨response.content, response.model⟩, ← tl.respond response) :
        SessionM W (Last × Flow Ending)) s₁ (fun _ => tl.AllAnswered) ↔
      ∀ s₂, (onLoop (trackTokenUsage response)).run s₁ = .ok ⟨⟩ s₂ →
        tl.ResponseFine response s₂) := by
    intro response s₁ hs₁
    rw [onLoop_bind_iff (total_trackTokenUsage response) hs₁]
    constructor
    · intro h s₂ hrun
      have hs₂ := (keeps_onLoop (fun _ _ h => h) _).of_ok hs₁ hrun
      exact (respond_iff hs₂ response).mp (returns_bind.mp (h ⟨⟩ s₂ hs₂ hrun))
    · intro h _ s₂ hs₂ hrun
      exact returns_bind.mpr ((respond_iff hs₂ response).mpr (h s₂ hrun))
  rw [ask, onLoop_bind_iff (total_callModel model) hs]
  constructor
  · intro h response s₁ hrun
    have hs₁ := (keeps_onLoop (fun _ _ h => h) _).of_ok hs hrun
    exact (hresponse response s₁ hs₁).mp (h _ s₁ hs₁ hrun)
  · intro h reply s₁ hs₁ hrun
    cases reply with
    | error e =>
      refine (onLoop_bind_iff (total_modifyState _) hs₁).mpr fun _ s₂ hs₂ _ => ?_
      exact (onLoop_bind_iff total_thresholdReached hs₂).mpr fun _ _ hs₃ _ => hs₃
    | ok response => exact (hresponse response s₁ hs₁).mpr (h response s₁ hrun)

theorem runIteration_iff (hs : tl.AllAnswered s) (model : Text) (last : Last) :
    Returns (tl.runIteration model last) s (fun _ => tl.AllAnswered) ↔ tl.RoundFine model s := by
  have hask : ∀ s₁, tl.AllAnswered s₁ → (Returns (do
      let asked ← tl.ask model last
      return (asked.1, ← onLoop (tl.loop.endResponse asked.2))) s₁ (fun _ => tl.AllAnswered) ↔
      ∀ response s₂, (onLoop (tl.callModel model)).run s₁ = .ok (.ok response) s₂ →
        ∀ s₃, (onLoop (trackTokenUsage response)).run s₂ = .ok ⟨⟩ s₃ →
          tl.ResponseFine response s₃) := by
    intro s₁ hs₁
    rw [returns_bind, ← ask_iff hs₁ model last]
    refine returns_congr fun asked s₂ _ => ?_
    exact returns_bind.trans (onLoop_iff (total_endResponse asked.2))
  rw [runIteration, onLoop_bind_iff total_prepare hs, RoundFine]
  constructor
  · intro h s₁ hrun
    have hs₁ := (keeps_onLoop (fun _ _ h => h) _).of_ok hs hrun
    exact (hask s₁ hs₁).mp (h ⟨⟩ s₁ hs₁ hrun)
  · intro h _ s₁ hs₁ hrun
    exact (hask s₁ hs₁).mpr (h s₁ hrun)

theorem runFrom_iff (hs : tl.AllAnswered s) (model : Text) (n : ℕ) (last : Last) :
    Returns (tl.runFrom model n last) s
      (fun ended s' => tl.AllAnswered s' ∧ tl.OutputFine (ended.2.2.getD ended.1.raw)) ↔
      tl.RoundsFine model n last s := by
  induction n generalizing s last with
  | zero => exact and_iff_right hs
  | succ n ih =>
    rw [runFrom, RoundsFine, ← runIteration_iff hs model last]
    refine Iff.trans (returns_bind_of_keeps (fun _ _ h => h.1) fun iterated => ?_) ?_
    · obtain ⟨last', ending⟩ := iterated
      cases ending with
      | none => exact spoilt_runFrom model n last'
      | some ending => exact keeps_pure _
    refine and_congr_right fun hround => ⟨fun h last' ending s' hrun => ?_,
      fun h iterated s' hrun => ?_⟩
    · have hs' := (returns_of_ok hrun).mp hround
      cases ending with
      | none => exact (ih hs' last').mp (h _ s' hrun)
      | some ending => exact (h _ s' hrun).2
    · obtain ⟨last', ending⟩ := iterated
      have hs' := (returns_of_ok hrun).mp hround
      cases ending with
      | none => exact (ih hs' last').mpr (h last' none s' hrun)
      | some ending => exact ⟨hs', h last' (some ending) s' hrun⟩

theorem loadsOutput_iff {raw : Text} :
    Returns (tl.loadsOutput raw) s Q ↔ tl.OutputFine raw ∧ Q ⟨⟩ s := by
  rw [loadsOutput, returns_bind, loads_returns_iff, OutputFine, and_assoc]
  refine and_congr_right fun _ => ?_
  split_ifs with hfence
  · rw [loads_returns_iff, imp_iff_right hfence]
  · exact (and_iff_right fun h => absurd h hfence).symm

end Sessions

/-- The loop copes with what the model answers exactly if every round and the last
text are fine. -/
theorem copes_iff (model : Text) (d : LoopData W) : tl.Copes model d ↔
    tl.RoundsFine model tl.loop.config.maxIterations.toNat ⟨[], model⟩ ⟨d, []⟩ := by
  have hnone : tl.AllAnswered ⟨d, []⟩ := fun _ h => absurd h not_mem_nil
  rw [← runFrom_iff hnone, Copes, run, returns_bind]
  refine returns_congr fun ended s' _ => ?_
  exact returns_bind.trans (loadsOutput_iff.trans and_comm)

def governedTexts : TextLoop Script where
  runtime := {
    python := asciiPython [("[]".toList, .arr [])]
    jsonDumps := fun _ => []
    finditer := fun _ _ => [] }
  base := { scriptedLoop [] with toolGovernance := some {} }

def emptyListCall : LoopData Script where
  world := [callResponse [("1", "search", "[]")], textResponse "Done."]
  limiter := { perMinute := 60, burst := 10 }
  messages := [.say .user "Go.".toList]

/-- The model calls a tool with an empty list, and the governance raises. -/
theorem emptyListCall_not_copes : ¬ governedTexts.Copes "m".toList emptyListCall := by
  intro hcopes
  obtain ⟨result, s, hrun, _⟩ := returns_iff_exists.mp hcopes
  have hraises : (match (governedTexts.run "m".toList).run ⟨emptyListCall, []⟩ with
      | .ok _ _ => false
      | .error e _ => e == .attributeError) = true := by decide
  rw [hrun] at hraises
  exact absurd hraises Bool.false_ne_true

end TextLoop

end Agent33.Agents
