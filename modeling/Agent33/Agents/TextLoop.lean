import Agent33.Agents.ToolLoop
import Agent33.Library.History
import Agent33.Llm.TextToolParser

/-!
# The tool loop over arbitrary texts

The loop over complete responses with the parsers for tool calls in texts, and with
the exceptions that `json.loads` raises beside the one that the loop catches. The
results that the tool calls are answered with are kept. Where `json.loads` raises
nothing else, this is the tool loop.
-/

namespace Agent33.Agents

open Library Library.Hoare Llm Tools

structure TextLoop (W : Type) where
  runtime : TextRuntime
  parser : Option TextToolParser := none
  base : ToolLoop W

def TextLoop.loop {W : Type} (tl : TextLoop W) : ToolLoop W where
  __ := tl.base
  python := tl.runtime.python
  config := { tl.base.config with
    textToolParser := tl.parser.map fun parser text => parser.parse tl.runtime text }

structure Session (W : Type) where
  data : LoopData W
  answers : List (ToolCall × ToolResult) := []

abbrev SessionM (W : Type) := EStateM Exn (Session W)

variable {W : Type}

def onLoop {α : Type} (x : LoopM W α) : SessionM W α :=
  zoom Session.data (fun data s => { s with data }) x

def answer (call : ToolCall) (result : ToolResult) : SessionM W PUnit :=
  modify fun s => { s with answers := s.answers ++ [(call, result)] }

namespace TextLoop

open ToolLoop

variable (tl : TextLoop W)

/-- The exceptions of `json.loads` that nothing catches. -/
def loads (text : Text) : SessionM W PUnit :=
  match tl.runtime.refused text with
  | some e => throw e
  | none => return

def executeToolCall (context : Option ToolContext) (call : ToolCall) :
    SessionM W (ToolResult × Bool) := do
  tl.loads call.function.arguments
  let answered ← onLoop (tl.loop.executeToolCall context call)
  answer call answered.1
  return answered

def executeEach (context : Option ToolContext) : List ToolCall → SessionM W (List ToolResult)
  | [] => return []
  | call :: rest => do
    let (result, stop) ← tl.executeToolCall context call
    if stop then return [result]
    else
      let results ← executeEach context rest
      return result :: results

def executeToolCalls (context : Option ToolContext) (calls : List ToolCall) :
    SessionM W (List ToolResult) :=
  tl.executeEach context (callsToProcess tl.loop.config.maxToolCallsPerIteration calls)

def loadsSignature (response : LLMResponse) : SessionM W PUnit :=
  match response.calls with
  | [] => return
  | call :: _ =>
    if 0 < tl.loop.config.loopDetectionThreshold then tl.loads call.function.arguments else return

def doomLoop (response : LLMResponse) : SessionM W Bool := do
  tl.loadsSignature response
  onLoop (tl.loop.doomLoop response)

def runToolCalls (response : LLMResponse) : SessionM W (Flow Ending) := do
  onLoop resetForToolCalls
  if ← tl.doomLoop response then return .stop (.loopDetected, none)
  else
    let results ← tl.executeToolCalls tl.loop.toolContext response.calls
    onLoop (tl.loop.takeResults response results)

def respond (response : LLMResponse) : SessionM W (Flow Ending) := do
  let response ← onLoop (tl.loop.runTextCalls response)
  if response.calls ≠ [] then tl.runToolCalls response else onLoop (tl.loop.runText response)

def callModel (model : Text) : LoopM W (Except LlmError LLMResponse) := do
  tl.loop.complete model (← get).messages

def ask (model : Text) (last : Last) : SessionM W (Last × Flow Ending) := do
  match ← onLoop (tl.callModel model) with
  | .error _ =>
    onLoop bumpErrors
    return (last, if ← onLoop tl.loop.thresholdReached then .stop (.error, none) else .again)
  | .ok response =>
    onLoop (trackTokenUsage response)
    return (⟨response.content, response.model⟩, ← tl.respond response)

def runIteration (model : Text) (last : Last) : SessionM W (Last × Option Ending) := do
  onLoop tl.loop.prepare
  let (last, flow) ← tl.ask model last
  return (last, ← onLoop (tl.loop.endResponse flow))

def runFrom (model : Text) : ℕ → Last → SessionM W (Last × Ending)
  | 0, last => return (last, .maxIterations, none)
  | n + 1, last => do
    let (last, ending) ← tl.runIteration model last
    match ending with
    | some ending => return (last, ending)
    | none => runFrom model n last

def fencedText (stripped : Text) : Text :=
  Text.strip (Text.joinWith ['\n'] (fencedLines false (Text.splitlines stripped)))

/-- What `_parse_output` reads of the last text. -/
def loadsOutput (raw : Text) : SessionM W PUnit := do
  let stripped := Text.strip raw
  tl.loads stripped
  if (asObject (tl.runtime.python.jsonLoads stripped)).isNone ∧
      "```".toList.isPrefixOf stripped then
    tl.loads (fencedText stripped)

def run (model : Text) : SessionM W ToolLoopResult := do
  let (last, reason, final) ←
    tl.runFrom model tl.loop.config.maxIterations.toNat ⟨[], model⟩
  tl.loadsOutput (final.getD last.raw)
  let state := (← get).data.state
  return {
    output := tl.loop.parseOutput (final.getD last.raw)
    rawResponse := last.raw
    tokensUsed := state.totalTokens
    model := last.model
    iterations := state.iteration
    toolCallsMade := state.toolCallsMade
    toolsUsed := state.toolsUsed
    terminationReason := reason
    tokensAvailable := state.tokenUsageAvailable }

end TextLoop

end Agent33.Agents
