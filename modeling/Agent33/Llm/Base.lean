import Agent33.Library.Dict
import Agent33.Library.Text
import Mathlib.Data.List.Sort

/-!
# Messages and responses of language models
-/

namespace Agent33.Llm

open Library

structure ToolCallFunction where
  name : Text
  arguments : Text
  deriving DecidableEq

structure ToolCall where
  id : Text
  function : ToolCallFunction
  deriving DecidableEq

structure LLMResponse where
  content : Text
  model : Text
  promptTokens : ℕ := 0
  completionTokens : ℕ := 0
  toolCalls : Option (List ToolCall) := none
  finishReason : Text := "stop".toList
  usageAvailable : Bool := true

def LLMResponse.calls (response : LLMResponse) : List ToolCall := response.toolCalls.getD []

structure ToolCallDelta where
  index : ℕ
  id : Text := []
  name : Text := []
  argumentsFragment : Text := []

structure LLMStreamChunk where
  deltaContent : Text := []
  deltaToolCalls : List ToolCall := []
  toolCallDelta : Option ToolCallDelta := none
  finishReason : Option Text := none
  model : Text := []
  promptTokens : ℕ := 0
  completionTokens : ℕ := 0
  usageAvailable : Bool := false

inductive Role
  | system
  | user
  | assistant
  | tool
  | other (name : Text)
  deriving DecidableEq

def Role.value : Role → Text
  | system => "system".toList
  | user => "user".toList
  | assistant => "assistant".toList
  | tool => "tool".toList
  | other name => name

inductive ContentPart
  | text (text : Text)
  | image (url base64Data : Option Text) (mediaType detail : Text)
  | audio (url base64Data : Option Text) (mediaType : Text)
  deriving DecidableEq

inductive Content
  | text (text : Text)
  | parts (parts : List ContentPart)
  deriving DecidableEq

structure ChatMessage where
  role : Role
  content : Content
  toolCalls : Option (List ToolCall) := none
  toolCallId : Text := []
  name : Text := []
  deriving DecidableEq

def ContentPart.text? : ContentPart → Option Text
  | .text t => some t
  | _ => none

def ChatMessage.textContent (message : ChatMessage) : Text :=
  match message.content with
  | .text text => text
  | .parts parts => Text.joinWith [' '] (parts.filterMap ContentPart.text?)

def ChatMessage.say (role : Role) (text : Text) : ChatMessage := { role, content := .text text }

def ChatMessage.calls (message : ChatMessage) : List ToolCall :=
  if message.role = .assistant then message.toolCalls.getD [] else []

end Agent33.Llm

/-!
## Reassembly of streamed tool calls
-/

namespace Agent33.Llm

open Library

structure PartialToolCall where
  id : Text := []
  name : Text := []
  argumentsParts : List Text := []

structure ToolCallAssembler where
  partials : Dict ℕ PartialToolCall := Dict.empty

def PartialToolCall.add (partialCall : PartialToolCall) (delta : ToolCallDelta) :
    PartialToolCall where
  id := if delta.id = [] then partialCall.id else delta.id
  name := if delta.name = [] then partialCall.name else delta.name
  argumentsParts :=
    if delta.argumentsFragment = [] then partialCall.argumentsParts
    else partialCall.argumentsParts ++ [delta.argumentsFragment]

def ToolCallAssembler.addDelta (assembler : ToolCallAssembler) (delta : ToolCallDelta) :
    ToolCallAssembler where
  partials := assembler.partials.set delta.index
    ((assembler.partials.getD delta.index {}).add delta)

def PartialToolCall.finish (index : ℕ) (partialCall : PartialToolCall) : Option ToolCall :=
  if partialCall.name = [] then none
  else
    let arguments := Text.strip partialCall.argumentsParts.flatten
    some {
      id := if partialCall.id = [] then "call_".toList ++ Text.ofNat index else partialCall.id
      function := {
        name := partialCall.name
        arguments := if arguments = [] then "\x7b\x7d".toList else arguments } }

def ToolCallAssembler.close (assembler : ToolCallAssembler) : List ToolCall :=
  (assembler.partials.entries.insertionSort fun a b => a.1 ≤ b.1).filterMap fun e =>
    e.2.finish e.1

end Agent33.Llm
