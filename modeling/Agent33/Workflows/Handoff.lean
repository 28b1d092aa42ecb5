import Agent33.Library.Python
import Agent33.Llm.Base

/-!
# Handoffs

The ledger that one agent passes to the next. A ledger is built from the fields
of an object; a field that is missing or unknown is refused. Rendering a ledger
fails when its context is no text, or its references are neither an object nor
empty.
-/

namespace Agent33.Workflows.Handoff

open Library Llm

structure StateLedger where
  sourceAgent : Json
  targetAgent : Json
  objective : Json
  synthesizedContext : Json
  dataReferences : Json := .obj []

def format (python : Python) : Json → Text
  | .str s => s.toList
  | value => python.str value

def ledgerFields : List String :=
  ["source_agent", "target_agent", "objective", "synthesized_context", "data_references"]

/-- `StateLedger(**data)`. -/
def StateLedger.ofJson (data : Json) : Except Exn StateLedger :=
  match data with
  | .obj fields =>
    match data.field? "source_agent", data.field? "target_agent", data.field? "objective",
      data.field? "synthesized_context" with
    | some sourceAgent, some targetAgent, some objective, some synthesizedContext =>
      if fields.all fun f => decide (f.1 ∈ ledgerFields) then
        .ok { sourceAgent, targetAgent, objective, synthesizedContext,
              dataReferences := (data.field? "data_references").getD (.obj []) }
      else .error .typeError
    | _, _, _, _ => .error .typeError
  | _ => .error .typeError

def StateLedger.serialize (python : Python) (ledger : StateLedger) : Except Exn Text :=
  match ledger.synthesizedContext with
  | .str context =>
    let parts :=
      ["# Handoff Ledger (from ".toList ++ format python ledger.sourceAgent ++ ")".toList,
        "**Objective**: ".toList ++ format python ledger.objective,
        "\n## Synthesized Context".toList, context.toList]
    if ledger.dataReferences.truthy then
      match ledger.dataReferences with
      | .obj references =>
        .ok (Text.joinWith ['\n'] (parts ++ ["\n## Data Pointers".toList] ++
          references.map fun f => "- ".toList ++ f.1.toList ++ ": ".toList ++ format python f.2))
      | _ => .error .attributeError
    else .ok (Text.joinWith ['\n'] parts)
  | _ => if ledger.dataReferences.truthy then .error .attributeError else .error .typeError

def executeHandoff (python : Python) (ledger : StateLedger) (messages : List ChatMessage) :
    Except Exn (List ChatMessage) :=
  match messages with
  | [] => .ok []
  | first :: _ =>
    let systemPrompt := if first.role = .system then first else .say .system []
    (ledger.serialize python).map fun text => [systemPrompt, .say .user text]

end Agent33.Workflows.Handoff
