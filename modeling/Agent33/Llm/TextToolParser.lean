import Agent33.Library.Python
import Agent33.Llm.Base

/-!
# Tool calls in texts

The parsers of tool calls that a model writes into its text. Regular expressions
are functions of the runtime, and so is what `json.loads` raises beside the error
that the parsers catch: for a number with too many digits, or values that are
nested too deeply.
-/

namespace Agent33.Llm

open Library

structure TextRuntime where
  python : Python
  /-- What `json.loads` raises when it is not `JSONDecodeError`. -/
  refused : Text → Option Exn := fun _ => none
  /-- `json.dumps`. -/
  jsonDumps : Json → Text
  /-- The groups of the matches of `re.compile(pattern, re.DOTALL).finditer(text)`. -/
  finditer : Text → Text → List (List Text)

/-- `json.loads`; none for `JSONDecodeError`. -/
def TextRuntime.loads (runtime : TextRuntime) (text : Text) : Except Exn (Option Json) :=
  match runtime.refused text with
  | some e => .error e
  | none => .ok (runtime.python.jsonLoads text)

inductive TextToolParser
  | react
  | xml
  | hermes
  | chained (parsers : List TextToolParser)

def group (i : ℕ) (found : List Text) : Text := Text.strip (found.getD i [])

namespace TextToolParser

def reactPattern : Text :=
  r"Action\s*:\s*(\S+)\s*\n\s*Action\s+Input\s*:\s*(.+?)(?:\n|$)".toList

def xmlPattern : Text :=
  (r"<tool_call>\s*<name>\s*(.+?)\s*</name>\s*" ++
    r"<arguments>\s*(.+?)\s*</arguments>\s*</tool_call>").toList

def hermesPattern : Text := r"<\|tool_call\|>\s*(.+?)\s*<\|/tool_call\|>".toList

variable (runtime : TextRuntime)

def toolCall (format : String) (i : ℕ) (name arguments : Text) : ToolCall where
  id := ("text_" ++ format ++ "_").toList ++ Text.ofNat i
  function := { name, arguments }

/-- `json.dumps({"input": raw})`. -/
def wrapInput (raw : Text) : Text :=
  runtime.jsonDumps (.obj [("input", .str (String.ofList raw))])

def reactCall (i : ℕ) (found : List Text) : Except Exn (Option ToolCall) := do
  let raw := group 1 found
  let arguments := match ← runtime.loads raw with
    | none => wrapInput runtime raw
    | some (.obj fields) => runtime.jsonDumps (.obj fields)
    | some _ => raw
  return some (toolCall "react" i (group 0 found) arguments)

def xmlCall (i : ℕ) (found : List Text) : Except Exn (Option ToolCall) := do
  let raw := group 1 found
  let arguments := match ← runtime.loads raw with
    | none => wrapInput runtime raw
    | some _ => raw
  return some (toolCall "xml" i (group 0 found) arguments)

/-- The call that a block describes. A name that is not a string is more than the
type of a tool call admits, and counts as an error here. -/
def hermesBlock (i : ℕ) (data : Json) : Except Exn (Option ToolCall) := do
  let name ← data.getKey "name" (.str "")
  let arguments ← data.getKey "arguments" (.obj [])
  if !name.truthy then return none
  else
    match name with
    | .str name =>
      let arguments := match arguments with
        | .obj fields => runtime.jsonDumps (.obj fields)
        | arguments => runtime.python.str arguments
      return some (toolCall "hermes" i name.toList arguments)
    | _ => .error .typeError

def hermesCall (i : ℕ) (found : List Text) : Except Exn (Option ToolCall) := do
  match ← runtime.loads (group 0 found) with
  | none => return none
  | some data => hermesBlock runtime i data

def collect (call : ℕ → List Text → Except Exn (Option ToolCall)) :
    ℕ → List (List Text) → Except Exn (List ToolCall)
  | _, [] => .ok []
  | i, found :: rest => do
    let first ← call i found
    let calls ← collect call (i + 1) rest
    return first.toList ++ calls

def parseMatches (pattern : Text) (call : ℕ → List Text → Except Exn (Option ToolCall))
    (text : Text) : Except Exn (Option (List ToolCall)) := do
  let calls ← collect call 0 (runtime.finditer pattern text)
  return if calls = [] then none else some calls

mutual
def parse (text : Text) : TextToolParser → Except Exn (Option (List ToolCall))
  | react => parseMatches runtime reactPattern (reactCall runtime) text
  | xml => parseMatches runtime xmlPattern (xmlCall runtime) text
  | hermes => parseMatches runtime hermesPattern (hermesCall runtime) text
  | chained parsers => parseFirst text parsers

def parseFirst (text : Text) : List TextToolParser → Except Exn (Option (List ToolCall))
  | [] => .ok none
  | parser :: rest => do
    match ← parse text parser with
    | some calls => return some calls
    | none => parseFirst text rest
end

def HermesBlock (data : Json) : Prop :=
  data.isObj = true ∧
    let name := (data.field? "name").getD (.str "")
    name.truthy = true → name.isStr = true

def AllMatches (pattern : Text) (P : List Text → Prop) (text : Text) : Prop :=
  ∀ found ∈ runtime.finditer pattern text, P found

/-- `json.loads` reads the group or raises `JSONDecodeError`. -/
def GroupLoads (i : ℕ) (found : List Text) : Prop := runtime.refused (group i found) = none

def HermesMatch (found : List Text) : Prop :=
  GroupLoads runtime 0 found ∧
    ∀ data, runtime.python.jsonLoads (group 0 found) = some data → HermesBlock data

mutual
def Legible (text : Text) : TextToolParser → Prop
  | react => AllMatches runtime reactPattern (GroupLoads runtime 1) text
  | xml => AllMatches runtime xmlPattern (GroupLoads runtime 1) text
  | hermes => AllMatches runtime hermesPattern (HermesMatch runtime) text
  | chained parsers => LegibleFirst text parsers

def LegibleFirst (text : Text) : List TextToolParser → Prop
  | [] => True
  | parser :: rest => Legible text parser ∧
    (parse runtime text parser = .ok none → LegibleFirst text rest)
end

variable {runtime}

theorem loads_ok_iff {text : Text} :
    (∃ value, runtime.loads text = .ok value) ↔ runtime.refused text = none := by
  rw [TextRuntime.loads]
  cases runtime.refused text <;> simp

variable {P : List Text → Prop}

theorem collect_ok_iff (hcall : ∀ i found, (∃ found', call i found = .ok found') ↔ P found) (i : ℕ)
    (matched : List (List Text)) :
    (∃ calls, collect call i matched = .ok calls) ↔ ∀ found ∈ matched, P found := by
  induction matched generalizing i with
  | nil => simp [collect]
  | cons found rest ih =>
    rw [List.forall_mem_cons, ← hcall i, ← ih (i + 1), collect]
    cases call i found with
    | error e => simp [bind, Except.bind]
    | ok first =>
      cases collect call (i + 1) rest with
      | error e => simp [bind, Except.bind]
      | ok calls => simp [bind, Except.bind, pure, Except.pure]

theorem parseMatches_ok_iff {pattern : Text}
    (hcall : ∀ i found, (∃ found', call i found = .ok found') ↔ P found) (text : Text) :
    (∃ calls, parseMatches runtime pattern call text = .ok calls) ↔
      AllMatches runtime pattern P text := by
  rw [AllMatches, ← collect_ok_iff hcall 0, parseMatches]
  cases collect call 0 (runtime.finditer pattern text) with
  | error e => simp [bind, Except.bind]
  | ok calls => simp [bind, Except.bind, pure, Except.pure]

theorem reactCall_ok_iff (i : ℕ) (found : List Text) :
    (∃ found', reactCall runtime i found = .ok found') ↔ GroupLoads runtime 1 found := by
  rw [GroupLoads, ← loads_ok_iff, reactCall]
  cases runtime.loads (group 1 found) <;> simp [bind, Except.bind, pure, Except.pure]

theorem xmlCall_ok_iff (i : ℕ) (found : List Text) :
    (∃ found', xmlCall runtime i found = .ok found') ↔ GroupLoads runtime 1 found := by
  rw [GroupLoads, ← loads_ok_iff, xmlCall]
  cases runtime.loads (group 1 found) <;> simp [bind, Except.bind, pure, Except.pure]

theorem hermesBlock_ok_iff (i : ℕ) (data : Json) :
    (∃ found, hermesBlock runtime i data = .ok found) ↔ HermesBlock data := by
  rw [HermesBlock, hermesBlock]
  cases hobj : data.isObj with
  | false => simp [Json.getKey_of_not_isObj hobj, bind, Except.bind]
  | true =>
    simp only [Json.getKey_of_isObj hobj, true_and]
    generalize (data.field? "name").getD (.str "") = name
    cases htruthy : name.truthy with
    | false => simp [htruthy, bind, Except.bind, pure, Except.pure]
    | true =>
      cases name with
      | str name => simp [htruthy, Json.isStr, bind, Except.bind, pure, Except.pure]
      | _ => simp [htruthy, Json.isStr, bind, Except.bind]

theorem hermesCall_ok_iff (i : ℕ) (found : List Text) :
    (∃ found', hermesCall runtime i found = .ok found') ↔ HermesMatch runtime found := by
  rw [HermesMatch, GroupLoads, hermesCall, TextRuntime.loads]
  cases runtime.refused (group 0 found) with
  | some e => simp [bind, Except.bind]
  | none =>
    cases runtime.python.jsonLoads (group 0 found) with
    | none => simp [bind, Except.bind, pure, Except.pure]
    | some data => simpa [bind, Except.bind] using hermesBlock_ok_iff i data

mutual
theorem parse_ok_iff (text : Text) (parser : TextToolParser) :
    (∃ calls, parse runtime text parser = .ok calls) ↔ Legible runtime text parser := by
  cases parser with
  | react => exact parseMatches_ok_iff reactCall_ok_iff text
  | xml => exact parseMatches_ok_iff xmlCall_ok_iff text
  | hermes => exact parseMatches_ok_iff hermesCall_ok_iff text
  | chained parsers => exact parseFirst_ok_iff text parsers

theorem parseFirst_ok_iff (text : Text) (parsers : List TextToolParser) :
    (∃ calls, parseFirst runtime text parsers = .ok calls) ↔
      LegibleFirst runtime text parsers := by
  cases parsers with
  | nil => simp [parseFirst, LegibleFirst]
  | cons parser rest =>
    rw [parseFirst, LegibleFirst, ← parse_ok_iff text parser, ← parseFirst_ok_iff text rest]
    cases parse runtime text parser with
    | error e => simp [bind, Except.bind]
    | ok found =>
      cases found with
      | none => simp [bind, Except.bind]
      | some calls => simp [bind, Except.bind, pure, Except.pure]
end

end TextToolParser

end Agent33.Llm
