import Agent33.Agents.ContextManager

/-!
# Context compression

The middle of a long conversation is replaced by a structured summary. The head
is a number of message groups, an assistant message with tool calls being one
group with the tool results after it; the tail is what fits into a token budget.
-/

namespace Agent33.Memory

open Library Llm Agents

def summaryPrefix : Text := "[Compressed Context Summary]".toList

def toolOutputPlaceholder : Text := "[tool output omitted for compression]".toList

/-- The settings of a compressor. `threshold` and `summaryTarget` are the products
with the threshold fraction and the summary ratio. -/
structure ContextCompressor where
  threshold : Int → Int := fun window => window / 2
  protectFirstN : ℕ := 3
  tailTokenBudget : ℕ := 20000
  summaryTarget : ℕ → ℕ := fun tokens => tokens / 5
  summaryTokensCeiling : ℕ := 12000
  summarizeModel : Text := "llama3.2".toList

namespace ContextCompressor

variable (compressor : ContextCompressor)

def needsCompression (messages : List ChatMessage) (modelContextWindow : Int) : Bool :=
  decide (0 < modelContextWindow ∧
    compressor.threshold modelContextWindow < estimateMessageTokens messages)

def isTool (message : ChatMessage) : Bool := decide (message.role = .tool)

def toolResults (messages : List ChatMessage) : List ChatMessage := messages.takeWhile isTool

def headBoundary : ℕ → List ChatMessage → ℕ
  | 0, _ => 0
  | _ + 1, [] => 0
  | n + 1, m :: rest =>
    if m.calls = [] then 1 + headBoundary n rest
    else 1 + (toolResults rest).length + headBoundary n (rest.drop (toolResults rest).length)

def fitting (budget : ℕ) : ℕ → List ChatMessage → ℕ
  | _, [] => 0
  | running, m :: rest =>
    if budget < running + estimateMessageTokens [m] then 0
    else 1 + fitting budget (running + estimateMessageTokens [m]) rest

structure Zones where
  head : List ChatMessage
  middle : List ChatMessage
  tail : List ChatMessage

def splitZones (messages : List ChatMessage) : Zones :=
  let headEnd := headBoundary compressor.protectFirstN messages
  let rest := messages.drop headEnd
  let tailLength :=
    if compressor.tailTokenBudget = 0 then 0
    else fitting compressor.tailTokenBudget 0 rest.reverse
  { head := messages.take headEnd
    middle := rest.take (rest.length - tailLength)
    tail := rest.drop (rest.length - tailLength) }

def pruneToolOutputs (messages : List ChatMessage) : List ChatMessage :=
  messages.map fun m =>
    if m.role = .tool then
      { role := m.role, content := .text toolOutputPlaceholder, toolCallId := m.toolCallId,
        name := m.name }
    else m

def isSummary (message : ChatMessage) : Bool := summaryPrefix.isPrefixOf message.textContent

def findExistingSummary (messages : List ChatMessage) : Option Text :=
  (messages.find? isSummary).map fun m => Text.strip (m.textContent.drop summaryPrefix.length)

def formatMessagesForSummary (messages : List ChatMessage) (maxContentChars : ℕ := 2000) : Text :=
  Text.joinWith ['\n'] (messages.map fun m =>
    let text := m.textContent
    let roleLabel := if m.name = [] then m.role.value
      else m.role.value ++ "(".toList ++ m.name ++ ")".toList
    "[".toList ++ roleLabel ++ "]: ".toList ++ text.take maxContentChars ++
      if maxContentChars < text.length then "...".toList else [])

def previews (total : ℕ) : ℕ → List ChatMessage → List Text
  | _, [] => []
  | 0, _ => []
  | left + 1, m :: rest =>
    if (m.role = .user ∨ m.role = .assistant) ∧ Text.strip m.textContent ≠ [] then
      ("- [".toList ++ m.role.value ++ "] ".toList ++ Text.oneLine (m.textContent.take 200)) ::
        if left = 0 then
          ["  ... and ".toList ++ Text.ofNat (total - 10) ++ " more messages".toList]
        else previews total left rest
    else previews total (left + 1) rest

def fallbackSummary (messages : List ChatMessage) (existingSummary : Option Text) : Text :=
  let opening := match existingSummary with
    | some (c :: summary) =>
      ["## Goal\n(Preserved from prior summary)".toList,
        "\n".toList ++ c :: summary ++ "\n".toList,
        "## Progress\n(New messages since last summary)".toList]
    | _ => ["## Goal\n(Extracted from conversation)".toList]
  Text.joinWith ['\n'] (opening ++ ["\n## Progress".toList] ++
    previews messages.length 10 messages ++
    ["\n## Key Decisions\n- (see conversation above)".toList,
      "\n## Files Modified\n- (see conversation above)".toList,
      "\n## Next Steps\n- Continue with current task".toList])

def summarySystemPrompt (targetTokens : ℕ) : Text :=
  ("You are a context compressor.  Given a block of conversation messages, " ++
    "produce a structured summary using EXACTLY this format:\n\n" ++
    "## Goal\nWhat the user/agent is trying to accomplish.\n\n" ++
    "## Progress\nWhat has been completed so far (bullet points).\n\n" ++
    "## Key Decisions\nImportant choices made and their reasoning (bullet points).\n\n" ++
    "## Files Modified\nList of files or resources that were created/modified (bullet points, " ++
    "or \"None\" if not applicable).\n\n" ++
    "## Next Steps\nWhat still needs to be done (bullet points).\n\n" ++
    "Be concise but preserve all information needed to continue the task.  " ++
    "Do not omit tool outputs that contain error messages or critical results.  " ++
    "Target length: ").toList ++ Text.ofNat targetTokens ++ " tokens.".toList

def iterativeUpdatePrompt (targetTokens : ℕ) (existingSummary newMessages : Text) : Text :=
  ("You are updating an existing context summary with new conversation data.  " ++
    "The existing summary and the new messages are provided below.\n\n" ++
    "Update the summary to incorporate the new information while keeping the " ++
    "same structure:\n\n" ++
    "## Goal\n## Progress\n## Key Decisions\n## Files Modified\n## Next Steps\n\n" ++
    "Merge new progress into the existing sections.  Remove items from " ++
    "\"Next Steps\" that are now completed.  Add new decisions and file changes.  " ++
    "Keep the summary concise.  Target length: ").toList ++ Text.ofNat targetTokens ++
    " tokens.\n\nEXISTING SUMMARY:\n".toList ++ existingSummary ++
    "\n\nNEW MESSAGES TO INCORPORATE:\n".toList ++ newMessages

variable {σ : Type}

def generateSummary (summarize : Summarizer σ) (messages : List ChatMessage)
    (targetTokens : ℕ) (existingSummary : Option Text) : EStateM Exn σ Text := do
  let request := match existingSummary with
    | some existing =>
      [.say .system "You are a context compressor.".toList,
        .say .user (iterativeUpdatePrompt targetTokens existing
          (formatMessagesForSummary messages))]
    | none =>
      [.say .system (summarySystemPrompt targetTokens),
        .say .user ("Summarize this conversation into the structured format:\n\n".toList ++
          formatMessagesForSummary messages)]
  match ← summarize compressor.summarizeModel request with
  | some content => return content
  | none => return fallbackSummary messages existingSummary

def summaryMessage (summary : Text) : ChatMessage :=
  .say .user (summaryPrefix ++ '\n' :: summary)

def withoutSummaries (messages : List ChatMessage) : List ChatMessage :=
  messages.filter fun m => !isSummary m

def compress (summarize : Summarizer σ) (messages : List ChatMessage) :
    EStateM Exn σ (List ChatMessage) := do
  let existingSummary := findExistingSummary messages
  let zones := compressor.splitZones (withoutSummaries messages)
  if zones.middle = [] then
    match existingSummary with
    | some existing => return zones.head ++ summaryMessage existing :: zones.tail
    | none => return messages
  else
    let pruned := pruneToolOutputs zones.middle
    let targetTokens := max (min (compressor.summaryTarget (estimateMessageTokens pruned))
      compressor.summaryTokensCeiling) 200
    let summary ← compressor.generateSummary summarize pruned targetTokens existingSummary
    return zones.head ++ summaryMessage summary :: zones.tail

section Frame

open Hoare

variable {compressor} {I : σ → Prop} {E : Exn → σ → Prop} {summarize : Summarizer σ}
  (hI : ∀ model system user,
    Triple I (summarize model [.say .system system, .say .user user]) (fun _ => I) E)

include hI

theorem triple_generateSummary (messages : List ChatMessage) (targetTokens : ℕ)
    (existingSummary : Option Text) :
    Triple I (compressor.generateSummary summarize messages targetTokens existingSummary)
      (fun _ => I) E := by
  unfold generateSummary
  cases existingSummary with
  | none =>
    refine (hI _ _ _).bind fun reply => ?_
    cases reply with
    | none => exact triple_pure fun _ h => h
    | some content => exact triple_pure fun _ h => h
  | some existing =>
    refine (hI _ _ _).bind fun reply => ?_
    cases reply with
    | none => exact triple_pure fun _ h => h
    | some content => exact triple_pure fun _ h => h

variable (compressor) in
theorem triple_compress (messages : List ChatMessage) :
    Triple I (compressor.compress summarize messages) (fun _ => I) E := by
  rw [compress]
  dsimp only
  split_ifs
  · cases findExistingSummary messages with
    | none => exact triple_pure fun _ h => h
    | some existing => exact triple_pure fun _ h => h
  · exact (triple_generateSummary hI _ _ _).bind fun _ => triple_pure fun _ h => h

end Frame

end ContextCompressor

end Agent33.Memory
