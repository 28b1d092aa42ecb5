import Agent33.Library.Hoare
import Agent33.Library.Python
import Agent33.Llm.Base

/-!
# Context window management

Summaries of older messages and the removal of the oldest ones when a
conversation outgrows its budget. The token counter is a parameter, and so is
the call of a model that writes a summary: it gives the text, or none when the
call fails.
-/

namespace Agent33.Agents

open Library Llm

abbrev Summarizer (σ : Type) := Text → List ChatMessage → EStateM Exn σ (Option Text)

/-- `int(len(text) / 3.5)`, at least one for a text that is not empty. -/
def estimateTokens (text : Text) : ℕ := if text = [] then 0 else max 1 (2 * text.length / 7)

def estimateMessageTokens (messages : List ChatMessage) : ℕ :=
  (messages.map fun m => estimateTokens m.textContent + 4).sum

/-- The counter of `EstimateTokenCounter`, over the role and the text of a message. -/
def estimateTokenCounter (messages : List (Text × Text)) : Int :=
  (messages.map fun m => 4 + estimateTokens m.1 + estimateTokens m.2).sum + 3

/-- The limits of a conversation; `summarizeAt` is the fraction of the effective
limit from which on messages are summarized. -/
structure ContextBudget where
  maxContextTokens : Int := 128000
  reservedForCompletion : Int := 4096
  summarizeAt : Int := 92928

def ContextBudget.effectiveLimit (budget : ContextBudget) : Int :=
  budget.maxContextTokens - budget.reservedForCompletion

structure ContextManager where
  budget : ContextBudget := {}
  hasRouter : Bool := false
  summarizeModel : Text := "llama3.2".toList
  tokenCounter : List (Text × Text) → Int := estimateTokenCounter
  skipSummarization : Bool := false

def isSystem (message : ChatMessage) : Bool := decide (message.role = .system)

def systemMessages (messages : List ChatMessage) : List ChatMessage := messages.filter isSystem

def nonSystem (messages : List ChatMessage) : List ChatMessage :=
  messages.filter fun m => !isSystem m

namespace ContextManager

variable (manager : ContextManager)

def estimate (messages : List ChatMessage) : Int :=
  manager.tokenCounter (messages.map fun m => (m.role.value, m.textContent))

def needsSummarization (messages : List ChatMessage) : Bool :=
  decide (manager.budget.summarizeAt ≤ manager.estimate messages)

def needsUnwinding (messages : List ChatMessage) : Bool :=
  decide (manager.budget.effectiveLimit ≤ manager.estimate messages)

def dropOldest (target : Int) : Int → List ChatMessage → List ChatMessage
  | _, [] => []
  | running, m :: rest =>
    if target < running then dropOldest target (running - manager.estimate [m]) rest
    else m :: rest

def target (targetTokens : Option Int) : Int :=
  match targetTokens with
  | some target => if target = 0 then manager.budget.effectiveLimit else target
  | none => manager.budget.effectiveLimit

def unwind (messages : List ChatMessage) (targetTokens : Option Int := none) : List ChatMessage :=
  let target := manager.target targetTokens
  if manager.estimate messages ≤ target then messages
  else
    systemMessages messages ++
      manager.dropOldest target
        (manager.estimate (systemMessages messages ++ nonSystem messages)) (nonSystem messages)

def summarizeSystem : Text :=
  ("You are a context summarizer. Given a series of conversation messages, " ++
    "produce a concise summary that preserves:\n" ++
    "1. The original task/goal\n" ++
    "2. Key decisions made and reasoning\n" ++
    "3. Important results from tool calls\n" ++
    "4. Current state and next steps\n\n" ++
    "The summary will replace the original messages in the conversation, so it " ++
    "must contain all information the agent needs to continue working.\n\n" ++
    "Be concise but complete. Use bullet points. Maximum 500 words.").toList

def fallbackSummary (messages : List ChatMessage) : Text :=
  Text.joinWith ['\n'] (
    ["Prior conversation (".toList ++ Text.ofNat messages.length ++ " messages):".toList] ++
    (messages.take 10).map (fun m =>
      "- [".toList ++ m.role.value ++ "] ".toList ++ Text.oneLine (m.textContent.take 100) ++
        "...".toList) ++
    if 10 < messages.length then
      ["  ... and ".toList ++ Text.ofNat (messages.length - 10) ++ " more messages".toList]
    else [])

def conversationText (messages : List ChatMessage) : Text :=
  Text.joinWith ['\n'] (messages.map fun m =>
    "[".toList ++ m.role.value ++ "]: ".toList ++ m.textContent.take 500)

variable {σ : Type}

variable (summarize : Summarizer σ) (messages : List ChatMessage)

def generateSummary :
    EStateM Exn σ Text := do
  if manager.hasRouter then
    let reply ← summarize manager.summarizeModel
      [.say .system summarizeSystem,
        .say .user ("Summarize this conversation:\n\n".toList ++
          conversationText messages)]
    match reply with
    | some content => return content
    | none => return fallbackSummary messages
  else return fallbackSummary messages

def summaryMessage (summary : Text) : ChatMessage :=
  .say .user ("[Context Summary]\n".toList ++ summary)

def summarizeAndCompact
    (keepRecent : ℕ := 4) : EStateM Exn σ (List ChatMessage) := do
  let recent := nonSystem messages
  if recent.length ≤ keepRecent ∨ keepRecent = 0 then return messages
  else
    let summary ← manager.generateSummary summarize (recent.take (recent.length - keepRecent))
    return systemMessages messages ++ summaryMessage summary ::
      recent.drop (recent.length - keepRecent)

def manage (keepRecent : ℕ := 4) :
    EStateM Exn σ (List ChatMessage) := do
  if !manager.needsSummarization messages then return messages
  else if manager.skipSummarization then
    return if manager.needsUnwinding messages then manager.unwind messages else messages
  else if manager.needsUnwinding messages then
    if manager.hasRouter then
      let messages ← manager.summarizeAndCompact summarize messages keepRecent
      return if manager.needsUnwinding messages then manager.unwind messages else messages
    else return manager.unwind messages
  else if manager.hasRouter then manager.summarizeAndCompact summarize messages keepRecent
  else return manager.unwind messages (some manager.budget.summarizeAt)

section Frame

open Hoare

variable {manager} {I : σ → Prop} {E : Exn → σ → Prop} {summarize : Summarizer σ}
  (hI : ∀ model system user,
    Triple I (summarize model [.say .system system, .say .user user]) (fun _ => I) E)

include hI

theorem triple_generateSummary (messages : List ChatMessage) :
    Triple I (manager.generateSummary summarize messages) (fun _ => I) E := by
  rw [generateSummary]
  split_ifs
  · refine (hI _ _ _).bind fun reply => ?_
    cases reply with
    | none => exact triple_pure fun _ h => h
    | some content => exact triple_pure fun _ h => h
  · exact triple_pure fun _ h => h

theorem triple_summarizeAndCompact (messages : List ChatMessage) (keepRecent : ℕ) :
    Triple I (manager.summarizeAndCompact summarize messages keepRecent) (fun _ => I) E := by
  rw [summarizeAndCompact]
  split_ifs
  · exact triple_pure fun _ h => h
  · exact (triple_generateSummary hI _).bind fun _ => triple_pure fun _ h => h

variable (manager) in
theorem triple_manage (messages : List ChatMessage) :
    Triple I (manager.manage summarize messages) (fun _ => I) E := by
  rw [manage]
  split_ifs
  · exact triple_pure fun _ h => h
  · exact triple_pure fun _ h => h
  · exact triple_pure fun _ h => h
  · exact (triple_summarizeAndCompact hI _ _).bind fun _ => triple_pure fun _ h => h
  · exact triple_pure fun _ h => h
  · exact triple_summarizeAndCompact hI _ _
  · exact triple_pure fun _ h => h

end Frame

end ContextManager

def truncateToolOutput (output : Text) (maxChars : ℕ := 15000) : Text :=
  if output.length ≤ maxChars then output
  else
    output.take (maxChars / 2) ++ "\n\n... [TRUNCATED: ".toList ++
      Text.ofNat (output.length - maxChars) ++ " chars omitted] ...\n\n".toList ++
      output.drop (output.length - maxChars / 2)

end Agent33.Agents
