import Agent33.Agents.ToolLoop
import Agent33.Library.History

/-!
# Handoffs that fail

The loop clears the conversation before it renders the ledger of a handoff. A ledger that
can be built but not rendered leaves nothing of it.
-/

namespace Agent33.Workflows.Handoff

open Library

def StateLedger.Renderable (ledger : StateLedger) : Prop :=
  ledger.synthesizedContext.isStr = true ∧
    (ledger.dataReferences.truthy = true → ledger.dataReferences.isObj = true)

theorem serialize_ok_iff (python : Python) (ledger : StateLedger) :
    (∃ text, ledger.serialize python = .ok text) ↔ ledger.Renderable := by
  unfold StateLedger.serialize StateLedger.Renderable
  cases ledger.synthesizedContext with
  | str context =>
    dsimp only
    generalize ledger.dataReferences = references
    by_cases htruthy : references.truthy = true
    · rw [if_pos htruthy]
      cases references with
      | obj fields => exact iff_of_true ⟨_, rfl⟩ ⟨rfl, fun _ => rfl⟩
      | _ => exact iff_of_false (fun ⟨_, h⟩ => nomatch h) fun h => nomatch h.2 htruthy
    · rw [if_neg htruthy]
      exact iff_of_true ⟨_, rfl⟩ ⟨rfl, fun h => absurd h htruthy⟩
  | _ =>
    refine iff_of_false (fun ⟨text, h⟩ => ?_) (fun h => nomatch h.1)
    dsimp only at h
    split_ifs at h

end Agent33.Workflows.Handoff

namespace Agent33.Agents

open Library Llm Tools Workflows.Handoff

namespace ToolLoop

variable {W : Type} (loop : ToolLoop W)

def Recognised (p : ToolCall × ToolResult) : Prop :=
  p.1.function.name = "handoff".toList ∧ p.2.success = true

def handoffMessages (messages : List ChatMessage) (arguments : Text) :
    Except Exn (List ChatMessage) := do
  let ledger ← loop.handoffLedger arguments
  let systemContent := match messages with
    | [] => .text []
    | first :: _ => first.content
  executeHandoff loop.python ledger [{ role := .system, content := systemContent }]

variable (messages : List ChatMessage) (p : ToolCall × ToolResult)

def afterHandoff : List ChatMessage :=
  loop.interceptHandoff messages p.1 p.2

/-- The conversation is replaced when the handoff succeeds. Otherwise it is kept, with
a note at most. -/
def WipeAtomic : Prop :=
  Recognised p →
    match loop.handoffMessages messages p.1.function.arguments with
    | .ok wiped => loop.afterHandoff messages p = wiped
    | .error _ => ∃ note, note.length ≤ 1 ∧ loop.afterHandoff messages p = messages ++ note

def RendersHandoff : Prop :=
  Recognised p → messages = [] ∨
    ∀ ledger, loop.handoffLedger p.1.function.arguments = .ok ledger → ledger.Renderable

variable {loop} {messages : List ChatMessage} {p : ToolCall × ToolResult}

theorem afterHandoff_refused (h : loop.handoffLedger p.1.function.arguments = .error e) :
    loop.afterHandoff messages p = messages := by
  unfold afterHandoff interceptHandoff
  rw [h]
  split_ifs <;> rfl

variable (messages) in
theorem handoffMessages_built (h : loop.handoffLedger p.1.function.arguments = .ok ledger) :
    loop.handoffMessages messages p.1.function.arguments =
      executeHandoff loop.python ledger [{
        role := .system
        content := match messages with
          | [] => .text []
          | first :: _ => first.content }] := by
  unfold handoffMessages
  rw [h]
  rfl

theorem afterHandoff_built (hp : Recognised p)
    (h : loop.handoffLedger p.1.function.arguments = .ok ledger) :
    loop.afterHandoff messages p =
      match loop.handoffMessages messages p.1.function.arguments with
      | .error _ => []
      | .ok wiped => wiped := by
  rw [handoffMessages_built messages h]
  unfold afterHandoff interceptHandoff
  obtain ⟨hname, hsuccess⟩ := hp
  rw [if_pos ⟨hname, hsuccess⟩]
  split
  · rename_i hledger
    cases h.symm.trans hledger
  · rename_i hledger
    cases h.symm.trans hledger
    cases messages <;> rfl

theorem wipeAtomic_iff (loop : ToolLoop W) (messages : List ChatMessage)
    (p : ToolCall × ToolResult) : loop.WipeAtomic messages p ↔ loop.RendersHandoff messages p := by
  refine forall_congr' fun hp => ?_
  cases hledger : loop.handoffLedger p.1.function.arguments with
  | error e =>
    have hmessages : loop.handoffMessages messages p.1.function.arguments = .error e := by
      unfold handoffMessages
      rw [hledger]
      rfl
    rw [hmessages]
    refine iff_of_true ⟨[], Nat.zero_le 1, ?_⟩ (.inr fun _ h => nomatch h)
    rw [afterHandoff_refused hledger, List.append_nil]
  | ok ledger =>
    rw [afterHandoff_built hp hledger]
    have hserialize := serialize_ok_iff loop.python ledger
    have hmessages := handoffMessages_built messages hledger
    rw [executeHandoff] at hmessages
    cases htext : ledger.serialize loop.python with
    | ok text =>
      rw [htext] at hmessages hserialize
      rw [hmessages]
      refine iff_of_true rfl (.inr fun other h => ?_)
      obtain rfl := Except.ok.inj h
      exact hserialize.mp ⟨text, rfl⟩
    | error e =>
      rw [htext] at hmessages hserialize
      rw [hmessages]
      have hnot : ¬ ledger.Renderable := fun h => nomatch (hserialize.mpr h).choose_spec
      constructor
      · rintro ⟨note, -, h⟩
        exact .inl (List.append_eq_nil_iff.mp h.symm).1
      · rintro (rfl | h)
        · exact ⟨[], Nat.zero_le 1, rfl⟩
        · exact absurd (h ledger rfl) hnot

/-- The handoffs among the calls of a response keep the conversation when they fail, as long
as the ledgers that can be built can be rendered. -/
theorem along_wipeAtomic_iff (loop : ToolLoop W) (messages : List ChatMessage)
    (calls : List ToolCall) (results : List ToolResult) :
    History.Along loop.afterHandoff loop.WipeAtomic messages (calls.zip results) ↔
      History.Along loop.afterHandoff loop.RendersHandoff messages (calls.zip results) :=
  History.along_congr (I := fun _ => True) (fun _ _ _ _ => trivial)
    (fun messages p _ => wipeAtomic_iff loop messages p) trivial _

def emptyLedger : Json :=
  .obj [("ledger_data", .obj [("source_agent", .str "planner"), ("target_agent", .str "builder"),
    ("objective", .str "build"), ("synthesized_context", .null)])]

def handoffCall : ToolCall where
  id := "1".toList
  function := { name := "handoff".toList, arguments := "ledger".toList }

theorem not_wipeAtomic_emptyLedger :
    ¬ History.Along (scriptedLoop [("ledger".toList, emptyLedger)]).afterHandoff
      (scriptedLoop [("ledger".toList, emptyLedger)]).WipeAtomic [.say .user "hello".toList]
      ([handoffCall].zip [{ success := true }]) := by
  intro ⟨hatomic, _⟩
  obtain ⟨note, -, hnote⟩ := hatomic ⟨rfl, rfl⟩
  cases hnote

end ToolLoop

end Agent33.Agents
