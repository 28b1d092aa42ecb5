import Agent33.Agents.LoopInvariants
import Agent33.Agents.TextLoop
import Agent33.Autonomy.ArgumentTypes
import Agent33.Tools.ArgumentTypes

/-!
# Arguments of any type

The governance and the enforcer take the arguments of a call for an object with
fields of certain types, outside of the block that turns exceptions into errors.
The rest of the loop returns whatever it is given.
-/

namespace Agent33.Agents

open Library Library.Hoare Llm Tools Tools.Governance Autonomy List Option

variable {W : Type}

section Total

variable {α : Type} {loop : ToolLoop W}

theorem total_onPorts (f : W → α × W) : Total (onPorts f) := fun _ => trivial

theorem total_modifyState (f : ToolLoopState → ToolLoopState) :
    Total (modifyState f : LoopM W PUnit) := total_modify _

theorem total_record (act : Act) : Total (record act : LoopM W PUnit) := total_modify _

theorem onEnforcer_returns_iff (x : EnforcerM EnforcementResult) (d : LoopData W) :
    Returns (onEnforcer x) d (fun _ _ => True) ↔
      ∀ enforcer, d.enforcer = some enforcer → Returns x enforcer fun _ _ => True := by
  cases henforcer : d.enforcer with
  | none =>
    rw [returns_of_ok (onEnforcer_none henforcer x)]
    exact iff_of_true trivial fun _ h => by cases h
  | some enforcer =>
    simp only [some.injEq, forall_eq']
    rw [Returns, onEnforcer_some henforcer]
    cases hrun : x.run enforcer with
    | ok result enforcer' => simp [returns_of_ok hrun]
    | error e enforcer' => simp [not_returns_of_error hrun]

theorem total_onEnforcer {x : EnforcerM EnforcementResult} (hx : Total x) :
    Total (onEnforcer x : LoopM W EnforcementResult) :=
  fun d => (onEnforcer_returns_iff x d).mpr fun enforcer _ => hx enforcer

namespace ToolLoop

theorem total_complete (model : Text) (messages : List ChatMessage) :
    Total (loop.complete model messages) :=
  (total_record _).bind fun _ => total_onPorts _

theorem total_summarize (model : Text) (messages : List ChatMessage) :
    Total (loop.summarize model messages) := by
  refine (total_complete model messages).bind fun reply => ?_
  cases reply with
  | ok response => exact total_pure _
  | error e => exact total_pure _

theorem total_manageContext : Total loop.manageContext := by
  unfold manageContext
  cases loop.contextManager with
  | none => exact total_pure _
  | some manager =>
    refine total_get.bind fun d => Total.bind ?_ fun messages => total_modify _
    exact total_of_triple
      (ContextManager.triple_manage manager (fun _ _ _ => (total_summarize _ _).triple) _)
      fun _ => trivial

theorem total_compressContext : Total loop.compressContext := by
  unfold compressContext
  cases loop.contextCompressor with
  | none => exact total_pure _
  | some compressor =>
    refine total_get.bind fun d => ?_
    dsimp only
    split_ifs
    · refine Total.bind ?_ fun messages => total_modify _
      exact total_of_triple
        (Memory.ContextCompressor.triple_compress compressor
          (fun _ _ _ => (total_summarize _ _).triple) _) fun _ => trivial
    · exact total_pure _

theorem total_thresholdReached : Total loop.thresholdReached := total_get.bind fun _ => total_pure _

theorem total_budgetSpent : Total loop.budgetSpent := by
  refine (total_onEnforcer total_recordIteration).bind fun iteration => ?_
  split_ifs
  · exact total_pure _
  · refine total_get.bind fun d => ?_
    exact (total_onEnforcer (total_checkDuration _)).bind fun _ => total_pure _

theorem total_finishIteration : Total loop.finishIteration := by
  refine total_manageContext.bind fun _ => total_compressContext.bind fun _ => ?_
  refine total_thresholdReached.bind fun reached => ?_
  split_ifs
  · exact total_pure _
  · refine total_budgetSpent.bind fun spent => ?_
    split_ifs
    · exact total_pure _
    · exact total_pure _

theorem total_endResponse (flow : Flow Ending) : Total (loop.endResponse flow) := by
  cases flow with
  | next => exact total_finishIteration.bind fun _ => total_pure _
  | again => exact total_pure _
  | stop ending => exact total_pure _

theorem total_doomLoop (response : LLMResponse) : Total (loop.doomLoop response) := by
  unfold doomLoop checkDoomLoop
  split_ifs
  · cases response.calls with
    | nil => exact total_pure _
    | cons call rest =>
      refine (total_modifyState _).bind fun _ => total_get.bind fun d => ?_
      dsimp only
      split_ifs
      · exact total_pure _
      · exact total_pure _
  · exact total_pure _

theorem total_takeResults (response : LLMResponse) (results : List ToolResult) :
    Total (loop.takeResults response results) := by
  refine total_get.bind fun d => ?_
  split_ifs
  · exact total_pure _
  · exact Total.bind (total_modify _) fun _ => Total.bind (total_modify _) fun _ => total_pure _

theorem total_runText (response : LLMResponse) : Total (loop.runText response) := by
  unfold runText
  split_ifs
  · exact total_pure _
  · refine total_get.bind fun d => ?_
    split_ifs
    · exact Total.bind (total_modify _) fun _ => Total.bind (total_modify _) fun _ => total_pure _
    · split
      · exact Total.bind (total_modify _) fun _ => Total.bind (total_modify _) fun _ => total_pure _
      · exact Total.bind (total_modify _) fun _ => Total.bind (total_modify _) fun _ => total_pure _
      · exact total_pure _

theorem total_runPreHooks (toolName : Text) (arguments : Json) :
    Total (loop.runPreHooks toolName arguments) := by
  unfold runPreHooks
  cases loop.hookRegistry with
  | none => exact total_pure _
  | some hooks =>
    exact (total_onPorts _).bind fun _ => (total_record _).bind fun _ => total_pure _

theorem total_executeTool (context : Option ToolContext) (toolName : Text) (arguments : Json) :
    Total (loop.executeTool context toolName arguments) := by
  refine (total_record _).bind fun _ => (total_onPorts _).bind fun reply => ?_
  cases reply with
  | ok result => exact total_pure _
  | error message => exact Total.bind (total_modify _) fun _ => total_pure _

theorem filterLeakage_success (result : ToolResult) :
    (loop.filterLeakage result).success = result.success := by
  unfold filterLeakage
  cases loop.leakageDetector with
  | none => rfl
  | some leaks =>
    dsimp only
    split_ifs with hleak
    · simp only [Bool.and_eq_true] at hleak
      exact hleak.1.1.symm
    · rfl

theorem finishTool_returns_iff (toolName : Text) (arguments : Json) (result : ToolResult)
    {P : Bool → Prop} (d : LoopData W) :
    Hoare.Returns (loop.finishTool toolName arguments result) d
        (fun result _ => P result.success) ↔
      P result.success := by
  have hhooks : Total (loop.runPostHooks toolName arguments result) := by
    unfold runPostHooks
    cases loop.hookRegistry with
    | none => exact total_pure _
    | some hooks => exact total_onPorts _
  obtain ⟨_, d₁, hrun, _⟩ := returns_iff_exists.mp (hhooks d)
  rw [finishTool, returns_bind, returns_of_ok hrun, ← @filterLeakage_success _ loop result]
  rfl

end ToolLoop

end Total

namespace TextLoop

open ToolLoop

variable (tl : TextLoop W)

def hasObject (call : ToolCall) : Bool :=
  match tl.runtime.python.jsonLoads call.function.arguments with
  | some arguments => arguments.isObj
  | none => false

def Answered (p : ToolCall × ToolResult) : Prop := tl.hasObject p.1 = false → p.2.success = false

variable (context : Option ToolContext) (toolName : Text) (arguments : Json) (d : LoopData W)

def GovernedFine : Prop :=
  ∀ governance, tl.loop.toolGovernance = some governance →
    GovernanceFine tl.runtime.python governance (tl.loop.ports.clock d.world) toolName arguments
      (context.getD defaultContext) tl.loop.autonomyLevel ⟨d.limiter, d.world⟩

def resourceTools : List Text :=
  ["file_read".toList, "file_write".toList, "file_ops".toList, "web_fetch".toList]

def DispatchFine (toolName : Text) (arguments : Json) : Prop :=
  arguments.isObj = true ∨ toolName ∉ resourceTools ∧
    (toolName = "shell".toList → arguments.containsKey "command" = .ok false)

def CheckFine (budget : AutonomyBudget) : Check → Prop
  | .command command => CommandFine budget command
  | .fileRead path => path.isStr = true
  | .fileWrite path => path.isStr = true
  | .network url => budget.network.enabled = true → url.isStr = true

def EnforcedFine (toolName : Text) (arguments : Json) (d : LoopData W) : Prop :=
  ∀ enforcer, d.enforcer = some enforcer → DispatchFine toolName arguments ∧
    ∀ check, dispatch toolName arguments = .ok check → CheckFine enforcer.budget check

def ToolFails : Prop :=
  ∀ outcome d₁, (tl.loop.runPreHooks toolName arguments).run d = .ok outcome d₁ →
    outcome.abort = false → ∀ result d₂,
      (tl.loop.executeTool context toolName outcome.arguments).run d₁ = .ok result d₂ →
        result.success = false

/-- The checks that the call gets to can read its arguments, and no tool succeeds on
arguments that are not an object. -/
def ArgumentsFine : Prop :=
  tl.GovernedFine context toolName arguments d ∧
    ∀ d₁, (tl.loop.checkGovernance context toolName arguments).run d = .ok true d₁ →
      EnforcedFine toolName arguments d₁ ∧
        (arguments.isObj = false → ∀ enforced d₂,
          (tl.loop.checkAutonomy toolName arguments).run d₁ = .ok enforced d₂ →
            enforced ≠ .blocked → tl.ToolFails context toolName arguments d₂)

section Calls

variable {tl} {context : Option ToolContext} {toolName : Text} {arguments : Json}

theorem checkGovernance_returns_iff (d : LoopData W) :
    Returns (tl.loop.checkGovernance context toolName arguments) d (fun _ _ => True) ↔
      tl.GovernedFine context toolName arguments d := by
  rw [GovernedFine]
  unfold checkGovernance
  cases tl.loop.toolGovernance with
  | none => exact iff_of_true trivial fun _ h => by cases h
  | some governance =>
    simp only [some.injEq, forall_eq']
    rw [← preExecuteCheck_returns_iff, returns_bind, returns_get, returns_bind, onGovernance,
      returns_zoom]
    rfl

theorem dispatch_shell_ok_iff : (∃ check, dispatch "shell".toList arguments = .ok check) ↔
    arguments.isObj = true ∨ arguments.containsKey "command" = .ok false := by
  rw [dispatch, if_pos rfl]
  cases hkey : arguments.containsKey "command" with
  | error e =>
    refine iff_of_false (fun ⟨_, h⟩ => by cases h) fun h => ?_
    rcases h with hobj | h
    · rw [Json.containsKey_of_isObj hobj] at hkey
      cases hkey
    · cases h
  | ok found =>
    cases found with
    | false => exact iff_of_true ⟨_, rfl⟩ (.inr rfl)
    | true =>
      cases hobj : arguments.isObj with
      | true =>
        rw [Json.containsKey_of_isObj hobj] at hkey
        obtain ⟨command, hcommand⟩ := Option.isSome_iff_exists.mp (Except.ok.inj hkey)
        refine iff_of_true ⟨.command command, ?_⟩ (.inl rfl)
        simp only [hcommand, bind, Except.bind]
        rfl
      | false =>
        simp only [Json.field?_of_not_isObj hobj]
        refine iff_of_false (fun ⟨_, h⟩ => by cases h) fun h => ?_
        rcases h with h | h <;> cases h

theorem dispatch_resource_ok_iff (htool : toolName ∈ resourceTools) :
    (∃ check, dispatch toolName arguments = .ok check) ↔ arguments.isObj = true := by
  have hshell : toolName ≠ "shell".toList := by
    rintro rfl
    exact absurd htool (by decide)
  rw [dispatch, if_neg hshell]
  cases hobj : arguments.isObj with
  | true =>
    simp only [Json.getKey_of_isObj hobj, bind, Except.bind, iff_true]
    split_ifs <;> exact ⟨_, rfl⟩
  | false =>
    simp only [Json.getKey_of_not_isObj hobj, bind, Except.bind]
    refine iff_of_false ?_ Bool.false_ne_true
    rintro ⟨check, h⟩
    split_ifs at h with hfile hfetch
    rcases mem_append.mp
      (show toolName ∈ ["file_read".toList, "file_write".toList, "file_ops".toList] ++
        ["web_fetch".toList] from htool) with hmem | hmem
    · exact hfile hmem
    · exact hfetch (mem_singleton.mp hmem)

theorem dispatch_ok_iff : (∃ check, dispatch toolName arguments = .ok check) ↔
    DispatchFine toolName arguments := by
  rw [DispatchFine]
  by_cases hshell : toolName = "shell".toList
  · subst hshell
    rw [dispatch_shell_ok_iff]
    exact or_congr_right ⟨fun h => ⟨by decide, fun _ => h⟩, fun h => h.2 rfl⟩
  by_cases htool : toolName ∈ resourceTools
  · rw [dispatch_resource_ok_iff htool]
    exact (or_iff_left fun h => h.1 htool).symm
  · refine iff_of_true ?_ (.inr ⟨htool, fun h => absurd h hshell⟩)
    simp only [resourceTools, mem_cons, not_mem_nil, or_false, not_or] at htool
    have hfile : toolName ∉ ["file_read".toList, "file_write".toList, "file_ops".toList] := by
      simp only [mem_cons, not_mem_nil, or_false, not_or]
      exact ⟨htool.1, htool.2.1, htool.2.2.1⟩
    rw [dispatch, if_neg hshell, if_neg hfile, if_neg htool.2.2.2]
    exact ⟨_, rfl⟩

theorem runCheck_returns_iff (check : Check) (enforcer : RuntimeEnforcer) :
    Returns (tl.loop.runCheck check) enforcer (fun _ _ => True) ↔
      CheckFine enforcer.budget check := by
  cases check with
  | command command => exact checkCommand_returns_iff enforcer
  | fileRead path => exact checkFileRead_returns_iff path enforcer
  | fileWrite path => exact checkFileWrite_returns_iff path 0 enforcer
  | network url => exact checkNetwork_returns_iff url enforcer

theorem checkAutonomy_returns_iff (d : LoopData W) :
    Returns (tl.loop.checkAutonomy toolName arguments) d (fun _ _ => True) ↔
      EnforcedFine toolName arguments d := by
  rw [EnforcedFine, ToolLoop.checkAutonomy, returns_bind, returns_get]
  cases henforcer : d.enforcer with
  | none => exact iff_of_true trivial fun _ h => by cases h
  | some enforcer =>
    simp only [Option.isNone_some, Bool.false_eq_true, if_false, some.injEq, forall_eq',
      ← dispatch_ok_iff]
    cases dispatch toolName arguments with
    | error e => simp [returns_throw]
    | ok check =>
      simp only [Except.ok.injEq, exists_eq', true_and, forall_eq']
      rw [returns_bind, ← @runCheck_returns_iff _ tl]
      have hcheck := onEnforcer_returns_iff (tl.loop.runCheck check) d
      simp only [henforcer, some.injEq, forall_eq'] at hcheck
      exact (returns_congr fun result d' _ => Iff.rfl).trans hcheck

variable (tl context toolName arguments) in
def execution : LoopM W (ToolResult × Bool) := do
  let outcome ← tl.loop.runPreHooks toolName arguments
  if outcome.abort then
    return (.fail ("Hook aborted: ".toList ++ outcome.abortReason), false)
  else
    let result ← tl.loop.executeTool context toolName outcome.arguments
    let result ← tl.loop.finishTool toolName outcome.arguments result
    return (result, false)

variable (tl context toolName arguments) in
def enforcement : LoopM W (ToolResult × Bool) := do
  let enforced ← tl.loop.checkAutonomy toolName arguments
  if enforced = .blocked then return ({ success := false, error := budgetBlocked }, true)
  else tl.execution context toolName arguments

theorem execution_returns_iff (call : ToolCall) (d : LoopData W) :
    Returns (tl.execution context toolName arguments) d
      (fun answered _ => tl.Answered (call, answered.1)) ↔
      (tl.hasObject call = false → tl.ToolFails context toolName arguments d) := by
  have hfinish : ∀ (outcome : HookOutcome) result d₂, Returns (do
      let result ← tl.loop.finishTool toolName outcome.arguments result
      return (result, false) : LoopM W (ToolResult × Bool)) d₂
      (fun answered _ => tl.Answered (call, answered.1)) ↔
        (tl.hasObject call = false → result.success = false) := fun outcome result d₂ =>
    returns_bind.trans (finishTool_returns_iff toolName outcome.arguments result
      (P := fun success => tl.hasObject call = false → success = false) d₂)
  rw [execution, returns_bind, (total_runPreHooks toolName arguments).returns_iff]
  constructor
  · intro h hobj outcome d₁ hrun habort result d₂ hrun'
    have hrest := h outcome d₁ hrun
    rw [habort, if_neg Bool.false_ne_true, returns_bind,
      (total_executeTool context toolName outcome.arguments).returns_iff] at hrest
    exact (hfinish outcome result d₂).mp (hrest result d₂ hrun') hobj
  · intro h outcome d₁ hrun
    cases habort : outcome.abort with
    | true =>
      rw [if_pos rfl]
      exact fun _ => rfl
    | false =>
      rw [if_neg Bool.false_ne_true, returns_bind,
        (total_executeTool context toolName outcome.arguments).returns_iff]
      intro result d₂ hrun'
      exact (hfinish outcome result d₂).mpr fun hobj =>
        h hobj outcome d₁ hrun habort result d₂ hrun'

theorem enforcement_returns_iff (call : ToolCall) (d : LoopData W) :
    Returns (tl.enforcement context toolName arguments) d
      (fun answered _ => tl.Answered (call, answered.1)) ↔
      EnforcedFine toolName arguments d ∧ (tl.hasObject call = false → ∀ enforced d₁,
        (tl.loop.checkAutonomy toolName arguments).run d = .ok enforced d₁ →
          enforced ≠ .blocked → tl.ToolFails context toolName arguments d₁) := by
  rw [enforcement, returns_bind, returns_iff, checkAutonomy_returns_iff]
  refine and_congr_right fun _ =>
    ⟨fun h hobj enforced d₁ hrun hne => ?_, fun h enforced d₁ hrun => ?_⟩
  · have hrest := h enforced d₁ hrun
    rw [if_neg hne] at hrest
    exact (execution_returns_iff call d₁).mp hrest hobj
  · by_cases hblocked : enforced = .blocked
    · rw [if_pos hblocked]
      exact fun _ => rfl
    · rw [if_neg hblocked]
      exact (execution_returns_iff call d₁).mpr fun hobj => h hobj enforced d₁ hrun hblocked

theorem executeToolCall_returns_iff (call : ToolCall) (d : LoopData W) :
    Returns (tl.loop.executeToolCall context call) d
      (fun answered _ => tl.Answered (call, answered.1)) ↔
      ∀ arguments, tl.runtime.python.jsonLoads call.function.arguments = some arguments →
        tl.ArgumentsFine context call.function.name arguments d := by
  have hpython : tl.loop.python = tl.runtime.python := rfl
  unfold ToolLoop.executeToolCall
  rw [hpython]
  cases hjson : tl.runtime.python.jsonLoads call.function.arguments with
  | none => exact iff_of_true (fun _ => rfl) fun _ h => by cases h
  | some arguments =>
    have hobj : tl.hasObject call = arguments.isObj := by rw [hasObject, hjson]
    simp only [some.injEq, forall_eq']
    rw [returns_bind, returns_iff, checkGovernance_returns_iff, ArgumentsFine, ← hobj]
    refine and_congr_right fun _ => ⟨fun h d₁ hrun => ?_, fun h allowed d₁ hrun => ?_⟩
    · exact (enforcement_returns_iff call d₁).mp (h true d₁ hrun)
    · cases allowed with
      | false => exact fun _ => rfl
      | true => exact (enforcement_returns_iff call d₁).mpr (h d₁ hrun)

end Calls

end TextLoop

end Agent33.Agents
