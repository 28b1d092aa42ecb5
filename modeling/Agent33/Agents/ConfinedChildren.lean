import Agent33.Agents.ChildLoop

/-!
# Confined children

Nothing of the parent's checks reaches a child: its loop has no governance and no
enforcer, and its result counts as a success however its loop ended. So a child is
confined when its model asks for no call that the parent would refuse and its failures
stay below the threshold of the loop.
-/

namespace Agent33.Agents

open Library Library.Hoare Llm Tools List Text

def ToolLoop.allows {V : Type} (parent : ToolLoop V) (d : LoopData V) (context : ToolContext)
    (name : Text) (arguments : Json) : Bool :=
  match (parent.checkGovernance (some context) name arguments).run d with
  | .ok true d =>
    match (parent.checkAutonomy name arguments).run d with
    | .ok result _ => decide (result ≠ .blocked)
    | .error _ _ => false
  | _ => false

namespace DelegateSubtaskTool

structure Confined {V : Type} (parent : ToolLoop V) (d : LoopData V) (run : ChildRun) : Prop where
  depth : getDepth run.context ≤ maxDepth
  allowed : ∀ name arguments result, .tool name arguments result ∈ run.log →
    parent.allows d run.context name arguments = true
  honest : ∀ reason, run.ending = some reason → reason.isFailure = true →
    run.outcome.success = false

/-- The child's model asks only for calls that the parent lets pass, among the tools of the
child, and the failures stay below the threshold. -/
structure Careful {V W : Type} (tool : DelegateSubtaskTool W) (parent : ToolLoop V)
    (d : LoopData V) (run : ChildRun) : Prop where
  asks : ∀ answer ∈ run.log, ∀ call ∈ answer.asks tool.python, call.1 ∈ run.tools →
    parent.allows d run.context call.1 call.2 = true
  steady : ChildAnswer.failures tool.python run.streaming run.log < 3

variable {W : Type} {tool : DelegateSubtaskTool W} {context : ToolContext} {run : ChildRun}

theorem strip_negative (n : ℕ) : strip ('-' :: ofNat n) = '-' :: ofNat n := by
  have hminus : isSpace '-' = false := by decide
  have hfront : lstrip ('-' :: ofNat n) = '-' :: ofNat n := by
    rw [lstrip, dropWhile_cons_of_neg (by simp [hminus])]
  have hback : lstrip ('-' :: ofNat n).reverse = ('-' :: ofNat n).reverse := by
    cases hdigits : (ofNat n).reverse with
    | nil => exact absurd (reverse_eq_nil_iff.mp hdigits) (ofNat_ne_nil n)
    | cons c rest =>
      have hc : c ∈ ofNat n := by
        rw [← mem_reverse, hdigits]
        exact mem_cons_self
      have hspace : isSpace c = false := by
        obtain ⟨hlo, hhi⟩ := isDigit_bounds (isDigit_of_mem_ofNat hc)
        simp only [isSpace, decide_eq_false_iff_not, mem_cons, not_mem_nil,
          or_false]
        omega
      rw [reverse_cons, hdigits, cons_append, lstrip,
        dropWhile_cons_of_neg (by simp [hspace])]
  rw [strip, hfront, hback, reverse_reverse]

theorem integerOf_integerText_le (n : ℤ) : (integerOf (integerText n)).getD 0 ≤ max n 0 := by
  unfold integerOf
  split_ifs
  · cases n with
    | ofNat n =>
      rw [integerText, parseInt_ofNat]
      exact le_max_left _ _
    | negSucc n =>
      have hparse : parseInt (integerText (.negSucc n)) =
          (parseNat (ofNat (n + 1))).map fun m => -(m : ℤ) := by
        rw [integerText, parseInt, strip_negative]
        rfl
      rw [hparse]
      cases parseNat (ofNat (n + 1)) with
      | none => exact le_max_right (Int.negSucc n) 0
      | some m =>
        change -(m : ℤ) ≤ max (Int.negSucc n) 0
        omega
  · exact le_max_right _ _

theorem getDepth_buildChildContext (parent : ToolContext) (h : depth < maxDepth) :
    getDepth (buildChildContext parent depth) ≤ maxDepth := by
  unfold getDepth buildChildContext
  dsimp only
  rw [Dict.getD_set, if_pos rfl]
  refine (integerOf_integerText_le _).trans ?_
  unfold maxDepth at h ⊢
  omega

structure ChildSound (tool : DelegateSubtaskTool W) (run : ChildRun) : Prop where
  unblocked : ∀ name ∈ run.tools, name ∉ blockedTools
  asked : Asked tool.python run.tools run.log
  accounts : ∀ reason, run.ending = some reason → reason.isFailure = true →
    3 ≤ ChildAnswer.failures tool.python run.streaming run.log

theorem asked_nil (python : Python) (tools : List Text) : Asked python tools [] :=
  fun _ _ _ _ _ h => nomatch (append_eq_nil_iff.mp h.symm).2

theorem holds_childStart (tools : List Text) (streaming : Bool) (world : W)
    (messages : List ChatMessage) :
    Holds (Sound tool.python tools streaming) (childStart world messages) :=
  ⟨rfl, asked_nil _ _, le_rfl⟩

theorem runChild_sound (tool : DelegateSubtaskTool W) (task : Subtask) (params : DelegateParams)
    (context : ToolContext) (streaming : Bool) (world : W) :
    ChildSound tool (tool.runChild task params context streaming world) := by
  have hunblocked : ∀ name ∈ stripBlockedTools params.toolsets, name ∉ blockedTools :=
    fun name hname => of_decide_eq_true (List.mem_filter.mp hname).2
  unfold runChild
  dsimp only
  generalize (if params.modelOverride = [] then _ else _ : Text) = model
  split_ifs with htools hstreaming
  · unfold runSingleShot
    dsimp only [childPorts, childStart]
    generalize (tool.ports.complete model _ world).1 = reply
    have hasked : Asked tool.python (stripBlockedTools params.toolsets) [.reply reply] :=
      (asked_nil _ _).concat fun _ _ _ => nofun
    cases reply with
    | ok response => exact ⟨hunblocked, hasked, nofun⟩
    | error e => exact ⟨hunblocked, hasked, nofun⟩
  · obtain rfl := hstreaming
    obtain ⟨event, d, hrun, -, hsound, haccounts⟩ :=
      Triple.exists_ok (sure_runStream model) (holds_childStart _ _ world _)
    rw [runChildStreaming, hrun]
    refine ⟨hunblocked, hsound.1, ?_⟩
    rintro reason ⟨⟩ hfailure
    exact haccounts hfailure
  · obtain rfl := eq_false_of_ne_true hstreaming
    obtain ⟨result, d, hrun, -, hsound, haccounts⟩ :=
      Triple.exists_ok (sure_run model) (holds_childStart _ _ world _)
    rw [runChildLoop, hrun]
    refine ⟨hunblocked, hsound.1, ?_⟩
    rintro reason ⟨⟩ hfailure
    exact haccounts hfailure

theorem ChildSound.within (h : ChildSound tool run) (cutOff : Option ℕ) :
    ChildSound tool (ChildRun.within run cutOff) := by
  cases cutOff with
  | none => exact h
  | some answers => exact ⟨h.unblocked, h.asked.take answers, nofun⟩

theorem context_within (run : ChildRun) (cutOff : Option ℕ) :
    (ChildRun.within run cutOff).context = run.context := by
  cases cutOff <;> rfl

theorem spawn_context (tool : DelegateSubtaskTool W) (task : Subtask) (params : DelegateParams)
    (context : ToolContext) (streaming : Bool) (surroundings : ChildSurroundings W) :
    (tool.spawn task params context streaming surroundings).context = context :=
  context_within _ _

theorem mem_execute (h : run ∈ (tool.execute params context streaming surroundings).2) :
    getDepth context < maxDepth ∧ ∃ task meets, run = tool.spawn task params
      (buildChildContext context (getDepth context)) streaming meets := by
  unfold execute at h
  dsimp only at h
  by_cases hdepth : maxDepth ≤ getDepth context
  · rw [if_pos hdepth] at h
    cases h
  · rw [if_neg hdepth] at h
    refine ⟨not_le.mp hdepth, ?_⟩
    cases htasks : params.tasks with
    | some tasks =>
      rw [htasks] at h
      change run ∈ (executeBatch tool tasks params _ streaming surroundings).2 at h
      unfold executeBatch at h
      split_ifs at h
      · cases h
      · obtain ⟨entry, hentry, hrun⟩ := mem_filterMap.mp h
        obtain ⟨indexed, -, rfl⟩ := mem_map.mp hentry
        unfold runOne at hrun
        dsimp only at hrun
        split_ifs at hrun
        exact ⟨_, _, (Option.some.inj hrun).symm⟩
    | none =>
      rw [htasks] at h
      dsimp only at h
      split_ifs at h
      · cases h
      · unfold executeSingle at h
        dsimp only at h
        split at h <;> exact ⟨_, _, mem_singleton.mp h⟩

theorem sound_of_mem_execute (h : run ∈ (tool.execute params context streaming surroundings).2) :
    getDepth run.context ≤ maxDepth ∧ ChildSound tool run := by
  obtain ⟨hdepth, task, meets, rfl⟩ := mem_execute h
  refine ⟨?_, (runChild_sound tool _ _ _ _ _).within _⟩
  rw [spawn_context]
  exact getDepth_buildChildContext context hdepth

theorem Delegated.sound (h : tool.Delegated context run) :
    getDepth run.context ≤ maxDepth ∧ ChildSound tool run := by
  induction h with
  | child params streaming surroundings h => exact sound_of_mem_execute h
  | grandchild hparent hcall params streaming surroundings h ih => exact sound_of_mem_execute h

/-- A child that is asked for no call that its parent would refuse, and whose failures stay
below the threshold, is confined. -/
theorem confined_of_careful {V : Type} (tool : DelegateSubtaskTool W) (parent : ToolLoop V)
    (d : LoopData V) (context : ToolContext) (run : ChildRun)
    (hdelegated : tool.Delegated context run) (hcareful : tool.Careful parent d run) :
    Confined parent d run := by
  obtain ⟨hdepth, hsound⟩ := hdelegated.sound
  refine ⟨hdepth, ?_, ?_⟩
  · intro name arguments result hcall
    obtain ⟨pre, post, hsplit⟩ := append_of_mem hcall
    obtain ⟨htool, answer, hanswer, hasks⟩ := hsound.asked _ _ _ _ _ hsplit
    refine hcareful.asks answer ?_ _ hasks htool
    rw [hsplit]
    exact mem_append_left _ hanswer
  · intro reason hreason hfailure
    exact absurd (hsound.accounts reason hreason hfailure) (not_le.mpr hcareful.steady)

def sampleCommand : Text := "\x7b\"command\": \"rm -r data\"\x7d".toList

def sampleTable : List (Text × Json) :=
  [(sampleCommand, .obj [("command", .str "rm -r data")])]

def sampleTool : DelegateSubtaskTool Script where
  python := asciiPython sampleTable
  ports := scripted
  partText _ := []
  dumps _ := "\x7b\x7d".toList
  dumpEntries _ := "[]".toList

def sampleContext : ToolContext := { userScopes := ["tools:execute"] }

def sampleParams : DelegateParams := { goal := "clean up".toList, toolsets := ["shell".toList] }

def sampleScript : Script :=
  [{ callResponse [] with
      toolCalls := some [⟨"c1".toList, ⟨"shell".toList, sampleCommand⟩⟩] },
    textResponse "done", textResponse "COMPLETED: done"]

def sampleRun : ChildRun :=
  sampleTool.spawn ⟨sampleParams.goal, []⟩ sampleParams
    (buildChildContext sampleContext 0) false { world := sampleScript }

def sampleParent (level : Governance.AutonomyLevel) : ToolLoop Script :=
  { scriptedLoop sampleTable with toolGovernance := some {}, autonomyLevel := some level }

def sampleState : LoopData Script where
  world := []
  limiter := { perMinute := 60, burst := 10 }
  messages := []

theorem delegated_sampleRun : sampleTool.Delegated sampleContext sampleRun :=
  .child sampleParams false (fun _ => { world := sampleScript }) (mem_singleton.mpr rfl)

theorem confined_of_careful_full : Confined (sampleParent .full) sampleState sampleRun :=
  confined_of_careful sampleTool (sampleParent .full) sampleState sampleContext sampleRun
    delegated_sampleRun ⟨by decide, by decide +kernel⟩

/-- A parent that may only read delegates to a child, which runs a command. -/
theorem not_confined_readOnly : ∃ run, sampleTool.Delegated sampleContext run ∧
    ¬ Confined (sampleParent .readOnly) sampleState run := by
  refine ⟨sampleRun, delegated_sampleRun, fun h => ?_⟩
  have hallowed := h.allowed "shell".toList (.obj [("command", .str "rm -r data")]) (.ok (.ok []))
    (mem_of_getElem? (i := 1) rfl)
  revert hallowed
  decide

end DelegateSubtaskTool

end Agent33.Agents
