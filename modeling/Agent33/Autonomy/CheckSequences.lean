import Agent33.Autonomy.ArgumentTypes
import Agent33.Autonomy.Consumption
import Agent33.Library.Words

/-!
# Sequences of checks on one enforcer

The checks of files, commands and the network, the iterations and the duration, in any
order. What an enforcer answers is read off its rules and its counters; that it was
stopped is recorded, and no check looks at it.
-/

namespace Agent33.Autonomy

open Library Library.Hoare Consumption

/-- `re.match` comes to a pattern that does not compile before a permission grants the command. -/
def brokenPattern (python : Python) (compiles : Text → Bool) (text : String) (name : Text) :
    List CommandPermission → Bool
  | [] => false
  | permission :: rest =>
    if permission.command = name then
      if permission.argsPattern = [] then false
      else if compiles permission.argsPattern then
        if python.reMatch permission.argsPattern (Text.strip (text.toList.drop name.length)) then
          false
        else brokenPattern python compiles text name rest
      else true
    else brokenPattern python compiles text name rest

/-- `check_command` of a string, with the exception of a pattern that does not compile. -/
def checkCommandText (python : Python) (compiles : Text → Bool) (text : String) :
    EnforcerM EnforcementResult := do
  let budget := (← get).budget
  match commandName (.str text) with
  | .error e => throw e
  | .ok name =>
    if name ∉ budget.deniedCommands ∧ name ∉ budget.requireApprovalCommands ∧
        brokenPattern python compiles text name budget.allowedCommands = true then
      throw (.raised "re.error".toList)
    else checkCommand python (.str text)

inductive EnforcerCall
  | ask (check : Check)
  | recordIteration
  | checkDuration (now : Int)

section

variable (python : Python) (compiles : Text → Bool)

def EnforcerCall.perform : EnforcerCall → EnforcerM EnforcementResult
  | .ask (.command text) => checkCommandText python compiles text
  | .ask check => check.perform python
  | .recordIteration => Autonomy.recordIteration
  | .checkDuration now => Autonomy.checkDuration now

def Check.raises (budget : AutonomyBudget) : Check → Bool
  | .command text =>
    match commandName (.str text) with
    | .error _ => true
    | .ok name =>
      decide (name ∉ budget.deniedCommands ∧ name ∉ budget.requireApprovalCommands ∧
        brokenPattern python compiles text name budget.allowedCommands = true)
  | _ => false

def Check.warns (budget : AutonomyBudget) : Check → Bool
  | .command text =>
    match commandName (.str text) with
    | .error _ => false
    | .ok name => decide (name ∉ budget.deniedCommands ∧ name ∈ budget.requireApprovalCommands)
  | _ => false

def EnforcerCall.answer (e : RuntimeEnforcer) : EnforcerCall → Option EnforcementResult
  | .ask check =>
    if check.raises python compiles e.budget then none
    else if check.warns e.budget then some .warned
    else if check.allowed python e then some .allowed
    else some .blocked
  | .recordIteration =>
    if e.budget.limits.maxIterations < e.context.iterations + 1 then some .blocked
    else some .allowed
  | .checkDuration now =>
    if 60000000 * e.budget.limits.maxDurationMinutes < now - e.context.startedAt then some .blocked
    else some .allowed

def EnforcerCall.counters (e : RuntimeEnforcer) : EnforcerCall → Consumption
  | .ask check =>
    if check.accepted python e.budget then (check.charge e.context).consumption
    else e.context.consumption
  | .recordIteration => { e.context.consumption with iterations := e.context.iterations + 1 }
  | .checkDuration _ => e.context.consumption

end

section

variable {python : Python} {compiles : Text → Bool}

def StaysStopped (e e' : RuntimeEnforcer) : Prop :=
  e.context.stopped = true → e'.context.stopped = true

variable (python compiles) in
/-- A call that does not raise leaves the counters as said, and one that raises leaves all. -/
def Answered (call : EnforcerCall) (e : RuntimeEnforcer) :
    EStateM.Result Exn RuntimeEnforcer EnforcementResult → Prop
  | .ok result e' => call.answer python compiles e = some result ∧
      Charged (call.counters python e) e e' ∧ StaysStopped e e'
  | .error _ e' => call.answer python compiles e = none ∧ e' = e

def Settled (e : RuntimeEnforcer) :
    EStateM.Result Exn RuntimeEnforcer EnforcementResult → Prop
  | .ok result e' => (result = .allowed ∨ result = .blocked) ∧ StaysStopped e e'
  | .error _ _ => False

def Decides (x : EnforcerM EnforcementResult) : Prop := ∀ e, Settled e (x.run e)

theorem decides_pure (h : result = .allowed ∨ result = .blocked) :
    Decides (pure result) := fun _ => ⟨h, id⟩

theorem decides_get (h : ∀ e, Decides (f e)) : Decides (get >>= f) := fun e => h e e

theorem decides_modifyContext (hf : ∀ context, (f context).stopped = context.stopped)
    (hx : Decides x) : Decides (modifyContext f >>= fun _ => x) := by
  intro e
  have h := hx { e with context := f e.context }
  change Settled e (x.run { e with context := f e.context })
  cases hrun : x.run { e with context := f e.context } with
  | ok result e' =>
    rw [hrun] at h
    exact ⟨h.1, fun hstopped => h.2 ((hf e.context).trans hstopped)⟩
  | error err e' =>
    rw [hrun] at h
    exact h

theorem decides_blockWith (message : Text) : Decides (blockWith message) :=
  decides_modifyContext (fun _ => rfl) (decides_pure (.inr rfl))

theorem decides_checkToolCallLimit : Decides checkToolCallLimit := by
  intro e
  rw [checkToolCallLimit_run]
  split_ifs
  · exact ⟨.inr rfl, fun _ => rfl⟩
  · exact ⟨.inl rfl, id⟩

theorem decides_checkFileRead (path : String) : Decides (checkFileRead (.str path)) := by
  refine decides_get fun e => ?_
  dsimp only
  split_ifs
  · exact decides_blockWith _
  · exact decides_blockWith _
  · exact decides_pure (.inl rfl)

theorem decides_checkFileLimits : Decides checkFileLimits := by
  intro e
  rw [checkFileLimits_run]
  split_ifs
  · exact ⟨.inr rfl, fun _ => rfl⟩
  · exact ⟨.inr rfl, fun _ => rfl⟩
  · exact ⟨.inl rfl, id⟩

theorem decides_checkFileWrite (path : String) (lines : Int) :
    Decides (checkFileWrite (.str path) lines) := by
  refine decides_get fun e => ?_
  dsimp only
  split_ifs
  · exact decides_blockWith _
  · exact decides_blockWith _
  · exact decides_modifyContext (fun _ => rfl) decides_checkFileLimits

theorem decides_checkNetwork (domain : String) : Decides (checkNetwork python (.str domain)) := by
  refine decides_get fun e => ?_
  simp only [Json.asText]
  split_ifs
  · exact decides_blockWith _
  · exact decides_blockWith _
  · refine decides_modifyContext (fun _ => rfl) (decides_get fun e => ?_)
    split_ifs
    · exact decides_blockWith _
    · exact decides_pure (.inl rfl)
  · exact decides_blockWith _

theorem decides_checkCommand (hname : commandName (.str text) = .ok name)
    (happroval : name ∈ e.budget.deniedCommands ∨ name ∉ e.budget.requireApprovalCommands) :
    Settled e ((checkCommand python (.str text)).run e) := by
  rw [checkCommand, EStateM.run_bind, EStateM.run_get]
  dsimp only
  rw [hname]
  dsimp only
  by_cases hdenied : name ∈ e.budget.deniedCommands
  · rw [if_pos hdenied]
    exact decides_blockWith _ e
  · rw [if_neg hdenied, if_neg (happroval.resolve_left hdenied)]
    obtain ⟨allowed, hallowed⟩ :=
      (@permitted_ok_iff python (.str text) name e.budget.allowedCommands).mpr (by rintro ⟨⟩)
    rw [hallowed]
    dsimp only
    split_ifs
    · exact decides_blockWith _ e
    · exact decides_modifyContext
        (f := fun context => { context with toolCalls := context.toolCalls + 1 }) (fun _ => rfl)
        decides_checkToolCallLimit e

theorem answered_of_decides (hraises : check.raises python compiles e.budget = false)
    (hwarns : check.warns e.budget = false) (hspec : Spec check python e outcome)
    (hdecides : Settled e outcome) :
    Answered python compiles (.ask check) e outcome := by
  cases outcome with
  | error err e' => exact hdecides.elim
  | ok result e' =>
    refine ⟨?_, hspec.2, hdecides.2⟩
    rw [EnforcerCall.answer, if_neg (by simp [hraises]), if_neg (by simp [hwarns])]
    rcases hdecides.1 with rfl | rfl
    · rw [if_pos (hspec.1.mp rfl)]
    · rw [if_neg fun h => nomatch hspec.1.mpr h]

variable (python compiles) in
theorem answered_command (text : String) (e : RuntimeEnforcer) :
    Answered python compiles (.ask (.command text)) e
      ((checkCommandText python compiles text).run e) := by
  have hspec := checkCommand_spec python text e
  rw [checkCommandText, EStateM.run_bind, EStateM.run_get]
  dsimp only
  cases hname : commandName (.str text) with
  | error err => exact ⟨by simp [EnforcerCall.answer, Check.raises, hname], rfl⟩
  | ok name =>
    dsimp only
    by_cases hbroken : name ∉ e.budget.deniedCommands ∧ name ∉ e.budget.requireApprovalCommands ∧
        brokenPattern python compiles text name e.budget.allowedCommands = true
    · rw [if_pos hbroken]
      refine ⟨?_, rfl⟩
      rw [EnforcerCall.answer, if_pos]
      simpa only [Check.raises, hname, decide_eq_true_eq] using hbroken
    · rw [if_neg hbroken]
      have hraises : (Check.command text).raises python compiles e.budget = false := by
        simpa only [Check.raises, hname, decide_eq_false_iff_not] using hbroken
      by_cases hwarns : name ∉ e.budget.deniedCommands ∧ name ∈ e.budget.requireApprovalCommands
      · have hrun : (checkCommand python (.str text)).run e = .ok .warned { e with
            context := { e.context with warnings :=
              e.context.warnings ++ ["Command requires approval: ".toList ++ name] } } := by
          rw [checkCommand, EStateM.run_bind, EStateM.run_get]
          dsimp only
          rw [hname]
          dsimp only
          rw [if_neg hwarns.1, if_pos hwarns.2]
          rfl
        rw [hrun] at hspec ⊢
        refine ⟨?_, hspec.2, id⟩
        rw [EnforcerCall.answer, if_neg (by simp [hraises]), if_pos]
        simpa only [Check.warns, hname, decide_eq_true_eq] using hwarns
      · refine answered_of_decides hraises ?_ hspec (decides_checkCommand hname ?_)
        · simpa only [Check.warns, hname, decide_eq_false_iff_not] using hwarns
        · rw [not_and_or, not_not] at hwarns
          exact hwarns

theorem recordIteration_run (e : RuntimeEnforcer) :
    recordIteration.run e =
      let counted :=
        { e with context := { e.context with iterations := e.context.iterations + 1 } }
      if e.budget.limits.maxIterations < e.context.iterations + 1 then
        .ok .blocked
          (stop "SC-05: Max iterations reached".toList "Max iterations reached".toList counted)
      else .ok .allowed counted := by
  rw [recordIteration, EStateM.run_bind]
  refine (checkLimit_run _ _ _ _).trans ?_
  simp only [decide_eq_true_eq]

variable (python compiles) in
theorem answered_perform (call : EnforcerCall) (e : RuntimeEnforcer) :
    Answered python compiles call e
      ((call.perform python compiles).run e) := by
  cases call with
  | ask check =>
    cases check with
    | file path mode lines =>
      refine answered_of_decides rfl rfl (perform_spec python _ e) ?_
      change Settled e (EStateM.run (if mode = "write" then _ else _) e)
      split_ifs
      · exact decides_checkFileWrite path lines e
      · exact decides_checkFileRead path e
    | command text => exact answered_command python compiles text e
    | network domain =>
      exact answered_of_decides rfl rfl (perform_spec python _ e) (decides_checkNetwork domain e)
  | recordIteration =>
    rw [show (EnforcerCall.recordIteration.perform python compiles).run e = _ from
      recordIteration_run e]
    split_ifs with h
    · exact ⟨if_pos h, charged_stop _ _ rfl, fun _ => rfl⟩
    · exact ⟨if_neg h, charged_context rfl, id⟩
  | checkDuration now =>
    change Answered python compiles (.checkDuration now) e ((checkLimit _ _ _).run e)
    rw [checkLimit_run]
    by_cases h : 60000000 * e.budget.limits.maxDurationMinutes < now - e.context.startedAt
    · rw [if_pos (by simpa using h)]
      exact ⟨if_pos h, @charged_stop _ e.context _ _ _ rfl, fun _ => rfl⟩
    · rw [if_neg (by simpa using h)]
      exact ⟨if_neg h, @charged_context _ e.context _ rfl, id⟩

end

section Stopped

variable (python : Python) (compiles : Text → Bool)

def afterCall (e : RuntimeEnforcer) (call : EnforcerCall) : RuntimeEnforcer :=
  History.next (fun call : EnforcerCall => call.perform python compiles) e call

def StopSticks (e : RuntimeEnforcer) (call : EnforcerCall) : Prop :=
  e.context.stopped = true → (afterCall python compiles e call).context.stopped = true ∧
    ∃ e', (call.perform python compiles).run e = .ok .blocked e'

def EnforcerCall.Refused (e : RuntimeEnforcer) : EnforcerCall → Prop
  | .ask check =>
    check.raises python compiles e.budget = false ∧ check.warns e.budget = false ∧
      (check.accepted python e.budget = false ∨
        check.within e.budget (check.charge e.context) = false)
  | .recordIteration => e.budget.limits.maxIterations < e.context.iterations + 1
  | .checkDuration now =>
    60000000 * e.budget.limits.maxDurationMinutes < now - e.context.startedAt

variable {python compiles} {e : RuntimeEnforcer} {call : EnforcerCall}

theorem answer_eq_blocked_iff :
    call.answer python compiles e = some .blocked ↔ call.Refused python compiles e := by
  cases call with
  | ask check =>
    rw [EnforcerCall.answer, EnforcerCall.Refused, Check.allowed]
    split_ifs with hraises hwarns hallowed
    · simp [hraises]
    · simp [hwarns]
    · rw [Bool.and_eq_true] at hallowed
      simp [hallowed]
    · refine iff_of_true rfl ⟨by simpa using hraises, by simpa using hwarns, ?_⟩
      rwa [Bool.not_eq_true, Bool.and_eq_false_iff] at hallowed
  | recordIteration => simp [EnforcerCall.answer, EnforcerCall.Refused]
  | checkDuration now =>
    rw [EnforcerCall.answer, EnforcerCall.Refused]
    split_ifs with hlimit
    · exact iff_of_true rfl hlimit
    · exact iff_of_false (by rintro ⟨⟩) hlimit

theorem run_blocked_iff : (∃ e', (call.perform python compiles).run e = .ok .blocked e') ↔
    call.answer python compiles e = some .blocked := by
  have h := answered_perform python compiles call e
  cases hrun : (call.perform python compiles).run e with
  | ok result e' =>
    rw [hrun] at h
    rw [h.1]
    simp
  | error err e' =>
    rw [hrun] at h
    rw [h.1]
    simp

theorem stopped_afterCall (h : e.context.stopped = true) (call : EnforcerCall) :
    (afterCall python compiles e call).context.stopped = true := by
  have hcall := answered_perform python compiles call e
  rw [afterCall, History.next]
  cases hrun : (call.perform python compiles).run e with
  | ok result e' =>
    rw [hrun] at hcall
    exact hcall.2.2 h
  | error err e' =>
    rw [hrun] at hcall
    rw [hcall.2]
    exact h

theorem stopSticks_iff (e : RuntimeEnforcer) (call : EnforcerCall) :
    StopSticks python compiles e call ↔
      (e.context.stopped = true → call.Refused python compiles e) := by
  refine forall_congr' fun h => ?_
  rw [and_iff_right (stopped_afterCall h call), run_blocked_iff, answer_eq_blocked_iff]

/-- Stops are sticky where the rules or the limits refuse every call after them. -/
theorem along_stopSticks_iff (python : Python) (compiles : Text → Bool) (e : RuntimeEnforcer)
    (calls : List EnforcerCall) :
    History.Along (afterCall python compiles) (StopSticks python compiles) e calls ↔
      History.Along (afterCall python compiles)
        (fun e call => e.context.stopped = true → call.Refused python compiles e) e calls :=
  History.along_congr (I := fun _ => True) (fun _ _ _ _ => trivial)
    (fun e call _ => stopSticks_iff e call) trivial calls

def readAfterStop : List EnforcerCall := [.recordIteration, .ask (.file "a.txt" "read" 0)]

theorem not_stopSticks_readAfterStop :
    ¬ History.Along (afterCall (asciiPython []) fun _ => true)
      (StopSticks (asciiPython []) fun _ => true)
      { budget := { limits := { maxIterations := 0 } } } readAfterStop := by
  intro ⟨_, hread, _⟩
  obtain ⟨_, e', hrun⟩ := hread rfl
  cases hrun

end Stopped

section Totals

variable (python : Python) (compiles : Text → Bool)

def allowedCalls : RuntimeEnforcer → List EnforcerCall → List EnforcerCall
  | _, [] => []
  | e, call :: calls =>
    match (call.perform python compiles).run e with
    | .ok .allowed e' => call :: allowedCalls e' calls
    | .ok _ e' => allowedCalls e' calls
    | .error _ e' => allowedCalls e' calls

def EnforcerCall.cost : EnforcerCall → Consumption
  | .ask check => check.cost
  | .recordIteration => { iterations := 1 }
  | .checkDuration _ => {}

def total (calls : List EnforcerCall) : Consumption :=
  (calls.map EnforcerCall.cost).foldr (· + ·) {}

def granting (text : String) (name : Text) (permissions : List CommandPermission) :
    Option CommandPermission :=
  permissions.find? fun permission => permission.command = name ∧
    (permission.argsPattern = [] ∨
      python.reMatch permission.argsPattern (Text.strip (text.toList.drop name.length)) = true)

def EnforcerCall.grantedBy (budget : AutonomyBudget) (permission : CommandPermission) :
    EnforcerCall → Bool
  | .ask (.command text) =>
    match commandName (.str text) with
    | .error _ => false
    | .ok name => granting python text name budget.allowedCommands = some permission
  | _ => false

structure AutonomyBudget.Fits (budget : AutonomyBudget) (c : Consumption) : Prop where
  files : c.filesModified ≤ budget.limits.maxFilesModified
  lines : c.linesChanged ≤ budget.limits.maxLinesChanged
  iterations : c.iterations ≤ budget.limits.maxIterations
  commands : 0 < budget.limits.maxToolCalls → c.toolCalls ≤ budget.limits.maxToolCalls
  requests : 0 < budget.network.maxRequests → c.networkRequests ≤ budget.network.maxRequests

/-- The calls are within the limits of the budget, and each permission grants no more than
its own maximum. -/
structure WithinLimits (budget : AutonomyBudget) (calls : List EnforcerCall) : Prop where
  fits : budget.Fits (total calls)
  granted : ∀ permission ∈ budget.allowedCommands, 0 < permission.maxCalls →
    calls.countP (EnforcerCall.grantedBy python budget permission) ≤ permission.maxCalls

def EnforcerCall.Nonneg : EnforcerCall → Prop
  | .ask (.file _ _ lines) => 0 ≤ lines
  | _ => True

def AutonomyBudget.enforcer (budget : AutonomyBudget) (startedAt : Int) (stamps : ℕ → Stamp) :
    RuntimeEnforcer :=
  { budget, context := { budgetId := budget.budgetId, startedAt }, stamps }

/-- No limit is negative, and what a permission with a maximum grants is limited by the
tool calls of the budget, or it grants nothing. -/
structure Enforceable (budget : AutonomyBudget) : Prop where
  files : 0 ≤ budget.limits.maxFilesModified
  lines : 0 ≤ budget.limits.maxLinesChanged
  iterations : 0 ≤ budget.limits.maxIterations
  granted : ∀ permission ∈ budget.allowedCommands, 0 < permission.maxCalls →
    (0 < budget.limits.maxToolCalls ∧ budget.limits.maxToolCalls ≤ permission.maxCalls) ∨
      ∀ text, (Check.command text).raises python compiles budget = false →
        (Check.command text).accepted python budget = true →
        (EnforcerCall.ask (.command text)).grantedBy python budget permission = false

variable {python compiles} {budget : AutonomyBudget} {e : RuntimeEnforcer} {call : EnforcerCall}
  {calls : List EnforcerCall}

theorem total_cons (call : EnforcerCall) (calls : List EnforcerCall) :
    total (call :: calls) = call.cost + total calls := rfl

structure Tally (budget : AutonomyBudget) (c : Consumption) (e : RuntimeEnforcer) : Prop where
  same : e.budget = budget
  recorded : c ≤ e.context.consumption
  fits : budget.Fits c

theorem allowed_of_answer (h : (EnforcerCall.ask check).answer python compiles e = some .allowed) :
    check.raises python compiles e.budget = false ∧ check.accepted python e.budget = true ∧
      check.within e.budget (check.charge e.context) = true := by
  rw [EnforcerCall.answer] at h
  by_cases hraises : check.raises python compiles e.budget = true
  · simp [hraises] at h
  by_cases hwarns : check.warns e.budget = true
  · simp [hraises, hwarns] at h
  by_cases hallowed : check.allowed python e = true
  · rw [Check.allowed, Bool.and_eq_true] at hallowed
    exact ⟨by simpa using hraises, hallowed⟩
  · simp [hraises, hwarns, hallowed] at h

theorem counters_allowed (h : call.answer python compiles e = some .allowed) :
    call.counters python e = e.context.consumption + call.cost := by
  cases call with
  | ask check =>
    rw [EnforcerCall.counters, if_pos (allowed_of_answer h).2.1, Check.charge_consumption]
    rfl
  | recordIteration =>
    simp [EnforcerCall.counters, EnforcerCall.cost, EnforcementContext.consumption,
      add_def]
  | checkDuration now =>
    simp [EnforcerCall.counters, EnforcerCall.cost, add_def]

theorem le_counters (hcall : call.Nonneg) : e.context.consumption ≤ call.counters python e := by
  cases call with
  | ask check =>
    rw [EnforcerCall.counters]
    split_ifs
    · rw [Check.charge_consumption]
      refine le_add (Check.zero_le_cost fun path mode lines hfile => ?_)
      rw [hfile] at hcall
      exact hcall
    · exact le_refl _
  | recordIteration =>
    rw [le_def]
    simp [EnforcerCall.counters, EnforcementContext.consumption]
  | checkDuration now => exact le_refl _

section

variable (h : Tally budget c e) (hallowed : call.answer python compiles e = some .allowed)
include h hallowed

theorem fits_add_cost : budget.Fits (c + call.cost) := by
  obtain ⟨rfl, hrecorded, hfiles, hlines, hiterations, hcommands, hrequests⟩ := h
  obtain ⟨h₁, h₂, h₃, h₄, h₅⟩ := hrecorded
  dsimp only [EnforcementContext.consumption] at h₁ h₂ h₃ h₄ h₅
  cases call with
  | ask check =>
    have hwithin := (allowed_of_answer hallowed).2.2
    cases check with
    | file path mode lines =>
      by_cases hmode : mode = "write"
      · simp only [Check.within, Check.charge, hmode, if_true, decide_eq_true_eq,
          true_implies] at hwithin
        simp only [EnforcerCall.cost, Check.cost, hmode, if_true, add_def]
        constructor <;> dsimp only <;> omega
      · rw [EnforcerCall.cost, Check.cost, if_neg hmode, add_zero]
        exact ⟨hfiles, hlines, hiterations, hcommands, hrequests⟩
    | command text =>
      rw [Check.within, decide_eq_true_eq] at hwithin
      simp only [Check.charge] at hwithin
      simp only [EnforcerCall.cost, Check.cost, add_def]
      constructor <;> dsimp only <;> omega
    | network domain =>
      rw [Check.within, decide_eq_true_eq] at hwithin
      simp only [Check.charge] at hwithin
      simp only [EnforcerCall.cost, Check.cost, add_def]
      constructor <;> dsimp only <;> omega
  | recordIteration =>
    have hlimit : ¬ e.budget.limits.maxIterations < e.context.iterations + 1 := fun hlimit => by
      rw [EnforcerCall.answer, if_pos hlimit] at hallowed
      cases hallowed
    simp only [EnforcerCall.cost, add_def]
    constructor <;> dsimp only <;> omega
  | checkDuration now =>
    rw [EnforcerCall.cost, add_zero]
    exact ⟨hfiles, hlines, hiterations, hcommands, hrequests⟩

theorem tally_allowed
    (hcharged : Charged (call.counters python e) e e') : Tally budget (c + call.cost) e' := by
  refine ⟨hcharged.budget.trans h.same, ?_, fits_add_cost h hallowed⟩
  rw [hcharged.consumption, counters_allowed hallowed]
  exact add_le_add_right h.recorded

end

theorem Tally.charged (h : Tally budget c e) (hcall : call.Nonneg)
    (hcharged : Charged (call.counters python e) e e') : Tally budget c e' := by
  refine ⟨hcharged.budget.trans h.same, ?_, h.fits⟩
  rw [hcharged.consumption]
  exact le_trans h.recorded (le_counters hcall)

variable (python compiles) in
theorem fits_allowedCalls (h : Tally budget c e)
    (hcalls : ∀ call ∈ calls, call.Nonneg) :
    budget.Fits (c + total (allowedCalls python compiles e calls)) := by
  induction calls generalizing e c with
  | nil =>
    rw [allowedCalls, show total [] = {} from rfl, add_zero]
    exact h.fits
  | cons call calls ih =>
    rw [List.forall_mem_cons] at hcalls
    have hanswered := answered_perform python compiles call e
    rw [allowedCalls]
    cases hrun : (call.perform python compiles).run e with
    | error err e' =>
      rw [hrun] at hanswered
      exact ih (hanswered.2 ▸ h) hcalls.2
    | ok result e' =>
      rw [hrun] at hanswered
      obtain ⟨hresult, hcharged, -⟩ := hanswered
      cases result with
      | allowed =>
        have htally := tally_allowed h hresult hcharged
        dsimp only
        rw [total_cons, ← add_assoc]
        exact ih htally hcalls.2
      | blocked => exact ih (h.charged hcalls.1 hcharged) hcalls.2
      | warned => exact ih (h.charged hcalls.1 hcharged) hcalls.2
      | escalated => exact ih (h.charged hcalls.1 hcharged) hcalls.2

theorem answer_of_mem_allowedCalls (he : e.budget = budget)
    (hmem : call ∈ allowedCalls python compiles e calls) :
    ∃ e', e'.budget = budget ∧ call.answer python compiles e' = some .allowed := by
  induction calls generalizing e with
  | nil => cases hmem
  | cons first calls ih =>
    have hanswered := answered_perform python compiles first e
    rw [allowedCalls] at hmem
    cases hrun : (first.perform python compiles).run e with
    | error err e' =>
      rw [hrun] at hanswered hmem
      exact ih (hanswered.2 ▸ he) hmem
    | ok result e' =>
      rw [hrun] at hanswered hmem
      have he' := hanswered.2.1.budget.trans he
      cases result with
      | allowed =>
        rcases List.mem_cons.mp hmem with rfl | hmem
        · exact ⟨e, he, hanswered.1⟩
        · exact ih he' hmem
      | blocked => exact ih he' hmem
      | warned => exact ih he' hmem
      | escalated => exact ih he' hmem

theorem countP_grantedBy_le (permission : CommandPermission) (calls : List EnforcerCall) :
    (calls.countP (EnforcerCall.grantedBy python budget permission) : Int) ≤
      (total calls).toolCalls := by
  induction calls with
  | nil => exact le_refl 0
  | cons call calls ih =>
    rw [total_cons, List.countP_cons, add_def]
    dsimp only
    cases call with
    | ask check =>
      cases check with
      | command text =>
        simp only [EnforcerCall.cost, Check.cost]
        split_ifs <;> push_cast <;> omega
      | file path mode lines =>
        simp only [EnforcerCall.grantedBy, EnforcerCall.cost, Check.cost]
        split_ifs <;> simp_all
      | network domain => simpa [EnforcerCall.grantedBy, EnforcerCall.cost, Check.cost] using ih
    | recordIteration => simpa [EnforcerCall.grantedBy, EnforcerCall.cost] using ih
    | checkDuration now => simpa [EnforcerCall.grantedBy, EnforcerCall.cost] using ih

theorem warns_of_accepted (h : (Check.command text).accepted python e.budget = true) :
    (Check.command text).warns e.budget = false := by
  rw [Check.accepted] at h
  rw [Check.warns]
  cases hname : commandName (.str text) with
  | error err => rfl
  | ok name =>
    simp only [hname, decide_eq_true_eq] at h
    exact decide_eq_false fun hwarns => h.2.1 hwarns.2

theorem allowedCalls_replicate (he : e.budget = budget)
    (hraises : (Check.command text).raises python compiles budget = false)
    (haccepted : (Check.command text).accepted python budget = true) (n : ℕ)
    (hlimit : 0 < budget.limits.maxToolCalls →
      e.context.toolCalls + n ≤ budget.limits.maxToolCalls) :
    allowedCalls python compiles e (List.replicate n (.ask (.command text))) =
      List.replicate n (.ask (.command text)) := by
  induction n generalizing e with
  | zero => rfl
  | succ n ih =>
    have hanswer : (EnforcerCall.ask (.command text)).answer python compiles e = some .allowed := by
      have hwarns : (Check.command text).warns e.budget = false :=
        warns_of_accepted (he ▸ haccepted)
      have hwithin : (Check.command text).within e.budget
          ((Check.command text).charge e.context) = true := by
        rw [Check.within, decide_eq_true_eq, he]
        intro hpositive
        have := hlimit hpositive
        simp only [Check.charge]
        omega
      rw [EnforcerCall.answer, if_neg (by simp [he, hraises]), if_neg (by simp [hwarns]),
        Check.allowed, hwithin, he, haccepted]
      rfl
    have hanswered := answered_perform python compiles
      (.ask (.command text)) e
    rw [List.replicate_succ, allowedCalls]
    cases hrun : ((EnforcerCall.ask (.command text)).perform python compiles).run e with
    | error err e' =>
      rw [hrun, Answered, hanswer] at hanswered
      cases hanswered.1
    | ok result e' =>
      rw [hrun] at hanswered
      obtain ⟨hresult, hcharged, -⟩ := hanswered
      obtain rfl := Option.some.inj (hanswer.symm.trans hresult)
      dsimp only
      rw [ih (hcharged.budget.trans he)]
      intro hpositive
      have hcalls := congrArg toolCalls
        (hcharged.consumption.trans (counters_allowed hanswer))
      simp only [EnforcementContext.consumption, EnforcerCall.cost, Check.cost,
        add_def] at hcalls
      have := hlimit hpositive
      push_cast at this
      omega

/-- The limits of a budget hold in every run on a new enforcer when no limit is negative and
the maximum of each permission is kept by the limit of the tool calls. -/
theorem withinLimits_iff_enforceable (python : Python) (compiles : Text → Bool)
    (budget : AutonomyBudget) :
    (∀ startedAt stamps calls, (∀ call ∈ calls, EnforcerCall.Nonneg call) →
      WithinLimits python budget
        (allowedCalls python compiles (budget.enforcer startedAt stamps) calls)) ↔
      Enforceable python compiles budget := by
  constructor
  · intro h
    have hnone := h 0 (fun _ => {}) [] (fun _ hmem => nomatch hmem)
    refine ⟨hnone.fits.files, hnone.fits.lines, hnone.fits.iterations,
      fun permission hmem hmax => or_iff_not_imp_left.mpr fun hlimit text hraises haccepted => ?_⟩
    by_contra hgranted
    rw [Bool.not_eq_false] at hgranted
    obtain ⟨n, hn⟩ := Int.eq_ofNat_of_zero_le hmax.le
    have hgrants := (h 0 (fun _ => {}) (List.replicate (n + 1) (.ask (.command text)))
      (fun call hcall => by rw [List.eq_of_mem_replicate hcall]; trivial)).granted
        permission hmem hmax
    rw [allowedCalls_replicate rfl hraises haccepted, List.countP_replicate, if_pos hgranted]
      at hgrants
    · push_cast at hgrants
      omega
    · intro hpositive
      have : ¬ budget.limits.maxToolCalls ≤ permission.maxCalls := fun h => hlimit ⟨hpositive, h⟩
      simp only [AutonomyBudget.enforcer]
      omega
  · intro h startedAt stamps calls hcalls
    have htally : Tally budget {} (budget.enforcer startedAt stamps) :=
      ⟨rfl, Consumption.le_refl _, h.files, h.lines, h.iterations, fun h => h.le, fun h => h.le⟩
    have hfits := fits_allowedCalls python compiles htally hcalls
    rw [Consumption.zero_add] at hfits
    refine ⟨hfits, fun permission hmem hmax => ?_⟩
    rcases h.granted permission hmem hmax with ⟨hpositive, hlimit⟩ | hnone
    · exact (countP_grantedBy_le permission _).trans ((hfits.commands hpositive).trans hlimit)
    · rw [List.countP_eq_zero.mpr fun call hcall => ?_]
      · exact hmax.le
      obtain ⟨e, he, hanswer⟩ := answer_of_mem_allowedCalls rfl hcall
      cases call with
      | ask check =>
        cases check with
        | command text =>
          obtain ⟨hraises, haccepted, -⟩ := allowed_of_answer hanswer
          rw [he] at hraises haccepted
          simp [hnone text hraises haccepted]
        | file path mode lines => simp [EnforcerCall.grantedBy]
        | network domain => simp [EnforcerCall.grantedBy]
      | recordIteration => simp [EnforcerCall.grantedBy]
      | checkDuration now => simp [EnforcerCall.grantedBy]

def oneList : AutonomyBudget :=
  { allowedCommands := [{ command := "ls".toList, maxCalls := 1 }] }

theorem not_withinLimits_twoLists :
    ¬ WithinLimits (asciiPython []) oneList
      (allowedCalls (asciiPython []) (fun _ => true) (oneList.enforcer 0 fun _ => {})
        [.ask (.command "ls"), .ask (.command "ls")]) := by
  intro h
  have hgranted := h.granted { command := "ls".toList, maxCalls := 1 } (by simp [oneList])
    (by decide)
  revert hgranted
  decide +kernel

end Totals

end Agent33.Autonomy

/-!
## The segments of a checked command

The check of a command compares its first word with the lists of the budget. A shell
runs a program for each segment of the command, and reads its name without quotes.
-/

namespace Agent33.Autonomy

open Library

def segments (command : Text) : List Text :=
  command.splitOnP fun c => c == '|' || c == '&' || c == ';' || c == '\n'

def executable (segment : Text) : Option Text :=
  match Shlex.split segment with
  | some parts => parts.head?
  | none => (Text.words segment).head?

def executables (command : Text) : List Text := (segments command).filterMap executable

def AutonomyBudget.Bars (budget : AutonomyBudget) (name : Text) : Prop :=
  name ∈ budget.deniedCommands ∨
    budget.allowedCommands ≠ [] ∧ ∀ permission ∈ budget.allowedCommands, permission.command ≠ name

def leadingWord (text : String) : Text := (Text.words text.toList).headD []

section

variable (python : Python) (compiles : Text → Bool)

structure CommandSound (e : RuntimeEnforcer) (text : String) : Prop where
  returns : ∃ result e', (checkCommandText python compiles text).run e = .ok result e'
  sound : ∀ e', (checkCommandText python compiles text).run e = .ok .allowed e' →
    ∀ name ∈ executables text.toList, ¬ e.budget.Bars name

/-- The command has a first word, the patterns that it is matched with compile, and when the
rules accept its first word, none of its other programs is barred. -/
structure FirstWordDecides (e : RuntimeEnforcer) (text : String) : Prop where
  word : text = "" ∨ Text.words text.toList ≠ []
  compiles : leadingWord text ∉ e.budget.deniedCommands →
    leadingWord text ∉ e.budget.requireApprovalCommands →
      brokenPattern python compiles text (leadingWord text) e.budget.allowedCommands = false
  others : (Check.command text).accepted python e.budget = true →
    (Check.command text).within e.budget ((Check.command text).charge e.context) = true →
      ∀ name ∈ executables text.toList, name ≠ leadingWord text → ¬ e.budget.Bars name

end

variable {python : Python} {compiles : Text → Bool} {e : RuntimeEnforcer} {text : String}

theorem commandName_text (h : text = "" ∨ Text.words text.toList ≠ []) :
    commandName (.str text) = .ok (leadingWord text) := by
  rw [commandName, leadingWord]
  by_cases hempty : text = ""
  · subst hempty
    rfl
  · rw [if_pos (by simpa [Json.truthy] using hempty)]
    cases hwords : Text.words text.toList with
    | nil => exact absurd hwords (h.resolve_left hempty)
    | cons name words => rfl

theorem word_of_commandName (h : commandName (.str text) = .ok name) :
    text = "" ∨ Text.words text.toList ≠ [] := by
  rw [commandName] at h
  by_cases hempty : text = ""
  · exact .inl hempty
  · rw [if_pos (by simpa [Json.truthy] using hempty)] at h
    refine .inr fun hwords => ?_
    rw [hwords] at h
    cases h

theorem raises_eq_false_iff :
    (Check.command text).raises python compiles e.budget = false ↔
      (text = "" ∨ Text.words text.toList ≠ []) ∧
        (leadingWord text ∉ e.budget.deniedCommands →
          leadingWord text ∉ e.budget.requireApprovalCommands →
            brokenPattern python compiles text (leadingWord text) e.budget.allowedCommands =
              false) := by
  constructor
  · intro h
    rw [Check.raises] at h
    cases hname : commandName (.str text) with
    | error err =>
      rw [hname] at h
      cases h
    | ok name =>
      have hword := word_of_commandName hname
      obtain rfl := Except.ok.inj ((commandName_text hword).symm.trans hname)
      rw [hname] at h
      simpa [hword] using h
  · rintro ⟨hword, hbroken⟩
    rw [Check.raises, commandName_text hword]
    simpa using hbroken

theorem command_of_permitted (h : permitted python (.str text) name permissions = .ok true) :
    ∃ permission ∈ permissions, permission.command = name := by
  induction permissions with
  | nil => cases h
  | cons permission rest ih =>
    by_cases hname : permission.command = name
    · exact ⟨permission, List.mem_cons_self, hname⟩
    · rw [permitted, if_neg hname] at h
      obtain ⟨other, hmem, hother⟩ := ih h
      exact ⟨other, List.mem_cons_of_mem _ hmem, hother⟩

theorem not_bars_firstWord (hword : text = "" ∨ Text.words text.toList ≠ [])
    (h : (Check.command text).accepted python e.budget = true) :
    ¬ e.budget.Bars (leadingWord text) := by
  rw [Check.accepted, commandName_text hword] at h
  obtain ⟨hdenied, -, hallowed⟩ := of_decide_eq_true h
  rintro (hmem | ⟨hne, homits⟩)
  · exact hdenied hmem
  · obtain ⟨permission, hmem, hname⟩ := command_of_permitted (hallowed.resolve_left hne)
    exact homits permission hmem hname

theorem run_allowed_iff :
    (∃ e', (checkCommandText python compiles text).run e = .ok .allowed e') ↔
      (EnforcerCall.ask (.command text)).answer python compiles e = some .allowed := by
  have h := answered_command python compiles text e
  cases hrun : (checkCommandText python compiles text).run e with
  | ok result e' =>
    rw [hrun] at h
    rw [h.1]
    simp
  | error err e' =>
    rw [hrun] at h
    rw [h.1]
    simp

theorem command_returns_iff :
    (∃ result e', (checkCommandText python compiles text).run e = .ok result e') ↔
      (Check.command text).raises python compiles e.budget = false := by
  have h := answered_command python compiles text e
  rw [← Bool.not_eq_true]
  cases hrun : (checkCommandText python compiles text).run e with
  | ok result e' =>
    rw [hrun] at h
    refine iff_of_true ⟨result, e', rfl⟩ fun hraises => ?_
    rw [Answered, EnforcerCall.answer, if_pos hraises] at h
    cases h.1
  | error err e' =>
    rw [hrun] at h
    refine iff_of_false (fun ⟨_, _, h⟩ => nomatch h) (not_not.mpr ?_)
    by_contra hraises
    rw [Answered, EnforcerCall.answer, if_neg hraises] at h
    split_ifs at h <;> cases h.1

/-- The check of a command is sound where its first word decides. -/
theorem commandSound_iff (python : Python) (compiles : Text → Bool) (e : RuntimeEnforcer)
    (text : String) :
    CommandSound python compiles e text ↔ FirstWordDecides python compiles e text := by
  constructor
  · rintro ⟨hreturns, hsound⟩
    have hraises := command_returns_iff.mp hreturns
    obtain ⟨hword, hbroken⟩ := raises_eq_false_iff.mp hraises
    refine ⟨hword, hbroken, fun haccepted hwithin name hname _ => ?_⟩
    have hanswer : (EnforcerCall.ask (.command text)).answer python compiles e = some .allowed := by
      have hwarns := warns_of_accepted (e := e) haccepted
      rw [EnforcerCall.answer, hraises, hwarns, Check.allowed, haccepted, hwithin]
      rfl
    obtain ⟨e', hrun⟩ := run_allowed_iff.mpr hanswer
    exact hsound e' hrun name hname
  · rintro ⟨hword, hbroken, hothers⟩
    refine ⟨command_returns_iff.mpr (raises_eq_false_iff.mpr ⟨hword, hbroken⟩),
      fun e' hrun name hname => ?_⟩
    obtain ⟨-, haccepted, hwithin⟩ := allowed_of_answer (run_allowed_iff.mp ⟨e', hrun⟩)
    by_cases hfirst : name = leadingWord text
    · rw [hfirst]
      exact not_bars_firstWord hword haccepted
    · exact hothers haccepted hwithin name hname hfirst

def onlyList : AutonomyBudget := { allowedCommands := [{ command := "ls".toList }] }

theorem not_commandSound_chained :
    ¬ CommandSound (asciiPython []) (fun _ => true) { budget := onlyList } "ls && rm -rf /" := by
  intro h
  have hothers := ((commandSound_iff _ _ _ _).mp h).others (by decide +kernel) (by decide +kernel)
  refine hothers "rm".toList (by decide +kernel) (by decide +kernel) (.inr ⟨?_, ?_⟩)
  · simp [onlyList]
  · simp [onlyList]

end Agent33.Autonomy
