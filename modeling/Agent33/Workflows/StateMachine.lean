import Agent33.Library.Dict
import Agent33.Library.Hoare
import Agent33.Library.Python

/-!
# Statecharts

The machine that executes a statechart: events lead from state to state when their guards
allow it, and actions change the context.
-/

namespace Agent33.Workflows.Statechart

open Library

inductive MachineError
  | runtimeError (message : Text)
  | valueError (message : Text)
  | raised (e : Exn)

structure Transition where
  target : Text
  guard : Option Text := none
  actions : List Text := []

structure StateNode where
  /-- A transition or the name of its target for each event. -/
  on : Dict Text (Transition ⊕ Text) := Dict.empty
  entry : List Text := []
  exit : List Text := []
  final : Bool := false

structure StatechartDefinition (γ : Type) where
  initial : Text
  context : γ
  states : Dict Text StateNode

structure StateMachineResult (γ : Type) where
  finalState : Text
  context : γ
  history : List Text
  actionsExecuted : List Text

structure StateMachine (γ : Type) where
  definition : StatechartDefinition γ
  guards : Dict Text (γ → Bool) := Dict.empty
  actions : Dict Text (EStateM Exn γ PUnit) := Dict.empty

structure MachineData (γ : Type) where
  currentState : Text
  context : γ
  history : List Text
  actionsExecuted : List Text

abbrev MachineM (γ : Type) := EStateM MachineError (MachineData γ)

def quoted (text : Text) : Text := "'".toList ++ text ++ "'".toList

def normalize : Transition ⊕ Text → Transition
  | .inl transition => transition
  | .inr target => { target }

namespace StateMachine

variable {γ : Type} (machine : StateMachine γ)

variable (name : Text)

def state? : Option StateNode := machine.definition.states.get? name

def onContext (x : EStateM Exn γ PUnit) : MachineM γ PUnit := fun d =>
  match x.run d.context with
  | .ok _ context => .ok ⟨⟩ { d with context }
  | .error e context => .error (.raised e) { d with context }

def recordAction : MachineM γ PUnit :=
  modify fun d => { d with actionsExecuted := d.actionsExecuted ++ [name] }

def executeAction : MachineM γ PUnit := do
  match machine.actions.get? name with
  | some fn =>
    onContext fn
    recordAction name
  | none => recordAction (name ++ ":not_found".toList)

def executeActions : List Text → MachineM γ PUnit
  | [] => return
  | name :: rest => do
    machine.executeAction name
    executeActions rest

def runEntry : MachineM γ PUnit :=
  match machine.state? name with
  | some node => machine.executeActions node.entry
  | none => return

def runExit : MachineM γ PUnit :=
  match machine.state? name with
  | some node => machine.executeActions node.exit
  | none => return

def checkGuard (transition : Transition) (context : γ) : Except MachineError Bool :=
  match transition.guard with
  | none => .ok true
  | some [] => .ok true
  | some guard =>
    match machine.guards.get? guard with
    | none => .error (.valueError ("Guard ".toList ++ quoted guard ++ " is not registered".toList))
    | some fn => .ok (fn context)

def findTransition (d : MachineData γ) (event : Text) : Except MachineError Transition :=
  match machine.state? d.currentState with
  | none => .error (.runtimeError ("Unknown state: ".toList ++ d.currentState))
  | some node =>
    if node.final then
      .error (.runtimeError ("Cannot send events to final state ".toList ++ quoted d.currentState))
    else
      match node.on.get? event with
      | none =>
        .error (.valueError ("No transition for event ".toList ++ quoted event ++
          " in state ".toList ++ quoted d.currentState))
      | some transition => .ok (normalize transition)

def takeTransition (source : Text) (transition : Transition) : MachineM γ PUnit := do
  machine.runExit source
  machine.executeActions transition.actions
  modify fun d => { d with
    currentState := transition.target
    history := d.history ++ [transition.target] }
  machine.runEntry transition.target

def send (event : Text) : MachineM γ Text := do
  let d ← get
  match machine.findTransition d event with
  | .error e => throw e
  | .ok transition =>
    match machine.checkGuard transition d.context with
    | .error e => throw e
    | .ok false => return d.currentState
    | .ok true =>
      machine.takeTransition d.currentState transition
      return (← get).currentState

def isFinal (d : MachineData γ) : Bool :=
  match machine.state? d.currentState with
  | some node => node.final
  | none => false

def result (d : MachineData γ) : StateMachineResult γ where
  finalState := d.currentState
  context := d.context
  history := d.history
  actionsExecuted := d.actionsExecuted

def execute : List Text → MachineM γ (StateMachineResult γ)
  | [] => return result (← get)
  | event :: rest => do
    if machine.isFinal (← get) then return result (← get)
    else
      let _ ← machine.send event
      execute rest

def start : MachineData γ where
  currentState := machine.definition.initial
  context := machine.definition.context
  history := [machine.definition.initial]
  actionsExecuted := []

def executeNew (events : List Text) :
    EStateM.Result MachineError (MachineData γ) (StateMachineResult γ) :=
  (do
    machine.runEntry machine.definition.initial
    machine.execute events : MachineM γ _).run machine.start

end StateMachine

end Agent33.Workflows.Statechart

/-!
## Runs of statecharts

The meaning of a statechart as a step relation over its states and contexts, and the runs that
the events of a list allow. The machine returns just the results of these runs.
-/

namespace Agent33.Workflows.Statechart

open Library Library.Hoare

structure Config (γ : Type) where
  state : Text
  context : γ

namespace StateMachine

variable {γ : Type} (machine : StateMachine γ)

def effect (name : Text) : EStateM Exn γ PUnit := (machine.actions.get? name).getD (pure ⟨⟩)

def Performs : List Text → γ → γ → Prop
  | [], context, context' => context' = context
  | name :: rest, context, context'' =>
    ∃ context', (machine.effect name).run context = .ok ⟨⟩ context' ∧
      Performs rest context' context''

def entries (name : Text) : List Text := ((machine.state? name).map StateNode.entry).getD []

def exits (name : Text) : List Text := ((machine.state? name).map StateNode.exit).getD []

def reported (name : Text) : Text :=
  if (machine.actions.get? name).isSome then name else name ++ ":not_found".toList

def Final (state : Text) : Prop := ∃ node, machine.state? state = some node ∧ node.final = true

def HasTransition (state event : Text) (transition : Transition) : Prop :=
  ∃ node, machine.state? state = some node ∧ node.final = false ∧
    (node.on.get? event).map normalize = some transition

def Passes (transition : Transition) (context : γ) : Prop :=
  ∀ guard, transition.guard = some guard → guard ≠ [] →
    ∃ fn, machine.guards.get? guard = some fn ∧ fn context = true

def Enabled (c : Config γ) (event : Text) (transition : Transition) : Prop :=
  machine.HasTransition c.state event transition ∧ machine.Passes transition c.context

def Blocked (c : Config γ) (event : Text) : Prop :=
  ∃ transition guard fn, machine.HasTransition c.state event transition ∧
    transition.guard = some guard ∧ guard ≠ [] ∧ machine.guards.get? guard = some fn ∧
    fn c.context = false

def phases (source : Text) (transition : Transition) : List Text :=
  machine.exits source ++ transition.actions ++ machine.entries transition.target

inductive Step : Config γ → Text → List Text → Config γ → Prop
  | take {c : Config γ} {event : Text} {transition : Transition} {context : γ} :
      machine.Enabled c event transition →
      machine.Performs (machine.phases c.state transition) c.context context →
      Step c event (machine.phases c.state transition) ⟨transition.target, context⟩

inductive Run : Config γ → List Text → List Text → List Text → Config γ → Prop
  | done (c : Config γ) : Run c [] [] [] c
  | final {c : Config γ} {event : Text} {events : List Text} :
      machine.Final c.state → Run c (event :: events) [] [] c
  | blocked {c c' : Config γ} {event : Text} {events visited executed : List Text} :
      machine.Blocked c event → Run c events visited executed c' →
      Run c (event :: events) visited executed c'
  | step {c next c' : Config γ} {event : Text} {events names visited executed : List Text} :
      machine.Step c event names next → Run next events visited executed c' →
      Run c (event :: events) (next.state :: visited) (names ++ executed) c'

variable {machine}

variable {d d' : MachineData γ} {transition other : Transition} {event state : Text}
    {events : List Text} {context : γ} {r : StateMachineResult γ}

theorem performs_append {names names' : List Text} {context'' : γ} :
    machine.Performs (names ++ names') context context'' ↔
      ∃ context', machine.Performs names context context' ∧
        machine.Performs names' context' context'' := by
  induction names generalizing context with
  | nil => simp [Performs]
  | cons name rest ih =>
    rw [List.cons_append, Performs]
    constructor
    · rintro ⟨context', hname, hrest⟩
      obtain ⟨middle, hfirst, hsecond⟩ := ih.mp hrest
      exact ⟨middle, ⟨context', hname, hfirst⟩, hsecond⟩
    · rintro ⟨middle, ⟨context', hname, hfirst⟩, hsecond⟩
      exact ⟨context', hname, ih.mpr ⟨middle, hfirst, hsecond⟩⟩

theorem Run.last (h : machine.Run c events visited executed c') :
    (c.state :: visited).getLast? = some c'.state := by
  induction h with
  | done c => rfl
  | final _ => rfl
  | blocked _ _ ih => exact ih
  | step hstep _ ih => rwa [List.getLast?_cons_cons]

theorem onContext_ok_iff {x : EStateM Exn γ PUnit} : (onContext x).run d = .ok ⟨⟩ d' ↔
      ∃ context, x.run d.context = .ok ⟨⟩ context ∧ d' = { d with context } := by
  have hrun : (onContext x).run d = match x.run d.context with
      | .ok _ context => .ok ⟨⟩ { d with context }
      | .error e context => .error (.raised e) { d with context } := rfl
  rw [hrun]
  cases x.run d.context with
  | ok a context => simp [eq_comm]
  | error e context => simp

theorem executeAction_ok_iff {name : Text} : (machine.executeAction name).run d = .ok ⟨⟩ d' ↔
      ∃ context, (machine.effect name).run d.context = .ok ⟨⟩ context ∧
        d' = { d with
          context, actionsExecuted := d.actionsExecuted ++ [machine.reported name] } := by
  rw [executeAction, effect, reported]
  cases machine.actions.get? name with
  | none =>
    constructor
    · intro h
      cases h
      exact ⟨d.context, rfl, rfl⟩
    · rintro ⟨context, h, rfl⟩
      cases h
      rfl
  | some fn =>
    dsimp only [Option.getD_some, Option.isSome_some]
    rw [run_bind_ok_iff, if_pos rfl]
    constructor
    · rintro ⟨⟨⟩, between, hcontext, hrecord⟩
      obtain ⟨context, hrun, rfl⟩ := onContext_ok_iff.mp hcontext
      cases hrecord
      exact ⟨context, hrun, rfl⟩
    · rintro ⟨context, hrun, rfl⟩
      exact ⟨⟨⟩, { d with context }, onContext_ok_iff.mpr ⟨context, hrun, rfl⟩, rfl⟩

def after (machine : StateMachine γ) (d : MachineData γ) (names : List Text) (context : γ) :
    MachineData γ :=
  { d with context, actionsExecuted := d.actionsExecuted ++ names.map machine.reported }

theorem executeActions_ok_iff {names : List Text} :
    (machine.executeActions names).run d = .ok ⟨⟩ d' ↔
      ∃ context, machine.Performs names d.context context ∧
        d' = machine.after d names context := by
  induction names generalizing d with
  | nil =>
    constructor
    · intro h
      cases h
      exact ⟨d'.context, rfl, by simp [after]⟩
    · rintro ⟨context, rfl, rfl⟩
      simp [after, executeActions]
  | cons name rest ih =>
    rw [executeActions, run_bind_ok_iff]
    constructor
    · rintro ⟨⟨⟩, between, hname, hrest⟩
      obtain ⟨context, hcontext, rfl⟩ := executeAction_ok_iff.mp hname
      obtain ⟨context', hperforms, rfl⟩ := ih.mp hrest
      exact ⟨context', ⟨context, hcontext, hperforms⟩, by simp [after]⟩
    · rintro ⟨context', ⟨context, hcontext, hperforms⟩, rfl⟩
      refine ⟨⟨⟩, _, executeAction_ok_iff.mpr ⟨context, hcontext, rfl⟩, ih.mpr ?_⟩
      exact ⟨context', hperforms, by simp [after]⟩

theorem runEntry_eq (name : Text) :
    machine.runEntry name = machine.executeActions (machine.entries name) := by
  rw [runEntry, entries]
  cases machine.state? name with
  | none => rfl
  | some node => rfl

theorem runExit_eq (name : Text) :
    machine.runExit name = machine.executeActions (machine.exits name) := by
  rw [runExit, exits]
  cases machine.state? name with
  | none => rfl
  | some node => rfl

def taken (machine : StateMachine γ) (d : MachineData γ) (transition : Transition) (context : γ) :
    MachineData γ where
  currentState := transition.target
  context := context
  history := d.history ++ [transition.target]
  actionsExecuted :=
    d.actionsExecuted ++ (machine.phases d.currentState transition).map machine.reported

theorem takeTransition_ok_iff :
    (machine.takeTransition d.currentState transition).run d = .ok ⟨⟩ d' ↔
      ∃ context, machine.Performs (machine.phases d.currentState transition) d.context context ∧
        d' = machine.taken d transition context := by
  rw [takeTransition, phases, runExit_eq, runEntry_eq, run_bind_ok_iff]
  simp only [performs_append]
  constructor
  · rintro ⟨⟨⟩, d₁, hexit, h⟩
    obtain ⟨context₁, hexits, rfl⟩ := executeActions_ok_iff.mp hexit
    obtain ⟨⟨⟩, d₂, hactions, h⟩ := run_bind_ok_iff.mp h
    obtain ⟨context₂, hperforms, rfl⟩ := executeActions_ok_iff.mp hactions
    obtain ⟨⟨⟩, d₃, hmove, hentry⟩ := run_bind_ok_iff.mp h
    cases hmove
    obtain ⟨context₃, hentries, rfl⟩ := executeActions_ok_iff.mp hentry
    refine ⟨context₃, ⟨context₂, ⟨context₁, hexits, hperforms⟩, hentries⟩, ?_⟩
    simp [taken, after, phases]
  · rintro ⟨context₃, ⟨context₂, ⟨context₁, hexits, hperforms⟩, hentries⟩, rfl⟩
    refine ⟨⟨⟩, _, executeActions_ok_iff.mpr ⟨context₁, hexits, rfl⟩, ?_⟩
    refine run_bind_ok_iff.mpr
      ⟨⟨⟩, _, executeActions_ok_iff.mpr ⟨context₂, hperforms, rfl⟩, ?_⟩
    refine run_bind_ok_iff.mpr ⟨⟨⟩, _, rfl, executeActions_ok_iff.mpr ⟨context₃, hentries, ?_⟩⟩
    simp [taken, after, phases]

def config (d : MachineData γ) : Config γ := ⟨d.currentState, d.context⟩

theorem findTransition_ok_iff : machine.findTransition d event = .ok transition ↔
      machine.HasTransition d.currentState event transition := by
  rw [findTransition, HasTransition]
  cases machine.state? d.currentState with
  | none => exact ⟨nofun, fun ⟨_, h, _⟩ => nomatch h⟩
  | some node =>
    dsimp only
    split_ifs with hfinal
    · refine ⟨nofun, ?_⟩
      rintro ⟨_, ⟨⟩, hnot, -⟩
      exact absurd hfinal (ne_true_of_eq_false hnot)
    · cases hevent : node.on.get? event with
      | none =>
        refine ⟨nofun, ?_⟩
        rintro ⟨_, ⟨⟩, -, hfound⟩
        rw [hevent] at hfound
        cases hfound
      | some found =>
        constructor
        · rintro ⟨⟩
          exact ⟨node, rfl, Bool.eq_false_iff.mpr hfinal, congrArg (Option.map normalize) hevent⟩
        · rintro ⟨_, ⟨⟩, -, hfound⟩
          rw [hevent] at hfound
          exact congrArg Except.ok (Option.some.inj hfound)

theorem checkGuard_true_iff :
    machine.checkGuard transition context = .ok true ↔ machine.Passes transition context := by
  rw [checkGuard, Passes]
  cases transition.guard with
  | none => exact ⟨fun _ => nofun, fun _ => rfl⟩
  | some guard =>
    cases guard with
    | nil => exact ⟨fun _ _ h hne => absurd (Option.some.inj h).symm hne, fun _ => rfl⟩
    | cons c guard =>
      dsimp only
      constructor
      · rintro h _ ⟨⟩ -
        cases hfound : machine.guards.get? (c :: guard) with
        | none =>
          rw [hfound] at h
          cases h
        | some fn =>
          rw [hfound] at h
          exact ⟨fn, rfl, Except.ok.inj h⟩
      · intro h
        obtain ⟨fn, hfound, hholds⟩ := h _ rfl (List.cons_ne_nil c guard)
        rw [hfound]
        exact congrArg Except.ok hholds

theorem checkGuard_false_iff : machine.checkGuard transition context = .ok false ↔
      ∃ guard fn, transition.guard = some guard ∧ guard ≠ [] ∧
        machine.guards.get? guard = some fn ∧ fn context = false := by
  rw [checkGuard]
  cases transition.guard with
  | none => exact ⟨nofun, fun ⟨_, _, h, _⟩ => nomatch h⟩
  | some guard =>
    cases guard with
    | nil => exact ⟨nofun, fun ⟨_, _, h, hne, _⟩ => absurd (Option.some.inj h).symm hne⟩
    | cons c guard =>
      dsimp only
      constructor
      · intro h
        cases hfound : machine.guards.get? (c :: guard) with
        | none =>
          rw [hfound] at h
          cases h
        | some fn =>
          rw [hfound] at h
          exact ⟨_, fn, rfl, List.cons_ne_nil c guard, hfound, Except.ok.inj h⟩
      · rintro ⟨_, fn, ⟨⟩, -, hfound, hfails⟩
        rw [hfound]
        exact congrArg Except.ok hfails

theorem send_run (event : Text) (d : MachineData γ) :
    (machine.send event).run d = match machine.findTransition d event with
      | .error e => .error e d
      | .ok transition =>
        match machine.checkGuard transition d.context with
        | .error e => .error e d
        | .ok false => .ok d.currentState d
        | .ok true => (do
            machine.takeTransition d.currentState transition
            return (← get).currentState : MachineM γ Text).run d := by
  rw [send, EStateM.run_bind, EStateM.run_get]
  dsimp only
  cases machine.findTransition d event with
  | error e => rfl
  | ok transition =>
    dsimp only
    cases machine.checkGuard transition d.context with
    | error e => rfl
    | ok passes =>
      cases passes with
      | false => rfl
      | true => rfl

theorem blocked_iff (hfind : machine.findTransition d event = .ok transition) :
    machine.Blocked (config d) event ↔ machine.checkGuard transition d.context = .ok false := by
  rw [checkGuard_false_iff]
  constructor
  · rintro ⟨other, guard, fn, hother, h⟩
    rw [findTransition_ok_iff.mpr hother] at hfind
    cases hfind
    exact ⟨guard, fn, h⟩
  · rintro ⟨guard, fn, h⟩
    exact ⟨transition, guard, fn, findTransition_ok_iff.mp hfind, h⟩

theorem enabled_iff (hfind : machine.findTransition d event = .ok transition) :
    machine.Enabled (config d) event other ↔
      other = transition ∧ machine.checkGuard transition d.context = .ok true := by
  rw [checkGuard_true_iff]
  constructor
  · rintro ⟨hother, hpasses⟩
    rw [findTransition_ok_iff.mpr hother] at hfind
    cases hfind
    exact ⟨rfl, hpasses⟩
  · rintro ⟨rfl, hpasses⟩
    exact ⟨findTransition_ok_iff.mp hfind, hpasses⟩

theorem send_of_not_enabled (hnone : ∀ transition, ¬ machine.Enabled (config d) event transition) :
    (machine.Blocked (config d) event ∧ (machine.send event).run d = .ok d.currentState d) ∨
      ¬ machine.Blocked (config d) event ∧ ∃ e, (machine.send event).run d = .error e d := by
  rw [send_run]
  cases hfind : machine.findTransition d event with
  | error e =>
    refine .inr ⟨fun ⟨transition, _, _, h, _⟩ => ?_, e, rfl⟩
    rw [findTransition_ok_iff.mpr h] at hfind
    cases hfind
  | ok transition =>
    have henabled := mt (enabled_iff hfind).mpr (hnone transition)
    rw [blocked_iff hfind]
    dsimp only
    cases hguard : machine.checkGuard transition d.context with
    | error e => exact .inr ⟨nofun, e, rfl⟩
    | ok passes =>
      cases passes with
      | false => exact .inl ⟨rfl, rfl⟩
      | true => exact absurd ⟨rfl, hguard⟩ henabled

section

variable (h : machine.Enabled (config d) event transition)
include h

theorem send_of_enabled :
    (machine.send event).run d = (do
      machine.takeTransition d.currentState transition
      return (← get).currentState : MachineM γ Text).run d := by
  have hfind := findTransition_ok_iff.mpr h.1
  rw [send_run, hfind]
  dsimp only
  rw [((enabled_iff hfind).mp h).2]

theorem Enabled.unique (h' : machine.Enabled (config d) event other) : other = transition :=
  ((enabled_iff (findTransition_ok_iff.mpr h.1)).mp h').1

theorem Enabled.not_blocked : ¬ machine.Blocked (config d) event := by
  have hfind := findTransition_ok_iff.mpr h.1
  rw [blocked_iff hfind, ((enabled_iff hfind).mp h).2]
  nofun

end

theorem send_ok_iff : (machine.send event).run d = .ok state d' ↔
      (machine.Blocked (config d) event ∧ state = d.currentState ∧ d' = d) ∨
      ∃ transition context, machine.Enabled (config d) event transition ∧
        machine.Performs (machine.phases d.currentState transition) d.context context ∧
        state = transition.target ∧ d' = machine.taken d transition context := by
  by_cases henabled : ∃ transition, machine.Enabled (config d) event transition
  · obtain ⟨transition, henabled⟩ := henabled
    rw [send_of_enabled henabled, run_bind_ok_iff, or_iff_right fun h => henabled.not_blocked h.1]
    constructor
    · rintro ⟨⟨⟩, between, htake, hstate⟩
      cases hstate
      obtain ⟨context, hperforms, rfl⟩ := takeTransition_ok_iff.mp htake
      exact ⟨transition, context, henabled, hperforms, rfl, rfl⟩
    · rintro ⟨other, context, hother, hperforms, rfl, rfl⟩
      rw [henabled.unique hother] at hperforms ⊢
      exact ⟨⟨⟩, _, takeTransition_ok_iff.mpr ⟨context, hperforms, rfl⟩, rfl⟩
  · have hnone := not_exists.mp henabled
    rw [or_iff_left fun ⟨transition, _, h, _⟩ => hnone transition h]
    rcases send_of_not_enabled hnone with ⟨hblocked, hrun⟩ | ⟨hblocked, e, hrun⟩
    · rw [hrun, and_iff_right hblocked]
      constructor
      · rintro ⟨⟩
        exact ⟨rfl, rfl⟩
      · rintro ⟨rfl, rfl⟩
        rfl
    · rw [hrun]
      exact ⟨nofun, fun h => absurd h.1 hblocked⟩

theorem isFinal_iff : machine.isFinal d = true ↔ machine.Final d.currentState := by
  rw [isFinal, Final]
  cases machine.state? d.currentState with
  | none => simp
  | some node => simp

theorem HasTransition.not_final (h : machine.HasTransition state event transition) :
    ¬ machine.Final state := by
  rintro ⟨node, hnode, hfinal⟩
  obtain ⟨other, hother, hnot, -⟩ := h
  rw [hnode] at hother
  cases hother
  exact absurd hfinal (ne_true_of_eq_false hnot)

def reached (machine : StateMachine γ) (d : MachineData γ) (visited executed : List Text)
    (c : Config γ) : MachineData γ where
  currentState := c.state
  context := c.context
  history := d.history ++ visited
  actionsExecuted := d.actionsExecuted ++ executed.map machine.reported

theorem reached_nil (d : MachineData γ) : machine.reached d [] [] (config d) = d := by
  simp [reached, config]

theorem execute_ok_iff : (machine.execute events).run d = .ok r d' ↔
      r = result d' ∧ ∃ visited executed c, machine.Run (config d) events visited executed c ∧
        d' = machine.reached d visited executed c := by
  induction events generalizing d with
  | nil =>
    constructor
    · rintro ⟨⟩
      exact ⟨rfl, [], [], config d', .done _, (reached_nil d').symm⟩
    · rintro ⟨rfl, visited, executed, c, ⟨⟩, rfl⟩
      rw [reached_nil]
      rfl
  | cons event events ih =>
    rw [execute, EStateM.run_bind, EStateM.run_get]
    dsimp only
    split_ifs with hfinal
    · have hstate := isFinal_iff.mp hfinal
      constructor
      · rintro ⟨⟩
        exact ⟨rfl, [], [], config d', .final hstate, (reached_nil d').symm⟩
      · rintro ⟨rfl, visited, executed, c, hrun, rfl⟩
        cases hrun with
        | final _ =>
          rw [reached_nil]
          rfl
        | blocked hblocked _ =>
          obtain ⟨transition, _, _, hhas, _⟩ := hblocked
          exact absurd hstate hhas.not_final
        | step hstep _ =>
          cases hstep with
          | take henabled _ => exact absurd hstate henabled.1.not_final
    · rw [run_bind_ok_iff]
      constructor
      · rintro ⟨state, between, hsend, hrest⟩
        obtain ⟨hr, visited, executed, c, hrun, hd⟩ := ih.mp hrest
        rcases send_ok_iff.mp hsend with ⟨hblocked, -, rfl⟩ |
          ⟨transition, context, henabled, hperforms, -, rfl⟩
        · exact ⟨hr, visited, executed, c, .blocked hblocked hrun, hd⟩
        · refine ⟨hr, _, _, c, .step (.take henabled hperforms) hrun, ?_⟩
          rw [hd]
          simp [reached, taken, config]
      · rintro ⟨rfl, visited, executed, c, hrun, rfl⟩
        cases hrun with
        | final hstate => exact absurd (isFinal_iff.mpr hstate) hfinal
        | blocked hblocked hrun =>
          exact ⟨_, d, send_ok_iff.mpr (.inl ⟨hblocked, rfl, rfl⟩),
            ih.mpr ⟨rfl, _, _, c, hrun, rfl⟩⟩
        | step hstep hrun =>
          cases hstep with
          | take henabled hperforms =>
            refine ⟨_, _, send_ok_iff.mpr (.inr ⟨_, _, henabled, hperforms, rfl, rfl⟩), ?_⟩
            refine ih.mpr ⟨?_, _, _, c, hrun, ?_⟩
            · simp [reached, config, result]
            · simp [reached, taken, config]

def Results (machine : StateMachine γ) (events : List Text) (r : StateMachineResult γ) : Prop :=
  ∃ context visited executed c,
    machine.Performs (machine.entries machine.definition.initial) machine.definition.context
      context ∧
    machine.Run ⟨machine.definition.initial, context⟩ events visited executed c ∧
    r = {
      finalState := c.state
      context := c.context
      history := machine.definition.initial :: visited
      actionsExecuted :=
        (machine.entries machine.definition.initial ++ executed).map machine.reported }

theorem executeNew_ok_iff :
    (∃ d, machine.executeNew events = .ok r d) ↔ machine.Results events r := by
  simp only [executeNew, runEntry_eq, run_bind_ok_iff]
  constructor
  · rintro ⟨d, ⟨⟩, between, hentry, hexecute⟩
    obtain ⟨context, hperforms, rfl⟩ := executeActions_ok_iff.mp hentry
    obtain ⟨rfl, visited, executed, c, hrun, rfl⟩ := execute_ok_iff.mp hexecute
    exact ⟨context, visited, executed, c, hperforms, hrun, by simp [result, reached, after, start]⟩
  · rintro ⟨context, visited, executed, c, hperforms, hrun, rfl⟩
    refine ⟨_, ⟨⟩, _, executeActions_ok_iff.mpr ⟨context, hperforms, rfl⟩,
      execute_ok_iff.mpr ⟨?_, visited, executed, c, hrun, rfl⟩⟩
    simp [result, reached, after, start]

theorem Results.history (h : machine.Results events r) :
    r.history.head? = some machine.definition.initial ∧
      r.history.getLast? = some r.finalState := by
  obtain ⟨context, visited, executed, c, -, hrun, rfl⟩ := h
  exact ⟨rfl, hrun.last⟩

def idle : StateMachine PUnit where
  definition :=
    { initial := "idle".toList, context := ⟨⟩, states := Dict.ofList [("idle".toList, {})] }

end StateMachine

end Agent33.Workflows.Statechart
