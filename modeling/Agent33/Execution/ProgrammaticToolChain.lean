import Agent33.Library.History
import Agent33.Tools.Governance

/-!
# Programmatic tool calls

A script runs in a process of its own and calls tools over connections. Each connection is
handled by a task that nothing waits for; the script may end, or its time may run out,
between any two steps of any of them.
-/

namespace Agent33.Execution

open Library Tools

/-- What `json.loads` comes to: a value, a `JSONDecodeError`, or another exception. -/
inductive Loaded
  | value (value : Json)
  | decodeError
  | raises

structure Codecs where
  decode : List UInt8 → Text
  decode_eq_nil : ∀ bytes, decode bytes = [] ↔ bytes = []
  loads : Text → Loaded
  str : Json → Text

structure PTCExecutor where
  codecs : Codecs
  secret : String
  allowedTools : List String
  maxCalls : ℤ := 50

structure Response where
  success : Bool
  output : Option Text := none
  error : Text

inductive Outcome
  | returned (value : ToolResult)
  | raises (message : Text)
  | cancelled

def Outcome.response? : Outcome → Option Response
  | .returned value => some ⟨value.success, some value.output, value.error⟩
  | .raises message =>
    some { success := false, error := "Tool execution error: ".toList ++ message }
  | .cancelled => none

inductive Phase
  | reading
  | executing (tool : String) (params : Json)
  | sending (response : Response)
  | closed

structure Connection where
  received : List UInt8 := []
  phase : Phase := .reading
  responses : List Response := []

structure ToolExecution where
  request : Json
  tool : String
  params : Json

structure ToolCallRecord where
  tool : String
  params : Json
  result : Response

/-- A run of the executor: its shared state, the connections in the order in which they
were accepted, whether more are accepted, and the number of calls that was reported. -/
structure PTCRun where
  callCount : ℕ := 0
  toolResults : List ToolCallRecord := []
  started : List ToolExecution := []
  registry : List String := []
  connections : List Connection := []
  accepting : Bool := true
  reported : Option ℕ := none

inductive PTCEvent
  | register (tools : List String)
  | accept
  | receive (i : ℕ) (chunk : List UInt8)
  /-- The other side has sent all it sends, or the connection was reset. -/
  | requestEnds (i : ℕ)
  | toolEnds (i : ℕ) (outcome : Outcome)
  | sent (i : ℕ) (delivered : Bool)
  | scriptExits
  | returns
  | timesOut

namespace PTCExecutor

variable (executor : PTCExecutor)

def refused (message : Text) : Response := { success := false, error := message }

def secretMatches (request : Json) : Bool :=
  match request.field? "secret" with
  | some (.str secret) => secret = executor.secret
  | _ => false

def toolOf (request : Json) : Json := (request.field? "tool").getD (.str "")

def paramsOf (request : Json) : Json := (request.field? "params").getD (.obj [])

def allowedTool? (request : Json) : Option String :=
  match toolOf request with
  | .str tool => if tool ∈ executor.allowedTools then some tool else none
  | _ => none

def calledTool? (s : PTCRun) (request : Json) : Option String :=
  if executor.secretMatches request ∧ s.callCount < executor.maxCalls then
    executor.allowedTool? request
  else none

def refusal (s : PTCRun) (request : Json) : Response :=
  if ¬ executor.secretMatches request then refused "Authentication failed".toList
  else if executor.maxCalls ≤ s.callCount then
    refused ("Tool call limit exceeded (".toList ++
      executor.codecs.str (.int executor.maxCalls) ++ [')'])
  else
    refused ("Tool '".toList ++ executor.codecs.str (toolOf request) ++
      "' is not in the allowed PTC tools".toList)

def dispatch (s : PTCRun) (request : Json) : PTCRun × Phase :=
  match executor.calledTool? s request with
  | none => (s, .sending (executor.refusal s request))
  | some tool =>
    let params := paramsOf request
    let counted := { s with callCount := s.callCount + 1 }
    if tool ∈ s.registry then
      ({ counted with started := s.started ++ [⟨request, tool, params⟩] },
        .executing tool params)
    else
      let response := refused ("Tool '".toList ++ tool.toList ++ "' not found in registry".toList)
      ({ counted with toolResults := s.toolResults ++ [⟨tool, params, response⟩] },
        .sending response)

/-- A request as it is when all of it was read. A value that is no object has no `get`. -/
def handleRequest (s : PTCRun) (received : List UInt8) : PTCRun × Phase :=
  let raw := executor.codecs.decode received
  if raw = [] then (s, .closed)
  else
    match executor.codecs.loads raw with
    | .decodeError => (s, .sending (refused "Invalid JSON request".toList))
    | .raises => (s, .closed)
    | .value request => if request.isObj then executor.dispatch s request else (s, .closed)

def setConnection (s : PTCRun) (i : ℕ) (connection : Connection) : PTCRun :=
  { s with connections := s.connections.set i connection }

def step (s : PTCRun) : PTCEvent → PTCRun
  | .register tools => { s with registry := tools }
  | .accept => if s.accepting then { s with connections := s.connections ++ [{}] } else s
  | .receive i chunk =>
    match s.connections[i]? with
    | some ⟨received, .reading, responses⟩ =>
      setConnection s i ⟨received ++ chunk, .reading, responses⟩
    | _ => s
  | .requestEnds i =>
    match s.connections[i]? with
    | some ⟨received, .reading, responses⟩ =>
      let handled := executor.handleRequest s received
      setConnection handled.1 i ⟨received, handled.2, responses⟩
    | _ => s
  | .toolEnds i outcome =>
    match s.connections[i]? with
    | some ⟨received, .executing tool params, responses⟩ =>
      match outcome.response? with
      | none => setConnection s i ⟨received, .closed, responses⟩
      | some response =>
        setConnection { s with toolResults := s.toolResults ++ [⟨tool, params, response⟩] } i
          ⟨received, .sending response, responses⟩
    | _ => s
  | .sent i delivered =>
    match s.connections[i]? with
    | some ⟨received, .sending response, responses⟩ =>
      setConnection s i
        ⟨received, .closed, if delivered then responses ++ [response] else responses⟩
    | _ => s
  | .scriptExits => if s.reported = none then { s with accepting := false } else s
  | .returns =>
    if s.reported = none ∧ s.accepting = false then { s with reported := some s.callCount } else s
  | .timesOut => if s.reported = none then { s with reported := some s.callCount } else s

def execute (registry : List String) (valid : Bool) : PTCRun :=
  if valid then { registry } else { registry, accepting := false, reported := some 0 }

end PTCExecutor

end Agent33.Execution

/-!
## Bounded and accounted calls

A connection checks the limit and counts its call in one step, so that the bound holds in
every run. That each request is answered and each counted call is an execution that is over
when the run returns depends on what the steps find.
-/

namespace Agent33.Execution

open Library

namespace PTCExecutor

variable (executor : PTCExecutor)

/-- A connection has one answer once it is closed, unless nothing was sent on it, and none
before. -/
def Connection.Answered (c : Connection) : Prop :=
  match c.phase with
  | .closed => c.responses.length = if c.received = [] then 0 else 1
  | .reading => c.responses = []
  | _ => c.responses = [] ∧ c.received ≠ []

def Connection.Executing (c : Connection) : Prop := ∃ tool params, c.phase = .executing tool params

structure Accounted (s : PTCRun) : Prop where
  bounded : s.started.length ≤ executor.maxCalls.toNat
  authorised : ∀ execution ∈ s.started, execution.tool ∈ executor.allowedTools ∧
    executor.secretMatches execution.request = true
  answered : ∀ c ∈ s.connections, Connection.Answered c
  reported : ∀ n, s.reported = some n →
    n = s.started.length ∧ ∀ c ∈ s.connections, ¬ Connection.Executing c

/-- A request that is answered: it is no JSON text or an object, and if it comes to call a
tool, then that tool is registered exactly while the run has not returned. -/
def Answerable (s : PTCRun) (received : List UInt8) : Prop :=
  match executor.codecs.loads (executor.codecs.decode received) with
  | .decodeError => True
  | .raises => False
  | .value request => request.isObj = true ∧
      ∀ tool, executor.calledTool? s request = some tool →
        (tool ∈ s.registry ↔ s.reported = none)

def Orderly (s : PTCRun) : PTCEvent → Prop
  | .requestEnds i => ∀ c, s.connections[i]? = some c → c.phase = .reading → c.received ≠ [] →
      executor.Answerable s c.received
  | .toolEnds i outcome => ∀ c, s.connections[i]? = some c → Connection.Executing c →
      outcome.response?.isSome = true
  | .sent i delivered => ∀ c, s.connections[i]? = some c →
      (∃ response, c.phase = .sending response) → delivered = true
  | .returns => s.accepting = false → s.reported = none →
      ∀ c ∈ s.connections, ¬ Connection.Executing c
  | .timesOut => s.reported = none → ∀ c ∈ s.connections, ¬ Connection.Executing c
  | _ => True

structure Bounded (s : PTCRun) : Prop where
  counted : s.callCount ≤ executor.maxCalls.toNat
  started : s.started.length ≤ s.callCount
  authorised : ∀ execution ∈ s.started, execution.tool ∈ executor.allowedTools ∧
    executor.secretMatches execution.request = true

structure Kept (s : PTCRun) : Prop where
  answered : ∀ c ∈ s.connections, Connection.Answered c
  running : s.reported = none → s.callCount = s.started.length
  reported : ∀ n, s.reported = some n →
    n = s.started.length ∧ ∀ c ∈ s.connections, ¬ Connection.Executing c

variable {executor}

variable {s : PTCRun}

theorem Kept.accounted (h : Kept s) (hbounded : executor.Bounded s) : executor.Accounted s where
  bounded := hbounded.started.trans hbounded.counted
  authorised := hbounded.authorised
  answered := h.answered
  reported := h.reported

theorem calledTool?_eq_some (h : executor.calledTool? s request = some tool) :
    executor.secretMatches request = true ∧ (s.callCount : ℤ) < executor.maxCalls ∧
      tool ∈ executor.allowedTools := by
  unfold calledTool? allowedTool? at h
  split_ifs at h with hcalls
  split at h
  · split_ifs at h with hallowed
    rw [← Option.some.inj h]
    exact ⟨hcalls.1, hcalls.2, hallowed⟩
  · cases h

theorem answerable_of_value
    (hloaded : executor.codecs.loads (executor.codecs.decode received) = .value request)
    (hobj : request.isObj = true)
    (hcalled : ∀ tool, executor.calledTool? s request = some tool →
      (tool ∈ s.registry ↔ s.reported = none)) :
    executor.Answerable s received := by
  unfold Answerable
  rw [hloaded]
  exact ⟨hobj, hcalled⟩

section

variable (h : executor.Bounded s)
include h

theorem Bounded.dispatch (request : Json) : executor.Bounded (executor.dispatch s request).1 := by
  unfold PTCExecutor.dispatch
  cases htool : executor.calledTool? s request with
  | none => exact h
  | some tool =>
    obtain ⟨hsecret, hlimit, hallowed⟩ := calledTool?_eq_some htool
    have hcount : s.callCount + 1 ≤ executor.maxCalls.toNat := by omega
    dsimp only
    split_ifs with hregistered
    · refine ⟨hcount, ?_, ?_⟩
      · rw [List.length_append, List.length_singleton]
        exact Nat.succ_le_succ h.started
      · intro execution hexecution
        rcases List.mem_append.mp hexecution with hold | hnew
        · exact h.authorised execution hold
        · rw [List.mem_singleton.mp hnew]
          exact ⟨hallowed, hsecret⟩
    · exact ⟨hcount, h.started.trans (Nat.le_succ _), h.authorised⟩

theorem Bounded.handleRequest (received : List UInt8) :
    executor.Bounded (executor.handleRequest s received).1 := by
  unfold PTCExecutor.handleRequest
  dsimp only
  split_ifs
  · exact h
  · split
    · exact h
    · exact h
    · split_ifs
      · exact h.dispatch _
      · exact h

theorem Bounded.congr (hcount : t.callCount = s.callCount)
    (hstarted : t.started = s.started) : executor.Bounded t := by
  refine ⟨?_, ?_, ?_⟩
  · rw [hcount]
    exact h.counted
  · rw [hcount, hstarted]
    exact h.started
  · rw [hstarted]
    exact h.authorised

theorem Bounded.step (event : PTCEvent) : executor.Bounded (executor.step s event) := by
  cases event with
  | requestEnds i =>
    unfold PTCExecutor.step
    dsimp only
    split
    · exact (h.handleRequest _).congr rfl rfl
    · exact h
  | register tools => exact h.congr rfl rfl
  | toolEnds i outcome =>
    unfold PTCExecutor.step
    dsimp only
    split
    · split <;> exact h.congr rfl rfl
    · exact h
  | accept | receive i chunk | sent i delivered | scriptExits | returns | timesOut =>
    unfold PTCExecutor.step
    dsimp only
    split <;> exact h.congr rfl rfl

end

theorem bounded_execute (executor : PTCExecutor) (registry : List String) (valid : Bool) :
    executor.Bounded (execute registry valid) := by
  cases valid <;> exact ⟨Nat.zero_le _, le_rfl, nofun⟩

theorem bounded_run (executor : PTCExecutor) (registry : List String) (valid : Bool)
    (events : List PTCEvent) :
    History.Along executor.step (fun s event => executor.Bounded (executor.step s event))
      (execute registry valid) events :=
  History.along_of_invariant (I := executor.Bounded) (fun _ event h => Bounded.step h event)
    (fun _ event h => Bounded.step h event) (executor.bounded_execute registry valid) events

section

variable (h : Kept s)
include h

theorem Kept.setConnection (i : ℕ) (hanswered : Connection.Answered c)
    (hover : ∀ n, s.reported = some n → ¬ Connection.Executing c) :
    Kept (PTCExecutor.setConnection s i c) := by
  have hmem : ∀ other ∈ (PTCExecutor.setConnection s i c).connections,
      other = c ∨ other ∈ s.connections :=
    fun _ hother => (List.mem_or_eq_of_mem_set hother).symm
  refine ⟨?_, h.running, ?_⟩
  · intro other hother
    rcases hmem other hother with rfl | hold
    · exact hanswered
    · exact h.answered other hold
  · intro n hn
    refine ⟨(h.reported n hn).1, ?_⟩
    intro other hother
    rcases hmem other hother with rfl | hold
    · exact hover n hn
    · exact (h.reported n hn).2 other hold

theorem Kept.addResult (record : ToolCallRecord) :
    Kept { s with toolResults := s.toolResults ++ [record] } :=
  ⟨h.answered, h.running, h.reported⟩

theorem Kept.dispatch (hcalled : ∀ tool, executor.calledTool? s request = some tool →
      (tool ∈ s.registry ↔ s.reported = none)) :
    Kept (executor.dispatch s request).1 ∧
      (executor.dispatch s request).2 ≠ .closed ∧
      ∀ n, (executor.dispatch s request).1.reported = some n →
        ∀ tool params, (executor.dispatch s request).2 ≠ .executing tool params := by
  unfold PTCExecutor.dispatch
  cases htool : executor.calledTool? s request with
  | none => exact ⟨h, nofun, fun _ _ _ _ => nofun⟩
  | some tool =>
    have hiff := hcalled tool htool
    dsimp only
    split_ifs with hregistered
    · have hnone := hiff.mp hregistered
      refine ⟨⟨h.answered, ?_, ?_⟩, nofun, ?_⟩
      · intro _
        rw [List.length_append, List.length_singleton]
        exact congrArg Nat.succ (h.running hnone)
      · intro n hn
        cases hnone.symm.trans hn
      · intro n hn
        cases hnone.symm.trans hn
    · refine ⟨⟨h.answered, ?_, h.reported⟩, nofun, fun _ _ _ _ => nofun⟩
      intro hnone
      exact absurd (hiff.mpr hnone) hregistered

theorem Kept.handleRequest (hanswerable : received ≠ [] → executor.Answerable s received) :
    Kept (executor.handleRequest s received).1 ∧
      ((executor.handleRequest s received).2 = .closed ↔ received = []) ∧
      ∀ n, (executor.handleRequest s received).1.reported = some n →
        ∀ tool params, (executor.handleRequest s received).2 ≠ .executing tool params := by
  unfold PTCExecutor.handleRequest
  dsimp only
  split_ifs with hempty
  · have hnil := (executor.codecs.decode_eq_nil received).mp hempty
    exact ⟨h, iff_of_true rfl hnil, fun _ _ _ _ => nofun⟩
  · have hne : received ≠ [] := mt (executor.codecs.decode_eq_nil received).mpr hempty
    have hload := hanswerable hne
    unfold Answerable at hload
    cases hloaded : executor.codecs.loads (executor.codecs.decode received) with
    | decodeError => exact ⟨h, iff_of_false nofun hne, fun _ _ _ _ => nofun⟩
    | raises =>
      rw [hloaded] at hload
      exact hload.elim
    | value request =>
      rw [hloaded] at hload
      dsimp only
      rw [if_pos hload.1]
      obtain ⟨hkept, hopen, hover⟩ := h.dispatch hload.2
      exact ⟨hkept, iff_of_false hopen hne, hover⟩

theorem Kept.append : Kept { s with connections := s.connections ++ [{}] } := by
  refine ⟨?_, h.running, ?_⟩
  · intro c hc
    rcases List.mem_append.mp hc with hold | hnew
    · exact h.answered c hold
    · rw [List.mem_singleton.mp hnew]
      rfl
  · intro n hn
    refine ⟨(h.reported n hn).1, ?_⟩
    intro c hc
    rcases List.mem_append.mp hc with hold | hnew
    · exact (h.reported n hn).2 c hold
    · rw [List.mem_singleton.mp hnew]
      rintro ⟨tool, params, hphase⟩
      cases hphase

theorem Kept.report (hnone : s.reported = none)
    (hover : ∀ c ∈ s.connections, ¬ Connection.Executing c) :
    Kept { s with reported := some s.callCount } := by
  refine ⟨h.answered, nofun, ?_⟩
  intro n hn
  rw [Option.some.injEq] at hn
  exact ⟨hn ▸ h.running hnone, hover⟩

theorem Kept.step (horderly : executor.Orderly s event) : Kept (executor.step s event) := by
  cases event with
  | register tools =>
    exact ⟨h.answered, h.running, h.reported⟩
  | accept =>
    unfold PTCExecutor.step
    dsimp only
    split_ifs
    · exact h.append
    · exact h
  | receive i chunk =>
    unfold PTCExecutor.step
    dsimp only
    split
    · rename_i received responses hget
      have hanswered := h.answered _ (List.mem_of_getElem? hget)
      exact h.setConnection i hanswered fun _ _ => nofun
    · exact h
  | requestEnds i =>
    unfold PTCExecutor.step
    dsimp only
    split
    · rename_i received responses hget
      have hanswered : responses = [] := h.answered _ (List.mem_of_getElem? hget)
      obtain ⟨hkept, hclosed, hover⟩ :=
        h.handleRequest fun hne => horderly _ hget rfl hne
      refine hkept.setConnection i ?_ ?_
      · unfold Connection.Answered
        dsimp only
        split
        · rename_i hphase
          rw [if_pos (hclosed.mp hphase), hanswered, List.length_nil]
        · exact hanswered
        · rename_i hphase _
          exact ⟨hanswered, mt hclosed.mpr hphase⟩
      · intro n hn
        rintro ⟨tool, params, hphase⟩
        exact hover n hn tool params hphase
    · exact h
  | toolEnds i outcome =>
    unfold PTCExecutor.step
    dsimp only
    split
    · rename_i received tool params responses hget
      have hanswered : responses = [] ∧ received ≠ [] :=
        h.answered _ (List.mem_of_getElem? hget)
      have hsome := horderly _ hget ⟨tool, params, rfl⟩
      cases hresponse : outcome.response? with
      | none =>
        rw [hresponse] at hsome
        cases hsome
      | some response =>
        exact (h.addResult _).setConnection i hanswered fun _ _ => nofun
    · exact h
  | sent i delivered =>
    unfold PTCExecutor.step
    dsimp only
    split
    · rename_i received response responses hget
      have hanswered : responses = [] ∧ received ≠ [] :=
        h.answered _ (List.mem_of_getElem? hget)
      have hdelivered : delivered = true := horderly _ hget ⟨response, rfl⟩
      refine h.setConnection i ?_ fun _ _ => nofun
      unfold Connection.Answered
      dsimp only
      rw [if_pos hdelivered, if_neg hanswered.2, hanswered.1]
      rfl
    · exact h
  | scriptExits =>
    unfold PTCExecutor.step
    dsimp only
    split_ifs
    · exact ⟨h.answered, h.running, h.reported⟩
    · exact h
  | returns =>
    unfold PTCExecutor.step
    dsimp only
    split_ifs with hready
    · exact h.report hready.1 (horderly hready.2 hready.1)
    · exact h
  | timesOut =>
    unfold PTCExecutor.step
    dsimp only
    split_ifs with hnone
    · exact h.report hnone (horderly hnone)
    · exact h

end

theorem kept_execute (registry : List String) (valid : Bool) : Kept (execute registry valid) := by
  cases valid with
  | true => exact ⟨nofun, fun _ => rfl, fun n hn => by cases hn⟩
  | false =>
    refine ⟨nofun, fun _ => rfl, fun n hn => ?_⟩
    cases hn
    exact ⟨rfl, nofun⟩

/-- In a run whose steps are all orderly, the calls are bounded, authorised, answered and
accounted for in every state. -/
theorem accounted_along_of_orderly (executor : PTCExecutor) (registry : List String) (valid : Bool)
    (events : List PTCEvent)
    (h : History.Along executor.step executor.Orderly (execute registry valid) events) :
    History.Along executor.step (fun s event => executor.Accounted (executor.step s event))
      (execute registry valid) events :=
  History.Along.imp (I := Kept) (fun _ _ hs horderly _ => hs.step horderly)
    (fun _ _ hs horderly hbounded => (hs.step horderly).accounted hbounded)
    (kept_execute registry valid) h (executor.bounded_run registry valid events)

def requestText : Text := "\x7b\"secret\": \"5f1e\", \"tool\": \"read_file\"\x7d".toList

def requestBytes : List UInt8 := requestText.map fun c => UInt8.ofNat c.toNat

def sampleCodecs : Codecs where
  decode bytes := bytes.map fun byte => Char.ofNat byte.toNat
  decode_eq_nil _ := List.map_eq_nil_iff
  loads text :=
    if text = requestText then
      .value (.obj [("secret", .str "5f1e"), ("tool", .str "read_file")])
    else .decodeError
  str _ := "50".toList

def sampleExecutor : PTCExecutor where
  codecs := sampleCodecs
  secret := "5f1e"
  allowedTools := ["read_file", "shell"]

def sampleEvents : List PTCEvent := [.accept, .receive 0 requestBytes, .requestEnds 0]

theorem loads_requestBytes :
    sampleExecutor.codecs.loads (sampleExecutor.codecs.decode requestBytes) =
      .value (.obj [("secret", .str "5f1e"), ("tool", .str "read_file")]) := by
  have hdecode : sampleExecutor.codecs.decode requestBytes = requestText := by decide +kernel
  rw [hdecode]
  rfl

/-- The time runs out while the tool is executed: the execution goes on. -/
theorem not_accounted_of_slow_tool :
    ¬ sampleExecutor.Accounted
      ((sampleEvents ++ [PTCEvent.timesOut]).foldl sampleExecutor.step
        (execute ["read_file"] true)) := by
  intro h
  refine (h.reported 1 ?_).2 ⟨requestBytes, .executing "read_file" (.obj []), []⟩ ?_ ⟨_, _, rfl⟩
  · rfl
  · exact List.mem_of_getElem? (i := 0) rfl

theorem accounted_along_of_orderly_sample :
    History.Along sampleExecutor.step
      (fun s event => sampleExecutor.Accounted (sampleExecutor.step s event))
      (execute ["read_file"] true) (sampleEvents ++
        [.toolEnds 0 (.returned (.ok [])), .sent 0 true, .scriptExits, .returns]) := by
  refine accounted_along_of_orderly sampleExecutor ["read_file"] true _
    ⟨trivial, trivial, ?_, ?_, ?_, trivial, ?_, trivial⟩
  · intro c hc _ _
    cases hc
    refine answerable_of_value loads_requestBytes rfl ?_
    intro tool htool
    cases htool
    decide
  · intro c _ _
    rfl
  · intro c _ _
    rfl
  · intro _ _ c hc
    rw [List.mem_singleton.mp hc]
    rintro ⟨tool, params, hphase⟩
    cases hphase

end PTCExecutor

end Agent33.Execution
