import Agent33.Workflows.RunArchive

/-!
# Pages of an archived log

A page begins after a number of lines and ends after a number of events. It is the slice of the
events when the lines before it are events, and when it is asked for at least one event: the
length of the page is looked at only after an event was taken.
-/

namespace Agent33.Workflows.RunArchive

open Library Library.LineLog List Option

def event? (python : Python) (rawLine : Text) : Option Json :=
  if Text.strip rawLine = [] then none
  else (python.jsonLoads (Text.strip rawLine)).filter Json.isObj

def Readable (python : Python) (ls : List Text) : Prop :=
  ∀ rawLine ∈ ls, Text.strip rawLine = [] ∨ python.jsonLoads (Text.strip rawLine) ≠ none

variable {python : Python} {ls : List Text} {events : List Json}

section

variable (hline : Text.strip rawLine ≠ [])
  (hloads : python.jsonLoads (Text.strip rawLine) = some payload)
include hline hloads

theorem event?_of_loads : event? python rawLine = if payload.isObj then some payload else none := by
  rw [event?, if_neg hline, hloads, filter_some]

theorem taken_append (taken : List Json) :
    (if payload.isObj then taken ++ [payload] else taken) =
      taken ++ (event? python rawLine).toList := by
  rw [event?_of_loads hline hloads]
  split_ifs <;> simp

end

theorem listFrom_none_eq_ok_iff (taken : List Json) :
    listFrom python none ls taken = .ok events ↔
      Readable python ls ∧ events = taken ++ ls.filterMap (event? python) := by
  induction ls generalizing taken with
  | nil =>
    rw [listFrom, filterMap_nil, append_nil]
    constructor
    · intro h
      exact ⟨forall_mem_nil _, (Except.ok.inj h).symm⟩
    · rintro ⟨-, rfl⟩
      rfl
  | cons rawLine rest ih =>
    rw [listFrom]
    by_cases hline : Text.strip rawLine = []
    · rw [if_pos hline, ih]
      simp [Readable, event?, hline]
    · rw [if_neg hline]
      cases hloads : python.jsonLoads (Text.strip rawLine) with
      | none => simp [Readable, hline, hloads]
      | some payload =>
        dsimp only
        rw [ih, taken_append hline hloads]
        have hfilter : (rawLine :: rest).filterMap (event? python) =
            (event? python rawLine).toList ++ rest.filterMap (event? python) := by
          rw [filterMap_cons]
          cases event? python rawLine <;> rfl
        rw [hfilter, append_assoc]
        simp [Readable, hloads]

theorem listFrom_some (hread : Readable python ls) (taken : List Json)
    (hlimit : taken.length < limit) : listFrom python (some limit) ls taken =
      .ok (taken ++ (ls.filterMap (event? python)).take (limit - taken.length)) := by
  induction ls generalizing taken with
  | nil => simp [listFrom]
  | cons rawLine rest ih =>
    have hrest : Readable python rest := fun l hl => hread l (mem_cons_of_mem _ hl)
    rw [listFrom]
    by_cases hline : Text.strip rawLine = []
    · rw [if_pos hline, ih hrest taken hlimit]
      simp [event?, hline]
    · rw [if_neg hline]
      cases hloads : python.jsonLoads (Text.strip rawLine) with
      | none => exact absurd hloads ((hread rawLine mem_cons_self).resolve_left hline)
      | some payload =>
        dsimp only
        rw [taken_append hline hloads, filterMap_cons]
        cases event? python rawLine with
        | none =>
          have hmore : ¬ (limit : ℕ) ≤ taken.length := by omega
          simp [hmore, ih hrest taken hlimit]
        | some e =>
          by_cases hfull : limit ≤ taken.length + 1
          · have hone : limit - taken.length = 1 := by omega
            simp [hone]
            omega
          · have hnext := ih hrest (taken ++ [e]) (by simp; omega)
            have hmore : limit - taken.length = limit - (taken.length + 1) + 1 := by omega
            simp [hmore, hnext]
            omega

theorem listFrom_zero (hread : Readable python ls) : listFrom python (some 0) ls [] =
    .ok ((ls.find? fun rawLine => Text.strip rawLine ≠ []).bind (event? python)).toList := by
  induction ls with
  | nil => rfl
  | cons rawLine rest ih =>
    have hrest : Readable python rest := fun l hl => hread l (mem_cons_of_mem _ hl)
    rw [listFrom]
    by_cases hline : Text.strip rawLine = []
    · rw [if_pos hline, ih hrest]
      simp [hline]
    · rw [if_neg hline]
      cases hloads : python.jsonLoads (Text.strip rawLine) with
      | none => exact absurd hloads ((hread rawLine mem_cons_self).resolve_left hline)
      | some payload =>
        dsimp only
        rw [taken_append hline hloads, if_pos ⟨Int.le_refl 0, by simp⟩]
        simp [hline]

section Slices

variable {runtime : Runtime} {archive : Archive} {runId : Text}

def logLines (archive : Archive) (runId : Text) : List Text :=
  match validateRunId runId with
  | .error _ => []
  | .ok safeRunId => (archive.getD safeRunId {}).eventLines

theorem listEvents_eq (limit : Option Int) (offset : ℕ)
    (hall : listEvents runtime archive runId 0 none = .ok events) :
    listEvents runtime archive runId offset limit =
      listFrom runtime.python limit ((logLines archive runId).drop offset) [] := by
  rw [listEvents] at hall ⊢
  rw [logLines]
  cases hid : validateRunId runId with
  | error e =>
    rw [hid] at hall
    cases hall
  | ok safeRunId =>
    dsimp only [RunDir.eventLines]
    cases hlog : (archive.getD safeRunId {}).events with
    | none => simp [lines, Text.universalNewlines, linesFrom, listFrom]
    | some log => simp

/-- The window of the lines shows the slice of the events: for a page of no events the first line
of the window that is not blank holds no event; for another one as many events as lines are
before the window, or all of them, or they repeat themselves. -/
def Aligned (python : Python) (ls : List Text) (events : List Json) (offset limit : ℕ) : Prop :=
  if limit = 0 then
    ((ls.drop offset).find? fun rawLine => Text.strip rawLine ≠ []).bind (event? python) = none
  else
    let before := ((ls.take offset).filterMap (event? python)).length
    before = offset ∨ before = events.length ∨ (offset + limit ≤ events.length ∧
      ∀ i < limit, events[before + i]? = events[offset + i]?)

def IsSlice (runtime : Runtime) (archive : Archive) (runId : Text) (events : List Json)
    (offset limit : ℕ) : Prop :=
  listEvents runtime archive runId offset (some limit) = .ok ((events.drop offset).take limit)

theorem isSlice_iff (hall : listEvents runtime archive runId 0 none = .ok events)
    (offset limit : ℕ) :
    IsSlice runtime archive runId events offset limit ↔
      Aligned runtime.python (logLines archive runId) events offset limit := by
  have hfull := (listEvents_eq none 0 hall).symm.trans hall
  rw [drop_zero, listFrom_none_eq_ok_iff, nil_append] at hfull
  obtain ⟨hread, hevents⟩ := hfull
  have hrest : Readable runtime.python ((logLines archive runId).drop offset) :=
    fun l hl => hread l (mem_of_mem_drop hl)
  rw [IsSlice, listEvents_eq (some limit) offset hall, Aligned]
  split_ifs with hlimit
  · subst hlimit
    rw [Int.ofNat_zero, listFrom_zero hrest, take_zero, Except.ok.injEq]
    simp
  · have hpos : 0 < limit := Nat.pos_of_ne_zero hlimit
    have hsplit : events = ((logLines archive runId).take offset).filterMap (event? runtime.python)
        ++ ((logLines archive runId).drop offset).filterMap (event? runtime.python) := by
      rw [← filterMap_append, take_append_drop, hevents]
    have hwindow : ((logLines archive runId).drop offset).filterMap (event? runtime.python) =
        events.drop (((logLines archive runId).take offset).filterMap
          (event? runtime.python)).length := by
      rw [hsplit, drop_left]
    have hbefore : (((logLines archive runId).take offset).filterMap
        (event? runtime.python)).length ≤ offset :=
      (length_filterMap_le _ _).trans (length_take_le _ _)
    have hlength : (((logLines archive runId).take offset).filterMap
        (event? runtime.python)).length ≤ events.length := by
      conv_rhs => rw [hsplit, length_append]
      exact Nat.le_add_right _ _
    rw [listFrom_some hrest [] hpos, Except.ok.injEq, nil_append, length_nil,
      Nat.sub_zero, hwindow]
    exact window_eq_iff hbefore hlength hpos

theorem aligned_of_events
    (hevents : events = (logLines archive runId).filterMap (event? runtime.python))
    (hlines : ∀ rawLine ∈ logLines archive runId, event? runtime.python rawLine ≠ none) (offset : ℕ)
    (hlimit : 0 < limit) :
    Aligned runtime.python (logLines archive runId) events offset limit := by
  have hcount {ls : List Text} (h : ∀ rawLine ∈ ls, event? runtime.python rawLine ≠ none) :
      (ls.filterMap (event? runtime.python)).length = ls.length := by
    induction ls with
    | nil => rfl
    | cons rawLine rest ih =>
      obtain ⟨e, he⟩ := ne_none_iff_exists'.mp (h rawLine mem_cons_self)
      rw [filterMap_cons, he, length_cons, length_cons,
        ih fun l hl => h l (mem_cons_of_mem _ hl)]
  rw [Aligned, if_neg (Nat.pos_iff_ne_zero.mp hlimit)]
  dsimp only
  rw [hevents, hcount hlines, hcount fun l hl => hlines l (mem_of_mem_take hl),
    length_take]
  omega

theorem pages_partition (hall : listEvents runtime archive runId 0 none = .ok events)
    (hlines : ∀ rawLine ∈ logLines archive runId, event? runtime.python rawLine ≠ none)
    (hlimit : 0 < limit) (hn : events.length ≤ n * limit) : ∃ page : ℕ → List Json,
      (∀ i, listEvents runtime archive runId (i * limit : ℕ) (some limit) = .ok (page i)) ∧
      (List.range n).flatMap page = events := by
  have hfull := (listEvents_eq none 0 hall).symm.trans hall
  rw [drop_zero, listFrom_none_eq_ok_iff, nil_append] at hfull
  refine ⟨fun i => (events.drop (i * limit)).take limit, ?_, ?_⟩
  · intro i
    exact (isSlice_iff hall (i * limit) limit).mpr
      (aligned_of_events hfull.2 hlines (i * limit) hlimit)
  · rw [flatMap_windows, take_of_length_le hn]

end Slices

/-- The counts agree with the logs in every run of the service in which no run with events is
started again; the pages are slices where they are aligned, and partition a log of events. -/
theorem counts_and_pages_iff (runtime : Runtime)
    (hline : ∀ v, OneLine (runtime.python.jsonDumpsSorted v)) :
    (∀ ops, AlwaysAgrees runtime ops ↔ NeverRestarts runtime ops) ∧
    ∀ archive runId events, listEvents runtime archive runId 0 none = .ok events →
      (∀ offset limit, IsSlice runtime archive runId events offset limit ↔
        Aligned runtime.python (logLines archive runId) events offset limit) ∧
      ((∀ rawLine ∈ logLines archive runId, event? runtime.python rawLine ≠ none) →
        ∀ limit n, 0 < limit → events.length ≤ n * limit → ∃ page : ℕ → List Json,
          (∀ i, listEvents runtime archive runId (i * limit : ℕ) (some limit) = .ok (page i)) ∧
          (List.range n).flatMap page = events) := by
  refine ⟨alwaysAgrees_iff hline, ?_⟩
  intro archive runId events hall
  refine ⟨isSlice_iff hall, ?_⟩
  intro hlines limit n hlimit hn
  exact pages_partition hall hlines hlimit hn

/-- What an event without fields is logged as in a run `r` of a workflow `w`. -/
def plainLine : Text :=
  "\x7b\"run_id\": \"r\", \"timestamp\": 0.0, \"workflow_name\": \"w\"\x7d".toList

def plainEvent : Json :=
  .obj [("run_id", .str "r"), ("timestamp", .float 0), ("workflow_name", .str "w")]

def plainRuntime : Runtime where
  python := { asciiPython [(plainLine, plainEvent)] with
    jsonDumpsSorted := fun _ => plainLine
    str := fun
      | .str s => s.toList
      | _ => [] }
  float
    | .float bits => .ok bits
    | _ => .error .typeError
  truncate _ := .ok 0
  normalizeExecutionRecord _ := .ok Dict.empty
  extractArtifacts _ _ manifest := .ok manifest

theorem oneLine_plainLine : OneLine plainLine := by
  have hall : plainLine.all (fun c => c != '\n' && c != '\r') = true := by decide
  intro c hc
  simpa using List.all_eq_true.mp hall c hc

def startAgain : List Op :=
  [.start ['r'] { workflowName := ['w'] } fun _ => 0,
    .append ['r'] (.mapping Dict.empty) fun _ => 0,
    .start ['r'] { workflowName := ['w'] } fun _ => 0]

def oneEvent : Archive :=
  startAgain.take 2 |>.foldl (History.next (step plainRuntime)) Dict.empty

theorem logOf_oneEvent : LogOf (oneEvent.getD ['r'] {}) [plainLine] :=
  ⟨rfl, fun _ hl => mem_singleton.mp hl ▸ oneLine_plainLine⟩

theorem restarts_oneEvent (start : RunStart) (clock : Clock) :
    Restarts oneEvent (.start ['r'] start clock) := by
  refine ⟨['r'], rfl, ?_⟩
  rw [logOf_oneEvent.eventLines]
  exact cons_ne_nil _ _

theorem strip_plainLine : Text.strip plainLine = plainLine := by decide

theorem loads_plainLine : plainRuntime.python.jsonLoads plainLine = some plainEvent := by
  simp [plainRuntime, asciiPython]

theorem event?_plainLine : event? plainRuntime.python plainLine = some plainEvent := by
  have hline : Text.strip plainLine ≠ [] := by
    rw [strip_plainLine]
    exact cons_ne_nil _ _
  have hloads : plainRuntime.python.jsonLoads (Text.strip plainLine) = some plainEvent := by
    rw [strip_plainLine, loads_plainLine]
  rw [event?_of_loads hline hloads]
  rfl

theorem listEvents_oneEvent : listEvents plainRuntime oneEvent ['r'] 0 none = .ok [plainEvent] := by
  have hid : validateRunId ['r'] = .ok ['r'] := rfl
  have hlog : (oneEvent.getD ['r'] {}).events = some (terminated [plainLine]) := rfl
  have hread : Readable plainRuntime.python [plainLine] := by
    intro rawLine hline
    rw [mem_singleton.mp hline, strip_plainLine, loads_plainLine]
    exact .inr (some_ne_none _)
  rw [listEvents, hid]
  dsimp only
  rw [hlog]
  dsimp only
  rw [lines_terminated fun l hl => mem_singleton.mp hl ▸ oneLine_plainLine]
  exact (listFrom_none_eq_ok_iff []).mpr ⟨hread, by simp [event?_plainLine]⟩

theorem not_counts_and_pages_plainRuntime :
    ¬ AlwaysAgrees plainRuntime startAgain ∧
      listEvents plainRuntime oneEvent ['r'] 0 none = .ok [plainEvent] ∧
      ¬ IsSlice plainRuntime oneEvent ['r'] [plainEvent] 0 0 := by
  have hall := listEvents_oneEvent
  have hlog : logLines oneEvent ['r'] = [plainLine] := logOf_oneEvent.eventLines
  refine ⟨?_, hall, ?_⟩
  · intro h
    exact ((alwaysAgrees_iff (fun _ => oneLine_plainLine) startAgain).mp h).2.2.1
      (restarts_oneEvent _ _)
  · have hline : Text.strip plainLine ≠ [] := by
      rw [strip_plainLine]
      exact cons_ne_nil _ _
    rw [isSlice_iff hall, Aligned, if_pos rfl, hlog, drop_zero,
      find?_cons_of_pos (by simpa using hline), bind_some, event?_plainLine]
    exact some_ne_none _

theorem counts_and_pages_iff_plainRuntime :
    (∀ ops, AlwaysAgrees plainRuntime ops ↔ NeverRestarts plainRuntime ops) ∧
    ∀ archive runId events, listEvents plainRuntime archive runId 0 none = .ok events →
      (∀ offset limit, IsSlice plainRuntime archive runId events offset limit ↔
        Aligned plainRuntime.python (logLines archive runId) events offset limit) ∧
      ((∀ rawLine ∈ logLines archive runId, event? plainRuntime.python rawLine ≠ none) →
        ∀ limit n, 0 < limit → events.length ≤ n * limit → ∃ page : ℕ → List Json,
          (∀ i, listEvents plainRuntime archive runId (i * limit : ℕ) (some limit) =
            .ok (page i)) ∧ (List.range n).flatMap page = events) :=
  counts_and_pages_iff plainRuntime fun _ => oneLine_plainLine

end Agent33.Workflows.RunArchive
