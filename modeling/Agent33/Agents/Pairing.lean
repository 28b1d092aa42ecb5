import Agent33.Agents.LoopInvariants
import Agent33.Library.Pairing

/-!
# Tool calls and their results in a conversation

A conversation is well paired when each tool result answers a call of the nearest
assistant message with calls before it, and each call is answered right after its
message. The loop adds whole groups of calls and results, so only the cuts of the
four ways to shorten a conversation can break the pairing.
-/

namespace Agent33.Agents

open Library Library.Hoare Library.Pairing Llm Tools Tools.Governance Autonomy Memory List
open EStateM

def toolDialogue : Dialogue ChatMessage Text where
  asks m := m.calls.map (·.id)
  answer m := if m.role = .tool then some m.toolCallId else none

abbrev WellPaired (messages : List ChatMessage) : Prop := toolDialogue.Paired messages

variable {W : Type} {messages : List ChatMessage} {m : ChatMessage}

theorem inert_of_calls (hcalls : m.calls = []) (htool : m.role ≠ .tool) : toolDialogue.Inert m :=
  ⟨map_eq_nil_iff.mpr hcalls, if_neg htool⟩

theorem inert_of_system (h : isSystem m = true) : toolDialogue.Inert m := by
  have hrole : m.role = .system := of_decide_eq_true h
  exact inert_of_calls (if_neg (by rw [hrole]; nofun)) (by rw [hrole]; nofun)

theorem inert_say {text : Text} (h : role ≠ .tool) : toolDialogue.Inert (.say role text) :=
  inert_of_calls (ite_self _) h

theorem inert_systemMessages (messages : List ChatMessage) :
    ∀ m ∈ systemMessages messages, toolDialogue.Inert m :=
  fun _ hm => inert_of_system (List.mem_filter.mp hm).2

theorem WellPaired.nonSystem (h : WellPaired messages) : WellPaired (nonSystem messages) :=
  Dialogue.PairedFrom.filter h fun m _ hm => inert_of_system (by simpa using hm)

theorem pairedFrom_toolMessages (loop : ToolLoop W) (opened : List Text) (calls : List ToolCall)
    (results : List ToolResult) (h : ∀ call ∈ calls, call.id ∈ opened) :
    toolDialogue.PairedFrom opened (List.zipWith loop.toolMessage calls results) := by
  induction calls generalizing results with
  | nil => trivial
  | cons call calls ih =>
    cases results with
    | nil => trivial
    | cons result results =>
      refine ⟨fun k hk => ?_, nofun, ih results fun c hc => h c (mem_cons_of_mem _ hc)⟩
      cases hk
      exact h call mem_cons_self

theorem answers_toolMessages (loop : ToolLoop W) (calls : List ToolCall) (results : List ToolResult)
    (hlength : calls.length ≤ results.length) :
    toolDialogue.answers (List.zipWith loop.toolMessage calls results) = calls.map (·.id) := by
  induction calls generalizing results with
  | nil => rfl
  | cons call calls ih =>
    cases results with
    | nil => cases hlength
    | cons result results =>
      exact congrArg (call.id :: ·) (ih results (Nat.le_of_succ_le_succ hlength))

theorem wellPaired_toolGroup (loop : ToolLoop W) (content : Text) (calls : List ToolCall)
    (results : List ToolResult) : WellPaired (loop.toolGroup content calls results) := by
  have hlength : (calls.take results.length).length ≤ results.length := length_take_le _ _
  refine ⟨nofun, fun k hk => ?_, ?_⟩
  · rw [answers_toolMessages loop _ _ hlength]
    exact hk
  · cases hcalls : calls.take results.length with
    | nil => trivial
    | cons call rest =>
      exact pairedFrom_toolMessages loop _ _ _ fun c hc => mem_map_of_mem hc

theorem inert_executeHandoff {ledger : Workflows.Handoff.StateLedger}
    (h : Workflows.Handoff.executeHandoff python ledger messages = .ok wiped) :
    ∀ m ∈ wiped, toolDialogue.Inert m := by
  cases messages with
  | nil =>
    cases h
    exact fun _ => nofun
  | cons first rest =>
    rw [Workflows.Handoff.executeHandoff] at h
    cases htext : ledger.serialize python with
    | error e =>
      rw [htext] at h
      cases h
    | ok text =>
      rw [htext] at h
      cases h
      intro m hm
      rcases mem_cons.mp hm with rfl | hm
      · split_ifs with hrole
        · exact inert_of_system (decide_eq_true hrole)
        · exact inert_say nofun
      · rw [mem_singleton.mp hm]
        exact inert_say nofun

theorem wellPaired_interceptHandoff {loop : ToolLoop W} (h : WellPaired messages) (call : ToolCall)
    (result : ToolResult) : WellPaired (loop.interceptHandoff messages call result) := by
  unfold ToolLoop.interceptHandoff
  split_ifs
  · split
    · exact h
    · dsimp only
      split
      · trivial
      · rename_i heq
        exact pairedFrom_of_inert (inert_executeHandoff heq)
  · exact h

def RequestsPaired (trace : List Act) : Prop :=
  ∀ model request, .llmCall model request ∈ trace → WellPaired request

def PairedRun : TraceProp := fun _ messages trace =>
  WellPaired messages ∧ RequestsPaired trace

theorem pairedRun_ignores (h : ∀ model request, act = .llmCall model request → WellPaired request) :
    Ignores PairedRun act := by
  rintro _ _ _ ⟨hmessages, htrace⟩
  refine ⟨hmessages, fun model request hmem => ?_⟩
  rcases mem_append.mp hmem with hmem | hmem
  · exact htrace model request hmem
  · exact h model request (mem_singleton.mp hmem).symm

theorem talks_pairedRun (loop : ToolLoop W) : Talks loop PairedRun where
  say role text hrole h := by
    refine ⟨Dialogue.PairedFrom.append h.1 (pairedFrom_of_inert fun m hm => ?_), h.2⟩
    rw [mem_singleton.mp hm]
    exact inert_say hrole
  group content calls results h :=
    ⟨Dialogue.PairedFrom.append h.1 (wellPaired_toolGroup loop content calls results), h.2⟩
  handoff call result h := ⟨wellPaired_interceptHandoff h.1 call result, h.2⟩
  call model h := pairedRun_ignores (fun _ _ heq => by cases heq; exact h.1) _ _ _ h
  request model system user := pairedRun_ignores fun _ _ heq => by
    cases heq
    refine pairedFrom_of_inert fun m hm => ?_
    rcases mem_cons.mp hm with rfl | hm
    · exact inert_say nofun
    · rw [mem_singleton.mp hm]
      exact inert_say nofun

/-- Cutting off the first `n` messages of the conversation leaves no tool result
before the first assistant message with calls. -/
def cleanCut (messages : List ChatMessage) (n : ℕ) : Bool :=
  decide (toolDialogue.Closed ((nonSystem messages).drop n))

theorem wellPaired_cut_iff (h : WellPaired messages) (n : ℕ) :
    WellPaired (systemMessages messages ++ (nonSystem messages).drop n) ↔
      cleanCut messages n = true := by
  have hsplit : toolDialogue.PairedFrom []
      ((nonSystem messages).take n ++ (nonSystem messages).drop n) := by
    rw [take_append_drop]
    exact h.nonSystem
  have hinert := inert_systemMessages messages
  rw [cleanCut, decide_eq_true_iff, ← hsplit.paired_rest_iff]
  refine ⟨fun hcut => ?_, pairedFrom_inert_append hinert⟩
  rw [hsplit.paired_rest_iff]
  have hclosed := (closed_append_of_inert hinert).mp (Dialogue.Paired.closed hcut)
  exact hclosed

section Eviction

variable {W : Type} (loop : ToolLoop W)

def totalTokens (messages : List ChatMessage) : ℕ := (messages.map loop.evictionTokens).sum

/-- The number of messages that do not fit into the budget, given the tokens of the
messages of the system. The last two stay. -/
def evictionCut (budgetTokens : Int) (systemTokens : ℕ) : List ChatMessage → ℕ
  | [] => 0
  | m :: rest =>
    if ((systemTokens + totalTokens loop (m :: rest) : ℕ) : Int) ≤ budgetTokens then 0
    else if rest.length ≤ 1 then 0
    else 1 + evictionCut budgetTokens systemTokens rest

theorem totalTokens_split (messages : List ChatMessage) :
    totalTokens loop messages =
      totalTokens loop (systemMessages messages) + totalTokens loop (nonSystem messages) := by
  induction messages with
  | nil => rfl
  | cons m rest ih =>
    rw [systemMessages, nonSystem, filter_cons, filter_cons]
    rw [systemMessages, nonSystem] at ih
    cases hm : isSystem m with
    | true =>
      simp only [totalTokens, Bool.not_true, if_true, Bool.false_eq_true, if_false, map_cons,
        sum_cons] at ih ⊢
      omega
    | false =>
      simp only [totalTokens, Bool.not_false, if_true, Bool.false_eq_true, if_false, map_cons,
        sum_cons] at ih ⊢
      omega

theorem exists_first_nonSystem (h : nonSystem messages ≠ []) :
    ∃ pre m rest, messages = pre ++ m :: rest ∧ (∀ x ∈ pre, isSystem x = true) ∧
      isSystem m = false := by
  induction messages with
  | nil => exact absurd rfl h
  | cons m rest ih =>
    cases hm : isSystem m with
    | false => exact ⟨[], m, rest, rfl, fun _ => nofun, hm⟩
    | true =>
      rw [nonSystem, filter_cons_of_neg (by simp [hm])] at h
      obtain ⟨pre, m', rest', rfl, hpre, hm'⟩ := ih h
      refine ⟨m :: pre, m', rest', rfl, fun x hx => ?_, hm'⟩
      rcases mem_cons.mp hx with rfl | hx
      · exact hm
      · exact hpre x hx

theorem eraseIdx_first {pre rest : List ChatMessage}
    (hpre : ∀ x ∈ pre, isSystem x = true) (hm : isSystem m = false) :
    (pre ++ m :: rest).eraseIdx ((pre ++ m :: rest).findIdx fun m => !isSystem m) =
      pre ++ rest := by
  induction pre with
  | nil => simp [findIdx_cons, hm]
  | cons x pre ih =>
    have hx := hpre x mem_cons_self
    rw [cons_append, findIdx_cons, hx, Bool.not_true, cond_false, eraseIdx_cons_succ,
      ih fun y hy => hpre y (mem_cons_of_mem _ hy), cons_append]

theorem systemMessages_first {pre rest : List ChatMessage} (hm : isSystem m = false) :
    systemMessages (pre ++ m :: rest) = systemMessages (pre ++ rest) := by
  simp [systemMessages, hm]

theorem nonSystem_first {pre rest : List ChatMessage}
    (hpre : ∀ x ∈ pre, isSystem x = true) (hm : isSystem m = false) :
    nonSystem (pre ++ m :: rest) = m :: nonSystem (pre ++ rest) := by
  have hnil : pre.filter (fun m => !isSystem m) = [] :=
    filter_eq_nil_iff.mpr fun x hx => by simp [hpre x hx]
  simp [nonSystem, hnil, hm]

theorem nonSystem_evictOldest (budgetTokens : Int) (hfuel : (nonSystem messages).length ≤ fuel) :
    nonSystem (loop.evictOldest budgetTokens fuel messages) =
      (nonSystem messages).drop (evictionCut loop budgetTokens
        (totalTokens loop (systemMessages messages)) (nonSystem messages)) := by
  induction fuel generalizing messages with
  | zero =>
    rw [ToolLoop.evictOldest, length_eq_zero_iff.mp (Nat.le_zero.mp hfuel), drop_nil]
  | succ fuel ih =>
    rw [ToolLoop.evictOldest]
    by_cases hnil : nonSystem messages = []
    · rw [hnil]
      split_ifs with hfits hshort
      · exact hnil
      · exact hnil
      · exact absurd (Nat.zero_le 2) hshort
    · obtain ⟨pre, m, rest, rfl, hpre, hm⟩ := exists_first_nonSystem hnil
      have htotal := totalTokens_split loop (pre ++ m :: rest)
      rw [nonSystem_first hpre hm, systemMessages_first hm] at htotal ⊢
      rw [nonSystem_first hpre hm, length_cons] at hfuel
      rw [evictionCut, ← htotal, length_cons]
      rw [totalTokens]
      split_ifs with hfits hshort hshort'
      · rw [drop_zero, nonSystem_first hpre hm]
      · rw [drop_zero, nonSystem_first hpre hm]
      · omega
      · omega
      · rw [eraseIdx_first hpre hm, ih (by omega), Nat.add_comm, drop_succ_cons]

theorem evictOldest_continues (budgetTokens : Int) (fuel : ℕ)
    (h : toolDialogue.PairedFrom opened messages) :
    ∃ opened', toolDialogue.PairedFrom opened' (loop.evictOldest budgetTokens fuel messages) := by
  induction fuel generalizing messages opened with
  | zero => exact ⟨opened, h⟩
  | succ fuel ih =>
    rw [ToolLoop.evictOldest]
    split_ifs with hfits hshort
    · exact ⟨opened, h⟩
    · exact ⟨opened, h⟩
    · have hnil : nonSystem messages ≠ [] := by
        intro hnil
        rw [hnil] at hshort
        exact hshort (Nat.zero_le 2)
      obtain ⟨pre, m, rest, rfl, hpre, hm⟩ := exists_first_nonSystem hnil
      rw [eraseIdx_first hpre hm]
      have hsplit : toolDialogue.PairedFrom opened ((pre ++ [m]) ++ rest) := by
        rwa [append_assoc]
      obtain ⟨opened', hrest⟩ := Dialogue.PairedFrom.rest hsplit
      exact ih (pairedFrom_inert_append (fun x hx => inert_of_system (hpre x hx)) hrest)

def evictionLength (messages : List ChatMessage) (budgetTokens : Int) : ℕ :=
  evictionCut loop budgetTokens (totalTokens loop (systemMessages messages)) (nonSystem messages)

theorem wellPaired_evict_iff (h : WellPaired messages)
    (budgetTokens : Int) : WellPaired (loop.evictForContextBudget messages budgetTokens) ↔
      cleanCut messages (evictionLength loop messages budgetTokens) = true := by
  have hkept := nonSystem_evictOldest loop budgetTokens (length_filter_le _ messages)
  obtain ⟨opened, hcontinues⟩ := evictOldest_continues loop budgetTokens messages.length h
  have hinert : ∀ m ∈ loop.evictOldest budgetTokens messages.length messages,
      (!isSystem m) = false → toolDialogue.Inert m :=
    fun m _ hm => inert_of_system (by simpa using hm)
  have hclosed := closed_filter_iff hinert
  rw [cleanCut, decide_eq_true_iff, evictionLength, ← hkept]
  refine Iff.trans ?_ hclosed.symm
  exact ⟨Dialogue.Paired.closed, fun hclosed => hcontinues.reopen hclosed []⟩

end Eviction

namespace ContextManager

variable (manager : ContextManager)

def dropLength (target : Int) : Int → List ChatMessage → ℕ
  | _, [] => 0
  | running, m :: rest =>
    if target < running then 1 + dropLength target (running - manager.estimate [m]) rest else 0

theorem dropOldest_eq_drop (target running : Int) (messages : List ChatMessage) :
    manager.dropOldest target running messages =
      messages.drop (manager.dropLength target running messages) := by
  induction messages generalizing running with
  | nil => rfl
  | cons m rest ih =>
    rw [dropOldest, dropLength]
    split_ifs
    · rw [ih, Nat.add_comm, drop_succ_cons]
    · rfl

def unwindLength (messages : List ChatMessage) (targetTokens : Option Int := none) : ℕ :=
  if manager.estimate messages ≤ manager.target targetTokens then 0
  else manager.dropLength (manager.target targetTokens)
    (manager.estimate (systemMessages messages ++ nonSystem messages)) (nonSystem messages)

theorem wellPaired_unwind_iff (h : WellPaired messages)
    (targetTokens : Option Int) : WellPaired (manager.unwind messages targetTokens) ↔
      cleanCut messages (manager.unwindLength messages targetTokens) = true := by
  rw [unwind, unwindLength]
  split_ifs
  · refine iff_of_true h (decide_eq_true ?_)
    rw [drop_zero]
    exact h.nonSystem.closed
  · rw [dropOldest_eq_drop]
    exact wellPaired_cut_iff h _

def compactLength (messages : List ChatMessage) : ℕ := (nonSystem messages).length - 4

theorem wellPaired_compact_iff (h : WellPaired messages)
    (summary : Text) (n : ℕ) :
    WellPaired (systemMessages messages ++ summaryMessage summary :: (nonSystem messages).drop n) ↔
      cleanCut messages n = true := by
  have hsystem : toolDialogue.PairedFrom [] (systemMessages messages) :=
    pairedFrom_of_inert (inert_systemMessages messages)
  have hsummary : toolDialogue.Inert (summaryMessage summary) := inert_say nofun
  rw [← wellPaired_cut_iff h]
  refine ⟨fun hcompact => ?_, fun hcut => hsystem.insert hcut hsummary⟩
  have hclosed := (closed_append_of_inert (inert_systemMessages messages)).mp
    (Dialogue.Paired.closed hcompact)
  rw [wellPaired_cut_iff h, cleanCut, decide_eq_true_iff]
  exact hclosed.2 hsummary.1

variable {σ : Type} (summarize : Summarizer σ)

/-- Every cut of `manage` is clean, given the state that the calls for summaries run in. -/
def manageClean (messages : List ChatMessage) (s : σ) : Bool :=
  let unwindClean (messages : List ChatMessage) : Bool :=
    !manager.needsUnwinding messages || cleanCut messages (manager.unwindLength messages)
  if !manager.needsSummarization messages then true
  else if manager.skipSummarization then unwindClean messages
  else if manager.hasRouter then
    cleanCut messages (compactLength messages) &&
      if manager.needsUnwinding messages then
        match (manager.summarizeAndCompact summarize messages).run s with
        | .ok compacted _ => unwindClean compacted
        | .error _ _ => true
      else true
  else if manager.needsUnwinding messages then
    cleanCut messages (manager.unwindLength messages)
  else cleanCut messages (manager.unwindLength messages (some manager.budget.summarizeAt))

variable {manager summarize}

theorem summarizeAndCompact_paired (h : WellPaired messages)
    (hclean : cleanCut messages (compactLength messages) = true) (P : σ → Prop) :
    Triple P (manager.summarizeAndCompact summarize messages) (fun out _ => WellPaired out)
      (fun _ _ => True) := by
  rw [summarizeAndCompact]
  by_cases hshort : (nonSystem messages).length ≤ 4 ∨ (4 : ℕ) = 0
  · rw [if_pos hshort]
    exact triple_pure fun _ _ => h
  · rw [if_neg hshort]
    refine Triple.bind (Q := fun _ _ => True) (fun s _ => ?_) fun summary => ?_
    · cases (manager.generateSummary summarize _).run s with
      | ok summary s' => trivial
      | error e s' => trivial
    · exact triple_pure fun _ _ => (wellPaired_compact_iff h summary _).mpr hclean

theorem manage_paired (h : WellPaired messages)
    (hclean : manager.manageClean summarize messages s = true) :
    Triple (fun s' => s' = s) (manager.manage summarize messages) (fun out _ => WellPaired out)
      (fun _ _ => True) := by
  have hunwind : ∀ {messages}, WellPaired messages →
      (!manager.needsUnwinding messages ||
        cleanCut messages (manager.unwindLength messages)) = true →
      WellPaired
        (if manager.needsUnwinding messages then manager.unwind messages else messages) := by
    intro messages h hclean
    split_ifs with hneeds
    · rw [hneeds] at hclean
      exact (manager.wellPaired_unwind_iff h none).mpr hclean
    · exact h
  rw [manageClean] at hclean
  rw [manage]
  by_cases hneeds : (!manager.needsSummarization messages) = true
  · rw [if_pos hneeds]
    exact triple_pure fun _ _ => h
  rw [if_neg hneeds] at hclean ⊢
  by_cases hskip : manager.skipSummarization = true
  · rw [if_pos hskip] at hclean ⊢
    exact triple_pure fun _ _ => hunwind h hclean
  rw [if_neg hskip] at hclean ⊢
  by_cases hrouter : manager.hasRouter = true
  · rw [if_pos hrouter, Bool.and_eq_true] at hclean
    rw [if_pos hrouter, if_pos hrouter]
    have hcompact : Triple (fun s' => s' = s) (manager.summarizeAndCompact summarize messages)
        (fun out _ => WellPaired out) (fun _ _ => True) :=
      summarizeAndCompact_paired h hclean.1 _
    split_ifs with hunwinding
    · rintro s' rfl
      have hcompact := hcompact _ rfl
      have hclean := hclean.2
      rw [if_pos hunwinding] at hclean
      rw [run_bind]
      cases hrun : (manager.summarizeAndCompact summarize messages).run s' with
      | ok compacted s'' =>
        rw [hrun] at hcompact hclean
        exact hunwind hcompact hclean
      | error e s'' => trivial
    · exact hcompact
  · rw [if_neg hrouter] at hclean
    rw [if_neg hrouter, if_neg hrouter]
    split_ifs at hclean ⊢
    · exact triple_pure fun _ _ => (manager.wellPaired_unwind_iff h none).mpr hclean
    · exact triple_pure fun _ _ => (manager.wellPaired_unwind_iff h _).mpr hclean

end ContextManager

open Memory.ContextCompressor (toolResults headBoundary splitZones withoutSummaries isSummary
  summaryMessage findExistingSummary)

theorem calls_of_tool (h : ContextCompressor.isTool m = true) : toolDialogue.asks m = [] := by
  have hrole : m.role = .tool := of_decide_eq_true h
  exact map_eq_nil_iff.mpr (if_neg (by rw [hrole]; nofun))

theorem mem_toolResults (h : m ∈ toolResults messages) : ContextCompressor.isTool m = true := by
  have hall := all_takeWhile (p := ContextCompressor.isTool) (l := messages)
  exact all_eq_true.mp hall m h

theorem answers_toolResults (messages : List ChatMessage) :
    toolDialogue.answers (toolResults messages) = toolDialogue.answers messages := by
  induction messages with
  | nil => rfl
  | cons m rest ih =>
    rw [toolResults, takeWhile_cons]
    cases htool : ContextCompressor.isTool m with
    | true =>
      have hanswer : toolDialogue.answer m = some m.toolCallId := if_pos (of_decide_eq_true htool)
      rw [if_pos rfl, Dialogue.answers, Dialogue.answers, hanswer]
      exact congrArg _ ih
    | false =>
      have hanswer : toolDialogue.answer m = none := if_neg (of_decide_eq_false htool)
      rw [if_neg Bool.false_ne_true, Dialogue.answers, Dialogue.answers, hanswer]

theorem pairedFrom_head (n : ℕ) (h : toolDialogue.PairedFrom opened messages) :
    toolDialogue.PairedFrom opened (messages.take (headBoundary n messages)) := by
  induction n generalizing messages opened with
  | zero => trivial
  | succ n ih =>
    cases messages with
    | nil => trivial
    | cons m rest =>
      obtain ⟨hanswer, hasks, hrest⟩ := h
      rw [headBoundary]
      split_ifs with hcalls
      · rw [Nat.add_comm, take_succ_cons]
        exact ⟨hanswer, by simp [toolDialogue, hcalls], ih hrest⟩
      · have htake : rest.take (toolResults rest).length = toolResults rest :=
          (prefix_iff_eq_take.mp (List.takeWhile_prefix _)).symm
        have hsilent : ∀ x ∈ toolResults rest, toolDialogue.asks x = [] :=
          fun x hx => calls_of_tool (mem_toolResults hx)
        rw [← take_append_drop (toolResults rest).length rest, htake,
          pairedFrom_append_iff_of_silent hsilent] at hrest
        rw [Nat.add_assoc, Nat.add_comm 1, take_succ_cons, take_add, htake]
        refine ⟨hanswer, fun k hk => answers_append_left ?_, ?_⟩
        · rw [answers_toolResults]
          exact hasks k hk
        · rw [pairedFrom_append_iff_of_silent hsilent]
          exact ⟨hrest.1, ih hrest.2⟩

section Compression

variable (compressor : ContextCompressor)

def compressClean (messages : List ChatMessage) : Bool :=
  let zones := compressor.splitZones (withoutSummaries messages)
  messages.all (fun m => !isSummary m || m.calls.isEmpty && decide (m.role ≠ .tool)) &&
    (zones.middle.isEmpty || decide (toolDialogue.Closed zones.tail))

variable {compressor} {σ : Type}

variable (compressor) in
theorem zones_append (messages : List ChatMessage) :
    (compressor.splitZones messages).head ++ ((compressor.splitZones messages).middle ++
      (compressor.splitZones messages).tail) = messages := by
  simp only [splitZones, take_append_drop]

variable (summarize) in
theorem compress_paired (h : WellPaired messages)
    (hclean : compressClean compressor messages = true) (P : σ → Prop) :
    Triple P (compressor.compress summarize messages) (fun out _ => WellPaired out)
      (fun _ _ => True) := by
  rw [compressClean, Bool.and_eq_true] at hclean
  obtain ⟨hsummaries, hcut⟩ := hclean
  have hinert : ∀ m ∈ messages, (!isSummary m) = false → toolDialogue.Inert m := by
    intro m hm hsummary
    have hall := all_eq_true.mp hsummaries m hm
    rw [hsummary, Bool.false_or, Bool.and_eq_true, List.isEmpty_iff, decide_eq_true_iff] at hall
    exact inert_of_calls hall.1 hall.2
  have hfiltered : WellPaired (withoutSummaries messages) := Dialogue.PairedFrom.filter h hinert
  have hhead : WellPaired (compressor.splitZones (withoutSummaries messages)).head :=
    pairedFrom_head compressor.protectFirstN hfiltered
  have hzones := zones_append compressor (withoutSummaries messages)
  rw [← hzones] at hfiltered
  have hsummary (text : Text) : toolDialogue.Inert (summaryMessage text) := inert_say nofun
  unfold Memory.ContextCompressor.compress
  dsimp only
  by_cases hmiddle : (compressor.splitZones (withoutSummaries messages)).middle = []
  · rw [if_pos hmiddle]
    rw [hmiddle, nil_append] at hfiltered
    cases findExistingSummary messages with
    | none => exact triple_pure fun _ _ => h
    | some existing => exact triple_pure fun _ _ => hhead.insert hfiltered (hsummary existing)
  · rw [if_neg hmiddle]
    rw [isEmpty_eq_false_iff.mpr hmiddle, Bool.false_or, decide_eq_true_iff] at hcut
    rw [← append_assoc] at hfiltered
    have htail := hfiltered.paired_rest_iff.mpr hcut
    refine Triple.bind (Q := fun _ _ => True) (fun s _ => ?_) fun text => ?_
    · cases (compressor.generateSummary summarize _ _ _).run s with
      | ok text s' => trivial
      | error e s' => trivial
    · refine triple_pure fun _ _ => hhead.append ?_
      exact pairedFrom_inert_append (forall_mem_singleton.mpr (hsummary text)) htail

end Compression

namespace ToolLoop

variable {W : Type} (loop : ToolLoop W)

def evictionBudget : Int := Int.tdiv (9 * loop.modelContextWindow) 10

def evictClean (messages : List ChatMessage) : Bool :=
  !loop.config.evaluationMode ||
    cleanCut messages (evictionLength loop messages loop.evictionBudget)

def finishClean (d : LoopData W) : Bool :=
  (match loop.contextManager with
    | none => true
    | some manager => manager.manageClean loop.summarize d.messages d) &&
  match loop.contextCompressor, loop.manageContext.run d with
  | some compressor, .ok _ d =>
    !compressor.needsCompression d.messages loop.modelContextWindow ||
      compressClean compressor d.messages
  | _, _ => true

def cutsClean (model : Text) : ℕ → Last → LoopData W → Bool
  | 0, _, _ => true
  | n + 1, last, d =>
    loop.evictClean d.messages &&
      match (do loop.prepare; loop.ask model last : LoopM W (Last × Flow Ending)).run d with
      | .error _ _ => true
      | .ok (last, flow) d =>
        (match flow with
          | .next => loop.finishClean d
          | _ => true) &&
        match (loop.endResponse flow).run d with
        | .ok none d => cutsClean model n last d
        | _ => true

variable {loop}

theorem prepare_paired :
    Triple (fun d => OnTrace PairedRun d ∧ loop.evictClean d.messages = true) loop.prepare
      (fun _ => OnTrace PairedRun) (fun _ => OnTrace PairedRun) := by
  refine Triple.bind (triple_modify (Q := fun _ d => OnTrace PairedRun d ∧
    loop.evictClean d.messages = true) fun _ h => h) fun _ => ?_
  split_ifs with hevaluation
  · rintro d ⟨hd, hclean⟩
    rw [evictClean, hevaluation, Bool.not_true, Bool.false_or] at hclean
    exact ⟨(wellPaired_evict_iff loop hd.1 _).mpr hclean, hd.2⟩
  · exact triple_pure fun _ h => h.1

theorem manageContext_paired :
    Triple (fun d => OnTrace PairedRun d ∧ ∀ manager, loop.contextManager = some manager →
        manager.manageClean loop.summarize d.messages d = true)
      loop.manageContext (fun _ => OnTrace PairedRun) (fun _ => OnTrace PairedRun) := by
  rintro d ⟨hd, hclean⟩
  unfold manageContext
  cases hmanager : loop.contextManager with
  | none => exact hd
  | some manager =>
    have hkeeps := ContextManager.triple_manage manager
      (keeps_summarize (talks_pairedRun loop)) d.messages d hd
    have hpaired := ContextManager.manage_paired hd.1 (hclean manager hmanager) d rfl
    simp only [run_bind, run_get]
    cases hrun : (manager.manage loop.summarize d.messages).run d with
    | ok out d' =>
      rw [hrun] at hkeeps hpaired
      exact ⟨hpaired, hkeeps.2⟩
    | error e d' =>
      rw [hrun] at hkeeps
      exact hkeeps

theorem compressContext_paired :
    Triple (fun d => OnTrace PairedRun d ∧ ∀ compressor, loop.contextCompressor = some compressor →
        compressor.needsCompression d.messages loop.modelContextWindow = true →
        compressClean compressor d.messages = true)
      loop.compressContext (fun _ => OnTrace PairedRun) (fun _ => OnTrace PairedRun) := by
  rintro d ⟨hd, hclean⟩
  unfold compressContext
  cases hcompressor : loop.contextCompressor with
  | none => exact hd
  | some compressor =>
    simp only [run_bind, run_get]
    split_ifs with hneeds
    · have hkeeps := Memory.ContextCompressor.triple_compress compressor
        (keeps_summarize (talks_pairedRun loop)) d.messages d hd
      have hpaired := compress_paired loop.summarize hd.1
        (hclean compressor hcompressor hneeds) (fun _ => True) d trivial
      simp only [run_bind]
      cases hrun : (compressor.compress loop.summarize d.messages).run d with
      | ok out d' =>
        rw [hrun] at hkeeps hpaired
        exact ⟨hpaired, hkeeps.2⟩
      | error e d' =>
        rw [hrun] at hkeeps
        exact hkeeps
    · exact hd

theorem finishIteration_paired :
    Triple (fun d => OnTrace PairedRun d ∧ loop.finishClean d = true) loop.finishIteration
      (fun _ => OnTrace PairedRun) (fun _ => OnTrace PairedRun) := by
  rintro d ⟨hd, hclean⟩
  rw [finishClean, Bool.and_eq_true] at hclean
  have hmanage := manageContext_paired d ⟨hd, fun manager hmanager => by
    have hmanage := hclean.1
    rwa [hmanager] at hmanage⟩
  rw [finishIteration, run_bind]
  cases hrun : loop.manageContext.run d with
  | error e d' =>
    rw [hrun] at hmanage
    exact hmanage
  | ok a d' =>
    rw [hrun] at hmanage hclean
    refine Triple.bind compressContext_paired (fun _ => ?_) d' ⟨hmanage, ?_⟩
    · refine keeps_thresholdReached.bind fun reached => ?_
      split_ifs
      · exact keeps_pure _
      · refine keeps_budgetSpent.bind fun spent => ?_
        split_ifs
        · exact keeps_pure _
        · exact keeps_pure _
    · intro compressor hcompressor hneeds
      have hcompress := hclean.2
      rw [hcompressor] at hcompress
      simpa [hneeds] using hcompress

theorem keeps_toolCall_paired (context : Option ToolContext) (call : ToolCall) :
    Keeps (OnTrace PairedRun) (loop.executeToolCall context call) :=
  keeps_executeToolCall_of_ignores unchecked_budget (fun _ hact =>
    pairedRun_ignores fun model request h => absurd h (hact model request)) context call

theorem runIteration_eq (model : Text) (last : Last) (d : LoopData W) :
    (loop.runIteration model last).run d =
      match (do loop.prepare; loop.ask model last : LoopM W (Last × Flow Ending)).run d with
      | .ok (last, flow) d =>
        match (loop.endResponse flow).run d with
        | .ok ending d => .ok (last, ending) d
        | .error e d => .error e d
      | .error e d => .error e d := by
  simp only [runIteration, run_bind]
  cases (loop.prepare).run d with
  | error e d => rfl
  | ok a d =>
    dsimp only
    cases (loop.ask model last).run d with
    | error e d => rfl
    | ok result d =>
      dsimp only
      cases (loop.endResponse result.2).run d with
      | error e d => rfl
      | ok ending d => rfl

theorem runFrom_paired (model : Text) (n : ℕ) (last : Last) :
    Triple (fun d => OnTrace PairedRun d ∧ loop.cutsClean model n last d = true)
      (loop.runFrom model n last) (fun _ => OnTrace PairedRun) (fun _ => OnTrace PairedRun) := by
  induction n generalizing last with
  | zero => exact triple_pure fun _ h => h.1
  | succ n ih =>
    rintro d ⟨hd, hclean⟩
    rw [cutsClean, Bool.and_eq_true] at hclean
    have hask : Triple (fun d => OnTrace PairedRun d ∧ loop.evictClean d.messages = true)
        (do loop.prepare; loop.ask model last : LoopM W (Last × Flow Ending))
        (fun _ => OnTrace PairedRun) (fun _ => OnTrace PairedRun) :=
      prepare_paired.bind fun _ => keeps_ask keeps_toolCall_paired (talks_pairedRun loop) model last
    have hask := hask d ⟨hd, hclean.1⟩
    have hclean := hclean.2
    rw [runFrom, run_bind, runIteration_eq]
    cases hflow : (do loop.prepare; loop.ask model last : LoopM W (Last × Flow Ending)).run d with
    | error e d' =>
      rw [hflow] at hask
      exact hask
    | ok result d' =>
      obtain ⟨last', flow⟩ := result
      rw [hflow] at hask hclean
      simp only [Bool.and_eq_true] at hclean
      have hend : Triple (fun d'' => d'' = d') (loop.endResponse flow) (fun _ => OnTrace PairedRun)
          (fun _ => OnTrace PairedRun) := by
        rintro _ rfl
        cases flow with
        | stop ending => exact hask
        | again => exact hask
        | next =>
          have hfinish : Triple (fun d => OnTrace PairedRun d ∧ loop.finishClean d = true)
              (loop.endResponse .next) (fun _ => OnTrace PairedRun) (fun _ => OnTrace PairedRun) :=
            finishIteration_paired.bind fun _ => keeps_pure _
          exact hfinish _ ⟨hask, hclean.1⟩
      have hend := hend d' rfl
      have hclean := hclean.2
      dsimp only
      cases hrun : (loop.endResponse flow).run d' with
      | error e d'' =>
        rw [hrun] at hend
        exact hend
      | ok ending d'' =>
        rw [hrun] at hend hclean
        cases ending with
        | none => exact ih last' d'' ⟨hend, hclean⟩
        | some ending => exact hend

/-- A run that starts with a paired conversation and makes only clean cuts sends only
paired requests. -/
theorem run_requestsPaired (loop : ToolLoop W) (model : Text) (world : W) (limiter : RateLimiter)
    (enforcer : Option RuntimeEnforcer) (messages : List ChatMessage)
    (hmessages : WellPaired messages)
    (hcuts : loop.cutsClean model loop.config.maxIterations.toNat ⟨[], model⟩
      { world, limiter, enforcer, messages } = true) :
    RequestsPaired (traceOf (loop.run model) { world, limiter, enforcer, messages }) := by
  have hrun : Triple (fun d => OnTrace PairedRun d ∧
      loop.cutsClean model loop.config.maxIterations.toNat ⟨[], model⟩ d = true)
      (loop.run model) (fun _ => OnTrace PairedRun) (fun _ => OnTrace PairedRun) :=
    Triple.bind (runFrom_paired model _ _) fun _ => keeps_get.bind fun _ => keeps_pure _
  have hend := hrun { world, limiter, enforcer, messages } ⟨⟨hmessages, nofun⟩, hcuts⟩
  rw [traceOf]
  cases h : (loop.run model).run { world, limiter, enforcer, messages } with
  | ok result d =>
    rw [h] at hend
    exact hend.2
  | error e d =>
    rw [h] at hend
    exact hend.2

def evictingLoop (window : Int) : ToolLoop Script :=
  { scriptedLoop [("x".toList, .obj [])] with
    config := { maxIterations := 2, evaluationMode := true }
    modelContextWindow := window }

def twoCalls : LoopData Script where
  world := [callResponse [("1", "look", "x"), ("2", "look", "x")], textResponse "Done."]
  limiter := { perMinute := 60, burst := 10 }
  messages := [.say .user "Go.".toList]

theorem run_requestsPaired_twoCalls : RequestsPaired
    (traceOf ((evictingLoop 100).run "m".toList) twoCalls) :=
  run_requestsPaired (evictingLoop 100) "m".toList twoCalls.world twoCalls.limiter none
    twoCalls.messages (by decide) (by decide)

/-- The eviction takes the calls away and leaves their results. -/
theorem twoCalls_not_requestsPaired :
    WellPaired twoCalls.messages ∧ ¬RequestsPaired
      (traceOf ((evictingLoop 3).run "m".toList) twoCalls) := by
  refine ⟨by decide, fun h => ?_⟩
  have hcut : .llmCall "m".toList
      [{ role := .tool, content := .text [], toolCallId := "1".toList, name := "look".toList },
        { role := .tool, content := .text [], toolCallId := "2".toList, name := "look".toList }] ∈
      traceOf ((evictingLoop 3).run "m".toList) twoCalls := by
    decide
  exact absurd (h _ _ hcut) (by decide)

end ToolLoop

end Agent33.Agents
