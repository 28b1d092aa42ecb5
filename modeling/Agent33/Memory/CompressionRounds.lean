import Agent33.Library.Objects
import Agent33.Memory.ContextCompressor

/-!
# Compression keeps the head and the tail

A compression over messages with identities: it makes new messages and lists alone. What it
returns are the messages it was given, or those of the head and of the tail with one summary
between them. Round after round one summary at most is left.
-/

namespace Agent33.Memory

open Library Library.Hoare Library.Objects Llm Agents List

structure Heap (σ : Type) where
  objects : Objects ChatMessage
  world : σ

abbrev HeapM (σ : Type) := EStateM Exn (Heap σ)

variable {σ : Type}

def newMessage (m : ChatMessage) : HeapM σ (Entry ChatMessage) := do
  let h ← get
  set { h with objects := h.objects.addObject m }
  return (h.objects.objects.length, m)

variable (entries : List (Entry ChatMessage))

def newList : HeapM σ ℕ := do
  let h ← get
  set { h with objects := h.objects.addList entries }
  return h.objects.lists.length

def onWorld {α : Type} (x : EStateM Exn σ α) : HeapM σ α :=
  zoom Heap.world (fun world h => { h with world }) x

def replying (reply : Text → List ChatMessage → σ → Option Text × σ) : Summarizer σ :=
  fun model messages => modifyGet (reply model messages)

namespace ContextCompressor

variable (compressor : ContextCompressor)

def values : List ChatMessage := entries.map Prod.snd

def pruneEntry (e : Entry ChatMessage) : HeapM σ (Entry ChatMessage) :=
  if e.2.role = .tool then
    newMessage { role := e.2.role, content := .text toolOutputPlaceholder,
                 toolCallId := e.2.toolCallId, name := e.2.name }
  else return e

/-- `_prune_tool_outputs` over messages with identities. -/
def pruneEntries : List (Entry ChatMessage) → HeapM σ (List (Entry ChatMessage))
  | [] => return []
  | e :: rest => do
    let pruned ← pruneEntry e
    let more ← pruneEntries rest
    return pruned :: more

structure EntryZones where
  head : List (Entry ChatMessage)
  middle : List (Entry ChatMessage)
  tail : List (Entry ChatMessage)

def splitEntries : EntryZones :=
  let headEnd := headBoundary compressor.protectFirstN (values entries)
  let rest := entries.drop headEnd
  let tailLength :=
    if compressor.tailTokenBudget = 0 then 0
    else fitting compressor.tailTokenBudget 0 (values rest).reverse
  { head := entries.take headEnd
    middle := rest.take (rest.length - tailLength)
    tail := rest.drop (rest.length - tailLength) }

/-- `compress` over messages with identities, for the address of a list. -/
def compressIn (summarize : Summarizer σ) (input : ℕ) : HeapM σ ℕ := do
  let messages := (← get).objects.read input
  let existingSummary := findExistingSummary (values messages)
  let msgs :=
    if existingSummary.isSome then messages.filter fun e => !isSummary e.2 else messages
  let zones := compressor.splitEntries msgs
  if zones.middle = [] then
    match existingSummary with
    | some existing =>
      let summary ← newMessage (summaryMessage existing)
      newList (zones.head ++ summary :: zones.tail)
    | none => newList messages
  else
    let pruned ← pruneEntries zones.middle
    let targetTokens := max (min (compressor.summaryTarget (estimateMessageTokens (values pruned)))
      compressor.summaryTokensCeiling) 200
    let text ← onWorld (compressor.generateSummary summarize (values pruned) targetTokens
      existingSummary)
    let summary ← newMessage (summaryMessage text)
    newList (zones.head ++ summary :: zones.tail)

/-- The summary that a router gives for all messages of a middle, tool outputs replaced. -/
def SummaryOf (summarize : Summarizer σ) (existing : Option Text) (middle : List ChatMessage)
    (summary : ChatMessage) : Prop :=
  ∃ targetTokens world world' text,
    (compressor.generateSummary summarize (pruneToolOutputs middle) targetTokens existing).run
      world = .ok text world' ∧ summary = summaryMessage text

inductive Compressed (summarize : Summarizer σ) (entries : List (Entry ChatMessage)) :
    List (Entry ChatMessage) → Prop
  | same : (∀ e ∈ entries, isSummary e.2 = false) → Compressed summarize entries entries
  | split (head middle tail : List (Entry ChatMessage)) (summary : Entry ChatMessage) :
      entries.filter (fun e => !isSummary e.2) = head ++ middle ++ tail →
      (middle = [] → (findExistingSummary (values entries)).map summaryMessage = some summary.2) →
      (middle ≠ [] → compressor.SummaryOf summarize (findExistingSummary (values entries))
        (values middle) summary.2) →
      Compressed summarize entries (head ++ summary :: tail)

theorem findExistingSummary_eq_none {messages : List ChatMessage} :
    findExistingSummary messages = none ↔ ∀ m ∈ messages, isSummary m = false := by
  simp [findExistingSummary]

theorem splitEntries_append :
    (compressor.splitEntries entries).head ++ (compressor.splitEntries entries).middle ++
      (compressor.splitEntries entries).tail = entries := by
  rw [splitEntries, append_assoc, take_append_drop, take_append_drop]

theorem generateSummary_total (reply : Text → List ChatMessage → σ → Option Text × σ)
    (messages : List ChatMessage) (targetTokens : ℕ) (existing : Option Text) (world : σ) :
    ∃ text world', (compressor.generateSummary (replying reply) messages targetTokens
      existing).run world = .ok text world' := by
  have htotal : Triple (fun _ => True)
      (compressor.generateSummary (replying reply) messages targetTokens existing)
      (fun _ _ => True) (fun _ _ => False) :=
    triple_generateSummary (fun _ _ _ _ _ => trivial) messages targetTokens existing
  obtain ⟨text, world', hrun, -⟩ := htotal.exists_ok trivial
  exact ⟨text, world', hrun⟩

variable {compressor}

def Adds {α : Type} (o : Objects ChatMessage) (world : σ) (x : HeapM σ α)
    (Q : α → Objects ChatMessage → σ → Prop) : Prop :=
  Triple (fun h => h = ⟨o, world⟩) x (fun a h => o.Grows h.objects ∧ Q a h.objects h.world)
    fun _ _ => False

variable {world : σ}

theorem adds_newMessage (m : ChatMessage) :
    Adds o world (newMessage m) fun e o' world' => e.2 = m ∧ o'.Knows [e] ∧ world' = world := by
  rintro h rfl
  exact ⟨grows_addObject _ _, rfl, knows_addObject _ _, rfl⟩

theorem adds_newList {entries : List (Entry ChatMessage)} (hknown : o.Knows entries) :
    Adds o world (newList entries) fun r o' world' => o'.Holds r entries ∧ world' = world := by
  rintro h rfl
  exact ⟨grows_addList _ _, holds_addList hknown, rfl⟩

theorem adds_pure {α : Type} {a : α} {Q : α → Objects ChatMessage → σ → Prop} (hQ : Q a o world) :
    Adds o world (pure a : HeapM σ α) Q := by
  rintro h rfl
  exact ⟨.refl _, hQ⟩

section Bind

variable {α β : Type}


theorem Adds.imp (hx : Adds o world x Q) (h : ∀ a o' world', Q a o' world' → R a o' world') :
    Adds o world x R :=
  hx.conseq (fun _ ho => ho) (fun _ _ hQ => ⟨hQ.1, h _ _ _ hQ.2⟩) fun _ _ hfalse => hfalse

theorem Adds.bind (hx : Adds o world x Q)
    (hf : ∀ a o' world', o.Grows o' → Q a o' world' → Adds o' world' (f a) S) :
    Adds o world (x >>= f) S := by
  refine Triple.bind hx fun a h hQ => ?_
  have hmore := hf a h.objects h.world hQ.1 hQ.2 h rfl
  cases hrun : (f a).run h with
  | error e h' =>
    rw [hrun] at hmore
    exact hmore
  | ok b h' =>
    rw [hrun] at hmore
    exact ⟨hQ.1.trans hmore.1, hmore.2⟩

theorem Adds.get_bind (hf : Adds o world (f ⟨o, world⟩) S) : Adds o world (get >>= f) S := by
  rintro h rfl
  exact hf _ rfl

end Bind

theorem adds_pruneEntry (e : Entry ChatMessage) :
    Adds o world (pruneEntry e) fun pruned _ world' =>
      pruneToolOutputs [e.2] = [pruned.2] ∧ world' = world := by
  rw [pruneEntry]
  split_ifs with htool
  · refine (adds_newMessage _).imp fun pruned _ _ hpruned => ⟨?_, hpruned.2.2⟩
    simp [pruneToolOutputs, htool, hpruned.1]
  · exact adds_pure (by simp [pruneToolOutputs, htool])

theorem adds_pruneEntries :
    Adds o world (pruneEntries entries) fun pruned _ world' =>
      values pruned = pruneToolOutputs (values entries) ∧ world' = world := by
  induction entries generalizing o with
  | nil => exact adds_pure ⟨rfl, rfl⟩
  | cons e rest ih =>
    refine (adds_pruneEntry e).bind fun pruned o' _ _ hpruned => ?_
    rw [hpruned.2]
    refine ih.bind fun more o'' _ _ hmore => adds_pure ⟨?_, hmore.2⟩
    rw [values, map_cons, ← values, hmore.1]
    exact congrArg (· ++ pruneToolOutputs (values rest)) hpruned.1.symm

theorem adds_generateSummary (reply : Text → List ChatMessage → σ → Option Text × σ)
    (messages : List ChatMessage) (targetTokens : ℕ) (existing : Option Text) :
    Adds o world
      (onWorld (compressor.generateSummary (replying reply) messages targetTokens existing))
      fun text _ world' => (compressor.generateSummary (replying reply) messages targetTokens
        existing).run world = .ok text world' := by
  refine Triple.zoom fun h hh => ?_
  obtain ⟨text, world', hrun⟩ := generateSummary_total compressor reply messages targetTokens
    existing world
  rw [hh, hrun]
  exact ⟨.refl _, rfl⟩

theorem kept_eq :
    (if (findExistingSummary (values entries)).isSome then entries.filter fun e => !isSummary e.2
      else entries) = entries.filter fun e => !isSummary e.2 := by
  split_ifs with hsome
  · rfl
  · rw [Option.not_isSome_iff_eq_none, findExistingSummary_eq_none] at hsome
    refine (filter_eq_self.mpr fun e he => ?_).symm
    rw [hsome e.2 (mem_map_of_mem he), Bool.not_false]

theorem splitZones_values :
    compressor.splitZones (withoutSummaries (values entries)) =
      let zones := compressor.splitEntries (entries.filter fun e => !isSummary e.2)
      ⟨values zones.head, values zones.middle, values zones.tail⟩ := by
  have hkept : withoutSummaries (values entries) =
      values (entries.filter fun e => !isSummary e.2) := by
    rw [withoutSummaries, values, values, filter_map]
    rfl
  rw [hkept]
  simp only [splitZones, splitEntries, values, map_take, map_drop, length_map,
    length_drop]

theorem values_assemble (head tail : List (Entry ChatMessage)) (summary : Entry ChatMessage) :
    values (head ++ summary :: tail) = values head ++ summary.2 :: values tail := by
  simp [values]

theorem adds_assemble {zones : EntryZones} {entries : List (Entry ChatMessage)}
    (hzones : zones.head ++ zones.middle ++ zones.tail ⊆ entries) (hknown : o.Knows entries)
    (m : ChatMessage) :
    Adds o world (do
      let summary ← newMessage m
      newList (zones.head ++ summary :: zones.tail))
      fun r o' world' => ∃ summary : Entry ChatMessage, summary.2 = m ∧
        o'.Holds r (zones.head ++ summary :: zones.tail) ∧ world' = world := by
  refine (adds_newMessage m).bind fun summary o' _ hgrows hsummary => ?_
  rw [hsummary.2.2]
  have hall : o'.Knows (zones.head ++ summary :: zones.tail) := by
    intro e he
    rcases mem_append.mp he with he | he
    · exact hknown.mono hgrows e (hzones (by simp [he]))
    · rcases mem_cons.mp he with rfl | he
      · exact hsummary.2.1 e mem_cons_self
      · exact hknown.mono hgrows e (hzones (by simp [he]))
  exact (adds_newList hall).imp fun r _ _ hholds => ⟨summary, hsummary.1, hholds⟩

theorem adds_compressIn (reply : Text → List ChatMessage → σ → Option Text × σ) {input : ℕ}
    {entries : List (Entry ChatMessage)} (hinput : o.Holds input entries) :
    Adds o world (compressor.compressIn (replying reply) input) fun r o' world' =>
      ∃ result, o'.Holds r result ∧ compressor.Compressed (replying reply) entries result ∧
        (compressor.compress (replying reply) (values entries)).run world =
          .ok (values result) world' := by
  rw [compressIn, compress, splitZones_values]
  refine Adds.get_bind ?_
  dsimp only
  rw [hinput.read_eq, kept_eq]
  have hzones := compressor.splitEntries_append (entries.filter fun e => !isSummary e.2)
  generalize compressor.splitEntries (entries.filter fun e => !isSummary e.2) = zones at hzones ⊢
  have hsubset : zones.head ++ zones.middle ++ zones.tail ⊆ entries := by
    rw [hzones]
    exact fun e he => mem_of_mem_filter he
  by_cases hmiddle : zones.middle = []
  · have hmiddle' : values zones.middle = [] := map_eq_nil_iff.mpr hmiddle
    rw [if_pos hmiddle, if_pos hmiddle']
    cases hexisting : findExistingSummary (values entries) with
    | none =>
      refine (adds_newList hinput.knows).imp fun r o' world' hresult => ?_
      refine ⟨entries, hresult.1, .same fun e he => ?_, hresult.2 ▸ rfl⟩
      exact findExistingSummary_eq_none.mp hexisting e.2 (mem_map_of_mem he)
    | some existing =>
      refine (adds_assemble hsubset hinput.knows _).imp fun r o' world' hresult => ?_
      obtain ⟨summary, hsummary, hholds, hworld⟩ := hresult
      refine ⟨_, hholds, .split zones.head zones.middle zones.tail summary hzones.symm ?_ ?_, ?_⟩
      · rw [hexisting, hsummary]
        exact fun _ => rfl
      · exact fun hne => absurd hmiddle hne
      · rw [hworld, values_assemble, hsummary]
        rfl
  · have hmiddle' : values zones.middle ≠ [] := mt map_eq_nil_iff.mp hmiddle
    rw [if_neg hmiddle, if_neg hmiddle']
    refine (adds_pruneEntries _).bind fun pruned o' _ hgrows hpruned => ?_
    rw [hpruned.1, hpruned.2]
    refine (adds_generateSummary reply _ _ _).bind fun text o'' world' hgrows' hrun => ?_
    refine (adds_assemble hsubset (hinput.knows.mono (hgrows.trans hgrows')) _).imp ?_
    rintro r _ world'' ⟨summary, hsummary, hholds, hworld⟩
    refine ⟨_, hholds, .split zones.head zones.middle zones.tail summary hzones.symm ?_ ?_, ?_⟩
    · exact fun hnone => absurd hnone hmiddle
    · exact fun _ => ⟨_, world, world', text, hrun, hsummary⟩
    · rw [EStateM.run_bind, hrun, hworld, values_assemble, hsummary]
      rfl

variable (compressor) in
def compressRounds (summarize : Summarizer σ) : ℕ → ℕ → HeapM σ ℕ
  | 0, input => return input
  | n + 1, input => do
    let next ← compressor.compressIn summarize input
    compressRounds summarize n next

variable (compressor) in
inductive Rounds (summarize : Summarizer σ) :
    ℕ → List (Entry ChatMessage) → List (Entry ChatMessage) → Prop
  | zero (entries : List (Entry ChatMessage)) : Rounds summarize 0 entries entries
  | succ {n : ℕ} {entries next result : List (Entry ChatMessage)} :
      compressor.Compressed summarize entries next → Rounds summarize n next result →
      Rounds summarize (n + 1) entries result

def summaries : ℕ := entries.countP fun e => isSummary e.2

variable {entries result : List (Entry ChatMessage)}

theorem summaries_eq_zero (h : ∀ e ∈ entries, isSummary e.2 = false) : summaries entries = 0 := by
  rw [summaries, countP_eq_zero]
  exact fun e he => ne_true_of_eq_false (h e he)

theorem Compressed.summaries_le (h : compressor.Compressed summarize entries result) :
    summaries result ≤ 1 := by
  cases h with
  | same hnone =>
    rw [summaries_eq_zero hnone]
    exact Nat.zero_le 1
  | split head middle tail summary hsplit _ _ =>
    have hnone : ∀ e ∈ head ++ middle ++ tail, isSummary e.2 = false := by
      rw [← hsplit]
      exact fun e he => by simpa using (List.mem_filter.mp he).2
    have hhead : summaries head = 0 := summaries_eq_zero fun e he => hnone e (by simp [he])
    have htail : summaries tail = 0 := summaries_eq_zero fun e he => hnone e (by simp [he])
    rw [summaries] at hhead htail ⊢
    rw [countP_append, countP_cons, hhead, htail]
    split_ifs <;> omega

theorem Rounds.summaries_le (h : compressor.Rounds summarize n entries result)
    (hn : 0 < n) : summaries result ≤ 1 := by
  induction h with
  | zero entries => exact absurd hn (Nat.lt_irrefl 0)
  | succ hfirst hrest ih =>
    cases hrest with
    | zero next => exact hfirst.summaries_le
    | succ hsecond hrest => exact ih (Nat.succ_pos _)

theorem adds_compressRounds (reply : Text → List ChatMessage → σ → Option Text × σ)
    (hinput : o.Holds input entries) (n : ℕ) :
    Adds o world (compressor.compressRounds (replying reply) n input) fun r o' _ =>
      ∃ result, o'.Holds r result ∧ compressor.Rounds (replying reply) n entries result := by
  induction n generalizing o world input entries with
  | zero => exact adds_pure ⟨entries, hinput, .zero entries⟩
  | succ n ih =>
    refine (adds_compressIn reply hinput).bind fun next o' world' _ hnext => ?_
    obtain ⟨between, hholds, hcompressed, -⟩ := hnext
    refine (ih hholds).imp fun r o'' _ hresult => ?_
    obtain ⟨result, hresult, hrounds⟩ := hresult
    exact ⟨result, hresult, .succ hcompressed hrounds⟩

/-- Any number of compressions changes no list and no message that there was, each returns its
input or the head and the tail of it around a summary of the whole middle, and at most one
summary is left. -/
theorem compressRounds_keeps (compressor : ContextCompressor)
    (reply : Text → List ChatMessage → σ → Option Text × σ) {h : Heap σ} {input : ℕ}
    (hinput : h.objects.Holds input entries) (n : ℕ) :
    ∃ r h' result, (compressor.compressRounds (replying reply) n input).run h = .ok r h' ∧
      h.objects.Grows h'.objects ∧ h'.objects.Holds r result ∧
      compressor.Rounds (replying reply) n entries result ∧ (0 < n → summaries result ≤ 1) := by
  obtain ⟨r, h', hrun, hgrows, result, hholds, hrounds⟩ :=
    (adds_compressRounds reply hinput n).exists_ok rfl
  exact ⟨r, h', result, hrun, hgrows, hholds, hrounds, hrounds.summaries_le⟩

def conversation : Heap Unit where
  objects :=
    { objects := [.say .user "a".toList, .say .assistant "b".toList, .say .user "c".toList]
      lists := [[0, 1, 2]] }
  world := ()

theorem compressRounds_conversation :
    ∃ r h' result,
      (({ protectFirstN := 1, tailTokenBudget := 6 } : ContextCompressor).compressRounds
        (replying fun _ _ _ => (some "s".toList, ())) 2 0).run conversation = .ok r h' ∧
      conversation.objects.Grows h'.objects ∧ h'.objects.Holds r result ∧ summaries result ≤ 1 := by
  have hinput : conversation.objects.Holds 0 [(0, .say .user "a".toList),
      (1, .say .assistant "b".toList), (2, .say .user "c".toList)] :=
    ⟨rfl, by simp [Knows, conversation]⟩
  obtain ⟨r, h', result, hrun, hgrows, hholds, -, hone⟩ :=
    compressRounds_keeps { protectFirstN := 1, tailTokenBudget := 6 }
      (fun _ _ _ => (some "s".toList, ())) hinput 2
  exact ⟨r, h', result, hrun, hgrows, hholds, hone (by decide)⟩

end ContextCompressor

end Agent33.Memory
