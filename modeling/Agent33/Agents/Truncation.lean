import Agent33.Agents.ContextManager
import Agent33.Library.Packing

/-!
# Truncation reaches its target

Both truncations keep the messages of the system and drop the oldest others while a running
count is over the target. The count of one message contains the constant of a whole call, so
each removal takes too much off, and too many messages may stay.
-/

namespace Agent33.Agents

open Library Llm List EStateM

section Counted

variable {α : Type} (system : α → Bool) (cost : α → ℕ) (constant : ℕ)

/-- `EstimateTokenCounter.count_messages`: a cost for each message and a constant for the call. -/
def countMessages (messages : List α) : Int := weight cost messages + constant

def others (messages : List α) : List α := messages.filter fun m => !system m

structure Truncated (count : List α → Int) (target : Int) (messages result : List α) : Prop where
  system_eq : result.filter system = messages.filter system
  suffix : others system result <:+ others system messages
  fits : count result ≤ target ∨ others system result = []
  longest : ∀ s, s <:+ others system messages → count (messages.filter system ++ s) ≤ target →
    s.length ≤ (others system result).length

/-- When the count without some of the oldest messages is over the target, it is over it by
more than one constant for each of them. -/
def ClearTarget (target : Int) (messages : List α) : Prop :=
  ∀ j < (others system messages).length,
    let left := messages.filter system ++ (others system messages).drop j
    target < countMessages cost constant left →
      target + constant * j < countMessages cost constant left

instance (target : Int) (messages : List α) :
    Decidable (ClearTarget system cost constant target messages) :=
  inferInstanceAs (Decidable (∀ j < (others system messages).length, _ → _))

def truncate (target : Int) (messages : List α) : List α :=
  if countMessages cost constant messages ≤ target then messages
  else
    messages.filter system ++ dropOver cost constant target
      (countMessages cost constant (messages.filter system ++ others system messages))
      (others system messages)

theorem weight_partition (messages : List α) :
    weight cost (messages.filter system) + weight cost (others system messages) =
      weight cost messages := by
  induction messages with
  | nil => rfl
  | cons m messages ih =>
    rw [others] at ih ⊢
    cases hm : system m with
    | true =>
      simp [hm]
      omega
    | false =>
      simp [hm]
      omega

variable {system cost constant}

theorem countMessages_append (l l' : List α) :
    countMessages cost constant (l ++ l') =
      (weight cost l + constant : Int) + weight cost l' := by
  rw [countMessages, weight_append]
  omega

theorem filter_system_append (hkept : kept <:+ others system messages) :
    (messages.filter system ++ kept).filter system = messages.filter system := by
  have hnone : kept.filter system = [] := by
    rw [filter_eq_nil_iff]
    intro m hm
    have hother := (List.mem_filter.mp (hkept.subset hm)).2
    simpa using hother
  rw [filter_append, filter_filter, hnone, append_nil]
  simp

theorem others_append (hkept : kept <:+ others system messages) :
    others system (messages.filter system ++ kept) = kept := by
  have hall : kept.filter (fun m => !system m) = kept := by
    rw [filter_eq_self]
    exact fun m hm => (List.mem_filter.mp (hkept.subset hm)).2
  rw [others, filter_append, filter_filter, hall]
  simp

theorem truncate_system (target : Int) (messages : List α) :
    (truncate system cost constant target messages).filter system = messages.filter system := by
  rw [truncate]
  split_ifs
  · rfl
  · exact filter_system_append (dropOver_suffix _ _)

theorem truncate_suffix (target : Int) (messages : List α) :
    others system (truncate system cost constant target messages) <:+ others system messages := by
  rw [truncate]
  split_ifs
  · exact suffix_rfl
  · rw [others_append (dropOver_suffix _ _)]
    exact dropOver_suffix _ _

theorem truncate_longest (hs : s <:+ others system messages)
    (hfits : countMessages cost constant (messages.filter system ++ s) ≤ target) :
    s.length ≤ (others system (truncate system cost constant target messages)).length := by
  rw [truncate]
  split_ifs
  · exact hs.length_le
  · rw [others_append (dropOver_suffix _ _)]
    rw [countMessages_append] at hfits ⊢
    exact length_le_dropOver le_rfl hs hfits

theorem countMessages_kept_le (hkept : kept <:+ others system messages) :
    countMessages cost constant (messages.filter system ++ kept) ≤
      countMessages cost constant messages := by
  have hall := weight_partition system cost messages
  have hle := weight_suffix_le cost hkept
  rw [countMessages_append, countMessages]
  omega

theorem fits_truncate_iff (target : Int) (messages : List α) :
    (countMessages cost constant (truncate system cost constant target messages) ≤ target ∨
      others system (truncate system cost constant target messages) = []) ↔
    ClearTarget system cost constant target messages := by
  rw [truncate]
  split_ifs with htotal
  · refine iff_of_true (.inl htotal) fun j _ hover => ?_
    have hle : countMessages cost constant
        (messages.filter system ++ (others system messages).drop j) ≤
        countMessages cost constant messages :=
      countMessages_kept_le (drop_suffix j _)
    omega
  · rw [others_append (dropOver_suffix _ _), countMessages_append, countMessages_append]
    simp only [ClearTarget, countMessages_append]
    exact fits_dropOver cost constant _ target _

theorem clearTarget_of_le (h : countMessages cost constant messages ≤ target) :
    ClearTarget system cost constant target messages := by
  rw [← fits_truncate_iff, truncate, if_pos h]
  exact .inl h

theorem countMessages_truncate_le (target : Int) (messages : List α) :
    countMessages cost constant (truncate system cost constant target messages) ≤
      countMessages cost constant messages := by
  rw [truncate]
  split_ifs
  · exact le_rfl
  · exact countMessages_kept_le (dropOver_suffix _ _)

theorem truncated_truncate_iff (target : Int) (messages : List α) :
    Truncated system (countMessages cost constant) target messages
      (truncate system cost constant target messages) ↔
    ClearTarget system cost constant target messages := by
  rw [← fits_truncate_iff]
  exact ⟨Truncated.fits, fun hfits =>
    ⟨truncate_system _ _, truncate_suffix _ _, hfits, fun _ => truncate_longest⟩⟩

end Counted

namespace ContextManager

variable (manager : ContextManager) (cost : Text × Text → ℕ) (constant : ℕ)

def messageCost (m : ChatMessage) : ℕ := cost (m.role.value, m.textContent)

section Counter

variable {manager cost constant} (hcounter : manager.tokenCounter = countMessages cost constant)

include hcounter

theorem estimate_eq : manager.estimate = countMessages (messageCost cost) constant := by
  funext messages
  simp only [estimate, hcounter, countMessages, weight, map_map]
  rfl

theorem dropOldest_eq (target running : Int) (messages : List ChatMessage) :
    manager.dropOldest target running messages =
      dropOver (messageCost cost) constant target running messages := by
  induction messages generalizing running with
  | nil => rfl
  | cons m rest ih =>
    rw [dropOldest, dropOver, ih, estimate_eq hcounter]
    simp [countMessages]

theorem unwind_eq (messages : List ChatMessage) (targetTokens : Option Int) :
    manager.unwind messages targetTokens =
      truncate isSystem (messageCost cost) constant (manager.target targetTokens) messages := by
  rw [unwind, truncate, dropOldest_eq hcounter, estimate_eq hcounter]
  rfl

end Counter

def compacted (reply : Option Text) (messages : List ChatMessage) (keepRecent : ℕ) :
    List ChatMessage :=
  let recent := nonSystem messages
  if recent.length ≤ keepRecent ∨ keepRecent = 0 then messages
  else
    let older := recent.take (recent.length - keepRecent)
    let summary := if manager.hasRouter then reply.getD (fallbackSummary older)
      else fallbackSummary older
    systemMessages messages ++ summaryMessage summary :: recent.drop (recent.length - keepRecent)

variable {σ : Type}

theorem summarizeAndCompact_run (reply : Option Text) (messages : List ChatMessage)
    (keepRecent : ℕ) (s : σ) :
    (manager.summarizeAndCompact (fun _ _ => pure reply) messages keepRecent).run s =
      .ok (manager.compacted reply messages keepRecent) s := by
  rw [summarizeAndCompact, compacted]
  split_ifs with hfew hrouter
  · rfl
  · simp only [generateSummary, hrouter, if_true]
    cases reply with
    | none => rfl
    | some content => rfl
  · simp only [generateSummary, hrouter]
    rfl

theorem compacted_cases (reply : Option Text) (messages : List ChatMessage) (keepRecent : ℕ) :
    manager.compacted reply messages keepRecent = messages ∨
      ∃ summary recent, manager.compacted reply messages keepRecent =
        systemMessages messages ++ summaryMessage summary :: recent := by
  rw [compacted]
  split_ifs
  · exact .inl rfl
  · exact .inr ⟨_, _, rfl⟩
  · exact .inr ⟨_, _, rfl⟩

/-- What `manage` returns with such a reply. -/
def managed (reply : Option Text) (messages : List ChatMessage) (keepRecent : ℕ) :
    List ChatMessage :=
  let compacted := manager.compacted reply messages keepRecent
  if !manager.needsSummarization messages then messages
  else if manager.skipSummarization then
    if manager.needsUnwinding messages then manager.unwind messages else messages
  else if manager.needsUnwinding messages then
    if manager.hasRouter then
      if manager.needsUnwinding compacted then manager.unwind compacted else compacted
    else manager.unwind messages
  else if manager.hasRouter then compacted
  else manager.unwind messages (some manager.budget.summarizeAt)

theorem manage_run (reply : Option Text) (messages : List ChatMessage) (keepRecent : ℕ) (s : σ) :
    (manager.manage (fun _ _ => pure reply) messages keepRecent).run s =
      .ok (manager.managed reply messages keepRecent) s := by
  have hcompact := summarizeAndCompact_run manager reply messages keepRecent s
  rw [manage, managed]
  split_ifs with _ _ _ _ _ hover
  · rfl
  · rfl
  · rfl
  · simp only [run_bind, hcompact, if_pos hover, run_pure]
  · simp only [run_bind, hcompact, if_neg hover, run_pure]
  · rfl
  · exact hcompact
  · rfl

def MeetsLimit (reply : Option Text) (messages : List ChatMessage) (keepRecent : ℕ) : Prop :=
  let limit := manager.budget.effectiveLimit
  let total := countMessages (messageCost cost) constant messages
  let compacted := manager.compacted reply messages keepRecent
  if total < manager.budget.summarizeAt then total ≤ limit ∨ nonSystem messages = []
  else if manager.hasRouter = true ∧ manager.skipSummarization = false then
    if limit ≤ total then ClearTarget isSystem (messageCost cost) constant limit compacted
    else countMessages (messageCost cost) constant compacted ≤ limit
  else ClearTarget isSystem (messageCost cost) constant limit messages

def Within (limit : Int) (messages : List ChatMessage) : Prop :=
  countMessages (messageCost cost) constant messages ≤ limit ∨ nonSystem messages = []

variable {manager cost constant} (hcounter : manager.tokenCounter = countMessages cost constant)

section

include hcounter

theorem within_unwind_iff (messages : List ChatMessage) :
    Within cost constant manager.budget.effectiveLimit (manager.unwind messages) ↔
    ClearTarget isSystem (messageCost cost) constant manager.budget.effectiveLimit messages := by
  rw [unwind_eq hcounter]
  exact fits_truncate_iff _ _

theorem needsUnwinding_iff (messages : List ChatMessage) : manager.needsUnwinding messages = true ↔
    manager.budget.effectiveLimit ≤ countMessages (messageCost cost) constant messages := by
  rw [needsUnwinding, estimate_eq hcounter]
  exact decide_eq_true_iff

theorem within_unwindIfNeeded_iff (messages : List ChatMessage) :
    Within cost constant manager.budget.effectiveLimit
      (if manager.needsUnwinding messages then manager.unwind messages else messages) ↔
    ClearTarget isSystem (messageCost cost) constant manager.budget.effectiveLimit messages := by
  split_ifs with hover
  · exact within_unwind_iff hcounter messages
  · rw [needsUnwinding_iff hcounter, not_le] at hover
    exact iff_of_true (.inl hover.le) (clearTarget_of_le hover.le)

end

theorem within_compacted_iff {reply : Option Text}
    {keepRecent : ℕ} (hunder : countMessages (messageCost cost) constant messages < limit) :
    Within cost constant limit (manager.compacted reply messages keepRecent) ↔
    countMessages (messageCost cost) constant (manager.compacted reply messages keepRecent) ≤
      limit := by
  refine ⟨fun hwithin => hwithin.elim id fun hnone => ?_, .inl⟩
  rcases manager.compacted_cases reply messages keepRecent with hsame | ⟨summary, recent, heq⟩
  · rw [hsame]
    exact hunder.le
  · rw [heq, nonSystem, filter_append] at hnone
    cases (append_eq_nil_iff.mp hnone).2

include hcounter in
theorem within_managed_iff (reply : Option Text) (messages : List ChatMessage)
    (keepRecent : ℕ) :
    Within cost constant manager.budget.effectiveLimit
      (manager.managed reply messages keepRecent) ↔
    manager.MeetsLimit cost constant reply messages keepRecent := by
  have hover := needsUnwinding_iff hcounter
  simp only [managed, MeetsLimit, needsSummarization, estimate_eq hcounter, Bool.not_eq_true',
    decide_eq_false_iff_not, not_le]
  by_cases hbelow : countMessages (messageCost cost) constant messages < manager.budget.summarizeAt
  · rw [if_pos hbelow, if_pos hbelow]
    rfl
  rw [if_neg hbelow, if_neg hbelow]
  by_cases hskip : manager.skipSummarization = true
  · have hplain : ¬(manager.hasRouter = true ∧ manager.skipSummarization = false) := by
      simp [hskip]
    rw [if_pos hskip, if_neg hplain]
    exact within_unwindIfNeeded_iff hcounter messages
  rw [if_neg hskip]
  have hunwind := within_unwind_iff hcounter messages
  by_cases hrouter : manager.hasRouter = true
  · have hboth : manager.hasRouter = true ∧ manager.skipSummarization = false :=
      ⟨hrouter, Bool.eq_false_of_not_eq_true hskip⟩
    rw [if_pos hrouter, if_pos hrouter, if_pos hboth]
    by_cases hlimit : manager.budget.effectiveLimit ≤
        countMessages (messageCost cost) constant messages
    · rw [if_pos ((hover messages).mpr hlimit), if_pos hlimit]
      exact within_unwindIfNeeded_iff hcounter _
    · rw [if_neg (mt (hover messages).mp hlimit), if_neg hlimit]
      exact within_compacted_iff (not_le.mp hlimit)
  · have hplain : ¬(manager.hasRouter = true ∧ manager.skipSummarization = false) :=
      fun h => hrouter h.1
    rw [if_neg hrouter, if_neg hrouter, if_neg hplain]
    split_ifs with hlimit
    · exact hunwind
    · rw [hover, not_le] at hlimit
      refine iff_of_true (.inl ?_) (clearTarget_of_le hlimit.le)
      rw [unwind_eq hcounter]
      exact (countMessages_truncate_le _ _).trans hlimit.le

end ContextManager

def hasSystemRole (message : Dict Text Text) : Bool :=
  decide (message.get? "role".toList = some "system".toList)

def popOldest (count : List (Dict Text Text) → Int) (maxTokens : Int) :
    Int → List (Dict Text Text) → List (Dict Text Text)
  | _, [] => []
  | running, m :: rest =>
    if maxTokens < running then popOldest count maxTokens (running - count [m]) rest
    else m :: rest

def truncateHistory (count : List (Dict Text Text) → Int) (messages : List (Dict Text Text))
    (maxTokens : Int) : List (Dict Text Text) :=
  if messages = [] then []
  else if count messages ≤ maxTokens then messages
  else
    let systemMsgs := messages.filter hasSystemRole
    let nonSystem := messages.filter fun m => !hasSystemRole m
    systemMsgs ++ popOldest count maxTokens (count (systemMsgs ++ nonSystem)) nonSystem

section History

variable (cost : Dict Text Text → ℕ) (constant : ℕ)

theorem popOldest_eq (maxTokens running : Int) (messages : List (Dict Text Text)) :
    popOldest (countMessages cost constant) maxTokens running messages =
      dropOver cost constant maxTokens running messages := by
  induction messages generalizing running with
  | nil => rfl
  | cons m rest ih =>
    rw [popOldest, dropOver, ih]
    simp [countMessages]

theorem truncateHistory_eq (messages : List (Dict Text Text)) (maxTokens : Int) :
    truncateHistory (countMessages cost constant) messages maxTokens =
      truncate hasSystemRole cost constant maxTokens messages := by
  rw [truncateHistory, truncate]
  split_ifs with hnone
  · exact hnone.symm
  · simp [hnone, others, dropOver]
  · rfl
  · simp only [popOldest_eq]
    rfl

end History

open ContextManager in
/-- Truncations and the management of a context reach their targets just when no removal leaves
the count so little over the target that the constants taken off hide it. -/
theorem truncation_iff {manager : ContextManager} {cost : Text × Text → ℕ} {constant : ℕ}
    (hcounter : manager.tokenCounter = countMessages cost constant)
    (entryCost : Dict Text Text → ℕ) :
    (∀ messages targetTokens, Truncated isSystem manager.estimate (manager.target targetTokens)
        messages (manager.unwind messages targetTokens) ↔
      ClearTarget isSystem (messageCost cost) constant (manager.target targetTokens) messages) ∧
    (∀ messages maxTokens, Truncated hasSystemRole (countMessages entryCost constant) maxTokens
        messages (truncateHistory (countMessages entryCost constant) messages maxTokens) ↔
      ClearTarget hasSystemRole entryCost constant maxTokens messages) ∧
    ∀ (σ : Type) (s : σ) reply messages keepRecent, ∃ result,
      (manager.manage (fun _ _ => pure reply) messages keepRecent).run s = .ok result s ∧
        ((manager.estimate result ≤ manager.budget.effectiveLimit ∨ nonSystem result = []) ↔
          manager.MeetsLimit cost constant reply messages keepRecent) := by
  rw [estimate_eq hcounter]
  refine ⟨fun messages targetTokens => ?_, fun messages maxTokens => ?_, ?_⟩
  · rw [unwind_eq hcounter]
    exact truncated_truncate_iff _ _
  · rw [truncateHistory_eq]
    exact truncated_truncate_iff _ _
  · intro σ s reply messages keepRecent
    exact ⟨_, manage_run manager reply messages keepRecent s,
      within_managed_iff hcounter reply messages keepRecent⟩

theorem estimateTokenCounter_eq : estimateTokenCounter =
    countMessages (fun m => 4 + estimateTokens m.1 + estimateTokens m.2) 3 := rfl

def entryTokens (message : Dict Text Text) : ℕ := 4 + (message.values.map estimateTokens).sum

def shortMessages : List ChatMessage := [.say .user "a".toList, .say .user "b".toList]

theorem truncation_shortMessages :
    Truncated isSystem ({} : ContextManager).estimate 9 shortMessages
      (({} : ContextManager).unwind shortMessages (some 9)) :=
  ((@truncation_iff {} _ _ estimateTokenCounter_eq entryTokens).1 shortMessages (some 9)).mpr
    (by decide)

/-- One message of two is left for a target of eight, and it counts nine. -/
theorem not_truncated_shortMessages :
    ¬ Truncated isSystem ({} : ContextManager).estimate 8 shortMessages
      (({} : ContextManager).unwind shortMessages (some 8)) := by
  intro h
  have hfits := h.fits
  revert hfits
  decide

end Agent33.Agents
