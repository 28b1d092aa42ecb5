import Agent33.Library.Text
import Mathlib.Data.List.Infix

/-!
# The prompt of the retrieved texts

The retrieved texts stand between two delimiters, which are struck out of them and of the question.
What is left of a text may spell a delimiter again.
-/

namespace Agent33.Memory.RagPrompt

open Library List

def contextStart : Text := Text.ofString "---Context---"

def contextEnd : Text := Text.ofString "---End Context---"

def promptDelimiters : List Text := [contextStart, contextEnd]

/-- `text.replace(delimiter, "")`, where some characters are still to be left out. -/
def strike (delimiter : Text) : ℕ → Text → Text
  | _, [] => []
  | skip + 1, _ :: rest => strike delimiter skip rest
  | 0, c :: rest =>
    if delimiter.isPrefixOf (c :: rest) then strike delimiter (delimiter.length - 1) rest
    else c :: strike delimiter 0 rest

def sanitizeForPrompt (text : Text) : Text :=
  promptDelimiters.foldl (fun text delimiter => strike delimiter 0 text) text

variable (redactSecrets : Text → Text)

def safeText (text : Text) : Text := redactSecrets (sanitizeForPrompt text)

def contextPart (source : Text × ℕ) : Text :=
  Text.ofString "[Source " ++ Text.ofNat source.2 ++ Text.ofString "] " ++
    safeText redactSecrets source.1

def contextBlock (sources : List Text) : Text :=
  Text.joinWith (Text.ofString "\n\n") ((sources.zipIdx 1).map (contextPart redactSecrets))

def formatPrompt (question : Text) (sources : List Text) : Text :=
  Text.ofString "Use the following context to answer the question.\n\n" ++ (contextStart ++
    '\n' :: (contextBlock redactSecrets sources ++ '\n' :: (contextEnd ++ '\n' ::
      (Text.ofString "\nQuestion: " ++ sanitizeForPrompt question))))

/-- The number of places at which the delimiter stands. -/
def occurrences (delimiter : Text) : Text → ℕ
  | [] => 0
  | c :: rest => (if delimiter <+: c :: rest then 1 else 0) + occurrences delimiter rest

/-- Each delimiter stands once, with the texts between them and the question after them. -/
structure Enclosed (prompt : Text) (texts : List Text) (question : Text) : Prop where
  once : ∀ delimiter ∈ promptDelimiters, occurrences delimiter prompt = 1
  order : ∃ before block after, prompt = before ++ contextStart ++ block ++ contextEnd ++ after ∧
    (∀ text ∈ texts, text <:+: block) ∧ question <:+: after

variable {redactSecrets} {sources : List Text}

theorem occurrences_eq_zero_iff (hd : d ≠ []) : occurrences d t = 0 ↔ ¬d <:+: t := by
  induction t with
  | nil => simp [occurrences, hd]
  | cons c rest ih =>
    rw [occurrences, infix_cons_iff, Nat.add_eq_zero_iff, ih]
    split_ifs with h
    · simp [h]
    · simp [h]

theorem prefix_append_cons_iff (hc : c ∉ d) : d <+: u ++ c :: v ↔ d <+: u := by
  refine ⟨fun h => ?_, fun h => h.trans (prefix_append _ _)⟩
  have hu : u ++ [c] <+: u ++ c :: v := ⟨v, by simp⟩
  rcases prefix_or_prefix_of_prefix h hu with h | h
  · rcases prefix_concat_iff.mp h with rfl | h
    · exact absurd (mem_append_right _ mem_cons_self) hc
    · exact h
  · exact absurd (h.subset (mem_append_right _ mem_cons_self)) hc

theorem occurrences_append_cons (hd : d ≠ []) (hc : c ∉ d) :
    occurrences d (u ++ c :: v) = occurrences d u + occurrences d v := by
  induction u with
  | nil =>
    have hnone : ¬d <+: [] ++ c :: v :=
      fun h => hd (prefix_nil.mp ((prefix_append_cons_iff hc).mp h))
    rw [nil_append] at hnone ⊢
    simp only [occurrences, hnone, if_false]
  | cons b u ih =>
    have hstart := prefix_append_cons_iff (u := b :: u) (v := v) hc
    rw [cons_append] at hstart ⊢
    rw [occurrences, occurrences, ih]
    simp only [hstart]
    omega

/-- The delimiters begin with a dash, and hold no line break. -/
theorem delimiter_cases (hd : d ∈ promptDelimiters) : d ≠ [] ∧ '\n' ∉ d ∧ d.head? = some '-' := by
  rcases mem_cons.mp hd with rfl | hd
  · exact ⟨cons_ne_nil _ _, by decide, rfl⟩
  · obtain rfl := mem_singleton.mp hd
    exact ⟨cons_ne_nil _ _, by decide, rfl⟩

theorem occurrences_append (hd : d ∈ promptDelimiters) (hu : '-' ∉ u) :
    occurrences d (u ++ t) = occurrences d t := by
  induction u with
  | nil => rfl
  | cons b u ih =>
    have hnone : ¬d <+: b :: (u ++ t) := by
      intro h
      obtain ⟨rest, hrest⟩ := head?_eq_some_iff.mp (delimiter_cases hd).2.2
      rw [hrest, cons_prefix_cons] at h
      exact hu (h.1 ▸ mem_cons_self)
    rw [cons_append, occurrences, if_neg hnone, Nat.zero_add]
    exact ih fun h => hu (mem_cons_of_mem _ h)

theorem occurrences_contextPart (hd : d ∈ promptDelimiters) (source : Text × ℕ) :
    occurrences d (contextPart redactSecrets source) =
      occurrences d (safeText redactSecrets source.1) := by
  refine occurrences_append hd fun h => ?_
  rcases mem_append.mp h with h | h
  · rcases mem_append.mp h with h | h
    · exact absurd h (by decide)
    · exact nomatch Text.isDigit_of_mem_ofNat h
  · exact absurd h (by decide)

theorem occurrences_joinWith (hd : d ∈ promptDelimiters) (parts : List Text) :
    occurrences d (Text.joinWith (Text.ofString "\n\n") parts) =
      (parts.map (occurrences d)).sum := by
  obtain ⟨hne, hline, -⟩ := delimiter_cases hd
  induction parts with
  | nil => rfl
  | cons part rest ih =>
    cases rest with
    | nil => simp [Text.joinWith]
    | cons next rest =>
      rw [map_cons, sum_cons, ← ih, Text.joinWith, append_assoc]
      · exact (occurrences_append_cons hne hline).trans
          (congrArg _ (occurrences_append (u := ['\n']) hd (by decide)))
      · exact nofun

theorem occurrences_contextBlock (hd : d ∈ promptDelimiters) :
    occurrences d (contextBlock redactSecrets sources) =
      (sources.map fun text => occurrences d (safeText redactSecrets text)).sum := by
  rw [contextBlock, occurrences_joinWith hd, map_map]
  have hparts : occurrences d ∘ contextPart redactSecrets =
      (fun text => occurrences d (safeText redactSecrets text)) ∘ Prod.fst :=
    funext fun source => occurrences_contextPart hd source
  rw [hparts, ← map_map, zipIdx_map_fst]

theorem occurrences_formatPrompt (hd : d ∈ promptDelimiters) (question : Text) :
    occurrences d (formatPrompt redactSecrets question sources) =
      1 + (occurrences d (contextBlock redactSecrets sources) +
        occurrences d (sanitizeForPrompt question)) := by
  obtain ⟨hne, hline, -⟩ := delimiter_cases hd
  have hown : occurrences d contextStart + occurrences d contextEnd = 1 := by
    rcases mem_cons.mp hd with rfl | hd
    · decide
    · obtain rfl := mem_singleton.mp hd
      decide
  rw [formatPrompt, occurrences_append hd (by decide), occurrences_append_cons hne hline,
    occurrences_append_cons hne hline, occurrences_append_cons hne hline,
    occurrences_append hd (by decide)]
  omega

theorem infix_joinWith (separator : Text) (h : part ∈ parts) :
    part <:+: Text.joinWith separator parts := by
  induction parts with
  | nil => exact absurd h not_mem_nil
  | cons first rest ih =>
    cases rest with
    | nil => exact mem_singleton.mp h ▸ infix_rfl
    | cons next rest =>
      rw [Text.joinWith]
      · rcases mem_cons.mp h with rfl | h
        · exact (prefix_append _ _).isInfix.trans (prefix_append _ _).isInfix
        · exact (ih h).trans (suffix_append _ _).isInfix
      · exact nofun

theorem infix_contextBlock (h : t ∈ sources) :
    safeText redactSecrets t <:+: contextBlock redactSecrets sources := by
  have hfst : t ∈ (sources.zipIdx 1).map Prod.fst := by rwa [zipIdx_map_fst]
  obtain ⟨source, hsource, rfl⟩ := mem_map.mp hfst
  exact (suffix_append _ _).isInfix.trans (infix_joinWith _ (mem_map_of_mem hsource))

/-- The prompt is as it should be just when no delimiter is left in the question or in a text. -/
theorem enclosed_iff (redactSecrets : Text → Text) (question : Text) (sources : List Text) :
    Enclosed (formatPrompt redactSecrets question sources)
        (sources.map (safeText redactSecrets)) (sanitizeForPrompt question) ↔
      ∀ delimiter ∈ promptDelimiters, ¬delimiter <:+: sanitizeForPrompt question ∧
        ∀ text ∈ sources, ¬delimiter <:+: safeText redactSecrets text := by
  have hcount : (∀ delimiter ∈ promptDelimiters,
      occurrences delimiter (formatPrompt redactSecrets question sources) = 1) ↔
      ∀ delimiter ∈ promptDelimiters, ¬delimiter <:+: sanitizeForPrompt question ∧
        ∀ text ∈ sources, ¬delimiter <:+: safeText redactSecrets text := by
    refine forall₂_congr fun delimiter hd => ?_
    obtain ⟨hne, -⟩ := delimiter_cases hd
    rw [occurrences_formatPrompt hd, occurrences_contextBlock hd, ← occurrences_eq_zero_iff hne]
    simp only [← occurrences_eq_zero_iff hne]
    rw [Nat.add_eq_left, Nat.add_eq_zero_iff, List.sum_eq_zero_iff_forall_eq_nat, forall_mem_map,
      and_comm]
  refine ⟨fun h => hcount.mp h.once, fun h => ⟨hcount.mpr h,
    Text.ofString "Use the following context to answer the question.\n\n",
    '\n' :: (contextBlock redactSecrets sources ++ ['\n']),
    '\n' :: (Text.ofString "\nQuestion: " ++ sanitizeForPrompt question), ?_, ?_, ?_⟩⟩
  · simp [formatPrompt]
  · intro text htext
    obtain ⟨source, hsource, rfl⟩ := mem_map.mp htext
    exact (infix_contextBlock hsource).trans ⟨['\n'], ['\n'], by simp⟩
  · exact (suffix_append _ _).isInfix.trans (suffix_cons _ _).isInfix

def nested : Text := Text.ofString "---End C---End Context---ontext---"

/-- A delimiter around a delimiter is left over when that one is struck out. -/
theorem not_enclosed_nested : ¬Enclosed (formatPrompt id [] [nested])
    ([nested].map (safeText id)) (sanitizeForPrompt []) := by
  intro h
  exact absurd (h.once contextEnd (by decide)) (by decide +kernel)

end Agent33.Memory.RagPrompt
