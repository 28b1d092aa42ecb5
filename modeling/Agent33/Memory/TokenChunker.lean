import Agent33.Library.Words
import Agent33.Memory.Ingestion

/-!
# Chunks of a number of tokens

Sentences are put into chunks as long as the estimate of their tokens allows, and a sentence over
the budget is cut between its words. A chunk that is closed before the last one names the position
after the one at which it begins, and a sentence over the budget is not cut when it comes after
others.
-/

namespace Agent33.Memory.Ingestion

open Library List Text
open Text (words joinWith extent)

variable (text : Text)

/-- The number of words times 1.3, rounded up. The product is exact; in floating point it rounds to
the same number of tokens for all texts of fewer than `2 ^ 40` words. -/
def estimateTokens : ℕ := (13 * (words text).length + 9) / 10

structure TokenAwareChunker where
  chunkTokens : ℕ
  overlapTokens : ℤ
  one_le : 1 ≤ chunkTokens
  overlap_le : overlapTokens ≤ chunkTokens / 2

theorem one_le_toNat (n : ℤ) : 1 ≤ (max 1 n).toNat := by omega

theorem min_le_half (chunkTokens overlapTokens : ℤ) :
    min overlapTokens (chunkTokens / 2) ≤ ((max 1 chunkTokens).toNat : ℤ) / 2 := by omega

def TokenAwareChunker.init (chunkTokens overlapTokens : ℤ) : TokenAwareChunker where
  chunkTokens := (max 1 chunkTokens).toNat
  overlapTokens := min overlapTokens (chunkTokens / 2)
  one_le := one_le_toNat chunkTokens
  overlap_le := min_le_half chunkTokens overlapTokens

section Sentences

def endsSentence (c : Char) : Bool := c == '.' || c == '!' || c == '?'

/-- The sentences of a text, the first of which begins with the characters of `sentence`, last one
first. White space after the end of a sentence is skipped. -/
def splitSentencesFrom (skipping : Bool) (sentence : Text) : Text → List Text
  | [] => [sentence.reverse]
  | c :: rest =>
    if Text.isSpace c then
      if skipping then splitSentencesFrom true sentence rest
      else if sentence.head?.any endsSentence then
        sentence.reverse :: splitSentencesFrom true [] rest
      else splitSentencesFrom false (c :: sentence) rest
    else splitSentencesFrom false (c :: sentence) rest

def splitSentences : List Text := splitSentencesFrom false [] text

variable (skipping : Bool) (sentence text : Text)

theorem splitSentencesFrom_ne_nil : splitSentencesFrom skipping sentence text ≠ [] := by
  fun_induction splitSentencesFrom skipping sentence text with
  | case1 => exact cons_ne_nil _ _
  | case2 _ _ _ _ ih => exact ih
  | case3 => exact cons_ne_nil _ _
  | case4 _ _ _ _ _ _ _ ih => exact ih
  | case5 _ _ _ _ _ ih => exact ih

theorem splitSentencesFrom_ended :
    ∀ s ∈ (splitSentencesFrom skipping sentence text).dropLast,
      s.getLast?.any endsSentence = true := by
  fun_induction splitSentencesFrom skipping sentence text with
  | case1 => simp
  | case2 _ _ _ _ ih => exact ih
  | case3 skipping sentence c rest hspace hskip hend ih =>
    rw [dropLast_cons_of_ne_nil (splitSentencesFrom_ne_nil true [] rest), forall_mem_cons]
    exact ⟨by rwa [getLast?_reverse], ih⟩
  | case4 _ _ _ _ _ _ _ ih => exact ih
  | case5 _ _ _ _ _ ih => exact ih

theorem mem_splitSentencesFrom :
    ∀ s ∈ splitSentencesFrom skipping sentence text, ∀ c ∈ s, c ∈ sentence ∨ c ∈ text := by
  fun_induction splitSentencesFrom skipping sentence text with
  | case1 => simp
  | case2 => grind
  | case3 => grind
  | case4 => grind
  | case5 => grind

end Sentences

structure ChunkState where
  chunks : List Chunk
  current : List Text
  currentTokens : ℕ
  idx : ℕ
  charOffset : ℕ

def tokenChunk (texts : List Text) (idx : ℕ) (startChar : ℤ) (tokens : ℕ) (strategy : String) :
    Chunk where
  text := joinWith [' '] texts
  index := idx
  metadata := Dict.ofList
    [("start_char", .int startChar), ("tokens_est", .int tokens), ("strategy", .str strategy)]

namespace ChunkState

variable (s : ChunkState)

def wordChunk : Chunk :=
  tokenChunk s.current s.idx s.charOffset s.currentTokens "token_aware_forced"

def closeWords : ChunkState where
  chunks := s.chunks ++ [s.wordChunk]
  current := []
  currentTokens := 0
  idx := s.idx + 1
  charOffset := s.charOffset + (joinWith [' '] s.current).length + 1

def sentenceChunk (startChar : ℤ) : Chunk :=
  tokenChunk s.current s.idx startChar s.currentTokens "token_aware"

def closeSentences (overlapTokens : ℤ) : ChunkState :=
  let overlap := keepFrom estimateTokens overlapTokens s.current.reverse [] 0
  { s with
    chunks := s.chunks ++ [s.sentenceChunk (s.charOffset - (joinWith [' '] s.current).length)]
    current := overlap.1
    currentTokens := overlap.2
    idx := s.idx + 1 }

def append : ChunkState :=
  { s with
    current := s.current ++ [text], currentTokens := s.currentTokens + estimateTokens text }

def flushSentences : List Chunk :=
  if s.current = [] then s.chunks
  else
    s.chunks ++ [s.sentenceChunk (max 0 (s.charOffset - (joinWith [' '] s.current).length - 1))]

end ChunkState

namespace TokenAwareChunker

variable (t : TokenAwareChunker)

def addWord (s : ChunkState) (word : Text) : ChunkState :=
  (if t.chunkTokens < s.currentTokens + estimateTokens word ∧ s.current ≠ [] then s.closeWords
    else s).append word

def forceSplit (startIdx charOffset : ℕ) : List Chunk :=
  let s := (words text).foldl t.addWord ⟨[], [], 0, startIdx, charOffset⟩
  if s.current = [] then s.chunks else s.chunks ++ [s.wordChunk]

def addSentence (s : ChunkState) (sentence : Text) : ChunkState :=
  if t.chunkTokens < estimateTokens sentence ∧ s.current = [] then
    let forced := t.forceSplit sentence s.idx s.charOffset
    { s with
      chunks := s.chunks ++ forced
      idx := s.idx + forced.length
      charOffset := s.charOffset + sentence.length + 1 }
  else
    let s' := if t.chunkTokens < s.currentTokens + estimateTokens sentence ∧ s.current ≠ [] then
      s.closeSentences t.overlapTokens else s
    { s'.append sentence with charOffset := s.charOffset + sentence.length + 1 }

def chunkText : List Chunk :=
  if text = [] ∨ Text.strip text = [] then []
  else ((splitSentences text).foldl t.addSentence ⟨[], [], 0, 0, 0⟩).flushSentences

end TokenAwareChunker

def FitsBudget (chunkTokens : ℕ) (text : Text) : Prop :=
  estimateTokens text ≤ chunkTokens ∨ (words text).length = 1

instance (chunkTokens : ℕ) (text : Text) : Decidable (FitsBudget chunkTokens text) :=
  inferInstanceAs (Decidable (_ ∨ _))

def Locates (chunk : Chunk) : Prop :=
  ∃ start : ℤ, chunk.metadata.get? "start_char" = some (.int start) ∧
    slice text start (start + chunk.text.length) = chunk.text

/-- The texts of chunks cover sentences in order, the last of them by some that are given. Each
chunk has new sentences after some of the last ones of the chunk before it, or some of the words of
a sentence that several chunks cover. -/
inductive Covers : List Text → List Text → List Text → Prop
  | nil : Covers [] [] []
  | words {done texts last sentence} {groups : List (List Text)} : Covers done texts last →
      groups.flatten = words sentence →
      Covers (done ++ [sentence]) (texts ++ groups.map (joinWith [' '])) []
  | sentences {done texts last kept news} : Covers done texts last → kept <:+ last → news ≠ [] →
      Covers (done ++ news) (texts ++ [joinWith [' '] (kept ++ news)]) (kept ++ news)

def SingleSpaced : Prop := text = joinWith [' '] (splitSentences text)

instance (text : Text) : Decidable (SingleSpaced text) := inferInstanceAs (Decidable (_ = _))

structure Meets (chunkTokens : ℕ) (text : Text) (chunks : List Chunk) : Prop where
  budget : ∀ chunk ∈ chunks, FitsBudget chunkTokens chunk.text
  covered : Text.strip text ≠ [] →
    ∃ last, Covers (splitSentences text) (chunks.map Chunk.text) last
  located : SingleSpaced text → ∀ chunk ∈ chunks, Locates text chunk

section Estimate

theorem estimateTokens_word (h : Text.IsWord word) : estimateTokens word = 2 := by
  simp [estimateTokens, h.words_eq]

theorem estimateTokens_mono {text text' : Text}
    (h : (words text).length ≤ (words text').length) :
    estimateTokens text ≤ estimateTokens text' := by
  unfold estimateTokens
  omega

theorem estimateTokens_joinWith (texts : List Text) :
    estimateTokens (joinWith [' '] texts) ≤ weight estimateTokens texts := by
  rw [estimateTokens, words_joinWith]
  induction texts with
  | nil => simp
  | cons text texts ih =>
    rw [flatMap_cons, length_append, weight_cons, estimateTokens]
    omega

theorem length_words_suffix (h : texts <:+ texts') :
    (words (joinWith [' '] texts)).length ≤ (words (joinWith [' '] texts')).length := by
  obtain ⟨front, rfl⟩ := h
  simp [words_joinWith]

theorem FitsBudget.suffix (hsuffix : texts <:+ texts')
    (h : FitsBudget c (joinWith [' '] texts')) : FitsBudget c (joinWith [' '] texts) := by
  have hle := length_words_suffix hsuffix
  rcases h with h | h
  · exact .inl ((estimateTokens_mono hle).trans h)
  · rcases Nat.lt_or_eq_of_le (hle.trans_eq h) with hnone | hone
    · left
      rw [estimateTokens, Nat.lt_one_iff.mp hnone]
      exact Nat.zero_le c
    · exact .inr hone

theorem FitsBudget.of_weight
    (h : weight estimateTokens texts ≤ c) : FitsBudget c (joinWith [' '] texts) :=
  .inl ((estimateTokens_joinWith texts).trans h)

end Estimate

section Forced

variable (t : TokenAwareChunker)

def forcedChunks : ℕ → ℕ → List (List Text) → List Chunk
  | _, _, [] => []
  | idx, offset, group :: groups =>
    tokenChunk group idx offset (weight estimateTokens group) "token_aware_forced" ::
      forcedChunks (idx + 1) (offset + (joinWith [' '] group).length + 1) groups

theorem forcedChunks_append (idx offset : ℕ) (groups groups' : List (List Text)) :
    forcedChunks idx offset (groups ++ groups') =
      forcedChunks idx offset groups ++
        forcedChunks (idx + groups.length) (offset + extent (groups.map (joinWith [' '])))
          groups' := by
  induction groups generalizing idx offset with
  | nil => rfl
  | cons group groups ih =>
    rw [cons_append, forcedChunks, ih, forcedChunks, cons_append, map_cons,
      extent_cons, length_cons]
    congr 3 <;> omega

theorem map_text_forcedChunks (idx offset : ℕ) (groups : List (List Text)) :
    (forcedChunks idx offset groups).map Chunk.text = groups.map (joinWith [' ']) := by
  induction groups generalizing idx offset with
  | nil => rfl
  | cons group groups ih =>
    rw [forcedChunks, map_cons, ih]
    rfl

structure ForcedState (idx offset : ℕ) (p : Packing Text) (s : ChunkState) : Prop where
  chunks : s.chunks = forcedChunks idx offset p.groups
  current : s.current = p.current
  currentTokens : s.currentTokens = weight estimateTokens p.current
  idx : s.idx = idx + p.groups.length
  charOffset : s.charOffset = offset + extent (p.groups.map (joinWith [' ']))

variable {t}

section

variable {idx offset : ℕ} {p : Packing Text} {s : ChunkState} (h : ForcedState idx offset p s)
include h

theorem ForcedState.wordChunk :
    s.chunks ++ [s.wordChunk] = forcedChunks idx offset (p.groups ++ [p.current]) := by
  rw [forcedChunks_append, h.chunks, ChunkState.wordChunk, h.current, h.currentTokens, h.idx,
    h.charOffset]
  rfl

open ChunkState in
theorem ForcedState.addWord (word : Text) :
    ForcedState idx offset (p.add estimateTokens t.chunkTokens (-1) word) (t.addWord s word) := by
  rw [TokenAwareChunker.addWord, Packing.add, h.currentTokens, h.current]
  split
  · rw [keepLast_of_neg (by decide)]
    refine ⟨h.wordChunk, rfl, ?_, ?_, ?_⟩
    · simp [append, closeWords]
    · simp [append, closeWords, h.idx, Nat.add_assoc]
    · simp [append, closeWords, h.charOffset, h.current, Nat.add_assoc]
  · refine ⟨h.chunks, ?_, ?_, h.idx, h.charOffset⟩
    · simp [append, h.current]
    · simp [append, h.currentTokens]

end

theorem forceSplit_eq (startIdx charOffset : ℕ) :
    t.forceSplit text startIdx charOffset = forcedChunks startIdx charOffset
      (pack estimateTokens t.chunkTokens (-1) (words text)) := by
  have hrun : ∀ (ws : List Text) {p s}, ForcedState startIdx charOffset p s →
      ForcedState startIdx charOffset
        (ws.foldl (Packing.add estimateTokens t.chunkTokens (-1)) p) (ws.foldl t.addWord s) := by
    intro ws
    induction ws with
    | nil => exact fun h => h
    | cons word ws ih => exact fun h => ih (h.addWord word)
  have h := hrun (words text) (p := .nil) (s := ⟨[], [], 0, startIdx, charOffset⟩)
    ⟨rfl, rfl, rfl, rfl, rfl⟩
  rw [TokenAwareChunker.forceSplit, pack, Packing.flush]
  simp only [h.current]
  split
  · exact h.chunks
  · exact h.wordChunk

def forcedSentences (t : TokenAwareChunker) : ℕ → ℕ → List Text → List Chunk
  | _, _, [] => []
  | idx, offset, sentence :: sentences =>
    t.forceSplit sentence idx offset ++ forcedSentences t
      (idx + (t.forceSplit sentence idx offset).length) (offset + sentence.length + 1) sentences

theorem foldl_addSentence_forced {sentences : List Text}
    (h : ∀ sentence ∈ sentences, t.chunkTokens < estimateTokens sentence) (chunks : List Chunk)
    (idx offset : ℕ) :
    sentences.foldl t.addSentence ⟨chunks, [], 0, idx, offset⟩ =
      ⟨chunks ++ forcedSentences t idx offset sentences, [], 0,
        idx + (forcedSentences t idx offset sentences).length, offset + extent sentences⟩ := by
  induction sentences generalizing chunks idx offset with
  | nil => simp [forcedSentences]
  | cons sentence sentences ih =>
    obtain ⟨hsentence, hsentences⟩ := forall_mem_cons.mp h
    rw [foldl_cons, TokenAwareChunker.addSentence, if_pos ⟨hsentence, rfl⟩, ih hsentences]
    simp [forcedSentences, Nat.add_assoc]

theorem map_text_forcedSentences (idx offset : ℕ) (sentences : List Text) :
    (forcedSentences t idx offset sentences).map Chunk.text = sentences.flatMap fun sentence =>
      (pack estimateTokens t.chunkTokens (-1) (words sentence)).map (joinWith [' ']) := by
  induction sentences generalizing idx offset with
  | nil => rfl
  | cons sentence sentences ih =>
    rw [forcedSentences, map_append, ih, forceSplit_eq, map_text_forcedChunks,
      flatMap_cons]

end Forced

section Loop

variable {t : TokenAwareChunker}

/-- The state of the loop over sentences, from the first one on that is within the budget, is that
of packing them. -/
structure SentenceState (forced : List Chunk) (start : ℕ) (done : List Text) (p : Packing Text)
    (s : ChunkState) : Prop where
  chunks : ∃ closed, s.chunks = forced ++ closed ∧
    closed.map Chunk.text = p.groups.map (joinWith [' '])
  current : s.current = p.current
  currentTokens : s.currentTokens = weight estimateTokens p.current
  charOffset : s.charOffset = start + extent done

open ChunkState in
theorem SentenceState.addSentence (h : SentenceState forced start done p s)
    (hfits : s.current = [] → estimateTokens sentence ≤ t.chunkTokens) :
    SentenceState forced start (done ++ [sentence])
      (p.add estimateTokens t.chunkTokens t.overlapTokens sentence) (t.addSentence s sentence) := by
  obtain ⟨closed, hchunks, htexts⟩ := h.chunks
  have hoffset : s.charOffset + sentence.length + 1 = start + extent (done ++ [sentence]) := by
    simp only [h.charOffset, extent_append, extent_cons, extent_nil]
    omega
  rw [TokenAwareChunker.addSentence, if_neg fun hover => by have := hfits hover.2; omega,
    Packing.add, h.currentTokens, h.current]
  split
  · refine ⟨⟨closed ++ [s.sentenceChunk (s.charOffset - (joinWith [' '] s.current).length)],
      ?_, ?_⟩, ?_, ?_, hoffset⟩
    · simp [append, closeSentences, hchunks]
    · rw [map_append, map_append, htexts, ← h.current]
      rfl
    · simp [append, closeSentences, h.current, keepLast_total]
    · simp [append, closeSentences, h.current, keepLast_total]
  · refine ⟨⟨closed, hchunks, htexts⟩, ?_, ?_, hoffset⟩
    · simp [append, h.current]
    · simp [append, h.currentTokens]

theorem SentenceState.foldl_addSentence {forced : List Chunk} {idx start : ℕ}
    (hhead : ∀ sentence ∈ sentences.head?, estimateTokens sentence ≤ t.chunkTokens) :
    SentenceState forced start sentences
      (sentences.foldl (Packing.add estimateTokens t.chunkTokens t.overlapTokens) .nil)
      (sentences.foldl t.addSentence ⟨forced, [], 0, idx, start⟩) := by
  induction sentences using List.reverseRecOn with
  | nil => exact ⟨⟨[], by simp, rfl⟩, rfl, rfl, rfl⟩
  | append_singleton sentences sentence ih =>
    rw [foldl_append, foldl_append]
    have hstate := ih fun first hfirst => hhead first (by
      rw [head?_append_of_ne_nil]
      · exact hfirst
      · rintro rfl
        cases hfirst)
    apply hstate.addSentence
    intro hnone
    by_cases hfirst : sentences = []
    · exact hhead sentence (by rw [hfirst]; rfl)
    · rw [hstate.current] at hnone
      exact absurd hnone (Packing.current_foldl_add_ne hfirst .nil)

theorem chunks_addSentence (s : ChunkState) (sentence : Text) :
    s.chunks <+: (t.addSentence s sentence).chunks := by
  rw [TokenAwareChunker.addSentence]
  split
  · exact prefix_append _ _
  · split
    · exact prefix_append _ _
    · exact prefix_rfl

theorem mem_flushSentences (h : chunk ∈ s.chunks)
    (sentences : List Text) :
    chunk ∈ (sentences.foldl t.addSentence s).flushSentences := by
  induction sentences generalizing s with
  | nil =>
    rw [foldl_nil, ChunkState.flushSentences]
    split
    · exact h
    · exact mem_append_left _ h
  | cons sentence sentences ih => exact ih ((chunks_addSentence s sentence).subset h)

end Loop

namespace TokenAwareChunker

variable (t : TokenAwareChunker) (text : Text)

def leadingSentences : List Text :=
  (splitSentences text).takeWhile fun sentence => t.chunkTokens < estimateTokens sentence

def packedSentences : List Text :=
  (splitSentences text).dropWhile fun sentence => t.chunkTokens < estimateTokens sentence

theorem leading_append_packed :
    t.leadingSentences text ++ t.packedSentences text = splitSentences text :=
  takeWhile_append_dropWhile

theorem leadingSentences_over :
    ∀ sentence ∈ t.leadingSentences text, t.chunkTokens < estimateTokens sentence := by
  intro sentence h
  have hover := mem_takeWhile_imp
    (p := fun sentence => decide (t.chunkTokens < estimateTokens sentence)) h
  simpa using hover

theorem head_packedSentences :
    ∀ sentence ∈ (t.packedSentences text).head?, estimateTokens sentence ≤ t.chunkTokens := by
  intro sentence h
  have hover := head?_dropWhile_not
    (fun sentence => decide (t.chunkTokens < estimateTokens sentence)) (splitSentences text)
  rw [packedSentences] at h
  rw [h] at hover
  simpa using hover

def leadingChunks : List Chunk := forcedSentences t 0 0 (t.leadingSentences text)

def leadingState : ChunkState :=
  ⟨t.leadingChunks text, [], 0, (t.leadingChunks text).length, extent (t.leadingSentences text)⟩

theorem sentenceState {before after : List Text} (h : t.packedSentences text = before ++ after) :
    SentenceState (t.leadingChunks text) (extent (t.leadingSentences text)) before
      (before.foldl (Packing.add estimateTokens t.chunkTokens t.overlapTokens) .nil)
      (before.foldl t.addSentence (t.leadingState text)) := by
  apply SentenceState.foldl_addSentence
  intro sentence hsentence
  apply t.head_packedSentences text
  cases before with
  | nil => cases hsentence
  | cons first rest => rwa [h]

theorem chunkText_eq {text : Text} (htext : strip text ≠ []) :
    t.chunkText text =
      ((t.packedSentences text).foldl t.addSentence (t.leadingState text)).flushSentences := by
  rw [chunkText, if_neg (by rintro (rfl | h); exacts [htext rfl, htext h]),
    ← t.leading_append_packed, foldl_append,
    foldl_addSentence_forced (t.leadingSentences_over text)]
  simp [leadingState, leadingChunks]

theorem map_text_chunkText {text : Text} (htext : strip text ≠ []) :
    (t.chunkText text).map Chunk.text =
      (t.leadingChunks text).map Chunk.text ++
        (pack estimateTokens t.chunkTokens t.overlapTokens (t.packedSentences text)).map
          (joinWith [' ']) := by
  have hstate := t.sentenceState text (append_nil _).symm
  rw [t.chunkText_eq htext, pack, ChunkState.flushSentences, Packing.flush]
  obtain ⟨closed, hchunks, htexts⟩ := hstate.chunks
  rw [hstate.current, hchunks]
  split
  · rw [map_append, htexts]
  · rw [map_append, map_append, map_append, htexts, append_assoc,
      ChunkState.sentenceChunk, hstate.current]
    rfl

def Carries : Prop :=
  CarriesWithin estimateTokens t.overlapTokens
    (fun sentences => FitsBudget t.chunkTokens (joinWith [' '] sentences)) (t.packedSentences text)

theorem forall_fits_iff (o : ℤ) (texts : List Text) :
    (∀ group ∈ pack estimateTokens t.chunkTokens o texts,
      FitsBudget t.chunkTokens (joinWith [' '] group)) ↔
    CarriesWithin estimateTokens o
      (fun group => FitsBudget t.chunkTokens (joinWith [' '] group)) texts :=
  forall_pack_iff (fun _ => .of_weight) (fun _ _ hsuffix _ h => h.suffix hsuffix) texts

theorem fits_forced (sentence : Text) :
    ∀ group ∈ pack estimateTokens t.chunkTokens (-1) (words sentence),
      FitsBudget t.chunkTokens (joinWith [' '] group) := by
  rw [forall_fits_iff]
  intro kept word hblock hkept
  obtain rfl := hkept.resolve_right (by omega)
  have hword := isWord_of_mem_words (hblock.subset mem_cons_self)
  right
  simp [joinWith, hword.words_eq]

theorem budget_iff {text : Text} (htext : strip text ≠ []) :
    (∀ chunk ∈ t.chunkText text, FitsBudget t.chunkTokens chunk.text) ↔ t.Carries text := by
  have htexts := t.map_text_chunkText htext
  rw [Carries, ← forall_fits_iff]
  have hleading : ∀ chunk ∈ (t.leadingChunks text).map Chunk.text,
      FitsBudget t.chunkTokens chunk := by
    intro chunk hchunk
    rw [leadingChunks, map_text_forcedSentences] at hchunk
    obtain ⟨sentence, -, hgroups⟩ := mem_flatMap.mp hchunk
    obtain ⟨group, hgroup, rfl⟩ := mem_map.mp hgroups
    exact t.fits_forced sentence group hgroup
  rw [← forall_mem_map (f := Chunk.text) (P := FitsBudget t.chunkTokens), htexts,
    forall_mem_append]
  exact (and_iff_right hleading).trans forall_mem_map

theorem covers_leading (sentences : List Text) :
    Covers sentences (sentences.flatMap fun sentence =>
      (pack estimateTokens t.chunkTokens (-1) (words sentence)).map (joinWith [' '])) [] := by
  induction sentences using List.reverseRecOn with
  | nil => exact .nil
  | append_singleton sentences sentence ih =>
    rw [flatMap_append, flatMap_singleton]
    exact .words ih (flatten_pack (by decide) (words sentence))

theorem Covers.append (hdone : Covers done texts [])
    (h : Overlapping sentences groups last) :
    Covers (done ++ sentences) (texts ++ groups.map (joinWith [' '])) last := by
  induction h with
  | nil => simpa using hdone
  | snoc _ hkept hnews ih =>
    rw [← append_assoc, map_append, ← append_assoc]
    exact .sentences ih hkept hnews

theorem chunkText_covers {text : Text} (htext : strip text ≠ []) :
    ∃ last, Covers (splitSentences text) ((t.chunkText text).map Chunk.text) last := by
  obtain ⟨last, hpacked⟩ :=
    pack_overlapping estimateTokens t.chunkTokens t.overlapTokens (t.packedSentences text)
  rw [t.map_text_chunkText htext, leadingChunks, map_text_forcedSentences,
    ← t.leading_append_packed]
  exact ⟨last, Covers.append (t.covers_leading _) hpacked⟩

end TokenAwareChunker

section Located

variable {t : TokenAwareChunker} {text : Text}

theorem locates_iff (texts : List Text) (idx start tokens : ℕ) (strategy : String) :
    Locates text (tokenChunk texts idx start tokens strategy) ↔
      joinWith [' '] texts <+: text.drop start := by
  have hstart : (tokenChunk texts idx start tokens strategy).metadata.get? "start_char" =
      some (.int start) := by
    simp [tokenChunk, Dict.ofList]
  rw [Locates, hstart, prefix_iff_eq_take]
  constructor
  · rintro ⟨_, hsame, hslice⟩
    obtain rfl := MetadataValue.int.inj (Option.some.inj hsame)
    rw [← Int.natCast_add, slice_natCast, drop_take, Nat.add_sub_cancel_left] at hslice
    exact hslice.symm
  · intro h
    refine ⟨start, rfl, ?_⟩
    rw [← Int.natCast_add, slice_natCast, drop_take, Nat.add_sub_cancel_left]
    exact h.symm

theorem forall_locates_forcedChunks (idx offset : ℕ) (groups : List (List Text)) :
    (∀ chunk ∈ forcedChunks idx offset groups, Locates text chunk) ↔
      Text.Stands (groups.map (joinWith [' '])) (text.drop offset) := by
  induction groups generalizing idx offset with
  | nil => simp [forcedChunks, Text.Stands]
  | cons group groups ih =>
    rw [forcedChunks, forall_mem_cons, ih, locates_iff, map_cons, Text.Stands,
      drop_drop, Nat.add_assoc]

theorem forall_locates_forceSplit
    (hover : t.chunkTokens < estimateTokens sentence) (hrest : text.drop offset = sentence ++ rest)
    (idx : ℕ) :
    (∀ chunk ∈ t.forceSplit sentence idx offset, Locates text chunk) ↔
      Text.WellSpaced (max 1 (t.chunkTokens / 2)) sentence := by
  cases hwords : words sentence with
  | nil => simp [estimateTokens, hwords] at hover
  | cons word ws =>
    have htwo : ∀ w ∈ words sentence, estimateTokens w = 2 := fun w hw =>
      estimateTokens_word (isWord_of_mem_words hw)
    rw [hwords, forall_mem_cons] at htwo
    rw [forceSplit_eq, forall_locates_forcedChunks, hwords,
      pack_const (by decide) (by decide) htwo.1 htwo.2, hrest]
    exact stands_words_iff (by omega) hwords rest

theorem drop_sentence (sentence : Text) (rest : List Text) :
    (joinWith [' '] (sentence :: rest)).drop (sentence.length + 1) = joinWith [' '] rest := by
  by_cases hnone : rest = []
  · simp [hnone, joinWith]
  · rw [joinWith_cons [' '] sentence hnone]
    exact drop_left' (by simp)

theorem forall_locates_forcedSentences
    (hover : ∀ sentence ∈ sentences, t.chunkTokens < estimateTokens sentence)
    (hrest : text.drop offset = joinWith [' '] (sentences ++ rest)) (idx : ℕ) :
    (∀ chunk ∈ forcedSentences t idx offset sentences, Locates text chunk) ↔
      ∀ sentence ∈ sentences, Text.WellSpaced (max 1 (t.chunkTokens / 2)) sentence := by
  induction sentences generalizing idx offset with
  | nil => simp [forcedSentences]
  | cons sentence sentences ih =>
    obtain ⟨hsentence, hsentences⟩ := forall_mem_cons.mp hover
    have hfirst : ∃ more, text.drop offset = sentence ++ more := by
      rw [hrest, cons_append]
      by_cases hnone : sentences ++ rest = []
      · exact ⟨[], by simp [hnone, joinWith]⟩
      · exact ⟨[' '] ++ joinWith [' '] (sentences ++ rest), by
          rw [joinWith_cons [' '] sentence hnone, append_assoc]⟩
    obtain ⟨more, hmore⟩ := hfirst
    have hnext : text.drop (offset + sentence.length + 1) = joinWith [' '] (sentences ++ rest) := by
      rw [Nat.add_assoc, ← drop_drop, hrest, cons_append, drop_sentence]
    rw [forcedSentences, forall_mem_append, ih hsentences hnext,
      forall_locates_forceSplit hsentence hmore, forall_mem_cons]

theorem forall_locates_of_le (htext : strip text ≠ []) (hspaced : SingleSpaced text)
    (hle : weight estimateTokens (t.packedSentences text) ≤ t.chunkTokens)
    (hleading : ∀ chunk ∈ t.leadingChunks text, Locates text chunk) :
    ∀ chunk ∈ t.chunkText text, Locates text chunk := by
  have hstate := t.sentenceState text (append_nil _).symm
  rw [Packing.foldl_add_of_le hle] at hstate
  obtain ⟨closed, hchunks, htexts⟩ := hstate.chunks
  rw [map_nil, map_eq_nil_iff] at htexts
  rw [htexts, append_nil] at hchunks
  rw [t.chunkText_eq htext, ChunkState.flushSentences, hstate.current, hchunks]
  split
  · exact hleading
  · rename_i hsome
    have hstart : max 0 (((extent (t.leadingSentences text) + extent (t.packedSentences text) : ℕ) :
        ℤ) - (joinWith [' '] (t.packedSentences text)).length - 1) =
        (extent (t.leadingSentences text) : ℕ) := by
      have hlength : (joinWith [' '] (t.packedSentences text)).length + 1 =
        extent (t.packedSentences text) := length_joinWith hsome
      omega
    rw [forall_mem_append, forall_mem_singleton, hstate.charOffset, hstart,
      ChunkState.sentenceChunk, locates_iff, hstate.current]
    refine ⟨hleading, ?_⟩
    have hdrop := drop_joinWith (t.leadingSentences text) hsome
    rw [t.leading_append_packed, ← hspaced] at hdrop
    rw [hdrop]

theorem joinWith_getLast (hne : texts ≠ [])
    (h : (texts.getLast hne).getLast?.any endsSentence = true) :
    (joinWith [' '] texts).getLast?.any endsSentence = true := by
  induction texts with
  | nil => exact absurd rfl hne
  | cons text texts ih =>
    by_cases hnone : texts = []
    · subst hnone
      exact h
    · rw [getLast_cons hnone] at h
      have hlast := ih hnone h
      rw [joinWith_cons [' '] text hnone, getLast?_append]
      cases hget : (joinWith [' '] texts).getLast? with
      | none =>
        rw [hget] at hlast
        cases hlast
      | some c =>
        rw [hget] at hlast
        exact hlast

theorem not_prefix_shifted (h : text.getLast?.any endsSentence = true)
    (rest : Text) : ¬ text <+: (text ++ [' '] ++ rest).drop 1 := by
  intro hprefix
  cases text with
  | nil => cases h
  | cons c text =>
    have heq := prefix_iff_eq_take.mp hprefix
    rw [append_assoc, cons_append, drop_one, tail_cons, ← append_assoc,
      take_left' (by simp)] at heq
    rw [heq] at h
    simp [endsSentence] at h

theorem not_locates_closed (htext : strip text ≠ []) (hspaced : SingleSpaced text)
    (hover : t.chunkTokens < weight estimateTokens (t.packedSentences text)) :
    ∃ chunk ∈ t.chunkText text, ¬ Locates text chunk := by
  obtain ⟨before, sentence, after, hpacked, hle, hsentence⟩ := Packing.exists_over hover
  have hhead := t.head_packedSentences text
  rw [hpacked] at hhead
  have hbefore : before ≠ [] := by
    rintro rfl
    have := hhead sentence rfl
    rw [weight_nil] at hsentence
    omega
  have hstate := t.sentenceState text hpacked
  rw [Packing.foldl_add_of_le hle] at hstate
  have hchunks := t.chunkText_eq htext
  rw [hpacked, foldl_append, foldl_cons] at hchunks
  generalize before.foldl t.addSentence (t.leadingState text) = s at hstate hchunks
  have hclosed : s.sentenceChunk (s.charOffset - (joinWith [' '] s.current).length) ∈
      (t.addSentence s sentence).chunks := by
    rw [TokenAwareChunker.addSentence, if_neg fun h => hbefore (hstate.current.symm.trans h.2),
      if_pos ⟨by rw [hstate.currentTokens]; exact hsentence, by rw [hstate.current]; exact hbefore⟩]
    exact mem_append_right _ mem_cons_self
  refine ⟨_, hchunks ▸ mem_flushSentences hclosed after, ?_⟩
  have hstart : (s.charOffset : ℤ) - (joinWith [' '] s.current).length =
      (extent (t.leadingSentences text) + 1 : ℕ) := by
    have hlength := length_joinWith hbefore
    rw [hstate.charOffset, hstate.current]
    simp only
    omega
  have hdrop := drop_joinWith (t.leadingSentences text)
    (append_ne_nil_of_left_ne_nil hbefore (sentence :: after))
  rw [← hpacked, t.leading_append_packed, ← hspaced, hpacked,
    joinWith_append [' '] hbefore (cons_ne_nil sentence after)] at hdrop
  have hended : before.getLast hbefore ∈ (splitSentences text).dropLast := by
    rw [← t.leading_append_packed, hpacked, dropLast_append_of_ne_nil (by simp),
      dropLast_append_of_ne_nil (cons_ne_nil sentence after)]
    exact mem_append_right _ (mem_append_left _ (getLast_mem hbefore))
  have hend := joinWith_getLast hbefore (splitSentencesFrom_ended false [] text _ hended)
  rw [hstart, ChunkState.sentenceChunk, locates_iff, hstate.current, ← drop_drop, hdrop]
  exact not_prefix_shifted hend _

end Located

section Blank

variable {t : TokenAwareChunker} {text : Text}

theorem isSpace_of_strip (h : strip text = []) : ∀ c ∈ text, isSpace c = true := by
  have hspaces := dropWhile_eq_nil_iff.mp (reverse_eq_nil_iff.mp h)
  have hnone : lstrip text = [] := by
    cases hhead : lstrip text with
    | nil => rfl
    | cons c rest =>
      have hc := head?_dropWhile_not isSpace text
      rw [show text.dropWhile isSpace = c :: rest from hhead] at hc
      have hspace := hspaces c (by rw [hhead]; simp)
      simp [hspace] at hc
  exact dropWhile_eq_nil_iff.mp hnone

theorem words_of_isSpace (h : ∀ c ∈ text, isSpace c = true) : words text = [] := by
  induction text with
  | nil => rfl
  | cons c text ih =>
    obtain ⟨hc, htext⟩ := forall_mem_cons.mp h
    rw [words_cons_space text hc, ih htext]

theorem words_of_blank (h : strip text = []) :
    ∀ sentence ∈ splitSentences text, words sentence = [] := by
  intro sentence hsentence
  apply words_of_isSpace
  intro c hc
  rcases mem_splitSentencesFrom false [] text sentence hsentence c hc with hc | hc
  · cases hc
  · exact isSpace_of_strip h c hc

end Blank

/-- What sentences carry over is within the budget with them. When sentences are separated by single
spaces, all those after the leading ones over the budget fit together, and each of the leading ones
is well spaced. -/
structure TokenAwareChunker.Regular (t : TokenAwareChunker) (text : Text) : Prop where
  carries : t.Carries text
  spaced : SingleSpaced text →
    weight estimateTokens (t.packedSentences text) ≤ t.chunkTokens ∧
      ∀ sentence ∈ t.leadingSentences text,
        Text.WellSpaced (max 1 (t.chunkTokens / 2)) sentence

theorem regular_of_blank {text : Text} (t : TokenAwareChunker) (h : strip text = []) :
    t.Regular text := by
  have hpacked : ∀ sentence ∈ t.packedSentences text, words sentence = [] := fun s hs =>
    words_of_blank h s (dropWhile_sublist _ |>.subset hs)
  constructor
  · intro kept sentence hblock _
    left
    rw [estimateTokens, words_joinWith, flatMap_eq_nil_iff.mpr]
    · exact Nat.zero_le _
    · exact fun s hs => hpacked s (hblock.subset hs)
  · intro _
    constructor
    · rw [weight_of_const (m := 0), Nat.zero_mul]
      · exact Nat.zero_le _
      · intro s hs
        rw [estimateTokens, hpacked s hs]
        rfl
    · intro s hs
      have hover := t.leadingSentences_over text s hs
      rw [estimateTokens, words_of_blank h s (takeWhile_sublist _ |>.subset hs)] at hover
      cases hover

theorem chunkText_meets_iff (t : TokenAwareChunker) (text : Text) :
    Meets t.chunkTokens text (t.chunkText text) ↔ t.Regular text := by
  by_cases htext : Text.strip text = []
  · have hnone : t.chunkText text = [] := if_pos (.inr htext)
    rw [hnone]
    exact ⟨fun _ => regular_of_blank t htext, fun _ =>
      ⟨fun _ h => absurd h not_mem_nil, absurd htext, fun _ _ h => absurd h not_mem_nil⟩⟩
  · have hleading : SingleSpaced text → ((∀ chunk ∈ t.leadingChunks text, Locates text chunk) ↔
        ∀ sentence ∈ t.leadingSentences text,
          Text.WellSpaced (max 1 (t.chunkTokens / 2)) sentence) := by
      intro hspaced
      have hwhole : text.drop 0 =
          joinWith [' '] (t.leadingSentences text ++ t.packedSentences text) := by
        rw [drop_zero, t.leading_append_packed]
        exact hspaced
      exact forall_locates_forcedSentences (t.leadingSentences_over text) hwhole 0
    constructor
    · rintro ⟨hbudget, -, hlocated⟩
      refine ⟨(t.budget_iff htext).mp hbudget, fun hspaced => ⟨?_, ?_⟩⟩
      · by_contra hover
        obtain ⟨chunk, hchunk, hnot⟩ :=
          not_locates_closed htext hspaced (Nat.lt_of_not_ge hover)
        exact hnot (hlocated hspaced chunk hchunk)
      · rw [← hleading hspaced]
        intro chunk hchunk
        apply hlocated hspaced chunk
        rw [t.chunkText_eq htext]
        exact mem_flushSentences hchunk (t.packedSentences text)
    · rintro ⟨hcarries, hspaces⟩
      refine ⟨(t.budget_iff htext).mpr hcarries, fun _ => t.chunkText_covers htext, ?_⟩
      intro hspaced
      obtain ⟨hle, hspaces⟩ := hspaces hspaced
      exact forall_locates_of_le htext hspaced hle ((hleading hspaced).mpr hspaces)

/-- A budget of three tokens, and a sentence over it after another one. -/
theorem not_meets_carried : ¬ ∀ (chunkTokens overlapTokens : ℤ) (text : Text),
    Meets (TokenAwareChunker.init chunkTokens overlapTokens).chunkTokens text
      ((TokenAwareChunker.init chunkTokens overlapTokens).chunkText text) := by
  intro h
  have hbudget := (h 3 0 "A. B C D E.".toList).budget
  revert hbudget
  decide

end Agent33.Memory.Ingestion
