import Agent33.Library.Dict
import Agent33.Library.Text
import Mathlib.Algebra.Order.BigOperators.Group.List
import Mathlib.Algebra.Order.Group.Nat

/-!
# Document ingestion

Chunks of a fixed number of characters, each of which begins with the end of the one before it,
and the sections of a markdown text, cut at its headings. The loop over a text need not end: its
fuel counts its turns.
-/

namespace Agent33.Memory.Ingestion

open Library List Option

inductive MetadataValue
  | str (value : String)
  | int (value : ℤ)

structure Chunk where
  text : Text
  index : ℕ
  metadata : Dict String MetadataValue

section Text

variable (text : Text) (chunkSize overlap : ℕ)

/-- The chunk that begins at a position, which is negative when the loop runs backwards. -/
def chunkAt (start : ℤ) (idx : ℕ) : Chunk where
  text := slice text start (start + chunkSize)
  index := idx
  metadata := Dict.ofList
    [("start", .int start), ("end", .int (min (start + chunkSize) text.length))]

/-- The loop of `ingest_text`, none as long as it goes on. -/
def ingestLoop : ℕ → ℤ → ℕ → List Chunk → Option (List Chunk)
  | 0, _, _, _ => none
  | fuel + 1, start, idx, chunks =>
    if start < text.length then
      ingestLoop fuel (start + (chunkSize - overlap)) (idx + 1)
        (chunks ++ [chunkAt text chunkSize start idx])
    else some chunks

def ingestText (fuel : ℕ) : Option (List Chunk) :=
  if text = [] then some [] else ingestLoop text chunkSize overlap fuel 0 0 []

end Text

section Markdown

/-- The heading with which a text begins, and what follows it: hash signs, white space, and the
rest of the line in which the white space ends. -/
def matchHeading (text : Text) : Option (Text × Text) :=
  let hashes := text.takeWhile (· == '#')
  let rest := text.dropWhile (· == '#')
  let spaces := rest.takeWhile Text.isSpace
  let rest := rest.dropWhile Text.isSpace
  if 1 ≤ hashes.length ∧ hashes.length ≤ 6 ∧ spaces ≠ [] then
    some (hashes ++ spaces ++ rest.takeWhile (· != '\n'), rest.dropWhile (· != '\n'))
  else none

section

variable {text heading after : Text} (h : matchHeading text = some (heading, after))
include h

theorem matchHeading_append : heading ++ after = text := by
  simp only [matchHeading] at h
  split_ifs at h
  obtain ⟨rfl, rfl⟩ := Prod.mk.inj (some.inj h)
  simp only [append_assoc, takeWhile_append_dropWhile]

theorem matchHeading_length : after.length < text.length := by
  have hlength := congrArg List.length (matchHeading_append h)
  simp only [matchHeading] at h
  split_ifs at h with hheading
  obtain ⟨rfl, rfl⟩ := Prod.mk.inj (some.inj h)
  simp only [length_append] at hlength ⊢
  omega

end

/-- The parts between the headings of a text, with the headings between them; the first part
begins with the characters of `part`, last one first. -/
def splitHeadings (lineStart : Bool) (part : Text) : Text → List Text
  | [] => [part.reverse]
  | c :: rest =>
    if lineStart then
      match _hmatch : matchHeading (c :: rest) with
      | some (heading, after) =>
        part.reverse :: heading :: splitHeadings (heading.getLast? == some '\n') [] after
      | none => splitHeadings (c == '\n') (c :: part) rest
    else splitHeadings (c == '\n') (c :: part) rest
termination_by text => text.length
decreasing_by
  · exact matchHeading_length (by assumption)
  · simp
  · simp

def flushSection (s : List Text × Text) : List Text :=
  if Text.strip s.2 = [] then s.1 else s.1 ++ [Text.strip s.2]

def addPart (s : List Text × Text) (part : Text) : List Text × Text :=
  if (matchHeading part).isSome then (flushSection s, part ++ ['\n']) else (s.1, s.2 ++ part)

def sections (text : Text) : List Text :=
  flushSection ((splitHeadings true [] text).foldl addPart ([], []))

def markMarkdown (idx : ℕ) (chunk : Chunk) : Chunk :=
  { chunk with index := idx, metadata := chunk.metadata.set "source" (.str "markdown") }

/-- The loop of `ingest_markdown` over the sections. -/
def ingestSections (chunkSize overlap fuel : ℕ) : List Text → List Chunk → Option (List Chunk)
  | [], chunks => some chunks
  | sec :: rest, chunks =>
    if sec.length ≤ chunkSize then
      ingestSections chunkSize overlap fuel rest
        (chunks ++ [⟨sec, chunks.length, Dict.ofList [("source", .str "markdown")]⟩])
    else
      match ingestText sec chunkSize overlap fuel with
      | none => none
      | some subChunks =>
        ingestSections chunkSize overlap fuel rest
          (chunks ++ subChunks.mapIdx fun i chunk => markMarkdown (chunks.length + i) chunk)

def ingestMarkdown (text : Text) (chunkSize overlap fuel : ℕ) : Option (List Chunk) :=
  if text = [] then some [] else ingestSections chunkSize overlap fuel (sections text) []

end Markdown

section Progress

variable {text : Text} {chunkSize overlap : ℕ}

theorem ingestLoop_mono (hle : fuel ≤ fuel')
    (h : ingestLoop text chunkSize overlap fuel start idx chunks = some result) :
    ingestLoop text chunkSize overlap fuel' start idx chunks = some result := by
  induction fuel generalizing fuel' start idx chunks with
  | zero => cases h
  | succ fuel ih =>
    obtain ⟨more, rfl⟩ := Nat.exists_eq_add_of_lt hle
    rw [ingestLoop] at h ⊢
    split_ifs at h ⊢
    · exact ih (by omega) h
    · exact h

theorem ingestText_mono (hle : fuel ≤ fuel')
    (h : ingestText text chunkSize overlap fuel = some result) :
    ingestText text chunkSize overlap fuel' = some result := by
  rw [ingestText] at h ⊢
  split_ifs at h ⊢
  · exact h
  · exact ingestLoop_mono hle h

theorem ingestLoop_stuck (hoverlap : chunkSize ≤ overlap) (htext : text ≠ []) (fuel : ℕ)
    (hstart : start ≤ 0) (idx : ℕ) (chunks : List Chunk) :
    ingestLoop text chunkSize overlap fuel start idx chunks = none := by
  induction fuel generalizing start idx chunks with
  | zero => rfl
  | succ fuel ih =>
    have hpos : 0 < text.length := length_pos_iff.mpr htext
    rw [ingestLoop, if_pos (by omega)]
    exact ih (by omega) _ _

theorem ingestText_stuck (hoverlap : chunkSize ≤ overlap) (htext : text ≠ []) (fuel : ℕ) :
    ingestText text chunkSize overlap fuel = none := by
  rw [ingestText, if_neg htext]
  exact ingestLoop_stuck hoverlap htext fuel (Int.le_refl 0) 0 []

/-- How many chunks a text has, when each begins `step` characters after the one before it. -/
def chunkCount (length step : ℕ) : ℕ := (length + step - 1) / step

theorem lt_chunkCount_iff (hstep : 0 < step) (length k : ℕ) :
    k < chunkCount length step ↔ k * step < length := by
  rw [chunkCount, Nat.lt_iff_add_one_le, Nat.le_div_iff_mul_le hstep, Nat.add_mul]
  omega

/-- The chunks from number `k` on. -/
def chunksFrom (text : Text) (chunkSize step k : ℕ) : List Chunk :=
  (List.range' k (chunkCount text.length step - k)).map fun i =>
    chunkAt text chunkSize ((i * step : ℕ) : ℤ) i

theorem ingestLoop_eq (text : Text) (hoverlap : overlap < chunkSize) (fuel k : ℕ)
    (chunks : List Chunk) (hfuel : chunkCount text.length (chunkSize - overlap) - k < fuel) :
    ingestLoop text chunkSize overlap fuel ((k * (chunkSize - overlap) : ℕ) : ℤ) k chunks =
      some (chunks ++ chunksFrom text chunkSize (chunkSize - overlap) k) := by
  have hstep : 0 < chunkSize - overlap := Nat.sub_pos_of_lt hoverlap
  induction fuel generalizing k chunks with
  | zero => exact absurd hfuel (Nat.not_lt_zero _)
  | succ fuel ih =>
    have hlt := lt_chunkCount_iff hstep text.length k
    rw [ingestLoop]
    split_ifs with hk <;> rw [Int.ofNat_lt, ← hlt] at hk
    · have hnext : ((k * (chunkSize - overlap) : ℕ) : ℤ) + (chunkSize - overlap) =
          (((k + 1) * (chunkSize - overlap) : ℕ) : ℤ) := by
        rw [Nat.add_mul, Nat.one_mul]
        omega
      have hcount : chunkCount text.length (chunkSize - overlap) - k =
          chunkCount text.length (chunkSize - overlap) - (k + 1) + 1 := by omega
      rw [hnext, ih (k + 1) _ (by omega), chunksFrom, chunksFrom, hcount, range'_succ]
      simp
    · have hnone : chunkCount text.length (chunkSize - overlap) - k = 0 := by omega
      rw [chunksFrom, hnone]
      simp

theorem ingestText_eq (hoverlap : overlap < chunkSize)
    (hfuel : chunkCount text.length (chunkSize - overlap) < fuel) :
    ingestText text chunkSize overlap fuel =
      some (chunksFrom text chunkSize (chunkSize - overlap) 0) := by
  rw [ingestText]
  split_ifs with htext
  · have hstep : 0 < chunkSize - overlap := Nat.sub_pos_of_lt hoverlap
    have hnone := lt_chunkCount_iff hstep text.length 0
    have hcount : chunkCount text.length (chunkSize - overlap) = 0 := by
      simp only [htext, length_nil] at hnone ⊢
      omega
    rw [chunksFrom, hcount]
    rfl
  · have hloop := ingestLoop_eq text hoverlap fuel 0 [] (by omega)
    rw [Nat.zero_mul] at hloop
    exact hloop

theorem ingestSections_isSome_iff {fuel : ℕ} {secs : List Text} (chunks : List Chunk) :
    (ingestSections chunkSize overlap fuel secs chunks).isSome ↔
      ∀ sec ∈ secs, chunkSize < sec.length → (ingestText sec chunkSize overlap fuel).isSome := by
  induction secs generalizing chunks with
  | nil => simp [ingestSections]
  | cons sec secs ih =>
    rw [ingestSections, forall_mem_cons]
    split_ifs with hsmall
    · rw [ih]
      exact ⟨fun h => ⟨fun hlong => absurd hlong (by omega), h⟩, And.right⟩
    · cases ingestText sec chunkSize overlap fuel with
      | none => simpa using fun h => absurd h (by omega)
      | some subChunks => simp [ih]

theorem ingestMarkdown_ends_iff (text : Text) :
    (∃ fuel, (ingestMarkdown text chunkSize overlap fuel).isSome) ↔
      overlap < chunkSize ∨ ∀ sec ∈ sections text, sec.length ≤ chunkSize := by
  have hsections : ∀ fuel, (ingestMarkdown text chunkSize overlap fuel).isSome ↔
      ∀ sec ∈ sections text, chunkSize < sec.length →
        (ingestText sec chunkSize overlap fuel).isSome := by
    intro fuel
    rw [ingestMarkdown]
    split_ifs with htext
    · have hnone : sections [] = [] := by
        simp [sections, splitHeadings, addPart, matchHeading, flushSection, Text.strip, Text.lstrip]
      simp [htext, hnone]
    · exact ingestSections_isSome_iff []
  simp only [hsections]
  constructor
  · rintro ⟨fuel, hfuel⟩
    by_cases hoverlap : overlap < chunkSize
    · exact .inl hoverlap
    · refine .inr fun sec hsec => ?_
      by_contra hlong
      have hsome := hfuel sec hsec (by omega)
      have hne : sec ≠ [] := by
        rintro rfl
        exact hlong (Nat.zero_le _)
      rw [ingestText_stuck (by omega) hne] at hsome
      cases hsome
  · rintro (hoverlap | hshort)
    · refine ⟨((sections text).map fun sec =>
        chunkCount sec.length (chunkSize - overlap)).sum + 1, fun sec hsec _ => ?_⟩
      have hle := le_sum_of_mem (mem_map_of_mem (f := fun sec : Text =>
        chunkCount sec.length (chunkSize - overlap)) hsec)
      rw [ingestText_eq hoverlap (by omega)]
      rfl
    · exact ⟨0, fun sec hsec hlong => absurd (hshort sec hsec) (by omega)⟩

end Progress

section Coverage

structure Chunk.Spans (chunk : Chunk) (text : Text) (first last : ℕ) : Prop where
  first_le : first ≤ last
  le_length : last ≤ text.length
  text_eq : chunk.text = (text.take last).drop first
  start_eq : chunk.metadata.get? "start" = some (.int first)
  end_eq : chunk.metadata.get? "end" = some (.int last)

/-- Every position of the text is in a chunk, no chunk is too long, and a chunk has exactly the
overlap in common with the next one. -/
structure Chunked (text : Text) (chunkSize overlap : ℕ) (chunks : List Chunk) : Prop where
  covers : ∀ i < text.length, ∃ chunk ∈ chunks, ∃ first last,
    chunk.Spans text first last ∧ first ≤ i ∧ i < last
  bounded : ∀ chunk ∈ chunks, chunk.text.length ≤ chunkSize
  shares : ∀ k chunk next, chunks[k]? = some chunk → chunks[k + 1]? = some next →
    ∃ first last first' last', chunk.Spans text first last ∧ next.Spans text first' last' ∧
      first ≤ first' ∧ min last last' = first' + overlap

variable {text : Text} {chunkSize overlap step : ℕ}

theorem Chunk.Spans.unique {chunk : Chunk} {first last first' last' : ℕ}
    (h : chunk.Spans text first last) (h' : chunk.Spans text first' last') :
    first = first' ∧ last = last' := by
  have hstart := h.start_eq.symm.trans h'.start_eq
  have hend := h.end_eq.symm.trans h'.end_eq
  simp only [some.injEq, MetadataValue.int.injEq, Int.ofNat_inj] at hstart hend
  exact ⟨hstart, hend⟩

theorem chunkAt_spans (hfirst : first < text.length) (idx : ℕ) :
    (chunkAt text chunkSize first idx).Spans text first (min (first + chunkSize) text.length) where
  first_le := by omega
  le_length := Nat.min_le_right _ _
  text_eq := by
    rw [chunkAt, ← Int.natCast_add, slice_natCast]
    by_cases hlong : first + chunkSize ≤ text.length
    · rw [Nat.min_eq_left hlong]
    · rw [Nat.min_eq_right (by omega), take_of_length_le (by omega), take_length]
  start_eq := by rw [chunkAt, Dict.get?_ofList (by simp)]; simp
  end_eq := by
    rw [chunkAt, Dict.get?_ofList (by simp)]
    simp only [mem_cons, Prod.mk.injEq, MetadataValue.int.injEq, not_mem_nil, or_false,
      true_and]
    exact .inr (by omega)

theorem chunksFrom_getElem? (text : Text) (chunkSize step k : ℕ) :
    (chunksFrom text chunkSize step 0)[k]? =
      if k < chunkCount text.length step then
        some (chunkAt text chunkSize ((k * step : ℕ) : ℤ) k) else none := by
  rw [chunksFrom, getElem?_map, Nat.sub_zero]
  split_ifs with hk
  · rw [getElem?_range' hk]
    simp
  · rw [getElem?_eq_none (by simpa using hk)]
    rfl

theorem forall_fits_iff (hstep : 0 < step) (length : ℕ) :
    (∀ k, (k + 1) * step < length → (k + 1) * step + overlap ≤ length) ↔
      length ≤ step ∨ overlap ≤ (length - 1) % step + 1 := by
  have hdiv := Nat.div_add_mod (length - 1) step
  constructor
  · intro h
    by_cases hlong : length ≤ step
    · exact .inl hlong
    · have hpos : 1 ≤ (length - 1) / step := (Nat.one_le_div_iff hstep).mpr (by omega)
      have hlast := h ((length - 1) / step - 1)
      rw [Nat.sub_add_cancel hpos, Nat.mul_comm] at hlast
      exact .inr (by omega)
  · rintro (hshort | hlast) k hk
    · have hge : step ≤ (k + 1) * step := Nat.le_mul_of_pos_left step (Nat.succ_pos k)
      omega
    · have hle : k + 1 ≤ (length - 1) / step := (Nat.le_div_iff_mul_le hstep).mpr (by omega)
      have hmul := Nat.mul_le_mul_right step hle
      rw [Nat.mul_comm ((length - 1) / step)] at hmul
      omega

theorem covers_chunksFrom (hoverlap : overlap < chunkSize) (hi : i < text.length) :
    ∃ chunk ∈ chunksFrom text chunkSize (chunkSize - overlap) 0, ∃ first last,
      chunk.Spans text first last ∧ first ≤ i ∧ i < last := by
  have hstep : 0 < chunkSize - overlap := Nat.sub_pos_of_lt hoverlap
  have hdiv := Nat.div_add_mod i (chunkSize - overlap)
  have hmod := Nat.mod_lt i hstep
  rw [Nat.mul_comm] at hdiv
  have hfirst : i / (chunkSize - overlap) * (chunkSize - overlap) < text.length := by omega
  have hchunk := chunksFrom_getElem? text chunkSize (chunkSize - overlap)
    (i / (chunkSize - overlap))
  rw [if_pos ((lt_chunkCount_iff hstep _ _).mpr hfirst)] at hchunk
  exact ⟨_, mem_of_getElem? hchunk, _, _, chunkAt_spans hfirst _, by omega, by omega⟩

theorem eq_chunkAt (hstep : 0 < step) (h : (chunksFrom text chunkSize step 0)[k]? = some chunk) :
    k * step < text.length ∧ chunk = chunkAt text chunkSize ((k * step : ℕ) : ℤ) k := by
  rw [chunksFrom_getElem?] at h
  split_ifs at h with hk
  exact ⟨(lt_chunkCount_iff hstep _ _).mp hk, (some.inj h).symm⟩

theorem chunked_chunksFrom_iff (hoverlap : overlap < chunkSize) :
    Chunked text chunkSize overlap (chunksFrom text chunkSize (chunkSize - overlap) 0) ↔
      text.length ≤ chunkSize - overlap ∨
        overlap ≤ (text.length - 1) % (chunkSize - overlap) + 1 := by
  have hstep : 0 < chunkSize - overlap := Nat.sub_pos_of_lt hoverlap
  rw [← forall_fits_iff hstep]
  constructor
  · intro h k hnext
    have hhere : k * (chunkSize - overlap) < text.length := by
      rw [Nat.add_mul] at hnext
      omega
    have hget := chunksFrom_getElem? text chunkSize (chunkSize - overlap)
    have hchunk := hget k
    have hchunk' := hget (k + 1)
    rw [if_pos ((lt_chunkCount_iff hstep _ _).mpr hhere)] at hchunk
    rw [if_pos ((lt_chunkCount_iff hstep _ _).mpr hnext)] at hchunk'
    obtain ⟨first, last, first', last', hspans, hspans', -, hshares⟩ :=
      h.shares k _ _ hchunk hchunk'
    obtain ⟨rfl, rfl⟩ := hspans.unique (chunkAt_spans hhere k)
    obtain ⟨rfl, rfl⟩ := hspans'.unique (chunkAt_spans hnext (k + 1))
    omega
  · intro hfits
    refine ⟨fun i hi => covers_chunksFrom hoverlap hi, ?_, ?_⟩
    · intro chunk hchunk
      obtain ⟨k, hk⟩ := getElem?_of_mem hchunk
      obtain ⟨hhere, rfl⟩ := eq_chunkAt hstep hk
      rw [(chunkAt_spans hhere k).text_eq, length_drop, length_take]
      omega
    · intro k chunk next hchunk hnext
      obtain ⟨hhere, rfl⟩ := eq_chunkAt hstep hchunk
      obtain ⟨hafter, rfl⟩ := eq_chunkAt hstep hnext
      have hfit := hfits k hafter
      refine ⟨_, _, _, _, chunkAt_spans hhere k, chunkAt_spans hafter (k + 1), ?_, ?_⟩
      · exact Nat.mul_le_mul_right _ (Nat.le_succ k)
      · rw [Nat.add_mul, Nat.one_mul] at hfit ⊢
        omega

/-- A text is cut into chunks exactly when the loop gets on and the last chunk is not shorter
than the overlap; markdown is when the loop gets on or is not entered. -/
theorem ingest_iff (text : Text) (chunkSize overlap : ℕ) :
    ((∃ fuel chunks, ingestText text chunkSize overlap fuel = some chunks ∧
        Chunked text chunkSize overlap chunks) ↔
      text = [] ∨ (overlap < chunkSize ∧ (text.length ≤ chunkSize - overlap ∨
        overlap ≤ (text.length - 1) % (chunkSize - overlap) + 1))) ∧
    ((∃ fuel, (ingestMarkdown text chunkSize overlap fuel).isSome) ↔
      overlap < chunkSize ∨ ∀ sec ∈ sections text, sec.length ≤ chunkSize) := by
  refine ⟨?_, ingestMarkdown_ends_iff text⟩
  constructor
  · rintro ⟨fuel, chunks, hrun, hchunked⟩
    by_cases htext : text = []
    · exact .inl htext
    · have hoverlap : overlap < chunkSize := by
        by_contra hstuck
        rw [ingestText_stuck (Nat.le_of_not_lt hstuck) htext] at hrun
        cases hrun
      have henough := ingestText_mono (Nat.le_max_left fuel
        (chunkCount text.length (chunkSize - overlap) + 1)) hrun
      rw [ingestText_eq hoverlap (Nat.lt_of_lt_of_le (Nat.lt_succ_self _) (Nat.le_max_right ..))]
        at henough
      obtain rfl := some.inj henough
      exact .inr ⟨hoverlap, (chunked_chunksFrom_iff hoverlap).mp hchunked⟩
  · rintro (rfl | ⟨hoverlap, hfits⟩)
    · exact ⟨0, [], rfl, by simp, by simp, by simp⟩
    · exact ⟨_, _, ingestText_eq hoverlap (Nat.lt_succ_self _),
        (chunked_chunksFrom_iff hoverlap).mpr hfits⟩

/-- With an overlap of a whole chunk the loop stays where it is. -/
theorem ingestText_endless : ¬ ∃ fuel chunks, ingestText "ab".toList 1 1 fuel = some chunks := by
  rintro ⟨fuel, chunks, hrun⟩
  rw [ingestText_stuck (Nat.le_refl 1) (by decide)] at hrun
  cases hrun

end Coverage

end Agent33.Memory.Ingestion
