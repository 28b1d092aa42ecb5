import Agent33.Library.Dict
import Agent33.Library.Ranking
import Agent33.Library.Text
import Mathlib.Tactic.Linarith
import Mathlib.Tactic.Positivity

/-!
# Hybrid search

The fusion of a list of vector results and a list of keyword results by the ranks of the texts in
them. A text that comes again in a list takes the later rank.
-/

namespace Agent33.Memory.Hybrid

open Library List Option

variable {M : Type}

structure HybridResult (M : Type) where
  text : Text
  score : ℚ
  vectorScore : ℚ := 0
  bm25Score : ℚ := 0
  vectorRank : ℕ := 0
  bm25Rank : ℕ := 0
  metadata : M

structure HybridSearcher where
  vectorWeight : ℚ
  rrfK : ℕ
  weight_nonneg : 0 ≤ vectorWeight
  weight_le_one : vectorWeight ≤ 1
  rrfK_pos : 1 ≤ rrfK

def HybridSearcher.init (vectorWeight : ℚ) (rrfK : ℤ) : HybridSearcher where
  vectorWeight := max 0 (min 1 vectorWeight)
  rrfK := (max 1 rrfK).toNat
  weight_nonneg := le_max_left 0 _
  weight_le_one := max_le zero_le_one (min_le_left 1 _)
  rrfK_pos := by omega

def HybridSearcher.bm25Weight (searcher : HybridSearcher) : ℚ := 1 - searcher.vectorWeight

section Fusion

/-- The entry of a text, made when it is not there, takes over the rank and the score. -/
def enter (fresh : HybridResult M → HybridResult M)
    (mark : ℕ → HybridResult M → HybridResult M → HybridResult M)
    (merged : Dict Text (HybridResult M)) (result : HybridResult M × ℕ) :
    Dict Text (HybridResult M) :=
  merged.set result.1.text
    (mark result.2 result.1 ((merged.get? result.1.text).getD (fresh result.1)))

def enterVector : Dict Text (HybridResult M) → HybridResult M × ℕ → Dict Text (HybridResult M) :=
  enter
    (fun result =>
      { text := result.text, score := 0, vectorScore := result.vectorScore,
        metadata := result.metadata })
    fun rank result entry => { entry with vectorRank := rank, vectorScore := result.vectorScore }

def enterBm25 : Dict Text (HybridResult M) → HybridResult M × ℕ → Dict Text (HybridResult M) :=
  enter
    (fun result =>
      { text := result.text, score := 0, bm25Score := result.bm25Score,
        metadata := result.metadata })
    fun rank result entry => { entry with bm25Rank := rank, bm25Score := result.bm25Score }

variable (vectorResults bm25Results : List (HybridResult M))

def merge : Dict Text (HybridResult M) :=
  (bm25Results.zipIdx 1).foldl enterBm25 ((vectorResults.zipIdx 1).foldl enterVector Dict.empty)

def rrf (rrfK rank : ℕ) : ℚ := if 0 < rank then 1 / ((rrfK : ℚ) + rank) else 0

namespace HybridSearcher

variable (searcher : HybridSearcher)

def fusedScore (vectorRank bm25Rank : ℕ) : ℚ :=
  searcher.vectorWeight * rrf searcher.rrfK vectorRank +
    searcher.bm25Weight * rrf searcher.rrfK bm25Rank

def scored (result : HybridResult M) : HybridResult M :=
  { result with score := searcher.fusedScore result.vectorRank result.bm25Rank }

def fuse (topK : ℕ) : List (HybridResult M) :=
  Ranking.top HybridResult.score topK
    ((merge vectorResults bm25Results).values.map searcher.scored)

end HybridSearcher

end Fusion

section Ranks

variable (results : List (HybridResult M))

def texts : List Text := results.map HybridResult.text

def bestRank (text : Text) : ℕ :=
  if text ∈ texts results then (texts results).idxOf text + 1 else 0

/-- The rank of the last result with the text, where the ranks begin with `rank`. -/
def lastRankFrom (text : Text) : List (HybridResult M) → ℕ → ℕ → ℕ
  | [], _, last => last
  | result :: results, rank, last =>
    lastRankFrom text results (rank + 1) (if result.text = text then rank else last)

def lastRank (text : Text) : ℕ := lastRankFrom text results 1 0

variable {results : List (HybridResult M)}

theorem lastRankFrom_of_notMem (h : text ∉ texts results) (rank last : ℕ) :
    lastRankFrom text results rank last = last := by
  induction results generalizing rank last with
  | nil => rfl
  | cons result results ih =>
    simp only [texts, map_cons, mem_cons, not_or] at h
    rw [lastRankFrom, if_neg (Ne.symm h.1)]
    exact ih h.2 _ _

theorem lastRankFrom_spec (h : text ∈ texts results) (rank last : ℕ) :
    rank + (texts results).idxOf text ≤ lastRankFrom text results rank last ∧
      (lastRankFrom text results rank last = rank + (texts results).idxOf text ↔
        (texts results).count text = 1) := by
  induction results generalizing rank last with
  | nil => cases h
  | cons result results ih =>
    rw [lastRankFrom]
    by_cases heq : result.text = text
    · rw [if_pos heq]
      have hidx : (texts (result :: results)).idxOf text = 0 := by simp [texts, heq]
      have hcount : (texts (result :: results)).count text = (texts results).count text + 1 := by
        simp [texts, heq]
      rw [hidx, hcount]
      by_cases hmem : text ∈ texts results
      · have hrest := (ih hmem (rank + 1) rank).1
        have hpos := count_pos_iff.mpr hmem
        omega
      · rw [lastRankFrom_of_notMem hmem, count_eq_zero_of_not_mem hmem]
        omega
    · rw [if_neg heq]
      have hmem : text ∈ texts results := by
        simpa [texts, Ne.symm heq] using h
      have hidx : (texts (result :: results)).idxOf text = (texts results).idxOf text + 1 := by
        simp [texts, heq]
      have hcount : (texts (result :: results)).count text = (texts results).count text := by
        simp [texts, heq]
      have hrest := ih hmem (rank + 1) last
      rw [hidx, hcount]
      omega

theorem bestRank_le_lastRank : bestRank results text ≤ lastRank results text := by
  rw [bestRank, lastRank]
  split_ifs with h
  · have := (lastRankFrom_spec h 1 0).1
    omega
  · exact Nat.zero_le _

theorem bestRank_pos_iff : 0 < bestRank results text ↔ text ∈ texts results := by
  rw [bestRank]
  split_ifs with h <;> simp [h]

theorem lastRank_eq_iff : lastRank results text = bestRank results text ↔
    (texts results).count text ≤ 1 := by
  rw [lastRank, bestRank]
  split_ifs with h
  · have hspec := (lastRankFrom_spec h 1 0).2
    have hpos := count_pos_iff.mpr h
    omega
  · rw [lastRankFrom_of_notMem h, count_eq_zero_of_not_mem h]
    omega

theorem rrf_anti (rrfK : ℕ) (hpos : 0 < rank) (hle : rank ≤ rank') :
    rrf rrfK rank' ≤ rrf rrfK rank := by
  rw [rrf, rrf, if_pos (by omega), if_pos hpos]
  have hcast : (rank : ℚ) ≤ rank' := by exact_mod_cast hle
  have hrank : (0 : ℚ) < rank := by exact_mod_cast hpos
  apply one_div_le_one_div_of_le
  · positivity
  · linarith

theorem rrf_strictAnti (rrfK : ℕ) (hpos : 0 < rank) (hlt : rank < rank') :
    rrf rrfK rank' < rrf rrfK rank := by
  rw [rrf, rrf, if_pos (by omega), if_pos hpos]
  have hcast : (rank : ℚ) < rank' := by exact_mod_cast hlt
  have hrank : (0 : ℚ) < rank := by exact_mod_cast hpos
  apply one_div_lt_one_div_of_lt
  · positivity
  · linarith

end Ranks

section Merging

variable {fresh : HybridResult M → HybridResult M}
  {mark : ℕ → HybridResult M → HybridResult M → HybridResult M} {own other : HybridResult M → ℕ}
  {text : Text}

structure Marks (fresh : HybridResult M → HybridResult M)
    (mark : ℕ → HybridResult M → HybridResult M → HybridResult M)
    (own other : HybridResult M → ℕ) : Prop where
  own_mark : ∀ rank result entry, own (mark rank result entry) = rank
  other_mark : ∀ rank result entry, other (mark rank result entry) = other entry
  other_fresh : ∀ result, other (fresh result) = 0
  text_mark : ∀ rank result entry, (mark rank result entry).text = entry.text
  text_fresh : ∀ result, (fresh result).text = result.text

def rankIn (rank : HybridResult M → ℕ) (merged : Dict Text (HybridResult M)) (text : Text) : ℕ :=
  ((merged.get? text).map rank).getD 0

def Keyed (merged : Dict Text (HybridResult M)) : Prop :=
  ∀ text entry, merged.get? text = some entry → entry.text = text

theorem get?_enter (merged : Dict Text (HybridResult M)) (result : HybridResult M) (rank : ℕ)
    (text : Text) :
    (enter fresh mark merged (result, rank)).get? text =
      if text = result.text then
        some (mark rank result ((merged.get? result.text).getD (fresh result)))
      else merged.get? text :=
  Dict.get?_set ..

section

variable (h : Marks fresh mark own other)
include h

theorem Marks.keyed (hkeyed : Keyed merged) (result : HybridResult M × ℕ) :
    Keyed (enter fresh mark merged result) := by
  intro text entry hentry
  rw [get?_enter merged result.1 result.2] at hentry
  split_ifs at hentry with heq
  · obtain rfl := some.inj hentry
    rw [h.text_mark, heq]
    cases hold : merged.get? result.1.text with
    | none => exact h.text_fresh _
    | some entry => exact hkeyed _ entry hold
  · exact hkeyed text entry hentry

theorem Marks.own_enter (merged : Dict Text (HybridResult M))
    (result : HybridResult M) (rank : ℕ) (text : Text) :
    rankIn own (enter fresh mark merged (result, rank)) text =
      if result.text = text then rank else rankIn own merged text := by
  rw [rankIn, get?_enter]
  by_cases heq : result.text = text
  · rw [if_pos heq.symm, if_pos heq, map_some, getD_some, h.own_mark]
  · rw [if_neg (Ne.symm heq), if_neg heq, rankIn]

theorem Marks.other_enter (merged : Dict Text (HybridResult M))
    (result : HybridResult M × ℕ) (text : Text) :
    rankIn other (enter fresh mark merged result) text = rankIn other merged text := by
  rw [rankIn, get?_enter merged result.1 result.2, rankIn]
  split_ifs with heq
  · rw [map_some, getD_some, h.other_mark, heq]
    cases merged.get? result.1.text with
    | none => exact h.other_fresh _
    | some entry => rfl
  · rfl

theorem Marks.foldl (results : List (HybridResult M)) (rank : ℕ)
    (hkeyed : Keyed merged) :
    Keyed ((results.zipIdx rank).foldl (enter fresh mark) merged) ∧
    (∀ text, rankIn own ((results.zipIdx rank).foldl (enter fresh mark) merged) text =
      lastRankFrom text results rank (rankIn own merged text)) ∧
    (∀ text, rankIn other ((results.zipIdx rank).foldl (enter fresh mark) merged) text =
      rankIn other merged text) ∧
    ∀ text, text ∈ ((results.zipIdx rank).foldl (enter fresh mark) merged).keys ↔
      text ∈ texts results ∨ text ∈ merged.keys := by
  induction results generalizing rank merged with
  | nil => exact ⟨hkeyed, fun _ => rfl, fun _ => rfl, fun _ => by simp [texts]⟩
  | cons result results ih =>
    rw [zipIdx_cons, foldl_cons]
    obtain ⟨hkeyed', hown, hother, hkeys⟩ := ih (rank + 1) (h.keyed hkeyed (result, rank))
    refine ⟨hkeyed', fun text => ?_, fun text => ?_, fun text => ?_⟩
    · rw [hown, h.own_enter, lastRankFrom]
    · rw [hother, h.other_enter]
    · rw [hkeys, enter, Dict.mem_keys_set, texts, texts, map_cons, mem_cons]
      tauto

end

theorem marks_vector : Marks (M := M) (fun result =>
      { text := result.text, score := 0, vectorScore := result.vectorScore,
        metadata := result.metadata })
    (fun rank result entry =>
      { entry with vectorRank := rank, vectorScore := result.vectorScore })
    HybridResult.vectorRank HybridResult.bm25Rank :=
  ⟨fun _ _ _ => rfl, fun _ _ _ => rfl, fun _ => rfl, fun _ _ _ => rfl, fun _ => rfl⟩

theorem marks_bm25 : Marks (M := M) (fun result =>
      { text := result.text, score := 0, bm25Score := result.bm25Score,
        metadata := result.metadata })
    (fun rank result entry => { entry with bm25Rank := rank, bm25Score := result.bm25Score })
    HybridResult.bm25Rank HybridResult.vectorRank :=
  ⟨fun _ _ _ => rfl, fun _ _ _ => rfl, fun _ => rfl, fun _ _ _ => rfl, fun _ => rfl⟩

theorem merge_spec (vectorResults bm25Results : List (HybridResult M)) :
    Keyed (merge vectorResults bm25Results) ∧
    (∀ text, rankIn HybridResult.vectorRank (merge vectorResults bm25Results) text =
      lastRank vectorResults text) ∧
    (∀ text, rankIn HybridResult.bm25Rank (merge vectorResults bm25Results) text =
      lastRank bm25Results text) ∧
    ∀ text, text ∈ (merge vectorResults bm25Results).keys ↔
      text ∈ texts vectorResults ∨ text ∈ texts bm25Results := by
  have hempty : Keyed (Dict.empty : Dict Text (HybridResult M)) := fun _ _ h => by cases h
  obtain ⟨hkeyed, hown, hother, hkeys⟩ := marks_vector.foldl vectorResults 1 hempty
  obtain ⟨hkeyed', hown', hother', hkeys'⟩ := marks_bm25.foldl bm25Results 1 hkeyed
  refine ⟨hkeyed', fun text => ?_, fun text => ?_, fun text => ?_⟩
  · exact (hother' text).trans (hown text)
  · exact (hown' text).trans (congrArg (lastRankFrom text bm25Results 1) (hother text))
  · refine (hkeys' text).trans ?_
    rw [hkeys text]
    simp [Dict.keys, Dict.empty, or_comm]

end Merging

section Fused

variable (searcher : HybridSearcher) (vectorResults bm25Results : List (HybridResult M))

def bestScore (text : Text) : ℚ :=
  searcher.fusedScore (bestRank vectorResults text) (bestRank bm25Results text)

def RankedNoWorse (text other : Text) : Prop :=
  ∀ results ∈ [vectorResults, bm25Results], other ∈ texts results →
    text ∈ texts results ∧ bestRank results text ≤ bestRank results other

instance (text other : Text) : Decidable (RankedNoWorse vectorResults bm25Results text other) :=
  inferInstanceAs (Decidable (∀ results ∈ [vectorResults, bm25Results], other ∈ texts results →
    text ∈ texts results ∧ bestRank results text ≤ bestRank results other))

def distinctTexts : List Text := (texts vectorResults ++ texts bm25Results).dedup

structure Fused (topK : ℕ) (fused : List (HybridResult M)) : Prop where
  length : fused.length = min topK (distinctTexts vectorResults bm25Results).length
  nodup : (texts fused).Nodup
  sorted : fused.Pairwise fun a b => b.score ≤ a.score
  scored : ∀ result ∈ fused, result.text ∈ distinctTexts vectorResults bm25Results ∧
    result.score = bestScore searcher vectorResults bm25Results result.text
  dominates : fused.Pairwise fun a b =>
    RankedNoWorse vectorResults bm25Results b.text a.text → ¬ b.score < a.score

variable {searcher vectorResults bm25Results}

theorem rrf_nonneg (rrfK rank : ℕ) : 0 ≤ rrf rrfK rank := by
  rw [rrf]
  split_ifs
  · positivity
  · exact le_refl 0

theorem HybridSearcher.bm25Weight_nonneg (searcher : HybridSearcher) : 0 ≤ searcher.bm25Weight :=
  sub_nonneg.mpr searcher.weight_le_one

theorem weighted_lastRank (results : List (HybridResult M)) (text : Text) (rrfK : ℕ) {weight : ℚ}
    (hweight : 0 ≤ weight) :
    weight * rrf rrfK (lastRank results text) ≤ weight * rrf rrfK (bestRank results text) ∧
      (weight * rrf rrfK (lastRank results text) = weight * rrf rrfK (bestRank results text) ↔
        (0 < weight → (texts results).count text ≤ 1)) := by
  by_cases hmem : text ∈ texts results
  · have hpos : 0 < bestRank results text := bestRank_pos_iff.mpr hmem
    have hle : bestRank results text ≤ lastRank results text := bestRank_le_lastRank
    refine ⟨mul_le_mul_of_nonneg_left (rrf_anti rrfK hpos hle) hweight, ?_⟩
    rw [← lastRank_eq_iff]
    constructor
    · intro heq hw
      by_contra hne
      have hlt := rrf_strictAnti rrfK hpos (lt_of_le_of_ne hle (Ne.symm hne))
      exact absurd heq (mul_lt_mul_of_pos_left hlt hw).ne
    · intro hrank
      rcases hweight.eq_or_lt with rfl | hw
      · rw [zero_mul, zero_mul]
      · rw [hrank hw]
  · have hcount := count_eq_zero_of_not_mem hmem
    have hrank : lastRank results text = bestRank results text := lastRank_eq_iff.mpr (by omega)
    rw [hrank]
    exact ⟨le_refl _, fun _ _ => by omega, fun _ => rfl⟩

theorem fusedScore_lastRank_iff (text : Text) :
    searcher.fusedScore (lastRank vectorResults text) (lastRank bm25Results text) =
        bestScore searcher vectorResults bm25Results text ↔
      (0 < searcher.vectorWeight → (texts vectorResults).count text ≤ 1) ∧
        (0 < searcher.bm25Weight → (texts bm25Results).count text ≤ 1) := by
  obtain ⟨hv, hv'⟩ := weighted_lastRank vectorResults text searcher.rrfK searcher.weight_nonneg
  obtain ⟨hb, hb'⟩ := weighted_lastRank bm25Results text searcher.rrfK searcher.bm25Weight_nonneg
  rw [← hv', ← hb', bestScore, HybridSearcher.fusedScore, HybridSearcher.fusedScore]
  constructor
  · intro heq
    constructor <;> linarith
  · rintro ⟨hveq, hbeq⟩
    rw [hveq, hbeq]

theorem rrf_bestRank_le (rrfK : ℕ)
    (h : other ∈ texts results →
      text ∈ texts results ∧ bestRank results text ≤ bestRank results other) :
    rrf rrfK (bestRank results other) ≤ rrf rrfK (bestRank results text) := by
  by_cases hother : other ∈ texts results
  · obtain ⟨hmem, hle⟩ := h hother
    exact rrf_anti rrfK (bestRank_pos_iff.mpr hmem) hle
  · rw [bestRank, if_neg hother]
    exact rrf_nonneg _ _

theorem bestScore_le (h : RankedNoWorse vectorResults bm25Results text other) :
    bestScore searcher vectorResults bm25Results other ≤
      bestScore searcher vectorResults bm25Results text := by
  have hv := rrf_bestRank_le searcher.rrfK (h vectorResults (by simp))
  have hb := rrf_bestRank_le searcher.rrfK (h bm25Results (by simp))
  exact add_le_add (mul_le_mul_of_nonneg_left hv searcher.weight_nonneg)
    (mul_le_mul_of_nonneg_left hb searcher.bm25Weight_nonneg)

theorem candidates_texts (searcher : HybridSearcher)
    (vectorResults bm25Results : List (HybridResult M)) :
    texts ((merge vectorResults bm25Results).values.map searcher.scored) =
      (merge vectorResults bm25Results).keys := by
  have hkeyed := (merge_spec vectorResults bm25Results).1
  rw [texts, List.map_map, Dict.values, Dict.keys, List.map_map]
  refine map_congr_left ?_
  rintro ⟨text, entry⟩ hentry
  exact hkeyed text entry ((Dict.mem_entries ..).mp hentry)

theorem keys_perm (vectorResults bm25Results : List (HybridResult M)) :
    (merge vectorResults bm25Results).keys.Perm (distinctTexts vectorResults bm25Results) := by
  refine (perm_ext_iff_of_nodup (merge vectorResults bm25Results).nodup
    (nodup_dedup _)).mpr ?_
  intro text
  rw [mem_dedup, mem_append]
  exact (merge_spec vectorResults bm25Results).2.2.2 text

theorem score_of_mem (h : result ∈ (merge vectorResults bm25Results).values.map searcher.scored) :
    result.score = searcher.fusedScore (lastRank vectorResults result.text)
      (lastRank bm25Results result.text) := by
  obtain ⟨hkeyed, hvector, hbm25, -⟩ := merge_spec vectorResults bm25Results
  obtain ⟨entry, hentry, rfl⟩ := List.mem_map.mp h
  obtain ⟨text, hget⟩ := (Dict.mem_values _ _).mp hentry
  have hv := hvector text
  have hb := hbm25 text
  rw [rankIn, hget] at hv hb
  change searcher.fusedScore entry.vectorRank entry.bm25Rank =
    searcher.fusedScore (lastRank vectorResults entry.text) (lastRank bm25Results entry.text)
  rw [hkeyed text entry hget, ← hv, ← hb]
  rfl

/-- The fusion ranks by the best ranks exactly when no list that counts has a text twice. -/
theorem fuse_fused_iff (searcher : HybridSearcher)
    (vectorResults bm25Results : List (HybridResult M)) :
    (∀ topK, Fused searcher vectorResults bm25Results topK
      (searcher.fuse vectorResults bm25Results topK)) ↔
    (0 < searcher.vectorWeight → (texts vectorResults).Nodup) ∧
      (0 < searcher.bm25Weight → (texts bm25Results).Nodup) := by
  have hperm := keys_perm vectorResults bm25Results
  have hlength : ((merge vectorResults bm25Results).values.map searcher.scored).length =
      (distinctTexts vectorResults bm25Results).length := by
    rw [← hperm.length_eq, ← candidates_texts searcher]
    simp only [texts, length_map]
  simp only [nodup_iff_count_le_one]
  constructor
  · intro h
    have hall : ∀ text, (0 < searcher.vectorWeight → (texts vectorResults).count text ≤ 1) ∧
        (0 < searcher.bm25Weight → (texts bm25Results).count text ≤ 1) := by
      intro text
      by_cases hmem : text ∈ distinctTexts vectorResults bm25Results
      · rw [← hperm.mem_iff, ← candidates_texts searcher, texts, List.mem_map] at hmem
        obtain ⟨result, hresult, rfl⟩ := hmem
        have hfused : result ∈ searcher.fuse vectorResults bm25Results
            (distinctTexts vectorResults bm25Results).length :=
          (Ranking.top_perm_of_length_le (Nat.le_of_eq hlength)).mem_iff.mpr hresult
        have hscore := ((h _).scored result hfused).2
        rw [score_of_mem hresult] at hscore
        exact fusedScore_lastRank_iff _ |>.mp hscore
      · rw [distinctTexts, mem_dedup, mem_append, not_or] at hmem
        rw [count_eq_zero_of_not_mem hmem.1, count_eq_zero_of_not_mem hmem.2]
        exact ⟨fun _ => Nat.zero_le 1, fun _ => Nat.zero_le 1⟩
    exact ⟨fun hw text => (hall text).1 hw, fun hw text => (hall text).2 hw⟩
  · rintro ⟨hvector, hbm25⟩ topK
    have hscore : ∀ result ∈ searcher.fuse vectorResults bm25Results topK,
        result.score = bestScore searcher vectorResults bm25Results result.text := by
      intro result hresult
      rw [score_of_mem (Ranking.mem_of_mem_top hresult)]
      exact (fusedScore_lastRank_iff _).mpr ⟨fun hw => hvector hw _, fun hw => hbm25 hw _⟩
    refine ⟨?_, ?_, Ranking.pairwise_top .., fun result hresult => ⟨?_, hscore result hresult⟩, ?_⟩
    · rw [HybridSearcher.fuse, Ranking.length_top, hlength]
    · have hnodup := (merge vectorResults bm25Results).nodup
      change (merge vectorResults bm25Results).keys.Nodup at hnodup
      rw [← candidates_texts searcher] at hnodup
      have hsorted := (Ranking.ranked_perm HybridResult.score
        ((merge vectorResults bm25Results).values.map searcher.scored)).map HybridResult.text
      exact (hsorted.nodup_iff.mpr hnodup).sublist ((take_sublist topK _).map _)
    · rw [← hperm.mem_iff, ← candidates_texts searcher]
      exact List.mem_map_of_mem (Ranking.mem_of_mem_top hresult)
    · refine pairwise_of_forall_mem_list ?_
      intro a ha b hb hranked
      rw [hscore a ha, hscore b hb]
      exact not_lt.mpr (bestScore_le hranked)

def repeatedResults : List (HybridResult Unit) :=
  [⟨['a'], 0, 9, 0, 0, 0, ()⟩, ⟨['b'], 0, 8, 0, 0, 0, ()⟩, ⟨['a'], 0, 7, 0, 0, 0, ()⟩]

/-- The first text of the list is placed below the second one. -/
theorem not_fused_repeated :
    ¬ Fused (HybridSearcher.init 1 60) repeatedResults [] 2
      ((HybridSearcher.init 1 60).fuse repeatedResults [] 2) := by
  intro h
  have hdominates := h.dominates
  revert hdominates
  decide +kernel

end Fused

end Agent33.Memory.Hybrid
