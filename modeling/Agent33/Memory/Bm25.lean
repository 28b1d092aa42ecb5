import Agent33.Library.Dict
import Agent33.Library.Python
import Agent33.Library.Ranking
import Mathlib.Tactic.Linarith
import Mathlib.Tactic.Positivity

/-!
# The keyword index

Documents are added to the index one by one, with counts of the documents that hold a term and
the average length of a document kept along the way. Scores are exact numbers; the logarithm is
any function.
-/

namespace Agent33.Memory.Bm25

open Library List Option Ranking

def stopWords : List Text :=
  ["a", "an", "and", "are", "as", "at", "be", "but", "by", "for", "from", "had", "has", "have",
    "he", "her", "his", "how", "i", "if", "in", "into", "is", "it", "its", "just", "my", "no",
    "not", "of", "on", "or", "our", "she", "so", "than", "that", "the", "their", "them", "then",
    "there", "these", "they", "this", "to", "was", "we", "were", "what", "when", "which", "who",
    "will", "with", "you"].map String.toList

def tokenize (python : Python) (text : Text) (removeStopwords : Bool := true) : List Text :=
  let tokens := ((python.lower text).splitOnP fun c => !python.isWord c).filter (· ≠ [])
  if removeStopwords then tokens.filter (· ∉ stopWords) else tokens

structure BM25Result (𝕜 M : Type) where
  text : Text
  score : 𝕜
  metadata : M
  docIndex : ℕ

section Results

variable {𝕜 M : Type} {docs : List (Text × M)} {ranking : List (ℕ × 𝕜)}

def resultsOf (docs : List (Text × M)) (ranking : List (ℕ × 𝕜)) : List (BM25Result 𝕜 M) :=
  ranking.filterMap fun s => docs[s.1]?.map fun doc => ⟨doc.1, s.2, doc.2, s.1⟩

theorem map_resultsOf (h : ∀ s ∈ ranking, s.1 < docs.length) :
    (resultsOf docs ranking).map (fun result => (result.docIndex, result.score)) = ranking := by
  induction ranking with
  | nil => rfl
  | cons s ranking ih =>
    have hget := getElem?_eq_getElem (h s mem_cons_self)
    have hrest := ih fun s hs => h s (mem_cons_of_mem _ hs)
    rw [resultsOf, filterMap_cons, hget]
    exact congrArg (s :: ·) hrest

theorem docs_of_mem_resultsOf (h : result ∈ resultsOf docs ranking) :
    docs[result.docIndex]? = some (result.text, result.metadata) := by
  obtain ⟨s, -, hs⟩ := mem_filterMap.mp h
  obtain ⟨doc, hdoc, rfl⟩ := map_eq_some_iff.mp hs
  exact hdoc

end Results

structure BM25Index (𝕜 M : Type) where
  k1 : 𝕜
  b : 𝕜
  docs : List (Text × M) := []
  tokenized : List (List Text) := []
  docLens : List ℕ := []
  docFreqs : Dict Text ℕ := Dict.empty
  n : ℕ := 0
  avgdl : 𝕜

variable {𝕜 M : Type} [Field 𝕜]

def countUp (counts : Dict Text ℕ) (terms : List Text) : Dict Text ℕ :=
  terms.foldl (fun counts term => counts.set term (counts.getD term 0 + 1)) counts

namespace BM25Index

def new (k1 b : 𝕜) : BM25Index 𝕜 M where
  k1 := k1
  b := b
  avgdl := 0

section Corpus

variable (python : Python)

def addDocument (index : BM25Index 𝕜 M) (document : Text × M) : BM25Index 𝕜 M :=
  let tokens := tokenize python document.1
  { index with
    docs := index.docs ++ [document]
    tokenized := index.tokenized ++ [tokens]
    docLens := index.docLens ++ [tokens.length]
    docFreqs := countUp index.docFreqs tokens.dedup
    n := index.n + 1
    avgdl := ((index.docLens ++ [tokens.length]).sum : ℕ) / ((index.n + 1 : ℕ) : 𝕜) }

def addDocuments (index : BM25Index 𝕜 M) (documents : List (Text × M)) : BM25Index 𝕜 M :=
  documents.foldl (addDocument python) index

def clear (index : BM25Index 𝕜 M) : BM25Index 𝕜 M :=
  { index with docs := [], tokenized := [], docLens := [], docFreqs := Dict.empty, n := 0,
               avgdl := 0 }

end Corpus

section Search

variable [LinearOrder 𝕜] (log : 𝕜 → 𝕜) (index : BM25Index 𝕜 M)

def idf (term : Text) : 𝕜 :=
  let n := index.docFreqs.getD term 0
  if n = 0 then 0 else log (((index.n : 𝕜) - n + 1 / 2) / (n + 1 / 2) + 1)

/-- What a term of the query adds to the score, none when a division by zero raises. -/
def addTerm (tfMap : Dict Text ℕ) (docLen : ℕ) (score : 𝕜) (term : Text) : Option 𝕜 :=
  let tf := tfMap.getD term 0
  if tf = 0 then some score
  else
    let numerator := (tf : 𝕜) * (index.k1 + 1)
    let denominator := (tf : 𝕜) +
      index.k1 * (1 - index.b + index.b * docLen / max index.avgdl (1 / 10 ^ 10))
    if denominator = 0 then none else some (score + index.idf log term * numerator / denominator)

def scoreDocument (queryTokens : List Text) (docIdx : ℕ) : Option 𝕜 :=
  let tfMap := countUp Dict.empty (index.tokenized.getD docIdx [])
  queryTokens.foldlM (index.addTerm log tfMap (index.docLens.getD docIdx 0)) 0

def positiveScores (queryTokens : List Text) : Option (List (ℕ × 𝕜)) := do
  let scores ← (List.range index.n).mapM fun i =>
    (index.scoreDocument log queryTokens i).map (i, ·)
  return scores.filter fun s => 0 < s.2

def search (python : Python) (query : Text) (topK : ℤ := 5) : Option (List (BM25Result 𝕜 M)) :=
  let queryTokens := tokenize python query
  if index.n = 0 ∨ queryTokens = [] then some []
  else do
    let scores ← index.positiveScores log queryTokens
    return resultsOf index.docs (slice (Ranking.ranked Prod.snd scores) 0 topK)

end Search

end BM25Index

section Statistics

inductive Call (M : Type)
  | addDocument (document : Text × M)
  | addDocuments (documents : List (Text × M))
  | clear

def Call.apply (python : Python) (index : BM25Index 𝕜 M) : Call M → BM25Index 𝕜 M
  | .addDocument document => index.addDocument python document
  | .addDocuments documents => index.addDocuments python documents
  | .clear => index.clear

def BM25Index.run (python : Python) (index : BM25Index 𝕜 M) (calls : List (Call M)) :
    BM25Index 𝕜 M :=
  calls.foldl (Call.apply python) index

def Call.present (docs : List (Text × M)) : Call M → List (Text × M)
  | .addDocument document => docs ++ [document]
  | .addDocuments documents => docs ++ documents
  | .clear => []

variable (python : Python) (docs : List (Text × M))

def docFreq (term : Text) : ℕ :=
  docs.countP fun doc => term ∈ tokenize python doc.1

def lengths : List ℕ :=
  docs.map fun doc => (tokenize python doc.1).length

def averageLength : 𝕜 :=
  if docs = [] then 0 else ((lengths python docs).sum : ℕ) / (docs.length : 𝕜)

structure Exact (python : Python) (k1 b : 𝕜) (index : BM25Index 𝕜 M) (docs : List (Text × M)) :
    Prop where
  k1_eq : index.k1 = k1
  b_eq : index.b = b
  docs_eq : index.docs = docs
  tokenized_eq : index.tokenized = docs.map fun doc => tokenize python doc.1
  docLens_eq : index.docLens = lengths python docs
  docFreqs_eq : ∀ term, index.docFreqs.getD term 0 = docFreq python docs term
  n_eq : index.n = docs.length
  avgdl_eq : index.avgdl = averageLength python docs

variable {python : Python} {index index' : BM25Index 𝕜 M} {docs docs' : List (Text × M)}

theorem getD_countUp (counts : Dict Text ℕ) (terms : List Text) (term : Text) :
    (countUp counts terms).getD term 0 = counts.getD term 0 + terms.count term := by
  induction terms generalizing counts with
  | nil => rfl
  | cons first terms ih =>
    rw [countUp, foldl_cons, ← countUp, ih, Dict.getD_set, count_cons]
    by_cases heq : term = first
    · simp [heq]
      omega
    · simp [heq, Ne.symm heq]

theorem exact_empty (python : Python) (k1 b : 𝕜) (index : BM25Index 𝕜 M) (hk1 : index.k1 = k1)
    (hb : index.b = b) : Exact python k1 b index.clear [] where
  k1_eq := hk1
  b_eq := hb
  docs_eq := rfl
  tokenized_eq := rfl
  docLens_eq := rfl
  docFreqs_eq _ := rfl
  n_eq := rfl
  avgdl_eq := by rw [averageLength, if_pos rfl, BM25Index.clear]

theorem Exact.addDocument (h : Exact python k1 b index docs) (document : Text × M) :
    Exact python k1 b (index.addDocument python document) (docs ++ [document]) where
  k1_eq := h.k1_eq
  b_eq := h.b_eq
  docs_eq := by rw [BM25Index.addDocument, h.docs_eq]
  tokenized_eq := by simp [BM25Index.addDocument, h.tokenized_eq]
  docLens_eq := by simp [BM25Index.addDocument, h.docLens_eq, lengths]
  docFreqs_eq term := by
    rw [BM25Index.addDocument, getD_countUp, h.docFreqs_eq, docFreq, docFreq,
      countP_append, countP_singleton]
    by_cases hmem : term ∈ tokenize python document.1
    · rw [count_eq_one_of_mem (nodup_dedup _) (mem_dedup.mpr hmem)]
      simp [hmem]
    · rw [count_eq_zero_of_not_mem fun h => hmem (mem_dedup.mp h)]
      simp [hmem]
  n_eq := by simp [BM25Index.addDocument, h.n_eq]
  avgdl_eq := by
    rw [averageLength, if_neg (by simp), BM25Index.addDocument]
    simp [h.docLens_eq, h.n_eq, lengths]

theorem Exact.addDocuments (h : Exact python k1 b index docs) (documents : List (Text × M)) :
    Exact python k1 b (index.addDocuments python documents) (docs ++ documents) := by
  rw [BM25Index.addDocuments]
  induction documents generalizing index docs with
  | nil => rwa [append_nil]
  | cons document documents ih =>
    have hrest := ih (h.addDocument document)
    rwa [append_assoc, singleton_append] at hrest

theorem Exact.apply (h : Exact python k1 b index docs) (call : Call M) :
    Exact python k1 b (call.apply python index) (call.present docs) := by
  cases call with
  | addDocument document => exact h.addDocument document
  | addDocuments documents => exact h.addDocuments documents
  | clear => exact exact_empty python k1 b index h.k1_eq h.b_eq

theorem Exact.run (h : Exact python k1 b index docs) (calls : List (Call M)) :
    Exact python k1 b (index.run python calls) (calls.foldl Call.present docs) := by
  rw [BM25Index.run]
  induction calls generalizing index docs with
  | nil => exact h
  | cons call calls ih => exact ih (h.apply call)

end Statistics

section Scores

variable [LinearOrder 𝕜] {log : 𝕜 → 𝕜} {python : Python} {k1 b : 𝕜} {index index' : BM25Index 𝕜 M}
  {docs docs' : List (Text × M)}

theorem scoreDocument_perm (h : Exact python k1 b index docs) (h' : Exact python k1 b index' docs')
    (hperm : docs.Perm docs') (hdoc : docs[i]? = some doc)
    (hdoc' : docs'[i']? = some doc') (htext : doc.1 = doc'.1) (queryTokens : List Text) :
    index.scoreDocument log queryTokens i = index'.scoreDocument log queryTokens i' := by
  have hn : index.n = index'.n := by rw [h.n_eq, h'.n_eq, hperm.length_eq]
  have hfreqs : ∀ term, index.docFreqs.getD term 0 = index'.docFreqs.getD term 0 := by
    intro term
    rw [h.docFreqs_eq, h'.docFreqs_eq, docFreq, docFreq, hperm.countP_eq]
  have havgdl : index.avgdl = index'.avgdl := by
    have hsum : (lengths python docs).sum = (lengths python docs').sum := (hperm.map _).sum_eq
    have hnil : docs = [] ↔ docs' = [] := by
      constructor
      · rintro rfl
        exact hperm.nil_eq.symm
      · rintro rfl
        exact hperm.eq_nil
    rw [h.avgdl_eq, h'.avgdl_eq, averageLength, averageLength, hsum, hperm.length_eq]
    simp only [hnil]
  have hadd : index.addTerm log = index'.addTerm log := by
    funext tfMap docLen score term
    simp only [BM25Index.addTerm, BM25Index.idf, h.k1_eq, h'.k1_eq, h.b_eq, h'.b_eq, hn, hfreqs,
      havgdl]
  have htokens : index.tokenized.getD i [] = index'.tokenized.getD i' [] := by
    simp [h.tokenized_eq, h'.tokenized_eq, getD_eq_getElem?_getD, hdoc, hdoc', htext]
  have hlen : index.docLens.getD i 0 = index'.docLens.getD i' 0 := by
    simp [h.docLens_eq, h'.docLens_eq, lengths, getD_eq_getElem?_getD, hdoc, hdoc', htext]
  rw [BM25Index.scoreDocument, BM25Index.scoreDocument, hadd, htokens, hlen]

theorem mapM_eq_some {α β : Type} {f : α → Option β} {xs : List α} {ys : List β}
    (h : xs.mapM f = some ys) :
    (∀ y, y ∈ ys ↔ ∃ x ∈ xs, f x = some y) ∧
      ∀ g : β → α, (∀ x y, f x = some y → g y = x) → ys.map g = xs := by
  induction xs generalizing ys with
  | nil =>
    rw [mapM_nil] at h
    cases h
    exact ⟨by simp, fun _ _ => rfl⟩
  | cons x xs ih =>
    rw [mapM_cons] at h
    cases hx : f x with
    | none => simp [hx] at h
    | some y =>
      cases hxs : xs.mapM f with
      | none => simp [hx, hxs] at h
      | some ys' =>
        simp only [hx, hxs, bind_eq_bind, bind_some, Option.pure_def,
          some.injEq] at h
        subst h
        obtain ⟨hmem, hmap⟩ := ih hxs
        refine ⟨fun z => ?_, fun g hg => ?_⟩
        · rw [mem_cons, hmem]
          simp [hx, eq_comm]
        · rw [map_cons, hg x y hx, hmap g hg]

variable {queryTokens : List Text}

theorem positiveScores_spec (h : index.positiveScores log queryTokens = some scores) :
    (scores.map Prod.fst).Nodup ∧ ∀ i s, (i, s) ∈ scores ↔
      i < index.n ∧ index.scoreDocument log queryTokens i = some s ∧ 0 < s := by
  rw [BM25Index.positiveScores] at h
  cases hall : (List.range index.n).mapM fun i =>
      (index.scoreDocument log queryTokens i).map (i, ·) with
  | none => simp [hall] at h
  | some all =>
    simp only [hall, bind_eq_bind, bind_some, Option.pure_def,
      some.injEq] at h
    subst h
    obtain ⟨hmem, hmap⟩ := mapM_eq_some hall
    have hfst : all.map Prod.fst = List.range index.n := by
      refine hmap Prod.fst fun i s hs => ?_
      obtain ⟨score, -, rfl⟩ := map_eq_some_iff.mp hs
      rfl
    refine ⟨?_, fun i s => ?_⟩
    · have hnodup : (all.map Prod.fst).Nodup := hfst ▸ nodup_range
      exact hnodup.sublist (filter_sublist.map _)
    · rw [List.mem_filter, hmem]
      simp only [mem_range, map_eq_some_iff, Prod.mk.injEq, decide_eq_true_eq]
      constructor
      · rintro ⟨⟨j, hj, score, hscore, rfl, rfl⟩, hpos⟩
        exact ⟨hj, hscore, hpos⟩
      · rintro ⟨hi, hscore, hpos⟩
        exact ⟨⟨i, hi, s, hscore, rfl, rfl⟩, hpos⟩

structure Searched (log : 𝕜 → 𝕜) (index : BM25Index 𝕜 M) (queryTokens : List Text) (topK : ℤ)
    (results : List (BM25Result 𝕜 M)) : Prop where
  length_le : 0 ≤ topK → (results.length : ℤ) ≤ topK
  sorted : results.Pairwise fun a b => b.score ≤ a.score
  nodup : (results.map BM25Result.docIndex).Nodup
  scored : ∀ result ∈ results, 0 < result.score ∧
    index.docs[result.docIndex]? = some (result.text, result.metadata) ∧
    index.scoreDocument log queryTokens result.docIndex = some result.score
  best : ∀ i < index.docs.length, ∀ score, index.scoreDocument log queryTokens i = some score →
    ∀ result ∈ results, result.score < score → ∃ other ∈ results, other.docIndex = i

theorem searched_nil (queryTokens : List Text) (topK : ℤ) :
    Searched log index queryTokens topK [] where
  length_le h := h
  sorted := .nil
  nodup := nodup_nil
  scored _ h := absurd h not_mem_nil
  best _ _ _ _ _ h := absurd h not_mem_nil

theorem searched_top (h : Exact python k1 b index docs) {topK : ℤ}
    (hscores : index.positiveScores log queryTokens = some scores) {k : ℕ}
    (hk : 0 ≤ topK → (k : ℤ) = topK) : Searched log index queryTokens topK
      (resultsOf index.docs (top Prod.snd k scores)) := by
  obtain ⟨hnodup, hmem⟩ := positiveScores_spec hscores
  have hlen : index.docs.length = index.n := by rw [h.docs_eq, h.n_eq]
  have htop : ∀ s ∈ top Prod.snd k scores, s ∈ scores :=
    fun s hs => mem_of_mem_top hs
  have hlt : ∀ s ∈ top Prod.snd k scores, s.1 < index.docs.length :=
    fun s hs => hlen ▸ ((hmem s.1 s.2).mp (htop s hs)).1
  have hmap := map_resultsOf hlt
  have hpair : ∀ result ∈ resultsOf index.docs (top Prod.snd k scores),
      (result.docIndex, result.score) ∈ top Prod.snd k scores := by
    intro result hresult
    have hin := List.mem_map_of_mem (f := fun r => (r.docIndex, r.score)) hresult
    rwa [hmap] at hin
  refine ⟨fun htopK => ?_, ?_, ?_, fun result hresult => ?_, fun i hi score hscore result hresult
    hlt => ?_⟩
  · have hle : (resultsOf index.docs (top Prod.snd k scores)).length ≤ k := by
      rw [← length_map fun r : BM25Result 𝕜 M => (r.docIndex, r.score), hmap,
        length_top]
      exact Nat.min_le_left ..
    have := hk htopK
    omega
  · have hsorted := pairwise_top Prod.snd k scores
    rwa [← hmap, pairwise_map] at hsorted
  · have hfst := (hnodup.perm ((ranked_perm Prod.snd scores).map _).symm).sublist
      ((take_sublist k _).map Prod.fst)
    rw [← top, ← hmap, List.map_map] at hfst
    exact hfst
  · obtain ⟨-, hscore, hpos⟩ := (hmem _ _).mp (htop _ (hpair result hresult))
    exact ⟨hpos, docs_of_mem_resultsOf hresult, hscore⟩
  · have hpos := ((hmem _ _).mp (htop _ (hpair result hresult))).2.2
    have hin := mem_top_of_lt ((hmem i score).mpr ⟨hlen ▸ hi, hscore, hpos.trans hlt⟩)
      (hpair result hresult) hlt
    rw [← hmap] at hin
    obtain ⟨other, hother, heq⟩ := List.mem_map.mp hin
    exact ⟨other, hother, congrArg Prod.fst heq⟩

theorem search_spec (h : Exact python k1 b index docs)
    (hsearch : index.search log python query topK = some results) :
    Searched log index (tokenize python query) topK results := by
  rw [BM25Index.search] at hsearch
  split_ifs at hsearch with hnone
  · obtain rfl := some.inj hsearch
    exact searched_nil _ topK
  · cases hscores : index.positiveScores log (tokenize python query) with
    | none => simp [hscores] at hsearch
    | some scores =>
      simp only [hscores, slice_zero, bind_eq_bind, bind_some, Option.pure_def,
        some.injEq] at hsearch
      subst hsearch
      exact searched_top h hscores fun htopK => by
        obtain ⟨k, rfl⟩ := Int.eq_ofNat_of_zero_le htopK
        rw [slicePosition_natCast]

section Defined

variable [IsStrictOrderedRing 𝕜]

section

variable (hk1 : 0 ≤ index.k1) (hb : 0 ≤ index.b) (hb1 : index.b ≤ 1)
include hk1 hb hb1

theorem addTerm_isSome (log : 𝕜 → 𝕜) (tfMap : Dict Text ℕ) (docLen : ℕ) (score : 𝕜) (term : Text) :
    ∃ score', index.addTerm log tfMap docLen score term = some score' := by
  rw [BM25Index.addTerm]
  split_ifs with htf
  · exact ⟨_, rfl⟩
  · have hmax : 0 < max index.avgdl (1 / 10 ^ 10) := lt_max_of_lt_right (by positivity)
    have hrest : 0 ≤ index.k1 * (1 - index.b +
        index.b * docLen / max index.avgdl (1 / 10 ^ 10)) := by
      apply mul_nonneg hk1
      apply add_nonneg (sub_nonneg.mpr hb1)
      exact div_nonneg (mul_nonneg hb (Nat.cast_nonneg _)) hmax.le
    have htf' : (0 : 𝕜) < (tfMap.getD term 0 : ℕ) := Nat.cast_pos.mpr (Nat.pos_of_ne_zero htf)
    have hne : ((tfMap.getD term 0 : ℕ) : 𝕜) + index.k1 * (1 - index.b +
        index.b * docLen / max index.avgdl (1 / 10 ^ 10)) ≠ 0 := by linarith
    exact ⟨_, if_neg hne⟩

theorem scoreDocument_isSome (log : 𝕜 → 𝕜) (queryTokens : List Text) (i : ℕ) :
    ∃ score, index.scoreDocument log queryTokens i = some score := by
  have hrun : ∀ (terms : List Text) (tfMap : Dict Text ℕ) (docLen : ℕ) (score : 𝕜),
      ∃ score', terms.foldlM (index.addTerm log tfMap docLen) score = some score' := by
    intro terms tfMap docLen
    induction terms with
    | nil => exact fun score => ⟨score, rfl⟩
    | cons term terms ih =>
      intro score
      obtain ⟨score', hscore⟩ := addTerm_isSome hk1 hb hb1 log tfMap docLen score term
      rw [foldlM_cons, hscore]
      exact ih score'
  exact hrun ..

theorem search_isSome (query : Text)
    (topK : ℤ) : ∃ results, index.search log python query topK = some results := by
  have hscores : ∃ scores, index.positiveScores log (tokenize python query) = some scores := by
    rw [BM25Index.positiveScores]
    choose score hscore using
      scoreDocument_isSome hk1 hb hb1 log (tokenize python query)
    have hall : (List.range index.n).mapM (fun i => some (i, score i)) =
        some ((List.range index.n).map fun i => (i, score i)) := mapM_pure
    simp only [hscore, map_some, hall]
    exact ⟨_, rfl⟩
  obtain ⟨scores, hscores⟩ := hscores
  rw [BM25Index.search]
  split_ifs
  · exact ⟨_, rfl⟩
  · rw [hscores]
    exact ⟨_, rfl⟩

end

end Defined

end Scores

section Index

variable [LinearOrder 𝕜] [IsStrictOrderedRing 𝕜]

/-- After any calls the statistics are those of the documents, the scores do not depend on the
order of the documents, and a search finds the best ones. -/
theorem incremental (log : 𝕜 → 𝕜) (python : Python) (k1 b : 𝕜) (calls : List (Call M)) :
    Exact python k1 b ((BM25Index.new k1 b).run python calls) (calls.foldl Call.present []) ∧
      (∀ calls' : List (Call M),
        (calls.foldl Call.present []).Perm (calls'.foldl Call.present []) →
        ∀ i i' doc, (calls.foldl Call.present [])[i]? = some doc →
          (calls'.foldl Call.present [])[i']? = some doc → ∀ queryTokens,
          ((BM25Index.new k1 b).run python calls).scoreDocument log queryTokens i =
            ((BM25Index.new k1 b).run python calls').scoreDocument log queryTokens i') ∧
      ∀ query topK,
        (0 ≤ k1 → 0 ≤ b → b ≤ 1 → ∃ results,
          ((BM25Index.new k1 b).run python calls).search log python query topK = some results) ∧
        ∀ results,
          ((BM25Index.new k1 b).run python calls).search log python query topK = some results →
            Searched log ((BM25Index.new k1 b).run python calls) (tokenize python query) topK
              results := by
  have hrun : ∀ calls : List (Call M), Exact python k1 b ((BM25Index.new k1 b).run python calls)
      (calls.foldl Call.present []) :=
    fun calls => (exact_empty python k1 b (BM25Index.new k1 b) rfl rfl).run calls
  have h := hrun calls
  refine ⟨h, fun calls' hperm i i' doc hdoc hdoc' queryTokens => ?_, fun query topK =>
    ⟨fun hk1 hb hb1 => ?_, fun results hsearch => search_spec h hsearch⟩⟩
  · exact scoreDocument_perm h (hrun calls') hperm hdoc hdoc' rfl queryTokens
  · rw [← h.k1_eq] at hk1
    rw [← h.b_eq] at hb hb1
    exact search_isSome hk1 hb hb1 query topK

theorem incremental_rat : Exact (asciiPython []) (6 / 5 : ℚ) (3 / 4)
    ((BM25Index.new (6 / 5) (3 / 4)).run (asciiPython [])
      [.addDocument ("red apple".toList, 1), .clear, .addDocument ("green pear".toList, 2)])
    [("green pear".toList, 2)] :=
  (incremental id (asciiPython []) (6 / 5 : ℚ) (3 / 4)
    [.addDocument ("red apple".toList, 1), .clear, .addDocument ("green pear".toList, 2)]).1

end Index

end Agent33.Memory.Bm25
