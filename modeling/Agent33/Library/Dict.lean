import Mathlib.Data.List.Nodup

/-!
# Insertion-ordered finite maps

A dictionary is a list of entries whose keys do not repeat. Assigning to a
present key keeps its position, assigning to a new key appends it, so that
iteration follows the order in which the keys were first inserted.
-/

namespace Agent33.Library

@[ext]
structure Dict (κ ν : Type*) where
  entries : List (κ × ν)
  nodup : (entries.map Prod.fst).Nodup

namespace Dict

variable {κ ν : Type*} [DecidableEq κ]

def empty : Dict κ ν := ⟨[], List.nodup_nil⟩

instance : Inhabited (Dict κ ν) := ⟨empty⟩

instance [DecidableEq ν] : DecidableEq (Dict κ ν) := fun _ _ => decidable_of_iff _ Dict.ext_iff.symm

def keys (d : Dict κ ν) : List κ := d.entries.map Prod.fst

def values (d : Dict κ ν) : List ν := d.entries.map Prod.snd

def lookupEntries (k : κ) : List (κ × ν) → Option ν
  | [] => none
  | e :: es => if e.1 = k then some e.2 else lookupEntries k es

def get? (d : Dict κ ν) (k : κ) : Option ν := lookupEntries k d.entries

def getD (d : Dict κ ν) (k : κ) (v : ν) : ν := (d.get? k).getD v

def setEntries (k : κ) (v : ν) : List (κ × ν) → List (κ × ν)
  | [] => [(k, v)]
  | e :: es => if e.1 = k then (k, v) :: es else e :: setEntries k v es

theorem map_fst_setEntries (k : κ) (v : ν) (es : List (κ × ν)) :
    (setEntries k v es).map Prod.fst =
      if k ∈ es.map Prod.fst then es.map Prod.fst else es.map Prod.fst ++ [k] := by
  induction es with
  | nil => simp [setEntries]
  | cons e es ih =>
    by_cases he : e.1 = k
    · simp [setEntries, he]
    · have hne : ¬ k = e.1 := fun h => he h.symm
      simp only [setEntries, he, if_false, List.map_cons, ih, List.mem_cons, hne, false_or]
      split_ifs <;> simp

theorem nodup_setEntries (k : κ) (v : ν)
    (hes : (es.map Prod.fst).Nodup) : ((setEntries k v es).map Prod.fst).Nodup := by
  rw [map_fst_setEntries]
  split_ifs with hk
  · exact hes
  · exact List.nodup_append.mpr ⟨hes, List.nodup_singleton k, by
      intro a ha b hb hab
      rw [List.mem_singleton] at hb
      exact hk (hb ▸ hab ▸ ha)⟩

def set (d : Dict κ ν) (k : κ) (v : ν) : Dict κ ν :=
  ⟨setEntries k v d.entries, nodup_setEntries k v d.nodup⟩

def ofList (es : List (κ × ν)) : Dict κ ν := es.foldl (fun d e => d.set e.1 e.2) empty

def update (d e : Dict κ ν) : Dict κ ν := e.entries.foldl (fun d e => d.set e.1 e.2) d

def erase (d : Dict κ ν) (k : κ) : Dict κ ν :=
  ⟨d.entries.filter (fun e => decide (e.1 ≠ k)), d.nodup.sublist (List.filter_sublist.map _)⟩

def filterMapValues {μ : Type*} (d : Dict κ ν) (f : κ → ν → Option μ) : Dict κ μ :=
  ⟨d.entries.filterMap fun e => (f e.1 e.2).map fun v => (e.1, v), by
    refine d.nodup.sublist ?_
    generalize d.entries = es
    induction es with
    | nil => exact List.Sublist.slnil
    | cons e es ih =>
      cases h : f e.1 e.2 with
      | none => simpa [h] using ih.cons e.1
      | some v => simpa [h] using ih.cons_cons e.1⟩

def mapValues {μ : Type*} (d : Dict κ ν) (f : κ → ν → μ) : Dict κ μ :=
  d.filterMapValues fun k v => some (f k v)

@[simp] theorem get?_empty (k : κ) : (empty : Dict κ ν).get? k = none := rfl

omit [DecidableEq κ] in
@[simp] theorem keys_empty : (empty : Dict κ ν).keys = [] := rfl

theorem lookupEntries_setEntries (k j : κ) (v : ν) (es : List (κ × ν)) :
    lookupEntries j (setEntries k v es) = if j = k then some v else lookupEntries j es := by
  induction es with
  | nil =>
    by_cases hj : j = k
    · simp [setEntries, lookupEntries, hj]
    · simp [setEntries, lookupEntries, hj, Ne.symm hj]
  | cons e es ih =>
    by_cases he : e.1 = k
    · by_cases hj : j = k
      · simp [setEntries, lookupEntries, he, hj]
      · simp [setEntries, lookupEntries, he, hj, Ne.symm hj]
    · simp only [setEntries, he, if_false, lookupEntries, ih]
      by_cases hj : j = k
      · subst hj; simp [he]
      · simp [hj]

@[simp] theorem get?_set (d : Dict κ ν) (k j : κ) (v : ν) :
    (d.set k v).get? j = if j = k then some v else d.get? j :=
  lookupEntries_setEntries k j v d.entries

@[simp] theorem getD_empty (k : κ) (v : ν) : (empty : Dict κ ν).getD k v = v := rfl

@[simp] theorem getD_set (d : Dict κ ν) (k j : κ) (v w : ν) :
    (d.set k v).getD j w = if j = k then v else d.getD j w := by
  rw [getD, get?_set]
  split_ifs <;> rfl

theorem get?_erase (d : Dict κ ν) (k j : κ) :
    (d.erase k).get? j = if j = k then none else d.get? j := by
  have aux (es : List (κ × ν)) :
      lookupEntries j (es.filter (fun e => decide (e.1 ≠ k))) =
        if j = k then none else lookupEntries j es := by
    induction es with
    | nil => simp [lookupEntries]
    | cons e es ih =>
      by_cases he : e.1 = k
      · rw [List.filter_cons_of_neg (by simpa using he), ih, lookupEntries]
        split_ifs with hj hej
        · rfl
        · exact absurd (hej ▸ he) hj
        · rfl
      · rw [List.filter_cons_of_pos (by simpa using he), lookupEntries, ih, lookupEntries]
        split_ifs with hej hj hj
        · exact absurd (hej.trans hj) he
        · rfl
        · rfl
        · rfl
  exact aux d.entries

theorem lookupEntries_eq_none (k : κ) (es : List (κ × ν)) :
    lookupEntries k es = none ↔ k ∉ es.map Prod.fst := by
  induction es with
  | nil => simp [lookupEntries]
  | cons e es ih =>
    by_cases he : e.1 = k
    · simp [lookupEntries, he]
    · simp only [lookupEntries, he, if_false, ih, List.map_cons, List.mem_cons, not_or]
      exact ⟨fun h => ⟨fun hk => he hk.symm, h⟩, fun h => h.2⟩

theorem get?_filterMapValues {μ : Type*} (d : Dict κ ν) (f : κ → ν → Option μ) (k : κ) :
    (d.filterMapValues f).get? k = (d.get? k).bind (f k) := by
  have aux (es : List (κ × ν)) (hes : (es.map Prod.fst).Nodup) :
      lookupEntries k (es.filterMap fun e => (f e.1 e.2).map fun v => (e.1, v)) =
        (lookupEntries k es).bind (f k) := by
    induction es with
    | nil => rfl
    | cons e es ih =>
      rw [List.map_cons, List.nodup_cons] at hes
      have ih := ih hes.2
      cases hf : f e.1 e.2 with
      | none =>
        rw [List.filterMap_cons_none (by rw [hf]; rfl), ih, lookupEntries]
        split_ifs with he
        · subst he
          rw [(lookupEntries_eq_none e.1 es).mpr hes.1, Option.bind_some, hf]
          rfl
        · rfl
      | some v =>
        rw [List.filterMap_cons_some (by rw [hf]; rfl), lookupEntries, lookupEntries, ih]
        split_ifs with he
        · subst he
          exact hf.symm
        · rfl
  exact aux d.entries d.nodup

@[simp] theorem get?_mapValues {μ : Type*} (d : Dict κ ν) (f : κ → ν → μ) (k : κ) :
    (d.mapValues f).get? k = (d.get? k).map (f k) := by
  rw [mapValues, get?_filterMapValues]
  cases d.get? k <;> rfl

omit [DecidableEq κ] in
theorem entries_mapValues {μ : Type*} (d : Dict κ ν) (f : κ → ν → μ) :
    (d.mapValues f).entries = d.entries.map fun e => (e.1, f e.1 e.2) :=
  congrFun (List.filterMap_eq_map (f := fun e : κ × ν => (e.1, f e.1 e.2))) d.entries

omit [DecidableEq κ] in
@[simp] theorem keys_mapValues {μ : Type*} (d : Dict κ ν) (f : κ → ν → μ) :
    (d.mapValues f).keys = d.keys := by
  rw [keys, entries_mapValues, List.map_map]
  rfl

@[simp] theorem getD_erase (d : Dict κ ν) (k j : κ) (w : ν) :
    (d.erase k).getD j w = if j = k then w else d.getD j w := by
  rw [getD, get?_erase]
  split_ifs <;> rfl

theorem keys_set (d : Dict κ ν) (k : κ) (v : ν) :
    (d.set k v).keys = if k ∈ d.keys then d.keys else d.keys ++ [k] :=
  map_fst_setEntries k v d.entries

theorem mem_keys_set (d : Dict κ ν) (k j : κ) (v : ν) :
    j ∈ (d.set k v).keys ↔ j = k ∨ j ∈ d.keys := by
  rw [keys_set]
  split_ifs with hk
  · exact ⟨.inr, fun h => h.elim (fun heq => heq ▸ hk) id⟩
  · rw [List.mem_append, List.mem_singleton, or_comm]

theorem get?_eq_none (d : Dict κ ν) (k : κ) : d.get? k = none ↔ k ∉ d.keys :=
  lookupEntries_eq_none k d.entries

variable {d e : Dict κ ν} {es : List (κ × ν)}

theorem set_eq_self (h : d.get? k = some v) : d.set k v = d := by
  have aux (es : List (κ × ν)) (h : lookupEntries k es = some v) : setEntries k v es = es := by
    induction es with
    | nil => simp [lookupEntries] at h
    | cons e es ih =>
      by_cases he : e.1 = k
      · rw [lookupEntries, if_pos he, Option.some_inj] at h
        rw [setEntries, if_pos he, ← he, ← h]
      · rw [lookupEntries, if_neg he] at h
        rw [setEntries, if_neg he, ih h]
  exact Dict.ext (aux d.entries h)

theorem set_set (d : Dict κ ν) (k : κ) (v w : ν) : (d.set k v).set k w = d.set k w := by
  have aux (es : List (κ × ν)) : setEntries k w (setEntries k v es) = setEntries k w es := by
    induction es with
    | nil => simp [setEntries]
    | cons e es ih =>
      by_cases he : e.1 = k
      · simp [setEntries, he]
      · simp [setEntries, he, ih]
  exact Dict.ext (aux d.entries)

theorem mem_entries (d : Dict κ ν) (k : κ) (v : ν) : (k, v) ∈ d.entries ↔ d.get? k = some v := by
  have aux (es : List (κ × ν)) (h : (es.map Prod.fst).Nodup) :
      (k, v) ∈ es ↔ lookupEntries k es = some v := by
    induction es with
    | nil => simp [lookupEntries]
    | cons e es ih =>
      rw [List.map_cons, List.nodup_cons] at h
      by_cases he : e.1 = k
      · have hnot : (k, v) ∉ es := fun hmem => h.1 (he ▸ List.mem_map_of_mem hmem)
        rw [lookupEntries, if_pos he, List.mem_cons, or_iff_left hnot]
        exact ⟨fun h => h ▸ rfl, fun h => by rw [← he, ← Option.some.inj h]⟩
      · rw [lookupEntries, if_neg he, List.mem_cons, ih h.2]
        exact or_iff_right fun h => he (h ▸ rfl)
  exact aux d.entries d.nodup

theorem perm_entries (h : ∀ k, d.get? k = e.get? k) : d.entries.Perm e.entries := by
  refine (List.perm_ext_iff_of_nodup d.nodup.of_map e.nodup.of_map).mpr fun ⟨k, v⟩ => ?_
  rw [mem_entries, mem_entries, h]

theorem entries_set_of_notMem (h : k ∉ d.keys) : (d.set k v).entries = d.entries ++ [(k, v)] := by
  have aux (es : List (κ × ν)) (hes : k ∉ es.map Prod.fst) :
      setEntries k v es = es ++ [(k, v)] := by
    induction es with
    | nil => rfl
    | cons e es ih =>
      simp only [List.map_cons, List.mem_cons, not_or] at hes
      simp [setEntries, Ne.symm hes.1, ih hes.2]
  exact aux d.entries h

theorem length_set (d : Dict κ ν) (k : κ) (v : ν) :
    (d.set k v).entries.length = if k ∈ d.keys then d.entries.length else d.entries.length + 1 := by
  have hkeys (d : Dict κ ν) : d.keys.length = d.entries.length := List.length_map _
  rw [← hkeys, keys_set]
  split_ifs <;> simp [hkeys]

theorem length_erase_lt {e : κ × ν} (h : e ∈ d.entries) :
    (d.erase e.1).entries.length < d.entries.length :=
  List.length_filter_lt_length_iff_exists.mpr ⟨e, h, by simp⟩

theorem entries_foldl_set (es : List (κ × ν)) (d : Dict κ ν)
    (h : ((d.entries ++ es).map Prod.fst).Nodup) :
    (es.foldl (fun d e => d.set e.1 e.2) d).entries = d.entries ++ es := by
  induction es generalizing d with
  | nil => simp
  | cons e es ih =>
    have hnew : e.1 ∉ d.keys := by
      rw [List.map_append, List.map_cons, List.nodup_append] at h
      intro hmem
      exact h.2.2 _ hmem _ List.mem_cons_self rfl
    have hset := entries_set_of_notMem (v := e.2) hnew
    rw [List.foldl_cons, ih]
    · rw [hset]; simp
    · rw [hset]; simpa using h

theorem entries_ofList (h : (es.map Prod.fst).Nodup) : (ofList es).entries = es := by
  simpa [ofList, empty] using entries_foldl_set es empty (by simpa [empty] using h)

theorem get?_ofList (h : (es.map Prod.fst).Nodup) (k : κ) (v : ν) :
    (ofList es).get? k = some v ↔ (k, v) ∈ es := by
  rw [← mem_entries, entries_ofList h]

theorem mem_or_get?_of_foldl_set (h : (es.foldl (fun d e => d.set e.1 e.2) d).get? k = some v) :
    (k, v) ∈ es ∨ d.get? k = some v := by
  induction es generalizing d with
  | nil => exact .inr h
  | cons e es ih =>
    rcases ih h with hmem | hget
    · exact .inl (List.mem_cons_of_mem e hmem)
    · rw [get?_set] at hget
      split_ifs at hget with hk
      · exact .inl (by simp [hk, ← Option.some.inj hget])
      · exact .inr hget

theorem mem_of_get?_ofList (h : (ofList es).get? k = some v) : (k, v) ∈ es := by
  simpa using mem_or_get?_of_foldl_set (d := empty) h

theorem get?_foldl_set_of_unique (h : (k, v) ∈ es ∨ d.get? k = some v ∧ ∀ w, (k, w) ∉ es)
    (hunique : ∀ w, (k, w) ∈ es → w = v) :
    (es.foldl (fun d e => d.set e.1 e.2) d).get? k = some v := by
  induction es generalizing d with
  | nil => exact (h.resolve_left List.not_mem_nil).1
  | cons e es ih =>
    refine ih ?_ fun w hw => hunique w (List.mem_cons_of_mem e hw)
    by_cases hmem : (k, v) ∈ es
    · exact .inl hmem
    · refine .inr ⟨?_, fun w hw => hmem (hunique w (List.mem_cons_of_mem e hw) ▸ hw)⟩
      rw [get?_set]
      rcases h with hcons | ⟨hget, hnot⟩
      · have he : e = (k, v) := ((List.mem_cons.mp hcons).resolve_right hmem).symm
        rw [he, if_pos rfl]
      · rw [if_neg, hget]
        intro heq
        exact hnot e.2 (by rw [heq]; exact List.mem_cons_self)

theorem mem_values (d : Dict κ ν) (v : ν) : v ∈ d.values ↔ ∃ k, d.get? k = some v := by
  simp [values, ← mem_entries]

theorem get?_update (d e : Dict κ ν) (k : κ) : (d.update e).get? k = (e.get? k).or (d.get? k) := by
  have aux (es : List (κ × ν)) (hes : (es.map Prod.fst).Nodup) (d : Dict κ ν) :
      (es.foldl (fun d e => d.set e.1 e.2) d).get? k = (lookupEntries k es).or (d.get? k) := by
    induction es generalizing d with
    | nil => rfl
    | cons f es ih =>
      rw [List.map_cons, List.nodup_cons] at hes
      rw [List.foldl_cons, ih hes.2, get?_set, lookupEntries]
      by_cases hk : k = f.1
      · rw [if_pos hk, if_pos hk.symm, hk, (lookupEntries_eq_none f.1 es).mpr hes.1]
        rfl
      · rw [if_neg hk, if_neg (Ne.symm hk)]
  exact aux e.entries e.nodup d

theorem erase_set_of_notMem (h : k ∉ d.keys) : (d.set k v).erase k = d := by
  have hother : ∀ e ∈ d.entries, e.1 ≠ k := fun e he heq => h (heq ▸ List.mem_map_of_mem he)
  refine Dict.ext ?_
  change (d.set k v).entries.filter (fun e => decide (e.1 ≠ k)) = d.entries
  rw [entries_set_of_notMem h, List.filter_append,
    List.filter_eq_self.mpr fun e he => decide_eq_true (hother e he)]
  simp

theorem entries_foldl_set_of_keys
    (hd : d.entries = start ++ olds) (h : olds.map Prod.fst = es.map Prod.fst) :
    (es.foldl (fun d e => d.set e.1 e.2) d).entries = start ++ es := by
  induction es generalizing olds d start with
  | nil =>
    rw [List.map_eq_nil_iff.mp h] at hd
    exact hd
  | cons e es ih =>
    obtain ⟨k, v⟩ := e
    obtain ⟨old, olds, rfl, hold, hrest⟩ := List.map_eq_cons_iff.mp h
    obtain ⟨k', w⟩ := old
    obtain rfl : k' = k := hold
    have hnodup := d.nodup
    rw [hd, List.map_append, List.nodup_append] at hnodup
    have hstart : k' ∉ start.map Prod.fst := fun hmem =>
      hnodup.2.2 k' hmem k' List.mem_cons_self rfl
    have hset (start : List (κ × ν)) (hnew : k' ∉ start.map Prod.fst) :
        setEntries k' v (start ++ (k', w) :: olds) = start ++ (k', v) :: olds := by
      induction start with
      | nil => simp [setEntries]
      | cons e rest ih =>
        rw [List.map_cons, List.mem_cons, not_or] at hnew
        simp [setEntries, Ne.symm hnew.1, ih hnew.2]
    have hentries : (d.set k' v).entries = (start ++ [(k', v)]) ++ olds := by
      change setEntries k' v d.entries = _
      rw [hd, hset start hstart, List.append_assoc]
      rfl
    rw [List.foldl_cons, ih hentries hrest, List.append_assoc]
    rfl

theorem update_eq_of_keys (h : d.keys <+: e.keys) : d.update e = e := by
  obtain ⟨more, hmore⟩ := h
  obtain ⟨es, es', hes, hkeys, -⟩ := List.map_eq_append_iff.mp hmore.symm
  have hfirst := entries_foldl_set_of_keys (List.nil_append d.entries).symm hkeys.symm
  refine Dict.ext ?_
  rw [update, hes, List.foldl_append, entries_foldl_set]
  · rw [hfirst, List.nil_append]
  · rw [hfirst, List.nil_append, ← hes]
    exact e.nodup

theorem keys_prefix_set (d : Dict κ ν) (k : κ) (v : ν) : d.keys <+: (d.set k v).keys := by
  rw [keys_set]
  split_ifs
  · exact List.prefix_refl _
  · exact List.prefix_append _ _

theorem keys_prefix_update (d e : Dict κ ν) : d.keys <+: (d.update e).keys := by
  rw [update]
  induction e.entries generalizing d with
  | nil => exact List.prefix_refl _
  | cons f es ih => exact (d.keys_prefix_set f.1 f.2).trans (ih _)

theorem ext_get? (hkeys : d.keys = e.keys) (hget : ∀ k, d.get? k = e.get? k) : d = e := by
  have aux (es fs : List (κ × ν)) (hes : (es.map Prod.fst).Nodup)
      (hfst : es.map Prod.fst = fs.map Prod.fst)
      (hlookup : ∀ k, lookupEntries k es = lookupEntries k fs) : es = fs := by
    induction es generalizing fs with
    | nil => exact (List.map_eq_nil_iff.mp hfst.symm).symm
    | cons e es ih =>
      cases fs with
      | nil => simp at hfst
      | cons f fs =>
        simp only [List.map_cons, List.cons.injEq, List.nodup_cons] at hfst hes
        have hhead : some e.2 = some f.2 := by simpa [lookupEntries, hfst.1] using hlookup e.1
        rw [ih fs hes.2 hfst.2 fun k => ?_, Prod.ext hfst.1 (Option.some.inj hhead)]
        by_cases hk : e.1 = k
        · rw [(lookupEntries_eq_none k es).mpr (hk ▸ hes.1),
            (lookupEntries_eq_none k fs).mpr (hfst.2 ▸ hk ▸ hes.1)]
        · simpa [lookupEntries, hk, ← hfst.1] using hlookup k
  exact Dict.ext (aux d.entries e.entries d.nodup hkeys hget)

theorem filter_mem_of_sublist {keys all : List κ} (h : keys.Sublist all)
    (hall : all.Nodup) : all.filter (fun k => decide (k ∈ keys)) = keys := by
  induction h with
  | slnil => rfl
  | @cons keys all k h ih =>
    rw [List.nodup_cons] at hall
    rw [List.filter_cons_of_neg (by simpa using fun hmem => hall.1 (h.subset hmem)), ih hall.2]
  | @cons_cons keys all k h ih =>
    rw [List.nodup_cons] at hall
    rw [List.filter_cons_of_pos (by simp)]
    congr 1
    rw [← ih hall.2]
    apply List.filter_congr
    intro j hj
    have hne : j ≠ k := fun heq => hall.1 (heq ▸ hj)
    simp [hne, ih hall.2]

theorem eq_of_sublist (hall : all.Nodup) (hd : d.keys.Sublist all)
    (he : e.keys.Sublist all) (hget : ∀ k, d.get? k = e.get? k) : d = e := by
  apply ext_get? ?_ hget
  rw [← filter_mem_of_sublist hd hall, ← filter_mem_of_sublist he hall]
  apply List.filter_congr
  intro k _
  have hmem : k ∈ d.keys ↔ k ∈ e.keys := by
    rw [← not_iff_not, ← get?_eq_none, ← get?_eq_none, hget]
  simp [hmem]

theorem keys_erase_sublist (d : Dict κ ν) (k : κ) : (d.erase k).keys.Sublist d.keys :=
  List.filter_sublist.map _

end Dict

end Agent33.Library

/-!
## Views of dictionaries

A dictionary seen through a partial renaming of its keys that is injective: what is done
under the keys that have a name shows in the view, and what is done under others does not.
-/

namespace Agent33.Library

variable {κ μ ν : Type*}

structure Window (κ μ : Type*) where
  name? : κ → Option μ
  injective : ∀ {k k' j}, name? k = some j → name? k' = some j → k = k'

namespace Window

variable (w : Window κ μ)

def entries (es : List (κ × ν)) : List (μ × ν) :=
  es.filterMap fun e => (w.name? e.1).map fun j => (j, e.2)

theorem entries_cons_some (h : w.name? e.1 = some j) (es : List (κ × ν)) :
    w.entries (e :: es) = (j, e.2) :: w.entries es := by
  simp [entries, h]

theorem entries_cons_none (h : w.name? e.1 = none) (es : List (κ × ν)) :
    w.entries (e :: es) = w.entries es := by
  simp [entries, h]

theorem map_fst_entries (es : List (κ × ν)) :
    (w.entries es).map Prod.fst = (es.map Prod.fst).filterMap w.name? := by
  induction es with
  | nil => rfl
  | cons e es ih =>
    cases h : w.name? e.1 with
    | none => rw [entries_cons_none w h, ih, List.map_cons, List.filterMap_cons_none h]
    | some j =>
      rw [entries_cons_some w h, List.map_cons, ih, List.map_cons, List.filterMap_cons_some h]

theorem nodup_entries (h : (es.map Prod.fst).Nodup) : ((w.entries es).map Prod.fst).Nodup := by
  rw [map_fst_entries]
  exact h.filterMap fun k k' j hk hk' => w.injective hk hk'

end Window

namespace Dict

def view (w : Window κ μ) (d : Dict κ ν) : Dict μ ν :=
  ⟨w.entries d.entries, w.nodup_entries d.nodup⟩

theorem keys_view (w : Window κ μ) (d : Dict κ ν) : (d.view w).keys = d.keys.filterMap w.name? :=
  w.map_fst_entries d.entries

variable [DecidableEq κ] [DecidableEq μ] {d : Dict κ ν} {j : μ}

theorem get?_view (h : w.name? k = some j) : (d.view w).get? j = d.get? k := by
  have aux (es : List (κ × ν)) : lookupEntries j (w.entries es) = lookupEntries k es := by
    induction es with
    | nil => rfl
    | cons e es ih =>
      by_cases hk : e.1 = k
      · rw [w.entries_cons_some (hk ▸ h), lookupEntries, if_pos rfl, lookupEntries, if_pos hk]
      · rw [lookupEntries, if_neg hk, ← ih]
        cases he : w.name? e.1 with
        | none => rw [w.entries_cons_none he]
        | some i =>
          have hi : i ≠ j := fun hij => hk (w.injective he (hij ▸ h))
          rw [w.entries_cons_some he, lookupEntries, if_neg hi]
  exact aux d.entries

theorem view_set (h : w.name? k = some j) (v : ν) : (d.set k v).view w = (d.view w).set j v := by
  have aux (es : List (κ × ν)) :
      w.entries (setEntries k v es) = setEntries j v (w.entries es) := by
    induction es with
    | nil => simp [setEntries, Window.entries, h]
    | cons e es ih =>
      by_cases hk : e.1 = k
      · rw [setEntries, if_pos hk, w.entries_cons_some h, w.entries_cons_some (hk ▸ h), setEntries,
          if_pos rfl]
      · rw [setEntries, if_neg hk]
        cases he : w.name? e.1 with
        | none => rw [w.entries_cons_none he, w.entries_cons_none he, ih]
        | some i =>
          have hi : i ≠ j := fun hij => hk (w.injective he (hij ▸ h))
          rw [w.entries_cons_some he, w.entries_cons_some he, setEntries, if_neg hi, ih]
  exact Dict.ext (aux d.entries)

omit [DecidableEq μ] in
theorem view_set_none (h : w.name? k = none) (v : ν) : (d.set k v).view w = d.view w := by
  have aux (es : List (κ × ν)) : w.entries (setEntries k v es) = w.entries es := by
    induction es with
    | nil => rw [setEntries, w.entries_cons_none h]
    | cons e es ih =>
      by_cases hk : e.1 = k
      · rw [setEntries, if_pos hk, w.entries_cons_none h, w.entries_cons_none (hk ▸ h)]
      · rw [setEntries, if_neg hk]
        cases he : w.name? e.1 with
        | none => rw [w.entries_cons_none he, w.entries_cons_none he, ih]
        | some i => rw [w.entries_cons_some he, w.entries_cons_some he, ih]
  exact Dict.ext (aux d.entries)

theorem view_erase (h : w.name? k = some j) : (d.erase k).view w = (d.view w).erase j := by
  have aux (es : List (κ × ν)) : w.entries (es.filter fun e => decide (e.1 ≠ k)) =
      (w.entries es).filter fun e => decide (e.1 ≠ j) := by
    induction es with
    | nil => rfl
    | cons e es ih =>
      by_cases hk : e.1 = k
      · rw [List.filter_cons_of_neg (by simpa using hk), w.entries_cons_some (hk ▸ h),
          List.filter_cons_of_neg (by simp), ih]
      · rw [List.filter_cons_of_pos (by simpa using hk)]
        cases he : w.name? e.1 with
        | none => rw [w.entries_cons_none he, w.entries_cons_none he, ih]
        | some i =>
          have hi : i ≠ j := fun hij => hk (w.injective he (hij ▸ h))
          rw [w.entries_cons_some he, w.entries_cons_some he,
            List.filter_cons_of_pos (by simpa using hi), ih]
  exact Dict.ext (aux d.entries)

omit [DecidableEq μ] in
theorem view_erase_none (h : w.name? k = none) : (d.erase k).view w = d.view w := by
  have aux (es : List (κ × ν)) :
      w.entries (es.filter fun e => decide (e.1 ≠ k)) = w.entries es := by
    induction es with
    | nil => rfl
    | cons e es ih =>
      by_cases hk : e.1 = k
      · rw [List.filter_cons_of_neg (by simpa using hk), w.entries_cons_none (hk ▸ h), ih]
      · rw [List.filter_cons_of_pos (by simpa using hk)]
        cases he : w.name? e.1 with
        | none => rw [w.entries_cons_none he, w.entries_cons_none he, ih]
        | some i => rw [w.entries_cons_some he, w.entries_cons_some he, ih]
  exact Dict.ext (aux d.entries)

end Dict

end Agent33.Library
