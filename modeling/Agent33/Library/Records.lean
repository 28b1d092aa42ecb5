import Mathlib.Data.List.Sort

/-!
# Records under a key of their own

A dict of records that each carry their key, in the order in which the keys were first
put: the records themselves, no two with one key.
-/

namespace Agent33.Library

open List

structure Records {κ ν : Type*} (key : ν → κ) where
  toList : List ν
  nodup : (toList.map key).Nodup

namespace Records

variable {κ ν : Type*} {key : ν → κ}

def empty : Records key := ⟨[], nodup_nil⟩

instance : Inhabited (Records key) := ⟨empty⟩

instance : Membership ν (Records key) := ⟨fun records v => v ∈ records.toList⟩

variable {records : Records key} {v : ν} {p : ν → Bool}

theorem mem_toList : v ∈ records.toList ↔ v ∈ records := Iff.rfl

theorem not_mem_empty (v : ν) : v ∉ (empty : Records key) := not_mem_nil

def keys (records : Records key) : List κ := records.toList.map key

def filter (p : ν → Bool) (records : Records key) : Records key where
  toList := records.toList.filter p
  nodup := records.nodup.sublist (filter_sublist.map key)

def mapRecords (f : ν → ν) (hf : ∀ v, key (f v) = key v) (records : Records key) : Records key where
  toList := records.toList.map f
  nodup := by
    rw [map_map]
    exact (map_congr_left fun v _ => hf v) ▸ records.nodup

theorem eq_of_mem (hv : v ∈ records) (hw : w ∈ records) (h : key v = key w) :
    v = w := inj_on_of_nodup_map records.nodup hv hw h

theorem mem_filter : v ∈ records.filter p ↔ v ∈ records ∧ p v = true := List.mem_filter

theorem mem_mapRecords (hf : ∀ v, key (f v) = key v) :
    v ∈ records.mapRecords f hf ↔ ∃ w ∈ records, f w = v := mem_map

theorem filter_perm (hnodup : kept.Nodup)
    (hkept : ∀ v, v ∈ kept ↔ v ∈ records ∧ p v = true) : (records.toList.filter p).Perm kept := by
  refine (perm_ext_iff_of_nodup (records.nodup.of_map.filter p) hnodup).mpr ?_
  intro v
  rw [List.mem_filter, hkept]
  rfl

variable [DecidableEq κ]

def get? (records : Records key) (k : κ) : Option ν := records.toList.find? fun v => key v = k

variable (key) in
def replaced (v : ν) (vs : List ν) : List ν := vs.map fun w => if key w = key v then v else w

theorem keys_replaced (v : ν) (vs : List ν) : (replaced key v vs).map key = vs.map key := by
  rw [replaced, map_map]
  apply map_congr_left
  intro w _
  rw [Function.comp_apply]
  split_ifs with h
  · exact h.symm
  · rfl

/-- A record takes the place of the one with its key, or comes last. -/
def put (records : Records key) (v : ν) : Records key where
  toList :=
    if key v ∈ records.toList.map key then replaced key v records.toList
    else records.toList ++ [v]
  nodup := by
    split_ifs with h
    · rw [keys_replaced]
      exact records.nodup
    · rw [map_append, map_singleton, nodup_append_comm, singleton_append]
      exact nodup_cons.mpr ⟨h, records.nodup⟩

def modify (k : κ) (f : ν → ν) (hf : ∀ v, key (f v) = key v) (records : Records key) :
    Records key :=
  records.mapRecords (fun v => if key v = k then f v else v) fun v => by
    split_ifs
    · exact hf v
    · rfl

def ofList (vs : List ν) : Records key := vs.foldl put empty

theorem get?_eq_some_iff (records : Records key) (k : κ) (v : ν) :
    records.get? k = some v ↔ v ∈ records ∧ key v = k := by
  constructor
  · intro h
    exact ⟨mem_of_find?_eq_some h, by simpa using find?_some h⟩
  · rintro ⟨hv, hk⟩
    cases hget : records.get? k with
    | none =>
      have hnot := find?_eq_none.mp hget v hv
      simp [hk] at hnot
    | some w =>
      have hw := mem_of_find?_eq_some hget
      have hkw : key w = k := by simpa using find?_some hget
      rw [eq_of_mem hw hv (hkw.trans hk.symm)]

theorem mem_put {records : Records key} {v w : ν} :
    w ∈ records.put v ↔ w = v ∨ w ∈ records ∧ key w ≠ key v := by
  rw [← mem_toList, ← mem_toList, put]
  dsimp only
  by_cases h : key v ∈ records.toList.map key
  · rw [if_pos h, replaced, mem_map]
    obtain ⟨u, hu, hkey⟩ := mem_map.mp h
    constructor
    · rintro ⟨x, hx, rfl⟩
      split_ifs with hxv
      · exact Or.inl rfl
      · exact Or.inr ⟨hx, hxv⟩
    · rintro (rfl | ⟨hw, hne⟩)
      · exact ⟨u, hu, if_pos hkey⟩
      · exact ⟨w, hw, if_neg hne⟩
  · rw [if_neg h, mem_append, mem_singleton, or_comm]
    refine or_congr Iff.rfl ⟨fun hw => ⟨hw, ?_⟩, And.left⟩
    intro heq
    exact h (heq ▸ mem_map_of_mem hw)

theorem toList_put_of_notMem (h : key v ∉ records.toList.map key) :
    (records.put v).toList = records.toList ++ [v] := if_neg h

theorem toList_foldl_put (h : ((records.toList ++ vs).map key).Nodup) :
    (vs.foldl put records).toList = records.toList ++ vs := by
  induction vs generalizing records with
  | nil => rw [foldl_nil, append_nil]
  | cons v vs ih =>
    have hv : key v ∉ records.toList.map key := by
      rw [map_append, map_cons] at h
      intro hmem
      exact (disjoint_of_nodup_append h) hmem mem_cons_self
    have hput := toList_put_of_notMem hv
    rw [foldl_cons, ih, hput, append_assoc, singleton_append]
    rwa [hput, append_assoc, singleton_append]

theorem toList_ofList (h : (vs.map key).Nodup) : (ofList vs : Records key).toList = vs := by
  rw [ofList, toList_foldl_put]
  · rfl
  · exact h

end Records

end Agent33.Library
