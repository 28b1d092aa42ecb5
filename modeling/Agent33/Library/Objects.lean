import Mathlib.Data.List.Basic

/-!
# Objects and lists of them

Objects and lists are told apart by their addresses, so that it can be said that a program
changes none of those it is given: whatever it makes comes after them.
-/

namespace Agent33.Library

open List

/-- The objects and the lists of them, each at the place that is its address. -/
structure Objects (α : Type) where
  objects : List α := []
  lists : List (List ℕ) := []

namespace Objects

variable {α : Type}

abbrev Entry (α : Type) := ℕ × α

def read (o : Objects α) (r : ℕ) : List (Entry α) :=
  (o.lists[r]?.getD []).filterMap fun a => o.objects[a]?.map fun v => (a, v)

def addObject (o : Objects α) (v : α) : Objects α := { o with objects := o.objects ++ [v] }

def addList (o : Objects α) (entries : List (Entry α)) : Objects α :=
  { o with lists := o.lists ++ [entries.map Prod.fst] }

def Knows (o : Objects α) (entries : List (Entry α)) : Prop :=
  ∀ e ∈ entries, o.objects[e.1]? = some e.2

structure Holds (o : Objects α) (r : ℕ) (entries : List (Entry α)) : Prop where
  list : o.lists[r]? = some (entries.map Prod.fst)
  knows : o.Knows entries

structure Grows (o o' : Objects α) : Prop where
  objects : o.objects <+: o'.objects
  lists : o.lists <+: o'.lists

variable {o o' o'' : Objects α}

theorem Grows.refl (o : Objects α) : o.Grows o := ⟨prefix_rfl, prefix_rfl⟩

theorem Grows.trans (h : o.Grows o') (h' : o'.Grows o'') : o.Grows o'' :=
  ⟨h.objects.trans h'.objects, h.lists.trans h'.lists⟩

theorem grows_addObject (o : Objects α) (v : α) : o.Grows (o.addObject v) :=
  ⟨prefix_append _ _, prefix_rfl⟩

theorem grows_addList (o : Objects α) (entries : List (Entry α)) : o.Grows (o.addList entries) :=
  ⟨prefix_rfl, prefix_append _ _⟩

theorem getElem?_mono {β : Type} {l l' : List β} (h : l <+: l') {i : ℕ} {b : β}
    (hb : l[i]? = some b) : l'[i]? = some b := by
  obtain ⟨rest, rfl⟩ := h
  rw [getElem?_append_left (List.getElem?_eq_some_iff.mp hb).1]
  exact hb

theorem Knows.mono (h : o.Knows entries) (hgrows : o.Grows o') : o'.Knows entries :=
  fun e he => getElem?_mono hgrows.objects (h e he)

theorem Knows.subset (h : o.Knows entries) (hsub : entries' ⊆ entries) : o.Knows entries' :=
  fun e he => h e (hsub he)

theorem knows_addObject (o : Objects α) (v : α) :
    (o.addObject v).Knows [(o.objects.length, v)] := by
  intro e he
  rw [mem_singleton.mp he]
  simp [addObject]

theorem holds_addList (h : o.Knows entries) : (o.addList entries).Holds o.lists.length entries :=
  ⟨by simp [addList], h.mono (grows_addList o entries)⟩

theorem Holds.read_eq (h : o.Holds r entries) : o.read r = entries := by
  rw [read, h.list, Option.getD_some, filterMap_map]
  have hknown := h.knows
  clear h
  induction entries with
  | nil => rfl
  | cons e entries ih =>
    have he := hknown e mem_cons_self
    rw [filterMap_cons, ih (hknown.subset (subset_cons_self e entries))]
    simp [he]

end Objects

end Agent33.Library
