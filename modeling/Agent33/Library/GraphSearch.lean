import Mathlib.Data.List.Chain
import Mathlib.Data.List.Perm.Subperm

/-!
# Depth-first search for a cycle

A search keeps the walk to its current element. An edge back to that walk closes a cycle; when
there is none, each finished element leads only to elements that were finished before it.
-/

namespace Agent33.Library.DepthFirst

open List

variable {α : Type*} {r : α → α → Prop}

structure ClosedWalk (r : α → α → Prop) (walk : List α) : Prop where
  chain : walk.IsChain r
  closed : walk.head? = walk.getLast?
  two_le : 2 ≤ walk.length

/-- The finished elements, the last one first: each leads to elements behind it alone. -/
def Finished (r : α → α → Prop) : List α → Prop
  | [] => True
  | v :: rest => (∀ u, r v u → u ∈ rest) ∧ Finished r rest

theorem Finished.mem_of_rel (h : Finished r l) (hv : v ∈ l) (hvu : r v u) : u ∈ l := by
  induction l with
  | nil => cases hv
  | cons w rest ih =>
    rcases mem_cons.mp hv with rfl | hv
    · exact mem_cons_of_mem _ (h.1 u hvu)
    · exact mem_cons_of_mem _ (ih h.2 hv)

theorem Finished.mem_of_transGen (h : Finished r l) (hv : v ∈ l)
    (hvu : Relation.TransGen r v u) : u ∈ l := by
  induction hvu with
  | single hvu => exact h.mem_of_rel hv hvu
  | tail _ hwu ih => exact h.mem_of_rel ih hwu

theorem Finished.not_transGen (h : Finished r l) (hv : v ∈ l) : ¬ Relation.TransGen r v v := by
  induction l with
  | nil => cases hv
  | cons w rest ih =>
    rcases mem_cons.mp hv with rfl | hv
    · intro hcycle
      have hrest : v ∈ rest := by
        rcases Relation.TransGen.head'_iff.mp hcycle with ⟨u, hvu, huv⟩
        rcases Relation.reflTransGen_iff_eq_or_transGen.mp huv with rfl | huv
        · exact h.1 _ hvu
        · exact h.2.mem_of_transGen (h.1 u hvu) huv
      exact ih h.2 hrest hcycle
    · exact ih h.2 hv

theorem closedWalk_of_mem [DecidableEq α] {path : List α} (hpath : path.IsChain r) {v w : α}
    (hlast : path.getLast? = some w) (hwv : r w v) (hv : v ∈ path) :
    ClosedWalk r (path.drop (path.idxOf v) ++ [v]) := by
  have hlt : path.idxOf v < path.length := idxOf_lt_length_of_mem hv
  have hdrop : path.drop (path.idxOf v) = v :: path.drop (path.idxOf v + 1) := by
    rw [drop_eq_getElem_cons hlt, getElem_idxOf]
  have hend : (path.drop (path.idxOf v)).getLast? = some w := by
    rw [getLast?_drop, if_neg (not_le.mpr hlt), hlast]
  refine ⟨?_, ?_, ?_⟩
  · refine isChain_append.mpr ⟨hpath.drop _, isChain_singleton v, ?_⟩
    intro x hx y hy
    rw [hend] at hx
    cases hx
    cases hy
    exact hwv
  · rw [getLast?_append, hdrop]
    rfl
  · rw [length_append, hdrop, length_cons, length_singleton]
    omega

end Agent33.Library.DepthFirst

/-!
## Breadth-first search for a shortest chain

The search keeps its elements in the order of their distance. A new element is one edge behind
the first of them, and every chain to it leaves the visited elements through an open one, which
is not nearer than that.
-/

namespace Agent33.Library.BreadthFirst

variable {α : Type*} {r : α → α → Prop}

def Links (r : α → α → Prop) : α → List (α × α) → α → Prop
  | u, [], v => u = v
  | u, e :: rest, v => e.1 = u ∧ r e.1 e.2 ∧ Links r e.2 rest v

structure Shortest (r : α → α → Prop) (u : α) (path : List (α × α)) (v : α) : Prop where
  links : Links r u path v
  le : ∀ path', Links r u path' v → path.length ≤ path'.length

theorem Links.concat (h : Links r u path v) (hvw : r v w) : Links r u (path ++ [(v, w)]) w := by
  induction path generalizing u with
  | nil =>
    obtain rfl : u = v := h
    exact ⟨rfl, hvw, rfl⟩
  | cons e rest ih => exact ⟨h.1, h.2.1, ih h.2.2⟩

theorem Links.exists_exit {path : List (α × α)} {u v : α} {visited : List α}
    (h : Links r u path v) (hu : u ∈ visited) (hv : v ∉ visited) :
    ∃ x ∈ visited, ∃ y ∉ visited, r x y ∧
      ∃ before, Links r u before x ∧ before.length < path.length := by
  induction path generalizing u with
  | nil =>
    obtain rfl : u = v := h
    exact absurd hu hv
  | cons e rest ih =>
    obtain ⟨rfl, hrel, hrest⟩ := h
    by_cases he : e.2 ∈ visited
    · obtain ⟨x, hx, y, hy, hxy, before, hbefore, hlt⟩ := ih hrest he
      exact ⟨x, hx, y, hy, hxy, e :: before, ⟨rfl, hrel, hbefore⟩, Nat.succ_lt_succ hlt⟩
    · exact ⟨e.1, hu, e.2, he, hrel, [], rfl, Nat.succ_pos _⟩

/-- What a search has opened, nearest first, each with a shortest chain, and what it has
visited. -/
structure Frontier (r : α → α → Prop) (source : α) (opened : List (α × List (α × α)))
    (visited : List α) : Prop where
  source_mem : source ∈ visited
  nodup : visited.Nodup
  reached : ∀ v ∈ visited, v = source ∨ ∃ u, r u v
  shortest : ∀ e ∈ opened, Shortest r source e.2 e.1
  closed : ∀ x ∈ visited, (∀ y, r x y → y ∈ visited) ∨ ∃ path, (x, path) ∈ opened
  sorted : opened.Pairwise fun e e' => e.2.length ≤ e'.2.length
  near : ∀ e ∈ opened.head?, ∀ e' ∈ opened, e'.2.length ≤ e.2.length + 1

theorem Frontier.init (r : α → α → Prop) (source : α) :
    Frontier r source [(source, [])] [source] where
  source_mem := List.mem_cons_self
  nodup := List.pairwise_singleton _ source
  reached v hv := .inl (List.mem_singleton.mp hv)
  shortest e he := by
    rw [List.mem_singleton.mp he]
    exact ⟨rfl, fun _ _ => Nat.zero_le _⟩
  closed x hx := .inr ⟨[], by rw [List.mem_singleton.mp hx]; exact List.mem_cons_self⟩
  sorted := List.pairwise_singleton _ _
  near e he e' he' := by
    cases he
    rw [List.mem_singleton.mp he']
    exact Nat.le_succ _

theorem Frontier.length_le (h : Frontier r source ((u, path) :: queue) visited)
    (he : e ∈ (u, path) :: queue) : path.length ≤ e.2.length := by
  rcases List.mem_cons.mp he with rfl | he
  · exact Nat.le_refl _
  · exact (List.pairwise_cons.mp h.sorted).1 e he

theorem Frontier.shortest_concat (h : Frontier r source ((u, path) :: queue) visited)
    (huw : r u w) (hw : w ∉ visited) : Shortest r source (path ++ [(u, w)]) w where
  links := (h.shortest _ List.mem_cons_self).links.concat huw
  le path' hpath' := by
    obtain ⟨x, hx, y, hy, hxy, before, hbefore, hlt⟩ := hpath'.exists_exit h.source_mem hw
    rcases h.closed x hx with hclosed | ⟨path'', hopen⟩
    · exact absurd (hclosed y hxy) hy
    · have h₁ := h.length_le hopen
      have h₂ := (h.shortest _ hopen).le before hbefore
      rw [List.length_append, List.length_singleton]
      omega

open List in
theorem Frontier.discover (h : Frontier r source ((u, path) :: queue) visited)
    (huw : r u w) (hw : w ∉ visited) :
    Frontier r source ((u, path) :: (queue ++ [(w, path ++ [(u, w)])])) (w :: visited) := by
  have hmem {e : α × List (α × α)}
      (he : e ∈ (u, path) :: (queue ++ [(w, path ++ [(u, w)])])) :
      e ∈ (u, path) :: queue ∨ e = (w, path ++ [(u, w)]) := by
    rw [← cons_append, mem_append, mem_singleton] at he
    exact he
  have hnear {e : α × List (α × α)} (he : e ∈ (u, path) :: queue) :
      e.2.length ≤ path.length + 1 := h.near _ rfl e he
  refine ⟨mem_cons_of_mem w h.source_mem, nodup_cons.mpr ⟨hw, h.nodup⟩, ?_, ?_, ?_,
    ?_, ?_⟩
  · intro v hv
    rcases mem_cons.mp hv with rfl | hv
    · exact .inr ⟨u, huw⟩
    · exact h.reached v hv
  · intro e he
    rcases hmem he with he | rfl
    · exact h.shortest e he
    · exact h.shortest_concat huw hw
  · intro x hx
    rcases mem_cons.mp hx with rfl | hx
    · exact .inr ⟨path ++ [(u, x)], by simp⟩
    · rcases h.closed x hx with hclosed | ⟨path', hopen⟩
      · exact .inl fun y hxy => mem_cons_of_mem w (hclosed y hxy)
      · rw [← cons_append]
        exact .inr ⟨path', mem_append_left _ hopen⟩
  · rw [← cons_append, pairwise_append]
    refine ⟨h.sorted, pairwise_singleton _ _, ?_⟩
    intro e he e' he'
    rw [mem_singleton.mp he', length_append]
    exact hnear he
  · intro e he e' he'
    cases he
    rcases hmem he' with he' | rfl
    · exact hnear he'
    · simp

theorem Frontier.close (h : Frontier r source ((u, path) :: queue) visited)
    (hall : ∀ w, r u w → w ∈ visited) : Frontier r source queue visited where
  source_mem := h.source_mem
  nodup := h.nodup
  reached := h.reached
  shortest e he := h.shortest e (List.mem_cons_of_mem _ he)
  closed x hx := by
    rcases h.closed x hx with hclosed | ⟨path', hopen⟩
    · exact .inl hclosed
    · rcases List.mem_cons.mp hopen with heq | hopen
      · obtain ⟨rfl, -⟩ := Prod.mk.inj heq
        exact .inl hall
      · exact .inr ⟨path', hopen⟩
  sorted := (List.pairwise_cons.mp h.sorted).2
  near e he e' he' := by
    have h₁ := h.length_le (List.mem_cons_of_mem _ (List.mem_of_mem_head? he))
    have h₂ := h.near _ rfl e' (List.mem_cons_of_mem _ he')
    exact Nat.le_trans h₂ (Nat.succ_le_succ h₁)

theorem Frontier.mem_of_links (h : Frontier r source [] visited)
    (hv : Links r source path v) : v ∈ visited := by
  by_contra hnot
  obtain ⟨x, hx, y, hy, hxy, -⟩ := hv.exists_exit h.source_mem hnot
  rcases h.closed x hx with hclosed | ⟨_, hopen⟩
  · exact hy (hclosed y hxy)
  · cases hopen

theorem Frontier.length_visited_le (h : Frontier r source queue visited) {targets : List α}
    (htargets : ∀ u v, r u v → v ∈ targets) : visited.length ≤ targets.length + 1 := by
  have hsub : visited ⊆ source :: targets := by
    intro v hv
    rcases h.reached v hv with rfl | ⟨u, huv⟩
    · exact List.mem_cons_self
    · exact List.mem_cons_of_mem _ (htargets u v huv)
  exact (h.nodup.subperm hsub).length_le

end Agent33.Library.BreadthFirst
