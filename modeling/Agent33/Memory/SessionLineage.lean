import Agent33.Library.Forest
import Agent33.Library.Text

/-!
# The delegation tree of a catalogued session

From the session the catalog goes up to a root, as far as the parents are known and are not met
again, and builds the tree of everything below it. The session is always part of that tree.
-/

namespace Agent33.Memory

open Library List

inductive SessionStatus
  | active
  | completed
  | expired
  | archived

/-- An entry with what its node of the tree shows. -/
structure SessionCatalogEntry where
  sessionId : Text
  agentId : Text := []
  status : SessionStatus := .active
  parentSessionId : Option Text := none

def SessionCatalogEntry.parent (e : SessionCatalogEntry) : Option Text :=
  e.parentSessionId.filter fun p => p ≠ []

structure SessionCatalog where
  store : List SessionCatalogEntry
  nodup : (store.map SessionCatalogEntry.sessionId).Nodup

namespace SessionCatalog

variable (catalog : SessionCatalog)

def get? (sessionId : Text) : Option SessionCatalogEntry :=
  catalog.store.find? fun e => e.sessionId = sessionId

/-- The walk up to the root, as long as there is fuel. -/
def climb : ℕ → SessionCatalogEntry → List Text → Option SessionCatalogEntry
  | 0, _, _ => none
  | fuel + 1, root, visited =>
    match root.parent with
    | none => some root
    | some p =>
      if p ∈ visited then some root
      else
        match catalog.get? p with
        | none => some root
        | some parent => climb fuel parent (parent.sessionId :: visited)

def links : Family SessionCatalogEntry Text :=
  ⟨catalog.store, SessionCatalogEntry.sessionId, SessionCatalogEntry.parent, catalog.nodup⟩

/-- `Session not found: …` -/
inductive CatalogError
  | keyError (sessionId : Text)

/-- A node is given by its entry and the nodes below it. -/
def getLineageTree (sessionId : Text) :
    Except CatalogError (Option (FamilyTree SessionCatalogEntry)) :=
  match catalog.get? sessionId with
  | none => .error (.keyError sessionId)
  | some entry => .ok do
    let root ← catalog.climb (catalog.store.length + 1) entry [entry.sessionId]
    catalog.links.subtree root

def Child (a b : SessionCatalogEntry) : Prop :=
  b ∈ catalog.store ∧ b.parent = some a.sessionId

/-- Every node but the root hangs below the parent that is recorded for it. -/
inductive Placed : FamilyTree SessionCatalogEntry → Prop
  | mk {tree} : (∀ child ∈ tree.children, child.root.parent = some tree.root.sessionId) →
      (∀ child ∈ tree.children, Placed child) → Placed tree

/-- Cut off from its parent is the root alone. -/
abbrev IsRoot (root e : SessionCatalogEntry) : Prop := e.sessionId = root.sessionId

variable {catalog} {root e : SessionCatalogEntry}

theorem get?_eq_some (h : catalog.get? sessionId = some e) :
    e ∈ catalog.store ∧ e.sessionId = sessionId :=
  ⟨mem_of_find?_eq_some h, by simpa using find?_some h⟩

theorem climb_spec (he : e ∈ catalog.store)
    (hvisited : e.sessionId ∈ visited) (hfuel : catalog.links.unseen visited < fuel) :
    ∃ root, catalog.climb fuel e visited = some root ∧ root ∈ catalog.store ∧
      (root = e ∨ root.sessionId ∉ visited) ∧
      ∃ ids, catalog.links.Chain (IsRoot root) e ids := by
  induction fuel generalizing e visited with
  | zero => exact absurd hfuel (Nat.not_lt_zero _)
  | succ fuel ih =>
    have hself : ∃ ids, catalog.links.Chain (IsRoot e) e ids := ⟨[], .root he rfl⟩
    rw [climb]
    cases hparent : e.parent with
    | none => exact ⟨e, rfl, he, .inl rfl, hself⟩
    | some p =>
      by_cases hp : p ∈ visited
      · exact ⟨e, if_pos hp, he, .inl rfl, hself⟩
      · cases hget : catalog.get? p with
        | none => exact ⟨e, by simp [hp, hget], he, .inl rfl, hself⟩
        | some parent =>
          obtain ⟨hmem, hid⟩ := get?_eq_some hget
          have hless := catalog.links.unseen_cons_lt hmem
            (hid.symm ▸ hp : parent.sessionId ∉ visited)
          obtain ⟨root, hroot, hstore, hnew, ids, hids⟩ :=
            ih hmem (mem_cons_self : parent.sessionId ∈ parent.sessionId :: visited)
              (Nat.lt_of_lt_of_le hless (Nat.le_of_lt_succ hfuel))
          have hroot_notMem : root.sessionId ∉ visited := by
            rcases hnew with rfl | hnew
            · exact hid ▸ hp
            · exact fun h => hnew (mem_cons_of_mem _ h)
          refine ⟨root, by simpa [hp, hget] using hroot, hstore, .inr hroot_notMem,
            parent.sessionId :: ids, .step he ?_ (hparent.trans (congrArg some hid.symm)) hids⟩
          exact fun h => hroot_notMem (h ▸ hvisited)

theorem placed_of_complete (h : catalog.links.Complete (IsRoot root) tree) : Placed tree := by
  induction h with
  | @mk tree hchildren _ ih =>
    refine .mk (fun child hchild => ?_) ih
    have hmem : child.root ∈ tree.children.map FamilyTree.root := mem_map_of_mem hchild
    rw [hchildren] at hmem
    exact (Family.mem_childrenOf (mem_of_mem_filter hmem)).2

theorem reachable_iff (hroot : root ∈ catalog.store) :
    (∃ ids, catalog.links.Chain (IsRoot root) e ids) ↔
      Relation.ReflTransGen catalog.Child root e := by
  constructor
  · rintro ⟨ids, h⟩
    induction h with
    | root hs hcut => exact catalog.links.eq_of_key hs hroot hcut ▸ .refl
    | step hs _ hparent _ ih => exact ih.tail ⟨hs, hparent⟩
  · intro h
    induction h with
    | refl => exact ⟨[], .root hroot rfl⟩
    | @tail a b _ hchild ih =>
      obtain ⟨ids, hids⟩ := ih
      by_cases hcut : IsRoot root b
      · exact ⟨[], .root hchild.1 hcut⟩
      · exact ⟨_, .step hchild.1 hcut hchild.2 hids⟩

/-- The tree of a catalogued session is built and contains it. It has exactly what is below its
root, each session once and below its recorded parent. -/
theorem getLineageTree_spec (catalog : SessionCatalog) (s : {s // s ∈ catalog.store}) :
    ∃ tree, catalog.getLineageTree s.1.sessionId = .ok (some tree) ∧ s.1 ∈ tree.toList ∧
      (tree.toList.map SessionCatalogEntry.sessionId).Nodup ∧
      (∀ e, e ∈ tree.toList ↔ Relation.ReflTransGen catalog.Child tree.root e) ∧ Placed tree := by
  obtain ⟨s, hs⟩ := s
  have hget : catalog.get? s.sessionId = some s := by
    cases h : catalog.get? s.sessionId with
    | none => exact absurd rfl (of_decide_eq_false (eq_false_of_ne_true (find?_eq_none.mp h s hs)))
    | some t =>
      obtain ⟨ht, hid⟩ := get?_eq_some h
      rw [catalog.links.eq_of_key ht hs hid]
  have hfuel : catalog.links.unseen [s.sessionId] < catalog.store.length + 1 :=
    Nat.lt_succ_of_le (length_filter_le _ _)
  obtain ⟨root, hclimb, hroot, -, ids, hids⟩ := climb_spec hs mem_cons_self hfuel
  obtain ⟨tree, htree, hcomplete, htreeroot⟩ := catalog.links.subtree_spec (IsRoot root)
    hroot rfl fun c hc hcut _ => catalog.links.eq_of_key hc hroot hcut
  have hforest : catalog.links.Forest (IsRoot root) [tree] := by
    refine ⟨?_, forall_mem_singleton.mpr hcomplete⟩
    rw [map_singleton, htreeroot]
    exact (catalog.links.filter_key_eq hroot).symm
  have hlist : FamilyTree.toListAll [tree] = tree.toList := by
    rw [FamilyTree.toListAll, FamilyTree.toListAll, append_nil]
  refine ⟨tree, ?_, ?_, ?_, fun e => ?_, placed_of_complete hcomplete⟩
  · rw [getLineageTree, hget]
    dsimp only
    rw [hclimb]
    exact congrArg _ htree
  · exact hlist ▸ hforest.mem_iff.mpr ⟨ids, hids⟩
  · exact hlist ▸ hforest.nodup
  · rw [← hlist, hforest.mem_iff, htreeroot]
    exact reachable_iff hroot

end SessionCatalog

end Agent33.Memory
