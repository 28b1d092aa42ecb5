import Mathlib.Algebra.BigOperators.Group.List.Basic
import Mathlib.Algebra.GroupWithZero.Nat
import Mathlib.Data.List.Count
import Mathlib.Data.List.Nodup
import Mathlib.Logic.Relation

/-!
# Trees from the links to parents

Things name their parents, which may be missing, and the links may go round in circles. A search
downwards from a root, which enters nothing twice, finds each thing whose chain of parents ends at
the root, once and below its parent.
-/

namespace Agent33.Library

open List

variable {α κ : Type*}

structure Family (α κ : Type*) where
  items : List α
  key : α → κ
  parent : α → Option κ
  nodup : (items.map key).Nodup

inductive FamilyTree (α : Type*) where
  | node (root : α) (children : List (FamilyTree α))

namespace FamilyTree

def root : FamilyTree α → α
  | node root _ => root

def children : FamilyTree α → List (FamilyTree α)
  | node _ children => children

mutual

def toList : FamilyTree α → List α
  | node root children => root :: toListAll children

def toListAll : List (FamilyTree α) → List α
  | [] => []
  | tree :: rest => toList tree ++ toListAll rest

end

theorem toList_eq (tree : FamilyTree α) : tree.toList = tree.root :: toListAll tree.children := by
  cases tree with
  | node root children => rw [toList, FamilyTree.root, FamilyTree.children]

theorem mem_toListAll {trees : List (FamilyTree α)} {a : α} :
    a ∈ toListAll trees ↔ ∃ tree ∈ trees, a ∈ tree.toList := by
  induction trees with
  | nil => simp [toListAll]
  | cons tree rest ih => simp [toListAll, ih]

end FamilyTree

namespace Family

variable (fam : Family α κ) (cut : α → Prop)

/-- The keys of the parents, up to the first that is cut off from its own. -/
inductive Chain : α → List κ → Prop
  | root {s} : s ∈ fam.items → cut s → Chain s []
  | step {s p l} : s ∈ fam.items → ¬cut s → fam.parent s = some (fam.key p) → Chain p l →
      Chain s (fam.key p :: l)

variable {fam cut} {s t x : α} {l l' lx : List κ}

theorem eq_of_key (hs : s ∈ fam.items) (ht : t ∈ fam.items) (h : fam.key s = fam.key t) : s = t :=
  inj_on_of_nodup_map fam.nodup hs ht h

namespace Chain

theorem mem (h : fam.Chain cut s l) : s ∈ fam.items := by
  cases h with
  | root hs => exact hs
  | step hs => exact hs

theorem unique (h : fam.Chain cut s l) (h' : fam.Chain cut s l') : l = l' := by
  induction h generalizing l' with
  | root _ hcut =>
    cases h' with
    | root => rfl
    | step _ hnot => exact absurd hcut hnot
  | step _ hnot hparent hp ih =>
    cases h' with
    | root _ hcut => exact absurd hcut hnot
    | step _ _ hparent' hp' =>
      have hkey := Option.some.inj (hparent.symm.trans hparent')
      obtain rfl := eq_of_key hp.mem hp'.mem hkey
      rw [ih hp']

/-- The chain of a thing in a chain is the rest of it. -/
theorem split (h : fam.Chain cut s l) (ht : fam.Chain cut t l') (hmem : fam.key t ∈ l) :
    ∃ start, l = start ++ fam.key t :: l' := by
  induction h with
  | root => exact absurd hmem not_mem_nil
  | @step s p l _ _ _ hp ih =>
    by_cases hlater : fam.key t ∈ l
    · obtain ⟨start, rfl⟩ := ih hlater
      exact ⟨fam.key p :: start, rfl⟩
    · have hkey := (mem_cons.mp hmem).resolve_right hlater
      obtain rfl := eq_of_key ht.mem hp.mem hkey
      rw [hp.unique ht]
      exact ⟨[], rfl⟩

theorem notMem (h : fam.Chain cut s l) : fam.key s ∉ l := by
  intro hmem
  obtain ⟨start, hl⟩ := h.split h hmem
  have hlength := congrArg length hl
  simp only [length_append, length_cons] at hlength
  omega

/-- Nothing is below two children of one thing. -/
theorem siblings (hx : fam.Chain cut x lx) (hs : fam.Chain cut s l)
    (hs' : fam.Chain cut s' l) (hmem : fam.key s ∈ fam.key x :: lx)
    (hmem' : fam.key s' ∈ fam.key x :: lx) : s = s' := by
  have hsplit {t : α} (ht : fam.Chain cut t l) (hmem : fam.key t ∈ fam.key x :: lx) :
      ∃ start, fam.key x :: lx = start ++ fam.key t :: l := by
    rcases mem_cons.mp hmem with hkey | hmem
    · obtain rfl := eq_of_key ht.mem hx.mem hkey
      rw [hx.unique ht]
      exact ⟨[], rfl⟩
    · obtain ⟨start, rfl⟩ := hx.split ht hmem
      exact ⟨fam.key x :: start, rfl⟩
  obtain ⟨start, heq⟩ := hsplit hs hmem
  obtain ⟨start', heq'⟩ := hsplit hs' hmem'
  have hboth := heq.symm.trans heq'
  have hlength := congrArg length hboth
  simp only [length_append, length_cons] at hlength
  have hrest := (append_inj hboth (by omega)).2
  exact eq_of_key hs.mem hs'.mem (cons.inj hrest).1

end Chain

/-- The key is that of the thing, or of one below it. -/
def Under (fam : Family α κ) (cut : α → Prop) (s : α) (k : κ) : Prop :=
  ∃ x lx, fam.Chain cut x lx ∧ fam.key x = k ∧ fam.key s ∈ k :: lx

variable [DecidableEq κ]

section

variable (fam)

def childrenOf (k : κ) : List α := fam.items.filter fun a => fam.parent a = some k

abbrev Seen (κ : Type*) := List κ

/-- The children that were not seen yet, each with what is below it. -/
def visit (recurse : α → Seen κ → Option (FamilyTree α × Seen κ)) :
    List α → Seen κ → Option (List (FamilyTree α) × Seen κ)
  | [], seen => some ([], seen)
  | child :: rest, seen =>
    if fam.key child ∈ seen then visit recurse rest seen
    else do
      let (tree, seen) ← recurse child (fam.key child :: seen)
      let (trees, seen) ← visit recurse rest seen
      return (tree :: trees, seen)

def recurse : ℕ → α → Seen κ → Option (FamilyTree α × Seen κ)
  | 0, _, _ => none
  | fuel + 1, a, seen => do
    let (children, seen) ← fam.visit (recurse fuel) (fam.childrenOf (fam.key a)) seen
    return (.node a children, seen)

/-- One more level than there are things. -/
def subtree (root : α) : Option (FamilyTree α) :=
  (fam.recurse (fam.items.length + 1) root [fam.key root]).map Prod.fst

end

variable {seen : Seen κ}

theorem mem_childrenOf (h : t ∈ fam.childrenOf k) :
    t ∈ fam.items ∧ fam.parent t = some k :=
  (mem_filter.mp h).imp_right of_decide_eq_true

theorem Chain.child (h : fam.Chain cut s l) (ht : t ∈ fam.childrenOf (fam.key s)) (hcut : ¬cut t) :
    fam.Chain cut t (fam.key s :: l) := by
  obtain ⟨ht, hparent⟩ := mem_childrenOf ht
  exact .step ht hcut hparent h

/-- The number of things that were not seen: it bounds the levels that are still entered. -/
def unseen (fam : Family α κ) (seen : Seen κ) : ℕ :=
  (fam.items.filter fun a => fam.key a ∉ seen).length

theorem unseen_mono (h : seen ⊆ seen') : fam.unseen seen' ≤ fam.unseen seen :=
  (monotone_filter_right _ fun a ha => by
    simp only [decide_eq_true_iff] at ha ⊢
    exact fun hmem => ha (h hmem)).length_le

theorem unseen_cons_lt (hs : s ∈ fam.items) (hseen : fam.key s ∉ seen) :
    fam.unseen (fam.key s :: seen) < fam.unseen seen := by
  have hsub : (fam.items.filter fun a => fam.key a ∉ fam.key s :: seen).Sublist
      (fam.items.filter fun a => fam.key a ∉ seen) :=
    monotone_filter_right _ fun a ha => by simp at ha ⊢; exact ha.2
  refine Nat.lt_of_le_of_ne hsub.length_le fun hlength => ?_
  have hmem : s ∈ fam.items.filter fun a => fam.key a ∉ seen :=
    mem_filter.mpr ⟨hs, decide_eq_true hseen⟩
  rw [← hsub.eq_of_length hlength] at hmem
  simp at hmem

variable [DecidablePred cut]

/-- Below each root are its children, except those that are cut off. -/
inductive Complete (fam : Family α κ) (cut : α → Prop) [DecidablePred cut] : FamilyTree α → Prop
  | mk {tree} : tree.children.map FamilyTree.root =
      (fam.childrenOf (fam.key tree.root)).filter (fun a => ¬cut a) →
      (∀ child ∈ tree.children, Complete fam cut child) → Complete fam cut tree

/-- The things that are cut off from a parent were seen. -/
def Barred (fam : Family α κ) (cut : α → Prop) (seen : Seen κ) : Prop :=
  ∀ c ∈ fam.items, cut c → fam.parent c ≠ none → fam.key c ∈ seen

/-- The subtree is complete, and only what is below the thing is seen in addition. -/
def Found (fam : Family α κ) (cut : α → Prop) [DecidablePred cut] (s : α) (seen : Seen κ)
    (tree : FamilyTree α) (seen' : Seen κ) : Prop :=
  Complete fam cut tree ∧ tree.root = s ∧ seen ⊆ seen' ∧
    ∀ k ∈ seen', k ∈ seen ∨ fam.Under cut s k ∧ k ≠ fam.key s

theorem visit_spec {recurse : α → Seen κ → Option (FamilyTree α × Seen κ)}
    (hrecurse : ∀ s l seen, fam.Chain cut s l → fam.Barred cut seen →
      (∀ k, fam.Under cut s k → k ≠ fam.key s → k ∉ seen) → fam.unseen seen < fuel →
      ∃ tree seen', recurse s seen = some (tree, seen') ∧ fam.Found cut s seen tree seen')
    (hchildren : ∀ c ∈ children, ¬cut c → fam.Chain cut c l)
    (hnodup : (children.map fam.key).Nodup)
    (hitems : ∀ c ∈ children, c ∈ fam.items ∧ fam.parent c ≠ none)
    (hcut : fam.Barred cut seen)
    (hfresh : ∀ c ∈ children, ¬cut c → ∀ k, fam.Under cut c k → k ∉ seen)
    (hfuel : fam.unseen seen ≤ fuel) :
    ∃ trees seen', fam.visit recurse children seen = some (trees, seen') ∧
      trees.map FamilyTree.root = children.filter (fun a => ¬cut a) ∧
      (∀ tree ∈ trees, fam.Complete cut tree) ∧ seen ⊆ seen' ∧
      ∀ k ∈ seen', k ∈ seen ∨ ∃ c ∈ children, ¬cut c ∧ fam.Under cut c k := by
  induction children generalizing seen with
  | nil => exact ⟨[], seen, rfl, rfl, nofun, Subset.refl seen, fun k hk => .inl hk⟩
  | cons c rest ih =>
    obtain ⟨hc, hrest⟩ := forall_mem_cons.mp hchildren
    obtain ⟨hcitem, hrestitems⟩ := forall_mem_cons.mp hitems
    obtain ⟨hfreshc, hfreshrest⟩ := forall_mem_cons.mp hfresh
    rw [map_cons, nodup_cons] at hnodup
    by_cases hcutc : cut c
    · obtain ⟨trees, seen', hvisit, hroots, hcompletes, hsub, hnew⟩ :=
        ih hrest hnodup.2 hrestitems hcut hfreshrest hfuel
      refine ⟨trees, seen', ?_, ?_, hcompletes, hsub, fun k hk => ?_⟩
      · rw [visit, if_pos (hcut c hcitem.1 hcutc hcitem.2), hvisit]
      · rw [hroots, filter_cons_of_neg (by simpa using hcutc)]
      · exact (hnew k hk).imp_right fun ⟨d, hd, hbelow⟩ => ⟨d, mem_cons_of_mem _ hd, hbelow⟩
    have hchain := hc hcutc
    have hself : fam.Under cut c (fam.key c) := ⟨c, l, hchain, rfl, mem_cons_self⟩
    have hseen : fam.key c ∉ seen := hfreshc hcutc _ hself
    have hless := unseen_cons_lt hchain.mem hseen
    obtain ⟨tree, seen₁, htree, hcomplete, hroot, hsub, hnew⟩ :=
      hrecurse c l (fam.key c :: seen) hchain
        (fun d hd hcutd hparent => mem_cons_of_mem _ (hcut d hd hcutd hparent))
        (fun k hk hne => not_mem_cons_of_ne_of_not_mem hne (hfreshc hcutc k hk)) (by omega)
    have hkept := List.Subset.trans (subset_cons_self (fam.key c) seen) hsub
    have hadded : ∀ k ∈ seen₁, k ∈ seen ∨ fam.Under cut c k := by
      intro k hk
      rcases hnew k hk with hold | hbelow
      · rcases mem_cons.mp hold with rfl | hold
        · exact .inr hself
        · exact .inl hold
      · exact .inr hbelow.1
    obtain ⟨trees, seen₂, htrees, hroots, hcompletes, hsub₂, hnew₂⟩ := ih hrest hnodup.2 hrestitems
      (fun d hd hcutd hparent => hkept (hcut d hd hcutd hparent))
      (fun d hd hcutd k hk hin => by
        rcases hadded k hin with hold | ⟨y, ly, hy, rfl, hmemc⟩
        · exact hfreshrest d hd hcutd k hk hold
        · obtain ⟨x, lx, hx, hxy, hmem⟩ := hk
          obtain rfl := eq_of_key hx.mem hy.mem hxy
          rw [hx.unique hy] at hmem
          obtain rfl := hy.siblings hchain (hrest d hd hcutd) hmemc hmem
          exact hnodup.1 (mem_map_of_mem hd))
      (Nat.le_trans (unseen_mono hkept) hfuel)
    refine ⟨tree :: trees, seen₂, ?_, ?_, forall_mem_cons.mpr ⟨hcomplete, hcompletes⟩,
      List.Subset.trans hkept hsub₂, fun k hk => ?_⟩
    · rw [visit, if_neg hseen, htree]
      change (fam.visit recurse rest seen₁ >>= fun p => pure (tree :: p.1, p.2)) = _
      rw [htrees]
      rfl
    · rw [map_cons, hroot, hroots, filter_cons_of_pos (by simpa using hcutc)]
    · rcases hnew₂ k hk with hold | ⟨d, hd, hbelow⟩
      · exact (hadded k hold).imp_right fun h => ⟨c, mem_cons_self, hcutc, h⟩
      · exact .inr ⟨d, mem_cons_of_mem _ hd, hbelow⟩

theorem recurse_spec {fuel : ℕ} : ∀ s l seen, fam.Chain cut s l →
    fam.Barred cut seen →
    (∀ k, fam.Under cut s k → k ≠ fam.key s → k ∉ seen) → fam.unseen seen < fuel →
    ∃ tree seen', fam.recurse fuel s seen = some (tree, seen') ∧
      fam.Found cut s seen tree seen' := by
  induction fuel with
  | zero => exact fun _ _ _ _ _ _ hfuel => absurd hfuel (Nat.not_lt_zero _)
  | succ fuel ih =>
    intro s l seen hchain hcut hfresh hfuel
    have hbelow {c : α} {k : κ} (hc : c ∈ fam.childrenOf (fam.key s)) (hcutc : ¬cut c)
        (hk : fam.Under cut c k) : fam.Under cut s k ∧ k ≠ fam.key s := by
      obtain ⟨x, lx, hx, rfl, hmem⟩ := hk
      have hchild := hchain.child hc hcutc
      have hin : fam.key s ∈ lx := by
        rcases mem_cons.mp hmem with hkey | hmem
        · obtain rfl := eq_of_key hchild.mem hx.mem hkey
          rw [hx.unique hchild]
          exact mem_cons_self
        · obtain ⟨start, rfl⟩ := hx.split hchild hmem
          simp
      refine ⟨⟨x, lx, hx, rfl, mem_cons_of_mem _ hin⟩, fun hkey => ?_⟩
      exact hx.notMem (hkey ▸ hin)
    obtain ⟨trees, seen', hvisit, hroots, hcompletes, hsub, hnew⟩ := visit_spec ih
      (fun c hc hcutc => hchain.child hc hcutc) (fam.nodup.sublist (filter_sublist.map _))
      (fun c hc => (mem_childrenOf hc).imp_right fun h => by simp [h]) hcut
      (fun c hc hcutc k hk => (hbelow hc hcutc hk).elim (hfresh k)) (Nat.le_of_lt_succ hfuel)
    refine ⟨.node s trees, seen', ?_, .mk hroots hcompletes, rfl, hsub, fun k hk => ?_⟩
    · rw [recurse, hvisit]
      rfl
    · exact (hnew k hk).imp_right fun ⟨c, hc, hcutc, hk⟩ => hbelow hc hcutc hk

/-- The search from a root ends, where no child but itself is cut off. -/
theorem subtree_spec (cut : α → Prop) [DecidablePred cut] (hs : s ∈ fam.items) (hcuts : cut s)
    (hcut : ∀ c ∈ fam.items, cut c → fam.parent c ≠ none → c = s) :
    ∃ tree, fam.subtree s = some tree ∧ fam.Complete cut tree ∧ tree.root = s := by
  have hchain : fam.Chain cut s [] := .root hs hcuts
  obtain ⟨tree, seen, htree, hcomplete, hroot, -⟩ := recurse_spec s [] [fam.key s] hchain
    (fun c hc hcutc hparent => mem_singleton.mpr (congrArg fam.key (hcut c hc hcutc hparent)))
    (fun k _ hne hk => hne (mem_singleton.mp hk)) (Nat.lt_succ_of_le (length_filter_le _ _))
  exact ⟨tree, by rw [subtree, htree]; rfl, hcomplete, hroot⟩

def keysAll (fam : Family α κ) (trees : List (FamilyTree α)) : List κ :=
  (FamilyTree.toListAll trees).map fam.key

def childKeys (fam : Family α κ) (cut : α → Prop) [DecidablePred cut] (k : κ) : List κ :=
  ((fam.childrenOf k).filter fun a => ¬cut a).map fam.key

theorem count_keysAll (k : κ) (h : ∀ tree ∈ trees,
    (tree.toList.map fam.key).count k = [fam.key tree.root].count k +
      ((tree.toList.map fam.key).map fun p => (fam.childKeys cut p).count k).sum) :
    (fam.keysAll trees).count k = (trees.map fun tree => fam.key tree.root).count k +
      ((fam.keysAll trees).map fun p => (fam.childKeys cut p).count k).sum := by
  induction trees with
  | nil => rfl
  | cons tree rest ih =>
    obtain ⟨htree, hrest⟩ := forall_mem_cons.mp h
    have ih := ih hrest
    rw [keysAll] at ih ⊢
    rw [FamilyTree.toListAll, map_append, count_append, htree, ih, map_append, sum_append, map_cons]
    simp only [count_cons, count_nil]
    omega

/-- A key is that of the root itself, or of a child of a thing in the tree. -/
theorem Complete.count (h : fam.Complete cut tree) (k : κ) :
    (tree.toList.map fam.key).count k = [fam.key tree.root].count k +
      ((tree.toList.map fam.key).map fun p => (fam.childKeys cut p).count k).sum := by
  induction h with
  | @mk tree hchildren _ ih =>
    have hbelow := count_keysAll k ih
    have hroots : (tree.children.map fun child => fam.key child.root) =
        fam.childKeys cut (fam.key tree.root) := by
      rw [childKeys, ← hchildren, map_map]
      rfl
    rw [hroots] at hbelow
    rw [FamilyTree.toList_eq, map_cons, map_cons, sum_cons, ← singleton_append, count_append]
    rw [keysAll] at hbelow
    rw [hbelow]

theorem count_filter (hs : s ∈ fam.items) (p : α → Bool) :
    ((fam.items.filter p).map fam.key).count (fam.key s) = if p s then 1 else 0 := by
  split_ifs with hp
  · exact count_eq_one_of_mem (fam.nodup.sublist (filter_sublist.map _))
      (mem_map_of_mem (mem_filter.mpr ⟨hs, hp⟩))
  · refine count_eq_zero.mpr fun hmem => hp ?_
    obtain ⟨t, ht, hkey⟩ := mem_map.mp hmem
    obtain ⟨ht, htp⟩ := mem_filter.mp ht
    rwa [← eq_of_key ht hs hkey]

theorem filter_key_eq (hs : s ∈ fam.items) :
    (fam.items.filter fun a => fam.key a = fam.key s) = [s] := by
  have hmem : s ∈ fam.items.filter fun a => fam.key a = fam.key s :=
    mem_filter.mpr ⟨hs, decide_eq_true rfl⟩
  have hall : ∀ a ∈ fam.items.filter fun a => fam.key a = fam.key s, a = s := fun a ha =>
    eq_of_key (mem_of_mem_filter ha) hs (of_decide_eq_true (mem_filter.mp ha).2)
  have hnodup := (Nodup.of_map _ fam.nodup).filter fun a => fam.key a = fam.key s
  cases h : fam.items.filter fun a => fam.key a = fam.key s with
  | nil => exact absurd (h ▸ hmem) not_mem_nil
  | cons a rest =>
    rw [h] at hall hnodup
    obtain ⟨rfl, hrest⟩ := forall_mem_cons.mp hall
    cases rest with
    | nil => rfl
    | cons b rest => exact absurd (hrest b mem_cons_self ▸ mem_cons_self) (nodup_cons.mp hnodup).1

/-- The roots are what is cut off, and everything below them is complete. -/
structure Forest (fam : Family α κ) (cut : α → Prop) [DecidablePred cut]
    (trees : List (FamilyTree α)) :
    Prop where
  roots : trees.map FamilyTree.root = fam.items.filter fun a => cut a
  complete : ∀ tree ∈ trees, fam.Complete cut tree

namespace Forest

theorem count (h : fam.Forest cut trees) (hs : s ∈ fam.items) :
    (fam.keysAll trees).count (fam.key s) =
      if cut s then 1 else (fam.parent s).elim 0 fun p => (fam.keysAll trees).count p := by
  have hroots : (trees.map fun tree => fam.key tree.root) =
      (fam.items.filter fun a => cut a).map fam.key := by
    rw [← h.roots, map_map]
    rfl
  rw [count_keysAll (fam.key s) fun tree htree => (h.complete tree htree).count (fam.key s), hroots]
  simp only [childKeys, childrenOf, filter_filter, count_filter hs, Bool.and_eq_true,
    decide_eq_true_iff]
  by_cases hcut : cut s
  · simp [hcut]
  · cases hparent : fam.parent s with
    | none => simp [hcut]
    | some p =>
      have hsum (ks : List κ) : (ks.map fun q => if p = q then 1 else 0).sum = ks.count p := by
        induction ks with
        | nil => rfl
        | cons q ks ih =>
          rw [map_cons, sum_cons, ih, count_cons, Nat.add_comm]
          simp only [beq_iff_eq, @eq_comm _ p q]
      simpa [hcut] using hsum _

open FamilyTree in
/-- What is in the forest has a chain. -/
theorem chain_of_mem (h : fam.Forest cut trees) (ha : a ∈ toListAll trees) :
    ∃ l, fam.Chain cut a l := by
  have hbelow {tree : FamilyTree α} (htree : fam.Complete cut tree) :
      (∃ l, fam.Chain cut tree.root l) → ∀ a ∈ tree.toList, ∃ l, fam.Chain cut a l := by
    induction htree with
    | @mk tree hchildren _ ih =>
      rintro ⟨l, hl⟩ a ha
      rw [toList_eq, mem_cons, mem_toListAll] at ha
      rcases ha with rfl | ⟨child, hchild, ha⟩
      · exact ⟨l, hl⟩
      · have hmem : child.root ∈ tree.children.map root := mem_map_of_mem hchild
        rw [hchildren] at hmem
        obtain ⟨hmem, hcut⟩ := mem_filter.mp hmem
        exact ih child hchild ⟨_, hl.child hmem (of_decide_eq_true hcut)⟩ a ha
  obtain ⟨tree, htree, ha⟩ := mem_toListAll.mp ha
  have hmem : tree.root ∈ trees.map root := mem_map_of_mem htree
  rw [h.roots] at hmem
  obtain ⟨hmem, hcut⟩ := mem_filter.mp hmem
  exact hbelow (h.complete tree htree) ⟨[], .root hmem (of_decide_eq_true hcut)⟩ a ha

theorem count_of_chain (h : fam.Forest cut trees) (hs : fam.Chain cut s l) :
    (fam.keysAll trees).count (fam.key s) = 1 := by
  induction hs with
  | root hs hcut => rw [h.count hs, if_pos hcut]
  | step hs hcut hparent _ ih => rw [h.count hs, if_neg hcut, hparent, Option.elim_some, ih]

theorem nodup (h : fam.Forest cut trees) : (fam.keysAll trees).Nodup := by
  refine nodup_iff_count_le_one.mpr fun k => ?_
  by_cases hk : k ∈ fam.keysAll trees
  · obtain ⟨a, ha, rfl⟩ := mem_map.mp hk
    obtain ⟨l, hl⟩ := h.chain_of_mem ha
    exact Nat.le_of_eq (h.count_of_chain hl)
  · rw [count_eq_zero.mpr hk]
    exact Nat.zero_le 1

theorem mem_iff (h : fam.Forest cut trees) {a : α} :
    a ∈ FamilyTree.toListAll trees ↔ ∃ l, fam.Chain cut a l := by
  refine ⟨h.chain_of_mem, fun ⟨l, hl⟩ => ?_⟩
  have hkey : fam.key a ∈ fam.keysAll trees :=
    count_pos_iff.mp (h.count_of_chain hl ▸ Nat.one_pos)
  obtain ⟨b, hb, hkey⟩ := mem_map.mp hkey
  obtain ⟨l', hl'⟩ := h.chain_of_mem hb
  exact eq_of_key hl'.mem hl.mem hkey ▸ hb

end Forest

end Family

end Agent33.Library
