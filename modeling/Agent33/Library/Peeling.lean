import Mathlib.Data.Set.Finite.List
import Mathlib.Order.WellFoundedSet

/-!
# Peeling a finite relation into ranks

A relation `r u v` says that `u` has to come before `v`. Peeling removes, round
after round, every remaining element all of whose predecessors are gone. The
round in which an element is removed is the length of the longest chain that
ends in it, and everything is removed exactly when the relation has no cycle.
-/

namespace Agent33.Library.Peeling

open List

variable {α : Type*} (r : α → α → Prop)

/-- A chain of `n` steps ending in the given element. -/
inductive ChainTo : ℕ → α → Prop
  | nil (v : α) : ChainTo 0 v
  | step {n : ℕ} {u v : α} : r u v → ChainTo n u → ChainTo (n + 1) v

def Acyclic : Prop := ∀ v, ¬ Relation.TransGen r v v

/-- The groups are the rounds of peeling `V` once the elements of `done` are
gone, up to the first round in which nothing is ready. -/
def Peels (V : List α) : List α → List (List α) → Prop
  | done, [] => ∀ v ∈ V, v ∉ done → ∃ u, r u v ∧ u ∉ done
  | done, g :: gs => g.Nodup ∧
      (∀ v, v ∈ g ↔ v ∈ V ∧ v ∉ done ∧ ∀ u, r u v → u ∈ done) ∧
      Peels V (done ++ g) gs

variable {r} {V : List α}

variable {gs : List (List α)} {done g : List α}

theorem ChainTo.pred (h : ChainTo r (n + 1) v) : ∃ u, r u v ∧ ChainTo r n u := by
  cases h with
  | step hr hc => exact ⟨_, hr, hc⟩

theorem Peels.mem_flatten (h : Peels r V done gs) (hv : v ∈ gs.flatten) : v ∈ V ∧ v ∉ done := by
  induction gs generalizing done with
  | nil => simp at hv
  | cons g gs ih =>
    obtain ⟨_, hg, hrest⟩ := h
    rcases mem_append.mp (flatten_cons ▸ hv) with hv | hv
    · exact ⟨((hg v).mp hv).1, ((hg v).mp hv).2.1⟩
    · obtain ⟨hV, hd⟩ := ih hrest hv
      exact ⟨hV, fun hmem => hd (mem_append_left g hmem)⟩

theorem Peels.nodup_flatten (h : Peels r V done gs) : gs.flatten.Nodup := by
  induction gs generalizing done with
  | nil => exact nodup_nil
  | cons g gs ih =>
    obtain ⟨hnd, _, hrest⟩ := h
    rw [flatten_cons, nodup_append]
    refine ⟨hnd, ih hrest, ?_⟩
    intro a ha b hb hab
    exact (hrest.mem_flatten hb).2 (mem_append_right done (hab ▸ ha))

theorem chain_lt_of_done (hdone : ∀ v ∈ done, ∀ m, ChainTo r m v → m < n)
    (hg : ∀ v ∈ g, ∀ u, r u v → u ∈ done) (hv : v ∈ g) (hc : ChainTo r m v) : m ≤ n := by
  cases m with
  | zero => omega
  | succ m =>
    obtain ⟨u, hu, hcu⟩ := hc.pred
    have := hdone u (hg v hv u hu) m hcu
    omega

/-- Every element still waiting after `n` rounds is the end of a chain of `n`
steps: in each round it kept a predecessor that was itself waiting. -/
theorem Peels.rank (h : Peels r V done gs) (hr : ∀ u v, r u v → u ∈ V)
    (hdone : ∀ v ∈ done, ∀ m, ChainTo r m v → m < n) (hwait : ∀ v ∈ V, v ∉ done → ChainTo r n v)
    (hi : gs[i]? = some g) (hv : v ∈ g) : IsGreatest {m | ChainTo r m v} (n + i) := by
  induction gs generalizing done n i with
  | nil => simp at hi
  | cons g₀ gs ih =>
    obtain ⟨_, hg, hrest⟩ := h
    have hready : ∀ v ∈ g₀, ∀ u, r u v → u ∈ done := fun v hv => ((hg v).mp hv).2.2
    cases i with
    | zero =>
      obtain rfl : g₀ = g := by simpa using hi
      refine ⟨?_, fun m hm => ?_⟩
      · exact hwait v ((hg v).mp hv).1 ((hg v).mp hv).2.1
      · exact chain_lt_of_done hdone hready hv hm
    | succ i =>
      have hdone' : ∀ v ∈ done ++ g₀, ∀ m, ChainTo r m v → m < n + 1 := by
        intro v hv m hm
        rcases mem_append.mp hv with hv | hv
        · have := hdone v hv m hm
          omega
        · have := chain_lt_of_done hdone hready hv hm
          omega
      have hwait' : ∀ v ∈ V, v ∉ done ++ g₀ → ChainTo r (n + 1) v := by
        intro v hV hnot
        rw [mem_append, not_or] at hnot
        have hex : ∃ u, r u v ∧ u ∉ done := by
          by_contra hcon
          push Not at hcon
          exact hnot.2 ((hg v).mpr ⟨hV, hnot.1, hcon⟩)
        obtain ⟨u, hu, hud⟩ := hex
        exact .step hu (hwait u (hr u v hu) hud)
      have := ih hrest hdone' hwait' (i := i) (by simpa using hi)
      rwa [show n + (i + 1) = n + 1 + i by omega]

theorem Peels.isGreatest (h : Peels r V [] gs) (hr : ∀ u v, r u v → u ∈ V)
    (hi : gs[i]? = some g) (hv : v ∈ g) : IsGreatest {m | ChainTo r m v} i := by
  have := h.rank hr (n := 0) (by simp) (fun v _ _ => .nil v) hi hv
  rwa [Nat.zero_add] at this

theorem Peels.lt_of_rel (h : Peels r V [] gs) (hr : ∀ u v, r u v → u ∈ V) {i j : ℕ} {g₁ g₂ : List α}
    (hi : gs[i]? = some g₁) (hj : gs[j]? = some g₂) {u : α} (hu : u ∈ g₁) (hv : v ∈ g₂)
    (huv : r u v) : i < j :=
  (h.isGreatest hr hj hv).2 (ChainTo.step huv (h.isGreatest hr hi hu).1)

theorem exists_index (hv : v ∈ gs.flatten) : ∃ (i : ℕ) (g : List α), gs[i]? = some g ∧ v ∈ g := by
  obtain ⟨g, hg, hvg⟩ := List.mem_flatten.mp hv
  obtain ⟨i, hi⟩ := mem_iff_getElem?.mp hg
  exact ⟨i, g, hi, hvg⟩

section

variable (h : Peels r V [] gs) (hr : ∀ u v, r u v → u ∈ V)
include h hr

theorem Peels.lt_of_transGen
    (hcover : ∀ v ∈ V, v ∈ gs.flatten) {u : α} (huv : Relation.TransGen r u v) {i j : ℕ}
    {g₁ g₂ : List α} (hi : gs[i]? = some g₁) (hj : gs[j]? = some g₂) (hu : u ∈ g₁) (hv : v ∈ g₂) :
    i < j := by
  induction huv generalizing j g₂ with
  | single huv => exact h.lt_of_rel hr hi hj hu hv huv
  | @tail w v _ hwv ih =>
    obtain ⟨k, g, hk, hw⟩ := exists_index (hcover w (hr w v hwv))
    exact (ih hk hw).trans (h.lt_of_rel hr hk hj hw hv hwv)

theorem Peels.acyclic (hcover : ∀ v ∈ V, v ∈ gs.flatten) : Acyclic r := by
  intro v hv
  obtain ⟨w, hvw, _⟩ := Relation.TransGen.head'_iff.mp hv
  obtain ⟨i, g, hi, hvg⟩ := exists_index (hcover v (hr v w hvw))
  exact lt_irrefl i (h.lt_of_transGen hr hcover hv hi hi hvg hvg)

theorem Peels.not_mem_of_transGen (hv : Relation.TransGen r v v) : v ∉ gs.flatten := by
  have hlonger {m : ℕ} {w : α} (hm : ChainTo r m v) (hvw : Relation.TransGen r v w) :
      ∃ n > m, ChainTo r n w := by
    induction hvw with
    | single hvw => exact ⟨m + 1, m.lt_succ_self, .step hvw hm⟩
    | tail _ hwx ih =>
      obtain ⟨n, hn, hchain⟩ := ih
      exact ⟨n + 1, by omega, .step hwx hchain⟩
  intro hmem
  obtain ⟨i, g, hi, hg⟩ := exists_index hmem
  obtain ⟨hchain, hgreatest⟩ := h.isGreatest hr hi hg
  obtain ⟨n, hn, hn'⟩ := hlonger hchain hv
  exact absurd (hgreatest hn') (not_le.mpr hn)

end

theorem wellFounded_of_acyclic (hac : Acyclic r) :
    WellFounded (fun a b : {v // v ∈ V} => Relation.TransGen r a.1 b.1) := by
  have : Finite {v // v ∈ V} := (finite_toSet V).to_subtype
  have : IsTrans {v // v ∈ V} (fun a b => Relation.TransGen r a.1 b.1) :=
    ⟨fun _ _ _ hab hbc => hab.trans hbc⟩
  have : Std.Irrefl (fun a b : {v // v ∈ V} => Relation.TransGen r a.1 b.1) :=
    ⟨fun a => hac a.1⟩
  exact Finite.wellFounded_of_trans_of_irrefl _

/-- Peeling stops only when no waiting element is ready, so nothing waits at the
end of an acyclic relation. -/
theorem Peels.covers (hac : Acyclic r) (hr : ∀ u v, r u v → u ∈ V)
    (h : Peels r V done gs) : ∀ v ∈ V, v ∈ done ∨ v ∈ gs.flatten := by
  induction gs generalizing done with
  | nil =>
    intro v hv
    have key : ∀ x : {v // v ∈ V}, x.1 ∈ done := by
      intro x
      induction x using (wellFounded_of_acyclic hac (V := V)).induction with
      | _ x ih =>
        by_contra hx
        obtain ⟨u, hu, hud⟩ := h x.1 x.2 hx
        exact hud (ih ⟨u, hr u x.1 hu⟩ (.single hu))
    exact .inl (key ⟨v, hv⟩)
  | cons g gs ih =>
    intro v hv
    rcases ih h.2.2 v hv with hd | hf
    · rcases mem_append.mp hd with hd | hg
      · exact .inl hd
      · exact .inr (by simp [hg])
    · exact .inr (by rw [flatten_cons]; exact mem_append_right g hf)

theorem Peels.map_perm (hf : ∀ g, (f g).Perm g)
    (h : Peels r V done gs)
    (hd : ∀ v, v ∈ done ↔ v ∈ done') : Peels r V done' (gs.map f) := by
  induction gs generalizing done done' with
  | nil => exact fun v hv hnot => by simpa [hd] using h v hv (mt (hd v).mp hnot)
  | cons g gs ih =>
    obtain ⟨hnd, hg, hrest⟩ := h
    refine ⟨(hf g).nodup_iff.mpr hnd, fun v => ?_, ih hrest fun v => ?_⟩
    · rw [(hf g).mem_iff, hg v]
      simp only [hd]
    · rw [mem_append, mem_append, hd v, (hf g).mem_iff]

theorem Peels.pairwise_flatten (h : Peels r V done gs) :
    gs.flatten.Pairwise (fun a b => ¬ r b a) := by
  induction gs generalizing done with
  | nil => exact List.Pairwise.nil
  | cons g gs ih =>
    obtain ⟨hnd, hg, hrest⟩ := h
    have hgone : ∀ a ∈ g, ∀ b, r b a → b ∈ done := fun a ha => ((hg a).mp ha).2.2
    rw [flatten_cons, pairwise_append]
    refine ⟨?_, ih hrest, ?_⟩
    · exact hnd.imp_of_mem fun ha hb _ hba => ((hg _).mp hb).2.1 (hgone _ ha _ hba)
    · intro a ha b hb hba
      exact (hrest.mem_flatten hb).2 (mem_append_left g (hgone a ha b hba))

theorem Peels.idxOf_lt [DecidableEq α] (h : Peels r V [] gs)
    (hr : ∀ u v, r u v → u ∈ V) (hcover : ∀ v ∈ V, v ∈ gs.flatten)
    (huv : Relation.TransGen r u v) (hv : v ∈ V) :
    gs.flatten.idxOf u < gs.flatten.idxOf v := by
  have hac := h.acyclic hr hcover
  have hone : ∀ {x y : α}, r x y → y ∈ V → gs.flatten.idxOf x < gs.flatten.idxOf y := by
    intro x y hxy hy
    have hx := idxOf_lt_length_of_mem (hcover x (hr x y hxy))
    have hy := idxOf_lt_length_of_mem (hcover y hy)
    rcases lt_trichotomy (gs.flatten.idxOf x) (gs.flatten.idxOf y) with hlt | heq | hgt
    · exact hlt
    · have : x = y := by
        rw [← getElem_idxOf hx, ← getElem_idxOf hy]
        simp only [heq]
      exact absurd (.single (this ▸ hxy)) (hac y)
    · have := pairwise_iff_getElem.mp h.pairwise_flatten _ _ hy hx hgt
      rw [getElem_idxOf, getElem_idxOf] at this
      exact absurd hxy this
  induction huv with
  | single huv => exact hone huv hv
  | tail _ hwv ih => exact (ih (hr _ _ hwv)).trans (hone hwv hv)

theorem exists_rel_of_isChain (h : (v :: rest).IsChain r)
    (hw : w ∈ rest) : ∃ u ∈ v :: rest, r u w := by
  induction rest generalizing v with
  | nil => exact absurd hw not_mem_nil
  | cons v' rest ih =>
    rw [isChain_cons_cons] at h
    rcases mem_cons.mp hw with heq | hin
    · rw [heq]
      exact ⟨v, mem_cons_self, h.1⟩
    · obtain ⟨u, hu, hrel⟩ := ih h.2 hin
      exact ⟨u, mem_cons_of_mem v hu, hrel⟩

/-- In a list whose elements come after the previous one and after earlier ones only, every
round removes the next one. -/
theorem Peels.eq_singletons (hnodup : V.Nodup) (hchain : V.IsChain r)
    (hearlier : ∀ (i : ℕ) (hi : i < V.length) u, r u V[i] → u ∈ V.take i)
    (hV : V = done ++ rest) (h : Peels r V done gs)
    (hgs : [] ∉ gs) : gs = rest.map fun v => [v] := by
  have hready {done rest : List α} {v : α} (hV : V = done ++ v :: rest) :
      v ∈ V ∧ v ∉ done ∧ ∀ u, r u v → u ∈ done := by
    subst hV
    have hlt : done.length < (done ++ v :: rest).length := by simp
    have hget : (done ++ v :: rest)[done.length] = v := by simp
    have htake : (done ++ v :: rest).take done.length = done := take_left
    have hbefore := hearlier done.length hlt
    rw [hget, htake] at hbefore
    refine ⟨mem_append_right done mem_cons_self, fun hdone => ?_, hbefore⟩
    exact (nodup_append.mp hnodup).2.2 v hdone v mem_cons_self rfl
  have hwaits {done rest : List α} {v w : α} (hV : V = done ++ v :: rest) (hw : w ∈ rest) :
      ∃ u, r u w ∧ u ∉ done := by
    subst hV
    obtain ⟨u, hu, hrel⟩ := exists_rel_of_isChain hchain.right_of_append hw
    exact ⟨u, hrel, fun hdone => (nodup_append.mp hnodup).2.2 u hdone u hu rfl⟩
  induction gs generalizing done rest with
  | nil =>
    cases rest with
    | nil => rfl
    | cons v rest =>
      obtain ⟨hmem, hnot, hall⟩ := hready hV
      obtain ⟨u, hu, hwaiting⟩ := h v hmem hnot
      exact absurd (hall u hu) hwaiting
  | cons g gs ih =>
    obtain ⟨hg, hmem, hgroups⟩ := h
    rw [mem_cons, not_or] at hgs
    cases rest with
    | nil =>
      obtain ⟨v, hv⟩ := exists_mem_of_ne_nil g (Ne.symm hgs.1)
      have hwaiting := (hmem v).mp hv
      rw [hV, append_nil] at hwaiting
      exact absurd hwaiting.1 hwaiting.2.1
    | cons v rest =>
      have honly : ∀ w ∈ g, w = v := by
        intro w hw
        obtain ⟨hin, hnot, hall⟩ := (hmem w).mp hw
        rw [hV, mem_append, mem_cons] at hin
        rcases hin with hdone | heq | hrest
        · exact absurd hdone hnot
        · exact heq
        · obtain ⟨u, hu, hwaiting⟩ := hwaits hV hrest
          exact absurd (hall u hu) hwaiting
      have hsingle : g = [v] := by
        refine perm_singleton.mp ((perm_ext_iff_of_nodup hg (nodup_singleton v)).mpr
          fun w => ⟨fun hw => mem_singleton.mpr (honly w hw), fun hw => ?_⟩)
        rw [mem_singleton.mp hw]
        exact (hmem v).mpr (hready hV)
      rw [hsingle] at hgroups
      rw [map_cons, hsingle, ← ih (by rw [hV, append_assoc]; rfl) hgroups hgs.2]

end Agent33.Library.Peeling

/-!
## Stores that serve their own needs

A store holds values under keys. Each value has needs, which name a key and say
what the value held there has to be like. A store is self-contained when all the
needs of its values are served by values that it holds.
-/

namespace Agent33.Library

variable {ι α : Type*} [DecidableEq ι]

structure Need (ι α : Type*) where
  key : ι
  accepts : α → Prop

def Served (store : ι → Option α) (need : Need ι α) : Prop :=
  ∃ a, store need.key = some a ∧ need.accepts a

def SelfContained (needs : α → Set (Need ι α)) (store : ι → Option α) : Prop :=
  ∀ i a, store i = some a → ∀ need ∈ needs a, Served store need

variable {i : ι}

theorem Served.update_of_ne (h : Served store need) (hne : need.key ≠ i)
    (value : Option α) : Served (Function.update store i value) need := by
  obtain ⟨b, hb, haccepts⟩ := h
  exact ⟨b, by rw [Function.update_of_ne hne, hb], haccepts⟩

theorem Served.of_accepts (hkey : need.key = i) (h : need.accepts a) :
    Served (Function.update store i (some a)) need :=
  ⟨a, by rw [hkey, Function.update_self], h⟩

omit [DecidableEq ι] in
theorem SelfContained.key_ne (h : SelfContained needs store) (hi : store i = none)
    (hb : store j = some b) (hneed : need ∈ needs b) : need.key ≠ i := by
  intro hkey
  obtain ⟨c, hc, -⟩ := h j b hb need hneed
  rw [hkey, hi] at hc
  exact absurd hc (by simp)

theorem SelfContained.update_iff (h : SelfContained needs store)
    (hothers : ∀ j b, j ≠ i → store j = some b → ∀ need ∈ needs b, need.key = i →
      need.accepts a) :
    SelfContained needs (Function.update store i (some a)) ↔
      ∀ need ∈ needs a, Served (Function.update store i (some a)) need := by
  constructor
  · intro hupdate
    exact hupdate i a (Function.update_self i (some a) store)
  · intro hnew j b hb need hneed
    by_cases hj : j = i
    · subst hj
      rw [Function.update_self, Option.some.injEq] at hb
      exact hnew need (hb ▸ hneed)
    · rw [Function.update_of_ne hj] at hb
      by_cases hkey : need.key = i
      · exact Served.of_accepts hkey (hothers j b hj hb need hneed hkey)
      · exact (h j b hb need hneed).update_of_ne hkey (some a)

theorem SelfContained.erase (h : SelfContained needs store)
    (hothers : ∀ j b, j ≠ i → store j = some b → ∀ need ∈ needs b, need.key ≠ i) :
    SelfContained needs (Function.update store i none) := by
  intro j b hb need hneed
  by_cases hj : j = i
  · subst hj
    rw [Function.update_self] at hb
    exact absurd hb (by simp)
  · rw [Function.update_of_ne hj] at hb
    exact (h j b hb need hneed).update_of_ne (hothers j b hj hb need hneed) none

end Agent33.Library
