import Agent33.Library.GraphSearch
import Agent33.Workflows.Dag

/-!
# Reported cycles

The depth-first search of a workflow whose dependencies are cyclic comes back to a step on its
path before it has finished the candidates, so what it reports is a cycle of the graph.
-/

namespace Agent33.Workflows.Dag

open Library Library.DepthFirst Workflows.Definition List

namespace DAGBuilder

def Edge (b : DAGBuilder) (u v : String) : Prop := v ∈ b.neighbors u

structure Searching (b : DAGBuilder) (ids : List String) (st : Dfs) : Prop where
  visiting : ∀ v, v ∈ st.visiting ↔ v ∈ st.path
  chain : st.path.IsChain b.Edge
  nodup : st.path.Nodup
  subset : st.path ⊆ ids
  finished : Finished b.Edge st.visited

structure Passed (b : DAGBuilder) (st st' : Dfs) : Prop where
  path : st'.path = st.path
  visiting : ∀ v, v ∈ st'.visiting ↔ v ∈ st.visiting
  finished : Finished b.Edge st'.visited
  visited : st.visited ⊆ st'.visited

def Outcome (b : DAGBuilder) (st : Dfs) (nodes : List String) :
    Option (List String) × Dfs → Prop
  | (some cycle, _) => ClosedWalk b.Edge cycle
  | (none, st') => b.Passed st st' ∧ nodes ⊆ st'.visited

variable {b : DAGBuilder}

theorem Passed.refl (h : Finished b.Edge st.visited) : b.Passed st st :=
  ⟨rfl, fun _ => Iff.rfl, h, fun _ => id⟩

theorem Passed.trans (h : b.Passed st st') (h' : b.Passed st' st'') : b.Passed st st'' :=
  ⟨h'.path.trans h.path, fun v => (h'.visiting v).trans (h.visiting v), h'.finished,
    fun _ hv => h'.visited (h.visited hv)⟩

theorem Searching.passed (hst : b.Searching ids st) (h : b.Passed st st') :
    b.Searching ids st' where
  visiting v := by rw [h.visiting, hst.visiting, h.path]
  chain := h.path ▸ hst.chain
  nodup := h.path ▸ hst.nodup
  subset := h.path ▸ hst.subset
  finished := h.finished

theorem Searching.length_le (hst : b.Searching ids st) : st.path.length ≤ ids.length :=
  (hst.nodup.subperm hst.subset).length_le

variable {candidates nodes : List String} {steps : List WorkflowStep}


theorem Searching.enter (hst : b.Searching ids st) (hnode : node ∈ ids) (hnew : node ∉ st.path)
    (hedge : ∀ u ∈ st.path.getLast?, b.Edge u node) : b.Searching ids (st.enter node) where
  visiting v := by
    rw [Dfs.enter, mem_cons, hst.visiting, mem_append, mem_singleton, or_comm]
  chain := by
    refine isChain_append.mpr ⟨hst.chain, isChain_singleton node, ?_⟩
    intro u hu v hv
    cases hv
    exact hedge u hu
  nodup := by
    rw [Dfs.enter, nodup_append]
    refine ⟨hst.nodup, nodup_singleton node, ?_⟩
    intro u hu v hv huv
    rw [mem_singleton.mp hv] at huv
    exact hnew (huv ▸ hu)
  subset v hv := by
    rcases mem_append.mp hv with hv | hv
    · exact hst.subset hv
    · exact mem_singleton.mp hv ▸ hnode
  finished := hst.finished

theorem Passed.leave (hnew : node ∉ st.visiting) (h : b.Passed (st.enter node) st')
    (hneighbors : b.neighbors node ⊆ st'.visited) : b.Passed st (st'.leave node) where
  path := by rw [Dfs.leave, h.path, Dfs.enter, dropLast_concat]
  visiting v := by
    rw [Dfs.leave, List.mem_filter, h.visiting, Dfs.enter, mem_cons, decide_eq_true_iff]
    constructor
    · rintro ⟨rfl | hv, hne⟩
      · exact absurd rfl hne
      · exact hv
    · exact fun hv => ⟨.inr hv, fun heq => hnew (heq ▸ hv)⟩
  finished := ⟨fun _ hu => hneighbors hu, h.finished⟩
  visited _ hv := mem_cons_of_mem _ (h.visited hv)

theorem Outcome.cons (h : b.Outcome st nodes result) (hnode : node ∈ st.visited) :
    b.Outcome st (node :: nodes) result := by
  rcases result with ⟨_ | cycle, st'⟩
  · obtain ⟨hpassed, hnodes⟩ := h
    exact ⟨hpassed, cons_subset.mpr ⟨hpassed.visited hnode, hnodes⟩⟩
  · exact h

theorem Outcome.trans (h : b.Outcome st' nodes result) (hpassed : b.Passed st st') :
    b.Outcome st nodes result := by
  rcases result with ⟨_ | cycle, st''⟩
  · exact ⟨hpassed.trans h.1, h.2⟩
  · exact h

theorem visitNeighbors_outcome (search : String → Dfs → Option (List String) × Dfs)
    (hlast : path.getLast? = some node)
    (hsearch : ∀ v st, b.Searching ids st → st.path = path → v ∉ path → b.Edge node v →
      b.Outcome st [v] (search v st))
    (hns : ns ⊆ b.neighbors node) (hst : b.Searching ids st)
    (hpath : st.path = path) : b.Outcome st ns (visitNeighbors search ns st) := by
  induction ns generalizing st with
  | nil => exact ⟨.refl hst.finished, nil_subset _⟩
  | cons n rest ih =>
    have hn : b.Edge node n := hns mem_cons_self
    have hrest : rest ⊆ b.neighbors node := fun v hv => hns (mem_cons_of_mem n hv)
    rw [visitNeighbors]
    split_ifs with hvisiting hvisited
    · exact closedWalk_of_mem hst.chain (hpath ▸ hlast) hn ((hst.visiting n).mp hvisiting)
    · exact (ih hrest hst hpath).cons hvisited
    · have hnew : n ∉ path := fun hmem => hvisiting ((hst.visiting n).mpr (hpath ▸ hmem))
      have hone := hsearch n st hst hpath hnew hn
      rcases hfound : search n st with ⟨_ | cycle, st'⟩
      · rw [hfound] at hone
        obtain ⟨hpassed, hvisited'⟩ := hone
        have hall := ih hrest (hst.passed hpassed) (hpassed.path.trans hpath)
        exact (hall.cons (hvisited' mem_cons_self)).trans hpassed
      · rw [hfound] at hone
        exact hone

theorem dfs_outcome (hids : ∀ u v, b.Edge u v → v ∈ ids) (fuel : ℕ) (hst : b.Searching ids st)
    (hnode : node ∈ ids) (hnew : node ∉ st.path) (hedge : ∀ u ∈ st.path.getLast?, b.Edge u node)
    (hfuel : ids.length < fuel + st.path.length) : b.Outcome st [node] (b.dfs fuel node st) := by
  induction fuel generalizing node st with
  | zero =>
    have := hst.length_le
    omega
  | succ fuel ih =>
    have henter := hst.enter hnode hnew hedge
    have hlast : (st.enter node).path.getLast? = some node := getLast?_concat
    have hneighbors := visitNeighbors_outcome (b.dfs fuel) hlast
      (fun v st' hst' hpath hv hnv => by
        apply ih hst' (hids node v hnv)
        · rwa [hpath]
        · intro u hu
          rw [hpath, hlast] at hu
          exact Option.some.inj hu ▸ hnv
        · rw [hpath, Dfs.enter, length_append, length_singleton]
          omega)
      (List.Subset.refl (b.neighbors node)) henter rfl
    rw [dfs]
    rcases hfound : visitNeighbors (b.dfs fuel) (b.neighbors node) (st.enter node) with
      ⟨_ | cycle, st'⟩
    · rw [hfound] at hneighbors
      have hleave := hneighbors.1.leave (fun h => hnew ((hst.visiting node).mp h)) hneighbors.2
      exact ⟨hleave, cons_subset.mpr ⟨mem_cons_self, nil_subset _⟩⟩
    · rw [hfound] at hneighbors
      exact hneighbors

def Searched (b : DAGBuilder) (visited candidates : List String) :
    Option (List String) → Prop
  | some cycle => ClosedWalk b.Edge cycle
  | none => ∃ l, Finished b.Edge l ∧ candidates ⊆ l ∧ visited ⊆ l

theorem Searched.cons {visited visited' : List String} {sid : String}
    {result : Option (List String)} (h : b.Searched visited' candidates result)
    (hkept : visited ⊆ visited') (hsid : sid ∈ visited') :
    b.Searched visited (sid :: candidates) result := by
  cases result with
  | some cycle => exact h
  | none =>
    obtain ⟨l, hl, hmem, hl'⟩ := h
    exact ⟨l, hl, cons_subset.mpr ⟨hl' hsid, hmem⟩, List.Subset.trans hkept hl'⟩

theorem searchCycle_spec (hids : ∀ u v, b.Edge u v → v ∈ b.steps.keys)
    (hsub : candidates ⊆ b.steps.keys) (hst : b.Searching b.steps.keys st) (hpath : st.path = []) :
    b.Searched st.visited candidates (b.searchCycle candidates st) := by
  induction candidates generalizing st with
  | nil => exact ⟨st.visited, hst.finished, nil_subset _, List.Subset.refl _⟩
  | cons sid rest ih =>
    obtain ⟨hsid, hrest⟩ := cons_subset.mp hsub
    rw [searchCycle]
    split_ifs with hvisited
    · exact (ih hrest hst hpath).cons (List.Subset.refl _) hvisited
    · have hone := dfs_outcome hids (b.steps.keys.length + 1) hst hsid (by simp [hpath])
        (by simp [hpath]) (by omega)
      rcases hdfs : b.dfs (b.steps.keys.length + 1) sid st with ⟨_ | cycle, st'⟩
      · rw [hdfs] at hone
        obtain ⟨hpassed, hdone⟩ := hone
        exact (ih hrest (hst.passed hpassed) (hpassed.path.trans hpath)).cons hpassed.visited
          (hdone mem_cons_self)
      · rw [hdfs] at hone
        exact hone

theorem Edges.edge_iff (he : Edges steps b) {u v : String} : b.Edge u v ↔ DependsOn steps u v := by
  rw [Edge, ← count_pos_iff, he.neighbors, count_pos_iff, mem_deps]

theorem searching_empty : b.Searching ids {} where
  visiting _ := Iff.rfl
  chain := isChain_nil
  nodup := nodup_nil
  subset := nil_subset _
  finished := trivial

theorem searchCycle_ne_none (he : Edges steps b) (hsub : candidates ⊆ stepIds steps)
    (hcyclic : ∃ v ∈ candidates, Relation.TransGen (DependsOn steps) v v) :
    ∃ cycle, b.searchCycle candidates {} = some cycle ∧ ClosedWalk (DependsOn steps) cycle := by
  have hrel : b.Edge = DependsOn steps := by
    funext u v
    exact propext he.edge_iff
  have hids : ∀ u v, b.Edge u v → v ∈ b.steps.keys := by
    intro u v huv
    rw [he.stepKeys]
    exact mem_stepIds_of_dependsOn (he.edge_iff.mp huv)
  have hspec := searchCycle_spec hids (he.stepKeys ▸ hsub) searching_empty rfl
  cases hfound : b.searchCycle candidates {} with
  | some cycle =>
    rw [hfound] at hspec
    exact ⟨cycle, rfl, hrel ▸ hspec⟩
  | none =>
    rw [hfound] at hspec
    obtain ⟨l, hl, hmem, -⟩ := hspec
    obtain ⟨v, hv, hcycle⟩ := hcyclic
    exact absurd (hrel ▸ hcycle) (hl.not_transGen (hmem hv))

def remaining (b : DAGBuilder) : List String :=
  b.steps.keys.filter fun sid =>
    decide (sid ∉ (b.levels (b.steps.keys.length + 1) b.inDegree b.zeroInDegree [] []).1)

theorem Edges.exists_transGen_remaining (he : Edges steps b) (hk : KnownDependencies steps)
    (hcyclic : ¬ Peeling.Acyclic (DependsOn steps)) :
    ∃ v ∈ b.remaining, Relation.TransGen (DependsOn steps) v v := by
  have hr := dependency_mem_stepIds hk
  rw [Peeling.Acyclic] at hcyclic
  push Not at hcyclic
  obtain ⟨v, hv⟩ := hcyclic
  obtain ⟨w, hvw, -⟩ := Relation.TransGen.head'_iff.mp hv
  obtain ⟨rounds, hlevels, hp, -⟩ := levels_spec he ((stepIds steps).length + 1) []
    (level_zero he) (by simp)
  refine ⟨v, List.mem_filter.mpr ⟨he.stepKeys ▸ hr v w hvw, decide_eq_true ?_⟩, hv⟩
  rw [he.stepKeys, hlevels]
  exact hp.not_mem_of_transGen hr hv

/-- The search finds the reported cycle itself, without the fallback. -/
theorem build_error_of_cyclic {steps : List WorkflowStep} (hu : UniqueStepIds steps)
    (hk : KnownDependencies steps) (hcyclic : ¬ Peeling.Acyclic (DependsOn steps)) :
    ∃ cycle, (init steps).build = .error ⟨cycle⟩ ∧
      (init steps).buildEdges.searchCycle (init steps).buildEdges.remaining {} = some cycle ∧
      ClosedWalk (DependsOn steps) cycle := by
  have he := buildEdges_spec hu
  have hwaiting := he.exists_transGen_remaining hk hcyclic
  have hsub : (init steps).buildEdges.remaining ⊆ stepIds steps := by
    rw [← he.stepKeys]
    exact filter_subset_self _
  obtain ⟨cycle, hfound, hclosed⟩ := searchCycle_ne_none he hsub hwaiting
  refine ⟨cycle, ?_, hfound, hclosed⟩
  cases hbuild : (init steps).build with
  | ok built => exact absurd ((build_spec hu hk).1.mp ⟨built, hbuild⟩) hcyclic
  | error e =>
    have hcycle : e = ⟨(init steps).buildEdges.findCycle (init steps).buildEdges.remaining⟩ := by
      rw [build, computeTopoAndGroups] at hbuild
      dsimp only at hbuild
      split_ifs at hbuild
      exact (Except.error.inj hbuild).symm
    rw [hcycle, findCycle, hfound]
    rfl

def deadlock : List WorkflowStep :=
  [{ id := "last", action := .transform, dependsOn := ["left"] },
    { id := "left", action := .transform, dependsOn := ["right"] },
    { id := "right", action := .transform, dependsOn := ["left"] }]

theorem cyclic_deadlock : ¬ Peeling.Acyclic (DependsOn deadlock) := by
  intro h
  refine h "left" (.tail (.single (b := "right") ?_) ?_)
  · exact ⟨_, mem_cons_of_mem _ (mem_cons_of_mem _ mem_cons_self), rfl,
      mem_cons_self⟩
  · exact ⟨_, mem_cons_of_mem _ mem_cons_self, rfl, mem_cons_self⟩

theorem build_error_deadlock : ∃ cycle, (init deadlock).build = .error ⟨cycle⟩ ∧
    (init deadlock).buildEdges.searchCycle (init deadlock).buildEdges.remaining {} = some cycle ∧
    ClosedWalk (DependsOn deadlock) cycle :=
  build_error_of_cyclic (by decide) (by decide) cyclic_deadlock

end DAGBuilder

end Agent33.Workflows.Dag
