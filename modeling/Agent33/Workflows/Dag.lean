import Agent33.Library.Peeling
import Agent33.Workflows.Definition
import Mathlib.Data.String.Basic

/-!
# The dependency graph of a workflow

`DAGBuilder` runs Kahn's algorithm level by level over an in-degree map. A step
may name a dependency several times; the edge is then counted several times on
both sides, in the in-degree and in the adjacency list.
-/

namespace Agent33.Workflows.Dag

open Library Workflows.Definition List

/-- `CycleDetectedError`, with the cycle it reports. -/
structure CycleDetectedError where
  cycle : List String

def CycleDetectedError.message (e : CycleDetectedError) : String :=
  "Cycle detected in workflow steps: " ++ String.intercalate " -> " e.cycle

structure DAGBuilder where
  steps : Dict String WorkflowStep
  adjacency : Dict String (List String)
  inDegree : Dict String Int
  topoOrder : Option (List String)
  groups : Option (List (List String))

namespace DAGBuilder

variable (steps : List WorkflowStep)

def init : DAGBuilder where
  steps := Dict.ofList (steps.map fun s => (s.id, s))
  adjacency := Dict.empty
  inDegree := Dict.empty
  topoOrder := none
  groups := none

def neighbors (b : DAGBuilder) (node : String) : List String := b.adjacency.getD node []

def setDefaultInDegree (b : DAGBuilder) (sid : String) : DAGBuilder :=
  if sid ∈ b.inDegree.keys then b else { b with inDegree := b.inDegree.set sid 0 }

def addEdge (b : DAGBuilder) (stepId dep : String) : DAGBuilder :=
  { b with
    adjacency := b.adjacency.set dep (b.neighbors dep ++ [stepId])
    inDegree := b.inDegree.set stepId (b.inDegree.getD stepId 0 + 1) }

def addStepEdges (b : DAGBuilder) (step : WorkflowStep) : DAGBuilder :=
  step.dependsOn.foldl (fun b dep => b.addEdge step.id dep) b

def buildEdges (b : DAGBuilder) : DAGBuilder :=
  b.steps.values.foldl addStepEdges (b.steps.keys.foldl setDefaultInDegree b)

def sorted (ids : List String) : List String := ids.insertionSort (· ≤ ·)

structure Dfs where
  visiting : List String := []
  visited : List String := []
  path : List String := []

def Dfs.enter (st : Dfs) (node : String) : Dfs :=
  { st with visiting := node :: st.visiting, path := st.path ++ [node] }

def Dfs.leave (st : Dfs) (node : String) : Dfs :=
  { visiting := st.visiting.filter (fun v => decide (v ≠ node))
    visited := node :: st.visited
    path := st.path.dropLast }

def visitNeighbors (dfs : String → Dfs → Option (List String) × Dfs) :
    List String → Dfs → Option (List String) × Dfs
  | [], st => (none, st)
  | neighbor :: rest, st =>
    if neighbor ∈ st.visiting then
      (some (st.path.drop (st.path.idxOf neighbor) ++ [neighbor]), st)
    else if neighbor ∈ st.visited then visitNeighbors dfs rest st
    else
      match dfs neighbor st with
      | (some cycle, st) => (some cycle, st)
      | (none, st) => visitNeighbors dfs rest st

def dfs (b : DAGBuilder) : ℕ → String → Dfs → Option (List String) × Dfs
  | 0, _, st => (none, st)
  | fuel + 1, node, st =>
    match visitNeighbors (b.dfs fuel) (b.neighbors node) (st.enter node) with
    | (some cycle, st) => (some cycle, st)
    | (none, st) => (none, st.leave node)

def searchCycle (b : DAGBuilder) : List String → Dfs → Option (List String)
  | [], _ => none
  | sid :: rest, st =>
    if sid ∈ st.visited then b.searchCycle rest st
    else
      match b.dfs (b.steps.keys.length + 1) sid st with
      | (some cycle, _) => some cycle
      | (none, st) => b.searchCycle rest st

def findCycle (b : DAGBuilder) (candidates : List String) : List String :=
  (b.searchCycle candidates {}).getD (candidates.take 2 ++ candidates.take 1)

def relax (st : Dict String Int × List String) (neighbor : String) :
    Dict String Int × List String :=
  let degree := st.1.getD neighbor 0 - 1
  (st.1.set neighbor degree, if degree = 0 then st.2 ++ [neighbor] else st.2)

def relaxGroup (b : DAGBuilder) (inDegree : Dict String Int) (group : List String) :
    Dict String Int × List String :=
  group.foldl (fun st node => (b.neighbors node).foldl relax st) (inDegree, [])

/-- The loop of `_compute_topo_and_groups`: the order and the groups. -/
def levels (b : DAGBuilder) : ℕ → Dict String Int → List String → List String →
    List (List String) → List String × List (List String)
  | 0, _, _, order, groups => (order, groups)
  | fuel + 1, inDegree, queue, order, groups =>
    if queue = [] then (order, groups)
    else
      let next := b.relaxGroup inDegree queue
      b.levels fuel next.1 (sorted next.2) (order ++ queue) (groups ++ [sorted queue])

def zeroInDegree (b : DAGBuilder) : List String :=
  (b.inDegree.entries.filter (fun e => decide (e.2 = 0))).map Prod.fst

def computeTopoAndGroups (b : DAGBuilder) : Except CycleDetectedError DAGBuilder :=
  let (order, groups) :=
    b.levels (b.steps.keys.length + 1) b.inDegree b.zeroInDegree [] []
  if order.length ≠ b.steps.keys.length then
    .error ⟨b.findCycle (b.steps.keys.filter (fun sid => decide (sid ∉ order)))⟩
  else .ok { b with topoOrder := some order, groups := some groups }

def build (b : DAGBuilder) : Except CycleDetectedError DAGBuilder :=
  b.buildEdges.computeTopoAndGroups

/-- What `topological_order` and `parallel_groups` raise before `build`. -/
inductive NotBuilt
  | topologicalOrder
  | parallelGroups

def topologicalOrder (b : DAGBuilder) : Except NotBuilt (List String) :=
  match b.topoOrder with
  | none => .error .topologicalOrder
  | some order => .ok order

def parallelGroups (b : DAGBuilder) : Except NotBuilt (List (List String)) :=
  match b.groups with
  | none => .error .parallelGroups
  | some groups => .ok groups

def deps (v : String) : List String :=
  steps.flatMap fun s => if s.id = v then s.dependsOn else []

def DependsOn (u v : String) : Prop :=
  ∃ s ∈ steps, s.id = v ∧ u ∈ s.dependsOn

variable {steps : List WorkflowStep} {b : DAGBuilder} {order queue : List String}
    {inDegree : Dict String Int}

theorem mem_deps {u v : String} : u ∈ deps steps v ↔ DependsOn steps u v := by
  simp only [deps, DependsOn, mem_flatMap]
  refine exists_congr fun s => and_congr_right fun _ => ?_
  split_ifs with h <;> simp [h]

theorem deps_cons (s : WorkflowStep) (steps : List WorkflowStep) (v : String) :
    deps (s :: steps) v = (if s.id = v then s.dependsOn else []) ++ deps steps v := by
  rw [deps, flatMap_cons]
  rfl

theorem addEdges_inDegree (sid v : String) (ds : List String) (b : DAGBuilder) :
    (ds.foldl (fun b dep => b.addEdge sid dep) b).inDegree.getD v 0 =
      b.inDegree.getD v 0 + if sid = v then ds.length else 0 := by
  induction ds generalizing b with
  | nil => simp
  | cons d ds ih =>
    rw [foldl_cons, ih, addEdge, Dict.getD_set]
    by_cases hv : v = sid
    · subst hv
      simp only [if_true, length_cons]
      omega
    · simp [hv, Ne.symm hv]

theorem addEdges_keys (sid : String) (ds : List String) (b : DAGBuilder)
    (hmem : sid ∈ b.inDegree.keys) :
    (ds.foldl (fun b dep => b.addEdge sid dep) b).inDegree.keys = b.inDegree.keys := by
  induction ds generalizing b with
  | nil => rfl
  | cons d ds ih =>
    have hkeys : (b.addEdge sid d).inDegree.keys = b.inDegree.keys := by
      rw [addEdge, Dict.keys_set, if_pos hmem]
    rw [foldl_cons, ih _ (hkeys ▸ hmem), hkeys]

theorem addEdges_neighbors (sid u : String) (ds : List String) (b : DAGBuilder) :
    (ds.foldl (fun b dep => b.addEdge sid dep) b).neighbors u =
      b.neighbors u ++ List.replicate (ds.count u) sid := by
  induction ds generalizing b with
  | nil => simp
  | cons d ds ih =>
    have hone : (b.addEdge sid d).neighbors u =
        b.neighbors u ++ if u = d then [sid] else [] := by
      rw [neighbors, addEdge, Dict.getD_set]
      split_ifs with h
      · rw [h]
      · rw [append_nil, neighbors]
    rw [foldl_cons, ih, hone]
    by_cases h : u = d
    · subst h
      rw [if_pos rfl, count_cons_self, replicate_succ, append_assoc]
      rfl
    · rw [if_neg h, append_nil, count_cons_of_ne (Ne.symm h)]

theorem foldl_addStepEdges_inDegree (v : String) (steps : List WorkflowStep) (b : DAGBuilder) :
    (steps.foldl addStepEdges b).inDegree.getD v 0 =
      b.inDegree.getD v 0 + (deps steps v).length := by
  induction steps generalizing b with
  | nil => simp [deps]
  | cons s steps ih =>
    rw [foldl_cons, ih, addStepEdges, addEdges_inDegree, deps_cons, length_append]
    split_ifs <;> simp [add_assoc]

theorem foldl_addStepEdges_keys (b : DAGBuilder)
    (hmem : ∀ s ∈ steps, s.id ∈ b.inDegree.keys) :
    (steps.foldl addStepEdges b).inDegree.keys = b.inDegree.keys := by
  induction steps generalizing b with
  | nil => rfl
  | cons s steps ih =>
    have hkeys := addEdges_keys s.id s.dependsOn b (hmem s mem_cons_self)
    rw [foldl_cons, ih, addStepEdges, hkeys]
    intro t ht
    rw [addStepEdges, hkeys]
    exact hmem t (mem_cons_of_mem s ht)

theorem foldl_addStepEdges_neighbors (u v : String) (steps : List WorkflowStep)
    (b : DAGBuilder) :
    ((steps.foldl addStepEdges b).neighbors u).count v =
      (b.neighbors u).count v + (deps steps v).count u := by
  induction steps generalizing b with
  | nil => simp [deps]
  | cons s steps ih =>
    rw [foldl_cons, ih, addStepEdges, addEdges_neighbors, deps_cons, count_append,
      count_append, count_replicate]
    by_cases h : s.id = v
    · simp [h, add_assoc]
    · simp [h]

theorem foldl_setDefaultInDegree (sids : List String) (b : DAGBuilder)
    (hnd : sids.Nodup) (hnew : ∀ sid ∈ sids, sid ∉ b.inDegree.keys)
    (hzero : ∀ v, b.inDegree.getD v 0 = 0) :
    (sids.foldl setDefaultInDegree b).inDegree.keys = b.inDegree.keys ++ sids ∧
      (∀ v, (sids.foldl setDefaultInDegree b).inDegree.getD v 0 = 0) ∧
      (sids.foldl setDefaultInDegree b).adjacency = b.adjacency := by
  induction sids generalizing b with
  | nil => simpa using hzero
  | cons sid sids ih =>
    rw [nodup_cons] at hnd
    have hsid := hnew sid mem_cons_self
    have hone : b.setDefaultInDegree sid = { b with inDegree := b.inDegree.set sid 0 } :=
      if_neg hsid
    have hkeys : (b.setDefaultInDegree sid).inDegree.keys = b.inDegree.keys ++ [sid] := by
      rw [hone, Dict.keys_set, if_neg hsid]
    rw [foldl_cons]
    obtain ⟨h₁, h₂, h₃⟩ := ih (b.setDefaultInDegree sid) hnd.2
      (fun t ht => by
        rw [hkeys, mem_append, mem_singleton, not_or]
        exact ⟨hnew t (mem_cons_of_mem sid ht), fun h => hnd.1 (h ▸ ht)⟩)
      (fun v => by
        rw [hone, Dict.getD_set]
        split_ifs
        · rfl
        · exact hzero v)
    exact ⟨by rw [h₁, hkeys, append_assoc]; rfl, h₂, by rw [h₃, hone]⟩

theorem foldl_setDefaultInDegree_steps (sids : List String) (b : DAGBuilder) :
    (sids.foldl setDefaultInDegree b).steps = b.steps := by
  induction sids generalizing b with
  | nil => rfl
  | cons sid sids ih =>
    rw [foldl_cons, ih, setDefaultInDegree]
    split_ifs <;> rfl

theorem foldl_addStepEdges_steps (b : DAGBuilder) :
    (steps.foldl addStepEdges b).steps = b.steps := by
  have hone (sid : String) (ds : List String) (b : DAGBuilder) :
      (ds.foldl (fun b dep => b.addEdge sid dep) b).steps = b.steps := by
    induction ds generalizing b with
    | nil => rfl
    | cons d ds ih => rw [foldl_cons, ih, addEdge]
  induction steps generalizing b with
  | nil => rfl
  | cons s steps ih => rw [foldl_cons, ih, addStepEdges, hone]

/-- What `build` has entered for the steps before it sorts. -/
structure Edges (steps : List WorkflowStep) (b : DAGBuilder) : Prop where
  stepKeys : b.steps.keys = stepIds steps
  keys : b.inDegree.keys = stepIds steps
  inDegree : ∀ v, b.inDegree.getD v 0 = (deps steps v).length
  neighbors : ∀ u v, (b.neighbors u).count v = (deps steps v).count u

theorem buildEdges_spec (hu : UniqueStepIds steps) : Edges steps (init steps).buildEdges := by
  have hentries : (init steps).steps.entries = steps.map fun s => (s.id, s) := by
    refine Dict.entries_ofList ?_
    rwa [map_map]
  have hkeys : (init steps).steps.keys = stepIds steps := by
    rw [Dict.keys, hentries, map_map]
    rfl
  have hvalues : (init steps).steps.values = steps := by
    rw [Dict.values, hentries, map_map]
    exact map_id steps
  obtain ⟨h₁, h₂, h₃⟩ := foldl_setDefaultInDegree (stepIds steps) (init steps) hu
    (by simp [init]) (by simp [init])
  have h₁ : ((stepIds steps).foldl setDefaultInDegree (init steps)).inDegree.keys =
      stepIds steps := h₁
  rw [buildEdges, hkeys, hvalues]
  refine ⟨?_, ?_, fun v => ?_, fun u v => ?_⟩
  · rw [foldl_addStepEdges_steps, foldl_setDefaultInDegree_steps, hkeys]
  · rw [foldl_addStepEdges_keys, h₁]
    intro s hs
    rw [h₁]
    exact mem_map_of_mem hs
  · rw [foldl_addStepEdges_inDegree, h₂, zero_add]
  · rw [foldl_addStepEdges_neighbors, DAGBuilder.neighbors, h₃]
    simp [init]

variable (ns : List String) (st : Dict String Int × List String)

theorem foldl_relax_inDegree
    (v : String) : (ns.foldl relax st).1.getD v 0 = st.1.getD v 0 - ns.count v := by
  induction ns generalizing st with
  | nil => simp
  | cons n ns ih =>
    rw [foldl_cons, ih, relax, Dict.getD_set, count_cons]
    by_cases h : v = n
    · subst h
      simp only [if_true, beq_self_eq_true]
      omega
    · simp [h, Ne.symm h]

theorem mem_foldl_relax (v : String) :
    v ∈ (ns.foldl relax st).2 ↔
      v ∈ st.2 ∨ (1 ≤ st.1.getD v 0 ∧ st.1.getD v 0 ≤ ns.count v) := by
  induction ns generalizing st with
  | nil =>
    simp only [foldl_nil, count_nil]
    constructor
    · exact Or.inl
    · rintro (h | h)
      · exact h
      · omega
  | cons n ns ih =>
    have hqueue : v ∈ (relax st n).2 ↔ v ∈ st.2 ∨ (v = n ∧ st.1.getD n 0 = 1) := by
      simp only [relax]
      split_ifs with h <;> simp [sub_eq_zero] at h ⊢ <;> simp [h]
    rw [foldl_cons, ih, hqueue, relax, Dict.getD_set, count_cons]
    by_cases h : v = n
    · subst h
      simp only [if_true, beq_self_eq_true, true_and]
      rw [or_assoc]
      refine or_congr_right ?_
      omega
    · simp [h, Ne.symm h]

theorem nodup_foldl_relax
    (hnd : st.2.Nodup) (hzero : ∀ v ∈ st.2, st.1.getD v 0 ≤ 0) :
    (ns.foldl relax st).2.Nodup := by
  induction ns generalizing st with
  | nil => exact hnd
  | cons n ns ih =>
    rw [foldl_cons]
    by_cases h : st.1.getD n 0 - 1 = 0
    · have hnew : n ∉ st.2 := fun hmem => by
        have := hzero n hmem
        omega
      refine ih _ ?_ fun v hv => ?_
      · simp only [relax, if_pos h]
        exact nodup_append.mpr ⟨hnd, nodup_singleton n, by
          intro a ha b hb hab
          rw [mem_singleton] at hb
          exact hnew (hb ▸ hab ▸ ha)⟩
      · simp only [relax, if_pos h, mem_append, mem_singleton] at hv
        simp only [relax, Dict.getD_set]
        split_ifs with hvn
        · omega
        · exact hzero v (hv.resolve_right hvn)
    · refine ih _ ?_ fun v hv => ?_
      · simpa only [relax, if_neg h] using hnd
      · simp only [relax, if_neg h] at hv
        have := hzero v hv
        simp only [relax, Dict.getD_set]
        split_ifs with hvn
        · subst hvn
          omega
        · exact this

theorem relaxGroup_eq (b : DAGBuilder) (inDegree : Dict String Int) (group : List String) :
    b.relaxGroup inDegree group = (group.flatMap b.neighbors).foldl relax (inDegree, []) := by
  rw [relaxGroup, foldl_flatMap]

theorem count_flatMap_neighbors (he : Edges steps b) {group : List String} (hnd : group.Nodup)
    (v : String) :
    (group.flatMap b.neighbors).count v = (deps steps v).countP (fun u => decide (u ∈ group)) := by
  induction group with
  | nil => simp
  | cons u group ih =>
    rw [nodup_cons] at hnd
    have hsplit (ds : List String) : ds.countP (fun w => decide (w ∈ u :: group)) =
        ds.count u + ds.countP (fun w => decide (w ∈ group)) := by
      induction ds with
      | nil => rfl
      | cons d ds ihd =>
        rw [countP_cons, countP_cons, count_cons, ihd]
        by_cases h : d = u
        · subst h
          simp [hnd.1]
          omega
        · simp [h]
          omega
    rw [flatMap_cons, count_append, ih hnd.2, he.neighbors, hsplit]

theorem countP_not_mem_split (hdisj : ∀ v ∈ queue, v ∉ order) (ds : List String) :
    ds.countP (fun u => decide (u ∉ order)) =
      ds.countP (fun u => decide (u ∈ queue)) +
        ds.countP (fun u => decide (u ∉ order ++ queue)) := by
  induction ds with
  | nil => rfl
  | cons d ds ih =>
    rw [countP_cons, countP_cons, countP_cons, ih]
    by_cases hq : d ∈ queue
    · simp [hq, hdisj d hq]
      omega
    · by_cases ho : d ∈ order
      · simp [hq, ho]
      · simp [hq, ho]
        omega

/-- The invariant of the loop: an in-degree counts the dependencies that have
not been ordered yet, and the queue holds the steps that wait for none. -/
structure Level (steps : List WorkflowStep) (inDegree : Dict String Int)
    (queue order : List String) : Prop where
  inDegree : ∀ v, inDegree.getD v 0 = (deps steps v).countP (fun u => decide (u ∉ order))
  queue_nodup : queue.Nodup
  mem_queue : ∀ v, v ∈ queue ↔
    v ∈ stepIds steps ∧ v ∉ order ∧ ∀ u, DependsOn steps u v → u ∈ order
  order_nodup : order.Nodup
  order_closed : ∀ v ∈ order, v ∈ stepIds steps ∧ ∀ u, DependsOn steps u v → u ∈ order

theorem countP_not_mem_eq_zero {v : String} :
    (deps steps v).countP (fun u => decide (u ∉ order)) = 0 ↔
      ∀ u, DependsOn steps u v → u ∈ order := by
  simp [countP_eq_zero, mem_deps]

theorem sorted_perm (ids : List String) : (sorted ids).Perm ids := perm_insertionSort _ ids

theorem Level.next (he : Edges steps b) (h : Level steps inDegree queue order) :
    Level steps (b.relaxGroup inDegree queue).1 (sorted (b.relaxGroup inDegree queue).2)
      (order ++ queue) := by
  have hdisj : ∀ v ∈ queue, v ∉ order := fun v hv => ((h.mem_queue v).mp hv).2.1
  have hcount := count_flatMap_neighbors he h.queue_nodup
  have hsplit (v : String) := countP_not_mem_split hdisj (deps steps v)
  have hdegree (v : String) : (b.relaxGroup inDegree queue).1.getD v 0 =
      (deps steps v).countP (fun u => decide (u ∉ order ++ queue)) := by
    rw [relaxGroup_eq, foldl_relax_inDegree, h.inDegree, hcount, hsplit]
    omega
  have hready {v : String} (hv : v ∈ order ++ queue) :
      v ∈ stepIds steps ∧ ∀ u, DependsOn steps u v → u ∈ order := by
    rcases mem_append.mp hv with hv | hv
    · exact h.order_closed v hv
    · exact ⟨((h.mem_queue v).mp hv).1, ((h.mem_queue v).mp hv).2.2⟩
  have hnext (v : String) : v ∈ (b.relaxGroup inDegree queue).2 ↔
      v ∈ stepIds steps ∧ v ∉ order ++ queue ∧
        ∀ u, DependsOn steps u v → u ∈ order ++ queue := by
    rw [relaxGroup_eq, mem_foldl_relax, h.inDegree, hcount, ← countP_not_mem_eq_zero]
    have hs := hsplit v
    have hwait : 1 ≤ (deps steps v).countP (fun u => decide (u ∉ order)) ↔
        ¬ ∀ u, DependsOn steps u v → u ∈ order := by
      rw [← countP_not_mem_eq_zero]
      omega
    simp only [not_mem_nil, false_or]
    constructor
    · rintro ⟨h₁, h₂⟩
      have hnot := hwait.mp (by omega)
      refine ⟨?_, fun hmem => hnot (hready hmem).2, by omega⟩
      push Not at hnot
      obtain ⟨u, ⟨s, hs, hid, _⟩, _⟩ := hnot
      exact hid ▸ mem_map_of_mem hs
    · rintro ⟨hid, hnot, hzero⟩
      rw [mem_append, not_or] at hnot
      have := hwait.mpr fun hall => hnot.2 ((h.mem_queue v).mpr ⟨hid, hnot.1, hall⟩)
      omega
  refine ⟨hdegree, ?_, fun v => ?_, ?_, fun v hv => ?_⟩
  · rw [(sorted_perm _).nodup_iff, relaxGroup_eq]
    exact nodup_foldl_relax _ _ nodup_nil (by simp)
  · rw [(sorted_perm _).mem_iff, hnext]
  · exact nodup_append.mpr ⟨h.order_nodup, h.queue_nodup,
      fun a ha c hc hac => hdisj c hc (hac ▸ ha)⟩
  · exact ⟨(hready hv).1, fun u hu => mem_append_left _ ((hready hv).2 u hu)⟩

theorem levels_spec (he : Edges steps b) (fuel : ℕ) (groups : List (List String))
    (h : Level steps inDegree queue order) (hfuel : (stepIds steps).length < order.length + fuel) :
    ∃ rounds : List (List String),
      b.levels fuel inDegree queue order groups =
        (order ++ rounds.flatten, groups ++ rounds.map sorted) ∧
      Peeling.Peels (DependsOn steps) (stepIds steps) order rounds ∧ [] ∉ rounds := by
  induction fuel generalizing inDegree queue order groups with
  | zero =>
    have := (h.order_nodup.subperm fun v hv => (h.order_closed v hv).1).length_le
    omega
  | succ fuel ih =>
    by_cases hq : queue = []
    · refine ⟨[], by simp [levels, hq], fun v hv hnot => ?_, not_mem_nil⟩
      by_contra hcon
      push Not at hcon
      have := (h.mem_queue v).mpr ⟨hv, hnot, hcon⟩
      simp [hq] at this
    · have hpos : 0 < queue.length := length_pos_iff.mpr hq
      obtain ⟨rounds, heq, hp, hnonempty⟩ := ih (groups ++ [sorted queue]) (h.next he)
        (by rw [length_append]; omega)
      refine ⟨queue :: rounds, ?_, ⟨h.queue_nodup, h.mem_queue, hp⟩, ?_⟩
      · simp [levels, hq, heq, append_assoc]
      · rw [mem_cons, not_or]
        exact ⟨Ne.symm hq, hnonempty⟩

theorem level_zero (he : Edges steps b) : Level steps b.inDegree b.zeroInDegree [] := by
  have hall (v : String) : (deps steps v).countP (fun u => decide (u ∉ [])) =
      (deps steps v).length := by
    simp
  refine ⟨fun v => by rw [he.inDegree, hall], ?_, fun v => ?_, nodup_nil, by simp⟩
  · exact b.inDegree.nodup.sublist (filter_sublist.map _)
  · have hmem : v ∈ b.zeroInDegree ↔ b.inDegree.get? v = some 0 := by
      rw [← Dict.mem_entries]
      simp only [zeroInDegree, mem_map, List.mem_filter, decide_eq_true_eq]
      constructor
      · rintro ⟨⟨k, d⟩, ⟨hmem, rfl⟩, rfl⟩
        exact hmem
      · exact fun h => ⟨(v, 0), ⟨h, rfl⟩, rfl⟩
    have hzero : b.inDegree.get? v = some 0 ↔ v ∈ stepIds steps ∧ b.inDegree.getD v 0 = 0 := by
      have hkey := b.inDegree.get?_eq_none v
      rw [he.keys] at hkey
      rw [Dict.getD]
      cases hget : b.inDegree.get? v with
      | none => simpa using fun hv => absurd hv (hkey.mp hget)
      | some d => simpa using fun _ => by_contra fun hv => by simp [hkey.mpr hv] at hget
    rw [hmem, hzero, he.inDegree, ← countP_not_mem_eq_zero, hall]
    simp

structure IsSchedule (steps : List WorkflowStep) (groups : List (List String))
    (order : List String) : Prop where
  groups_perm : groups.flatten.Perm (stepIds steps)
  rank : ∀ (i : ℕ) (g : List String) (v : String), groups[i]? = some g → v ∈ g →
    IsGreatest {n | Peeling.ChainTo (DependsOn steps) n v} i
  earlier : ∀ u v, Relation.TransGen (DependsOn steps) u v →
    ∀ (i j : ℕ) (gu gv : List String), groups[i]? = some gu → groups[j]? = some gv →
      u ∈ gu → v ∈ gv → i < j
  order_perm : order.Perm (stepIds steps)
  order_lt : ∀ u v, Relation.TransGen (DependsOn steps) u v → order.idxOf u < order.idxOf v

theorem mem_stepIds_of_dependsOn (h : DependsOn steps u v) : v ∈ stepIds steps := by
  obtain ⟨s, hs, rfl, _⟩ := h
  exact mem_map_of_mem hs

theorem dependency_mem_stepIds (hk : KnownDependencies steps) (u v : String)
    (h : DependsOn steps u v) : u ∈ stepIds steps := by
  obtain ⟨s, hs, _, hdep⟩ := h
  exact hk s hs u hdep

theorem flatten_map_sorted_perm (rounds : List (List String)) :
    (rounds.map sorted).flatten.Perm rounds.flatten := by
  induction rounds with
  | nil => exact .nil
  | cons g rounds ih => exact (sorted_perm g).append ih

theorem isSchedule_of_peels (hu : UniqueStepIds steps) (hk : KnownDependencies steps)
    (hp : Peeling.Peels (DependsOn steps) (stepIds steps) [] rounds)
    (hcover : ∀ v ∈ stepIds steps, v ∈ rounds.flatten) :
    IsSchedule steps (rounds.map sorted) rounds.flatten := by
  have hr := dependency_mem_stepIds hk
  have hsorted := hp.map_perm sorted_perm fun _ => Iff.rfl
  have hperm : rounds.flatten.Perm (stepIds steps) :=
    (perm_ext_iff_of_nodup hp.nodup_flatten hu).mpr
      fun v => ⟨fun hv => (hp.mem_flatten hv).1, hcover v⟩
  have hflat := flatten_map_sorted_perm rounds
  have hv {u v : String} (huv : Relation.TransGen (DependsOn steps) u v) :
      v ∈ stepIds steps := by
    obtain ⟨w, _, hwv⟩ := Relation.TransGen.tail'_iff.mp huv
    exact mem_stepIds_of_dependsOn hwv
  refine ⟨hflat.trans hperm, fun i g v hi hg => hsorted.isGreatest hr hi hg, ?_, hperm, ?_⟩
  · intro u v huv i j gu gv hi hj hgu hgv
    exact hsorted.lt_of_transGen hr (fun w hw => hflat.mem_iff.mpr (hcover w hw)) huv hi hj hgu hgv
  · intro u v huv
    exact hp.idxOf_lt hr hcover huv (hv huv)

theorem build_eq (hu : UniqueStepIds steps) : ∃ rounds : List (List String),
      Peeling.Peels (DependsOn steps) (stepIds steps) [] rounds ∧ [] ∉ rounds ∧
      (init steps).build =
        if rounds.flatten.length ≠ (stepIds steps).length then
          .error ⟨(init steps).buildEdges.findCycle
            ((stepIds steps).filter fun sid => decide (sid ∉ rounds.flatten))⟩
        else .ok { (init steps).buildEdges with
          topoOrder := some rounds.flatten, groups := some (rounds.map sorted) } := by
  have he := buildEdges_spec hu
  obtain ⟨rounds, hlevels, hp, hnonempty⟩ := levels_spec he ((stepIds steps).length + 1) []
    (level_zero he) (by simp)
  refine ⟨rounds, hp, hnonempty, ?_⟩
  rw [build, computeTopoAndGroups, he.stepKeys, hlevels]
  rfl

theorem length_flatten_eq_iff (hu : UniqueStepIds steps)
    (hp : Peeling.Peels (DependsOn steps) (stepIds steps) [] rounds) :
    rounds.flatten.length = (stepIds steps).length ↔
      ∀ v ∈ stepIds steps, v ∈ rounds.flatten := by
  have hsub : rounds.flatten ⊆ stepIds steps := fun v hv => (hp.mem_flatten hv).1
  constructor
  · intro h v hv
    exact ((hp.nodup_flatten.subperm hsub).perm_of_length_le h.ge).mem_iff.mpr hv
  · intro h
    exact ((perm_ext_iff_of_nodup hp.nodup_flatten hu).mpr
      fun v => ⟨fun hv => hsub hv, h v⟩).length_eq

theorem build_spec {steps : List WorkflowStep} (hu : UniqueStepIds steps)
    (hk : KnownDependencies steps) :
    ((∃ b, (init steps).build = .ok b) ↔ Peeling.Acyclic (DependsOn steps)) ∧
      ∀ b, (init steps).build = .ok b → ∃ groups order,
        b.parallelGroups = .ok groups ∧ b.topologicalOrder = .ok order ∧
          IsSchedule steps groups order := by
  have hr := dependency_mem_stepIds hk
  obtain ⟨rounds, hp, -, hbuild⟩ := build_eq hu
  have hac : (∀ v ∈ stepIds steps, v ∈ rounds.flatten) ↔
      Peeling.Acyclic (DependsOn steps) := by
    constructor
    · exact hp.acyclic hr
    · exact fun h v hv => (hp.covers h hr v hv).resolve_left not_mem_nil
  rw [hbuild, ← hac, ← length_flatten_eq_iff hu hp]
  split_ifs with h
  · simpa using h
  · rw [not_not] at h
    refine ⟨by simp [h], fun b hb => ?_⟩
    obtain rfl := Except.ok.inj hb
    exact ⟨_, _, rfl, rfl, isSchedule_of_peels hu hk hp ((length_flatten_eq_iff hu hp).mp h)⟩

def diamond : List WorkflowStep :=
  [{ id := "join", action := .transform, dependsOn := ["left", "left", "right"] },
    { id := "left", action := .transform, dependsOn := ["start"] },
    { id := "right", action := .transform, dependsOn := ["start"] },
    { id := "start", action := .transform }]

theorem build_spec_diamond :
    UniqueStepIds diamond ∧ KnownDependencies diamond ∧
      ((∃ b, (init diamond).build = .ok b) ↔ Peeling.Acyclic (DependsOn diamond)) ∧
      ∀ b, (init diamond).build = .ok b → ∃ groups order,
        b.parallelGroups = .ok groups ∧ b.topologicalOrder = .ok order ∧
          IsSchedule diamond groups order :=
  ⟨by decide, by decide, build_spec (by decide) (by decide)⟩

end DAGBuilder

end Agent33.Workflows.Dag
