import Agent33.Library.Dict
import Agent33.Library.GraphSearch
import Mathlib.Data.String.Basic

/-!
# Migrations between the versions of a workflow

A migration is registered for a pair of versions. An upgrade applies a shortest chain of them, a
downgrade the chain that the upgrade between the same versions takes, the last step first.
-/

namespace Agent33.Workflows.Migration

open Library Library.BreadthFirst List

variable {V ε : Type}

inductive Raised (ε : Type)
  | valueError (message : String)
  | keyError (key : String × String)
  | other (error : ε)

abbrev MigrationFn (V ε : Type) := Dict String V → Except (Raised ε) (Dict String V)

structure MigrationStep (V ε : Type) where
  fromVersion : String
  toVersion : String
  upgradeFn : MigrationFn V ε
  downgradeFn : Option (MigrationFn V ε) := none

structure WorkflowMigration (V ε : Type) where
  migrations : Dict (String × String) (MigrationStep V ε)

namespace WorkflowMigration

def init : WorkflowMigration V ε := ⟨Dict.empty⟩

def register (m : WorkflowMigration V ε) (fromVersion toVersion : String)
    (upgradeFn : MigrationFn V ε) (downgradeFn : Option (MigrationFn V ε)) :
    WorkflowMigration V ε :=
  let step : MigrationStep V ε := { fromVersion, toVersion, upgradeFn, downgradeFn }
  ⟨m.migrations.set (fromVersion, toVersion) step⟩

def addNeighbor (graph : Dict String (List String)) (edge : String × String) :
    Dict String (List String) :=
  graph.set edge.1 (graph.getD edge.1 [] ++ [edge.2])

def graph (m : WorkflowMigration V ε) : Dict String (List String) :=
  m.migrations.keys.foldl addNeighbor Dict.empty

abbrev Queue := List (String × List (String × String))

def visitNeighbors (toV current : String) (path : List (String × String)) :
    List String → Queue → List String → List (String × String) ⊕ Queue × List String
  | [], queue, visited => .inr (queue, visited)
  | neighbor :: rest, queue, visited =>
    if neighbor = toV then .inl (path ++ [(current, neighbor)])
    else if neighbor ∉ visited then
      visitNeighbors toV current path rest (queue ++ [(neighbor, path ++ [(current, neighbor)])])
        (neighbor :: visited)
    else visitNeighbors toV current path rest queue visited

def search (m : WorkflowMigration V ε) (toV : String) :
    ℕ → Queue → List String → Option (Option (List (String × String)))
  | _, [], _ => some none
  | 0, _ :: _, _ => none
  | fuel + 1, (current, path) :: queue, visited =>
    match visitNeighbors toV current path (m.graph.getD current []) queue visited with
    | .inl path => some (some path)
    | .inr (queue, visited) => m.search toV fuel queue visited

variable (m : WorkflowMigration V ε) (fromV toV : String)

def searchFrom : Option (Option (List (String × String))) :=
  m.search toV (m.migrations.keys.length + 1) [(fromV, [])] [fromV]

def noPath (fromV toV : String) : Raised ε :=
  .valueError ("No migration path from " ++ fromV ++ " to " ++ toV)

/-- `_find_path` -/
def findPath : Except (Raised ε) (List (String × String)) :=
  if fromV = toV then .ok []
  else
    match m.searchFrom fromV toV with
    | some (some path) => .ok path
    | _ => .error (noPath fromV toV)

variable (text : String → V)

def withVersion (definition : Dict String V) (version : String) : Dict String V :=
  definition.set "version" (text version)

def upgradeStep (m : WorkflowMigration V ε) (result : Dict String V) (edge : String × String) :
    Except (Raised ε) (Dict String V) :=
  match m.migrations.get? edge with
  | none => .error (.keyError edge)
  | some step => do
    let result ← step.upgradeFn result
    return withVersion text result edge.2

def upgrade (m : WorkflowMigration V ε) (definition : Dict String V)
    (fromVersion toVersion : String) : Except (Raised ε) (Dict String V) := do
  let path ← m.findPath fromVersion toVersion
  path.foldlM (m.upgradeStep text) definition

def downgradeStep (m : WorkflowMigration V ε) (result : Dict String V)
    (edge : String × String) : Except (Raised ε) (Dict String V) :=
  match m.migrations.get? edge with
  | none => .error (.keyError edge)
  | some step =>
    match step.downgradeFn with
    | none =>
      .error (.valueError ("No downgrade function for " ++ edge.1 ++ " -> " ++ edge.2))
    | some downgradeFn => do
      let result ← downgradeFn result
      return withVersion text result edge.1

def downgrade (m : WorkflowMigration V ε) (definition : Dict String V)
    (fromVersion toVersion : String) : Except (Raised ε) (Dict String V) := do
  let path ← m.findPath toVersion fromVersion
  path.reverse.foldlM (m.downgradeStep text) definition

def validateMigration (m : WorkflowMigration V ε) (fromVersion toVersion : String) : Bool :=
  match m.findPath fromVersion toVersion with
  | .ok _ => true
  | .error _ => false

variable (m : WorkflowMigration V ε) (u v : String)

def Registered : Prop := (u, v) ∈ m.migrations.keys

theorem getD_foldl_addNeighbor (edges : List (String × String))
    (graph : Dict String (List String)) (u v : String) :
    v ∈ (edges.foldl addNeighbor graph).getD u [] ↔ v ∈ graph.getD u [] ∨ (u, v) ∈ edges := by
  induction edges generalizing graph with
  | nil => simp
  | cons edge edges ih =>
    rw [foldl_cons, ih, addNeighbor, Dict.getD_set, mem_cons]
    by_cases h : u = edge.1
    · subst h
      rw [if_pos rfl, mem_append, mem_singleton, or_assoc, Prod.ext_iff]
      simp
    · rw [if_neg h, Prod.ext_iff]
      simp [h]

theorem mem_graph : v ∈ m.graph.getD u [] ↔ m.Registered u v := by
  rw [graph, getD_foldl_addNeighbor, Dict.getD_empty]
  simp [Registered]

theorem mem_targets (h : m.Registered u v) : v ∈ m.migrations.keys.map Prod.snd :=
  mem_map_of_mem (f := Prod.snd) h

def Visited (queue : Queue)
    (visited : List String) : List (String × String) ⊕ Queue × List String → Prop
  | .inl path => Shortest m.Registered fromV path toV
  | .inr (queue', visited') => Frontier m.Registered fromV queue' visited' ∧ toV ∉ visited' ∧
      queue'.length + visited.length = queue.length + visited'.length

variable {path : List (String × String)}

theorem visitNeighbors_spec (m : WorkflowMigration V ε) {fromV toV current : String}
    {neighbors : List String}
    (hfrontier : Frontier m.Registered fromV ((current, path) :: queue) visited)
    (hto : toV ∉ visited) (hneighbors : ∀ w ∈ neighbors, m.Registered current w)
    (hrest : ∀ w, m.Registered current w → w ∈ neighbors ∨ w ∈ visited) :
    m.Visited fromV toV queue visited
      (visitNeighbors toV current path neighbors queue visited) := by
  induction neighbors generalizing queue visited with
  | nil =>
    refine ⟨hfrontier.close ?_, hto, rfl⟩
    intro w hw
    exact (hrest w hw).resolve_left not_mem_nil
  | cons neighbor rest ih =>
    have hreg := hneighbors neighbor mem_cons_self
    have hneighbors' : ∀ w ∈ rest, m.Registered current w :=
      fun w hw => hneighbors w (mem_cons_of_mem _ hw)
    rw [visitNeighbors]
    split_ifs with htarget hseen
    · subst htarget
      exact hfrontier.shortest_concat hreg hto
    · refine ih hfrontier hto hneighbors' ?_
      intro w hw
      rcases hrest w hw with hmem | hmem
      · rcases mem_cons.mp hmem with rfl | hmem
        · exact .inr hseen
        · exact .inl hmem
      · exact .inr hmem
    · have hstep := ih (hfrontier.discover hreg hseen)
        (by simp [Ne.symm htarget, hto]) hneighbors' (by
          intro w hw
          rcases hrest w hw with hmem | hmem
          · rcases mem_cons.mp hmem with rfl | hmem
            · exact .inr mem_cons_self
            · exact .inl hmem
          · exact .inr (mem_cons_of_mem _ hmem))
      rcases hvisit : visitNeighbors toV current path rest
        (queue ++ [(neighbor, path ++ [(current, neighbor)])]) (neighbor :: visited) with
        found | ⟨queue', visited'⟩
      · rw [hvisit] at hstep
        exact hstep
      · rw [hvisit] at hstep
        obtain ⟨h₁, h₂, h₃⟩ := hstep
        refine ⟨h₁, h₂, ?_⟩
        rw [length_append, length_singleton, length_cons] at h₃
        omega

def Answer :
    Option (List (String × String)) → Prop
  | some path => Shortest m.Registered fromV path toV
  | none => ∀ path, ¬ Links m.Registered fromV path toV

theorem search_spec (m : WorkflowMigration V ε) {fromV toV : String} (fuel : ℕ)
    (hfrontier : Frontier m.Registered fromV queue visited) (hto : toV ∉ visited)
    (hfuel : m.migrations.keys.length + 1 + queue.length ≤ fuel + visited.length) :
    ∃ result, m.search toV fuel queue visited = some result ∧ m.Answer fromV toV result := by
  induction fuel generalizing queue visited with
  | zero =>
    have hle := hfrontier.length_visited_le m.mem_targets
    rw [length_map] at hle
    have hempty : queue = [] := length_eq_zero_iff.mp (by omega)
    subst hempty
    exact ⟨none, rfl, fun path hpath => hto (hfrontier.mem_of_links hpath)⟩
  | succ fuel ih =>
    rcases queue with _ | ⟨⟨current, path⟩, queue⟩
    · exact ⟨none, rfl, fun path hpath => hto (hfrontier.mem_of_links hpath)⟩
    · have hstep := m.visitNeighbors_spec hfrontier hto
        (fun w hw => (m.mem_graph current w).mp hw)
        (fun w hw => .inl ((m.mem_graph current w).mpr hw))
      rw [search]
      rcases hvisit : visitNeighbors toV current path (m.graph.getD current []) queue visited with
        found | ⟨queue', visited'⟩
      · rw [hvisit] at hstep
        exact ⟨some found, rfl, hstep⟩
      · rw [hvisit] at hstep
        obtain ⟨hfrontier', hto', hlength⟩ := hstep
        apply ih hfrontier' hto'
        rw [length_cons] at hfuel
        omega

theorem searchFrom_spec (m : WorkflowMigration V ε) {fromV toV : String} (hne : fromV ≠ toV) :
    ∃ result, m.searchFrom fromV toV = some result ∧ m.Answer fromV toV result :=
  m.search_spec _ (.init _ fromV) (by simpa using hne.symm) le_rfl

structure FindsPath (m : WorkflowMigration V ε) (fromV toV : String) : Prop where
  ends : fromV ≠ toV → ∃ result, m.searchFrom fromV toV = some result
  shortest : ∀ path, m.findPath fromV toV = .ok path → Shortest m.Registered fromV path toV
  finds : ∀ path, Links m.Registered fromV path toV → ∃ found, m.findPath fromV toV = .ok found
  raises : (∀ path, ¬ Links m.Registered fromV path toV) →
    m.findPath fromV toV = .error (noPath fromV toV)

theorem findsPath : m.FindsPath fromV toV := by
  by_cases heq : fromV = toV
  · subst heq
    have hempty : m.findPath fromV fromV = .ok [] := by rw [findPath, if_pos rfl]
    refine ⟨fun hne => absurd rfl hne, ?_, fun _ _ => ⟨[], hempty⟩, fun hnone => ?_⟩
    · intro path hpath
      rw [hempty] at hpath
      cases hpath
      exact ⟨rfl, fun _ _ => Nat.zero_le _⟩
    · exact absurd rfl (hnone [])
  · obtain ⟨result, hsearch, hanswer⟩ := m.searchFrom_spec heq
    refine ⟨fun _ => ⟨result, hsearch⟩, ?_, ?_, ?_⟩
    all_goals rw [findPath, if_neg heq, hsearch]
    · intro path hpath
      cases result with
      | none => cases hpath
      | some found =>
        cases hpath
        exact hanswer
    · intro path hlinks
      cases result with
      | none => exact absurd hlinks (hanswer path)
      | some found => exact ⟨found, rfl⟩
    · intro hnone
      cases result with
      | none => rfl
      | some found => exact absurd hanswer.links (hnone found)

theorem validateMigration_iff :
    m.validateMigration fromV toV = true ↔ ∃ path, Links m.Registered fromV path toV := by
  have hpath := m.findsPath fromV toV
  rw [validateMigration]
  constructor
  · intro h
    cases hfound : m.findPath fromV toV with
    | ok path => exact ⟨path, (hpath.shortest path hfound).links⟩
    | error e => simp [hfound] at h
  · rintro ⟨path, hlinks⟩
    obtain ⟨found, hfound⟩ := hpath.finds path hlinks
    rw [hfound]

variable (m : WorkflowMigration V ε) (text : String → V)

theorem upgradeStep_eq_ok_iff
    {d u : Dict String V} {edge : String × String} :
    m.upgradeStep text d edge = .ok u ↔ ∃ step u', m.migrations.get? edge = some step ∧
      step.upgradeFn d = .ok u' ∧ withVersion text u' edge.2 = u := by
  rw [upgradeStep]
  cases m.migrations.get? edge with
  | none => simp
  | some step =>
    cases hup : step.upgradeFn d with
    | error e => simp [hup, bind, Except.bind]
    | ok u' => simp [hup, bind, Except.bind, pure, Except.pure]

/-- The downgrade of a migration undoes its upgrade up to the version field. Which definitions
are equal is left open: dictionaries may be compared with or without the order of their keys. -/
def Undoes (text : String → V) (same : Dict String V → Dict String V → Prop)
    (edge : String × String) (step : MigrationStep V ε) : Prop :=
  ∀ d u x, d.get? "version" = some (text edge.1) → step.upgradeFn d = .ok u →
    same x (withVersion text u edge.2) → ∃ down d', step.downgradeFn = some down ∧
      down x = .ok d' ∧ same (withVersion text d' edge.1) d

theorem foldlM_downgradeStep (m : WorkflowMigration V ε) {text : String → V}
    {same : Dict String V → Dict String V → Prop}
    (hundo : ∀ edge step, m.migrations.get? edge = some step → Undoes text same edge step)
    {fromV toV : String} (hlinks : Links m.Registered fromV path toV) {d u x : Dict String V}
    (hd : d.get? "version" = some (text fromV)) (hup : path.foldlM (m.upgradeStep text) d = .ok u)
    (hx : same x u) : ∃ d', path.reverse.foldlM (m.downgradeStep text) x = .ok d' ∧ same d' d := by
  induction path generalizing fromV d with
  | nil =>
    obtain rfl : d = u := Except.ok.inj hup
    exact ⟨x, rfl, hx⟩
  | cons edge rest ih =>
    obtain ⟨rfl, -, hrest⟩ := hlinks
    rw [foldlM_cons] at hup
    cases hstep : m.upgradeStep text d edge with
    | error e => rw [hstep] at hup; cases hup
    | ok d₁ =>
      rw [hstep] at hup
      obtain ⟨step, u', hget, hupgrade, rfl⟩ := (m.upgradeStep_eq_ok_iff text).mp hstep
      obtain ⟨x₁, hdown, hsame⟩ := ih hrest (by rw [withVersion, Dict.get?_set, if_pos rfl]) hup
      obtain ⟨down, d', hfn, hd', hback⟩ := hundo edge step hget d u' x₁ hd hupgrade hsame
      refine ⟨withVersion text d' edge.1, ?_, hback⟩
      rw [reverse_cons, foldlM_append, hdown]
      simp [bind, Except.bind, pure, Except.pure, downgradeStep, hget, hfn, hd']

theorem foldlM_upgradeStep_returns
    (htotal : ∀ edge step, m.migrations.get? edge = some step → ∀ d, ∃ u, step.upgradeFn d = .ok u)
    {fromV toV : String} (hlinks : Links m.Registered fromV path toV) (d : Dict String V) :
    ∃ u, path.foldlM (m.upgradeStep text) d = .ok u := by
  induction path generalizing fromV d with
  | nil => exact ⟨d, rfl⟩
  | cons edge rest ih =>
    obtain ⟨rfl, hreg, hrest⟩ := hlinks
    have hget : ∃ step, m.migrations.get? edge = some step := by
      rw [← Option.isSome_iff_exists, Option.isSome_iff_ne_none, Ne, Dict.get?_eq_none]
      exact not_not.mpr hreg
    obtain ⟨step, hget⟩ := hget
    obtain ⟨u, hu⟩ := htotal edge step hget d
    obtain ⟨v, hv⟩ := ih hrest (withVersion text u edge.2)
    refine ⟨v, ?_⟩
    rw [foldlM_cons, (m.upgradeStep_eq_ok_iff text).mpr ⟨step, u, hget, hu, rfl⟩]
    exact hv

/-- What upgrades and downgrades between two versions do: they take the path of the search or
raise its error, and a downgrade takes back what the upgrade has done. -/
structure Migrates (m : WorkflowMigration V ε) (text : String → V) (fromV toV : String) :
    Prop where
  path : m.FindsPath fromV toV
  upgrade_raises : (∀ path, ¬ Links m.Registered fromV path toV) → ∀ d,
    m.upgrade text d fromV toV = .error (noPath fromV toV)
  downgrade_raises : (∀ path, ¬ Links m.Registered fromV path toV) → ∀ d,
    m.downgrade text d toV fromV = .error (noPath fromV toV)
  returns : (∀ edge step, m.migrations.get? edge = some step → ∀ d, ∃ u,
      step.upgradeFn d = .ok u) → (∃ path, Links m.Registered fromV path toV) → ∀ d,
    ∃ u, m.upgrade text d fromV toV = .ok u
  roundTrip : ∀ same : Dict String V → Dict String V → Prop, (∀ d, same d d) →
    (∀ edge step, m.migrations.get? edge = some step → Undoes text same edge step) →
    ∀ d u, d.get? "version" = some (text fromV) → m.upgrade text d fromV toV = .ok u →
      ∃ d', m.downgrade text u toV fromV = .ok d' ∧ same d' d

theorem migrates (fromV toV : String) : m.Migrates text fromV toV := by
  have hpath := m.findsPath fromV toV
  refine ⟨hpath, ?_, ?_, ?_, ?_⟩
  · intro hnone d
    rw [upgrade, hpath.raises hnone]
    rfl
  · intro hnone d
    rw [downgrade, hpath.raises hnone]
    rfl
  · rintro htotal ⟨path, hlinks⟩ d
    obtain ⟨found, hfound⟩ := hpath.finds path hlinks
    rw [upgrade, hfound]
    exact m.foldlM_upgradeStep_returns text htotal (hpath.shortest found hfound).links d
  · intro same hrefl hundo d u hd hup
    rw [upgrade] at hup
    rw [downgrade]
    cases hfound : m.findPath fromV toV with
    | error e => rw [hfound] at hup; cases hup
    | ok path =>
      rw [hfound] at hup
      exact m.foldlM_downgradeStep hundo (hpath.shortest path hfound).links hd hup (hrefl u)

def stampStep (edge : String × String) : MigrationStep String Empty :=
  { fromVersion := edge.1, toVersion := edge.2, upgradeFn := .ok, downgradeFn := some .ok }

theorem undoes_stampStep (edge : String × String) : Undoes id Eq edge (stampStep edge) := by
  rintro d _ x hd ⟨⟩ rfl
  refine ⟨.ok, _, rfl, rfl, ?_⟩
  rw [withVersion, withVersion, Dict.set_set]
  exact Dict.set_eq_self hd

def diamond : WorkflowMigration String Empty :=
  ⟨Dict.ofList ([("1", "2"), ("1", "3"), ("3", "4"), ("2", "4")].map fun edge =>
    (edge, stampStep edge))⟩

theorem migrates_diamond : ∃ d', diamond.downgrade id (Dict.ofList [("version", "4")]) "4" "1" =
    .ok d' ∧ d' = Dict.ofList [("version", "1")] := by
  refine (migrates diamond id "1" "4").roundTrip Eq (fun _ => rfl) ?_ _ _ rfl rfl
  intro edge step hget
  obtain ⟨edge', -, heq⟩ := mem_map.mp (Dict.mem_of_get?_ofList hget)
  cases heq
  exact undoes_stampStep edge

end WorkflowMigration

end Agent33.Workflows.Migration
