import Agent33.Library.Forest
import Agent33.Sessions.ReplayLog

/-!
# The lineage of sessions

The forest of the listed sessions is built downwards from the sessions without a parent. A
session is found exactly when its chain of parents ends, within the listing, at one of these.
-/

namespace Agent33.Sessions

open Library List

/-- A session with what its node of the lineage shows. -/
structure LinkedSession extends OperatorSession where
  sessionId : Text
  tenantId : Text
  agentName : Text
  parentSessionId : Option Text
  startedAt : ℤ
  endedAt : Option ℤ

/-- An empty id of a parent counts as none. -/
def LinkedSession.parent (s : LinkedSession) : Option Text :=
  s.parentSessionId.filter fun p => p ≠ []

/-- The sessions on disk, the latest first, under the names of their directories. -/
structure Listing where
  sessions : List LinkedSession
  nodup : (sessions.map LinkedSession.sessionId).Nodup

namespace Listing

def listSessions (l : Listing) (tenantId : Option Text) (limit : ℕ) : Listing where
  sessions := (l.sessions.filter fun s => tenantId = none ∨ tenantId = some s.tenantId).take limit
  nodup := l.nodup.sublist (((take_sublist _ _).trans filter_sublist).map _)

def links (l : Listing) : Family LinkedSession Text :=
  ⟨l.sessions, LinkedSession.sessionId, LinkedSession.parent, l.nodup⟩

def roots (l : Listing) : List LinkedSession := l.sessions.filter fun s => s.parent = none

/-- A node is given by its session and the nodes below it. -/
def buildForest (stored : Listing) (tenantId : Option Text) :
    Option (List (FamilyTree LinkedSession)) :=
  let l := stored.listSessions tenantId 10000
  l.roots.mapM l.links.subtree

theorem mapM_subtree (l : Listing) {roots : List LinkedSession} (h : roots ⊆ l.roots) :
    ∃ trees, roots.mapM l.links.subtree = some trees ∧ trees.map FamilyTree.root = roots ∧
      ∀ tree ∈ trees, l.links.Complete (fun s => s.parent = none) tree := by
  induction roots with
  | nil => exact ⟨[], rfl, rfl, nofun⟩
  | cons s rest ih =>
    obtain ⟨hs, hparent⟩ := mem_filter.mp (h mem_cons_self)
    obtain ⟨tree, htree, hcomplete, hroot⟩ := l.links.subtree_spec
      (fun s => s.parent = none) hs (of_decide_eq_true hparent)
      fun c _ hcut hnone => absurd hcut hnone
    obtain ⟨trees, htrees, hroots, hcompletes⟩ := ih fun t ht => h (mem_cons_of_mem _ ht)
    refine ⟨tree :: trees, ?_, ?_, forall_mem_cons.mpr ⟨hcomplete, hcompletes⟩⟩
    · rw [mapM_cons, htree, htrees]
      rfl
    · rw [map_cons, hroot, hroots]

/-- The forest is built, and has exactly the sessions of the listing whose chain of parents ends
in it at a session without a parent, each once and below its parent. -/
theorem buildForest_spec (stored : Listing) (tenantId : Option Text) :
    ∃ trees, stored.buildForest tenantId = some trees ∧
      (stored.listSessions tenantId 10000).links.Forest (fun s => s.parent = none) trees ∧
      ((FamilyTree.toListAll trees).map LinkedSession.sessionId).Nodup ∧
      ∀ s, s ∈ FamilyTree.toListAll trees ↔
        ∃ ids, (stored.listSessions tenantId 10000).links.Chain
          (fun s => s.parent = none) s ids := by
  obtain ⟨trees, htrees, hroots, hcompletes⟩ :=
    (stored.listSessions tenantId 10000).mapM_subtree (Subset.refl _)
  have hforest : (stored.listSessions tenantId 10000).links.Forest (fun s => s.parent = none)
    trees := ⟨hroots, hcompletes⟩
  exact ⟨trees, htrees, hforest, hforest.nodup, fun s => hforest.mem_iff⟩

/-- A fork of a session that is not listed any more. -/
def orphan : Listing where
  sessions :=
    [{ purpose := [], sessionId := ['b'], tenantId := [], agentName := [],
       parentSessionId := some ['a'], startedAt := 0, endedAt := none }]
  nodup := nodup_singleton _

theorem buildForest_orphan : orphan.buildForest none = some [] ∧
    (orphan.listSessions none 10000).sessions ≠ [] :=
  ⟨rfl, cons_ne_nil _ _⟩

end Listing

end Agent33.Sessions
