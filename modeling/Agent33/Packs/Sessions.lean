import Agent33.Packs.Closure
import Mathlib.Data.Finset.Sort
import Mathlib.Data.Char

/-!
# The packs of a session

The registry keeps the packs that a session has enabled in three maps: the packs, where each
was enabled from, and a number for when. A session stands for the list of its packs with
their sources, in the order in which they were activated last; the maps describe that list
as long as no pack is uninstalled while a session has it enabled.
-/

namespace Agent33.Packs

open Library List PackRegistry List.Pairwise

namespace Enablement

variable (e : Enablement) (sid : Text)

def names : Finset Text := e.sessionEnabled.getD sid ∅

def sources : Dict Text Text := e.sessionPackSources.getD sid .empty

def sequence : Dict Text ℕ := e.sessionPackSequence.getD sid .empty

/-- The key of `sorted`; a pack without a source counts as explicit. -/
def orderKey (name : Text) : ℕ ×ₗ ℕ ×ₗ Text :=
  toLex (if (e.sources sid).getD name explicit = shared then 0 else 1,
    toLex ((e.sequence sid).getD name 0, name))

end Enablement

/-- `_session_pack_order` of the treatment, with `ppack_v3_enabled`. -/
def PackRegistry.treatmentOrder (s : PackRegistry) (sid : Text) : List Text :=
  (((s.enablement.names sid).filter fun name => s.installed.get? name ≠ none).image
    (s.enablement.orderKey sid)).sort.map fun key => (ofLex (ofLex key).2).2

/-- The enabled packs of a session with their sources, the one activated last at the end. -/
abbrev Activations := List (Text × Text)

namespace Activations

def without (l : Activations) (name : Text) : Activations := l.filter fun p => p.1 ≠ name

/-- A pack that is enabled anew, or becomes explicit, is the last one. -/
def activate (l : Activations) (name source : Text) : Activations :=
  if (name, source) ∈ l ∨ source = Enablement.shared ∧ (name, Enablement.explicit) ∈ l then l
  else l.without name ++ [(name, source)]

def track (l : Activations) (sid : Text) (failed : Bool) : PackOp → Activations
  | .enableForSession name other source =>
    if failed = false ∧ other = sid then l.activate name source else l
  | .disableForSession name other => if failed = false ∧ other = sid then l.without name else l
  | .uninstall name => if failed = false then l.without name else l
  | _ => l

theorem track_of_reloads {l : Activations} {sid : Text} {failed : Bool}
    (h : op.reloads = true) : l.track sid failed op = l := by
  cases op with
  | install | upgrade | downgrade | upgradeFromSource | archiveCurrent | rollback => rfl
  | uninstall | enable | disable | applyEnablementMatrix | enableForSession | disableForSession =>
    exact absurd h Bool.false_ne_true

/-- The shared packs before the explicit ones. -/
def treatment (l : Activations) : List Text :=
  (l.filter fun p => p.2 = Enablement.shared).map Prod.fst ++
    (l.filter fun p => p.2 ≠ Enablement.shared).map Prod.fst

end Activations

/-- The system, and what has been activated in each session. -/
structure Sessions where
  system : PackSystem
  activations : Text → Activations

def Sessions.next (t : Sessions) (step : PackStep) : Sessions where
  system := t.system.next step
  activations sid := (t.activations sid).track sid (Failed (t.system.outcome step)) step.op

/-- The three maps have the same packs for each session, all of them installed, and the
treatment lists them once each, in the order of the activations. -/
structure Aligned (t : Sessions) (sid : Text) : Prop where
  sources : ∀ name, name ∈ t.system.registry.enablement.names sid ↔
    name ∈ (t.system.registry.enablement.sources sid).keys
  sequence : ∀ name, name ∈ t.system.registry.enablement.names sid ↔
    name ∈ (t.system.registry.enablement.sequence sid).keys
  installed : ∀ name, t.system.registry.installed.get? name = none →
    name ∉ t.system.registry.enablement.names sid
  nodup : (t.system.registry.treatmentOrder sid).Nodup
  mem_order : ∀ name, name ∈ t.system.registry.treatmentOrder sid ↔
    name ∈ t.system.registry.enablement.names sid
  order : t.system.registry.treatmentOrder sid = (t.activations sid).treatment

/-- No session has a pack enabled that is uninstalled. -/
def Spares (t : Sessions) (step : PackStep) : Prop :=
  ∀ name, step.op = .uninstall name → Failed (t.system.outcome step) = false →
    ∀ sid, name ∉ t.system.registry.enablement.names sid

/-- What the maps of a session are, given its activations. -/
structure Tracks (s : PackRegistry) (sid : Text) (l : Activations) : Prop where
  nodup : (l.map Prod.fst).Nodup
  source : ∀ p ∈ l, p.2 = Enablement.explicit ∨ p.2 = Enablement.shared
  names : s.enablement.names sid = (l.map Prod.fst).toFinset
  recorded : ∀ name source, (s.enablement.sources sid).get? name = some source ↔ (name, source) ∈ l
  numbered : ∀ name, (s.enablement.sequence sid).get? name ≠ none ↔ name ∈ l.map Prod.fst
  ordered : l.Pairwise fun p q =>
    (s.enablement.sequence sid).getD p.1 0 < (s.enablement.sequence sid).getD q.1 0
  counted : ∀ name, (s.enablement.sequence sid).getD name 0 ≤
    s.enablement.sessionActivationCounter.getD sid 0
  installed : ∀ p ∈ l, s.installed.get? p.1 ≠ none

namespace Tracks

variable {l : Activations}

section

variable (h : Tracks s sid l)
include h

theorem mem_names (name : Text) : name ∈ s.enablement.names sid ↔ ∃ source, (name, source) ∈ l := by
  simp [h.names]

theorem sources_keys (name : Text) :
    name ∈ s.enablement.names sid ↔ name ∈ (s.enablement.sources sid).keys := by
  rw [h.mem_names, ← not_iff_not, ← Dict.get?_eq_none, Option.eq_none_iff_forall_ne_some]
  simp only [ne_eq, h.recorded, not_exists]

theorem sequence_keys (name : Text) :
    name ∈ s.enablement.names sid ↔ name ∈ (s.enablement.sequence sid).keys := by
  rw [h.names, mem_toFinset, ← h.numbered, ← not_iff_not, ← Dict.get?_eq_none, not_not]

theorem orderKey (hp : p ∈ l) :
    s.enablement.orderKey sid p.1 = toLex (if p.2 = Enablement.shared then 0 else 1,
      toLex ((s.enablement.sequence sid).getD p.1 0, p.1)) := by
  have hsource : (s.enablement.sources sid).getD p.1 Enablement.explicit = p.2 := by
    rw [Dict.getD, (h.recorded p.1 p.2).mpr hp]
    rfl
  rw [Enablement.orderKey, hsource]

theorem pairwise_orderKey :
    ((l.filter fun p => p.2 = Enablement.shared) ++
      l.filter fun p => p.2 ≠ Enablement.shared).Pairwise fun p q =>
        s.enablement.orderKey sid p.1 < s.enablement.orderKey sid q.1 := by
  refine pairwise_append.mpr ⟨?_, ?_, ?_⟩
  · refine (and_mem.mp (h.ordered.filter _)).imp fun ⟨hp, hq, hlt⟩ => ?_
    rw [h.orderKey (mem_of_mem_filter hp), h.orderKey (mem_of_mem_filter hq),
      if_pos (by simpa using (List.mem_filter.mp hp).2),
      if_pos (by simpa using (List.mem_filter.mp hq).2)]
    exact Prod.Lex.toLex_lt_toLex.mpr (.inr ⟨rfl, Prod.Lex.toLex_lt_toLex.mpr (.inl hlt)⟩)
  · refine (and_mem.mp (h.ordered.filter _)).imp fun ⟨hp, hq, hlt⟩ => ?_
    rw [h.orderKey (mem_of_mem_filter hp), h.orderKey (mem_of_mem_filter hq),
      if_neg (by simpa using (List.mem_filter.mp hp).2),
      if_neg (by simpa using (List.mem_filter.mp hq).2)]
    exact Prod.Lex.toLex_lt_toLex.mpr (.inr ⟨rfl, Prod.Lex.toLex_lt_toLex.mpr (.inl hlt)⟩)
  · intro p hp q hq
    rw [h.orderKey (mem_of_mem_filter hp), h.orderKey (mem_of_mem_filter hq),
      if_pos (by simpa using (List.mem_filter.mp hp).2),
      if_neg (by simpa using (List.mem_filter.mp hq).2)]
    exact Prod.Lex.toLex_lt_toLex.mpr (.inl Nat.zero_lt_one)

theorem treatmentOrder_eq : s.treatmentOrder sid = l.treatment := by
  have hpairwise := pairwise_map.mpr h.pairwise_orderKey
  have hperm : ((l.filter fun p => p.2 = Enablement.shared) ++
      l.filter fun p => p.2 ≠ Enablement.shared).Perm l := by
    simpa using filter_append_perm (fun p : Text × Text => p.2 = Enablement.shared) l
  have hnames : ((s.enablement.names sid).filter fun name => s.installed.get? name ≠ none).image
      (s.enablement.orderKey sid) = (((l.filter fun p => p.2 = Enablement.shared) ++
        l.filter fun p => p.2 ≠ Enablement.shared).map
          fun p => s.enablement.orderKey sid p.1).toFinset := by
    ext key
    simp only [Finset.mem_image, Finset.mem_filter, mem_toFinset, mem_map,
      hperm.mem_iff, h.mem_names]
    constructor
    · rintro ⟨name, ⟨⟨source, hp⟩, -⟩, rfl⟩
      exact ⟨(name, source), hp, rfl⟩
    · rintro ⟨p, hp, rfl⟩
      exact ⟨p.1, ⟨⟨p.2, hp⟩, h.installed p hp⟩, rfl⟩
  have hsort := (toFinset_sort (· ≤ ·) (hpairwise.imp ne_of_lt)).mpr (hpairwise.imp le_of_lt)
  rw [treatmentOrder, hnames, hsort, map_map, Activations.treatment,
    ← map_append]
  rfl

end

theorem aligned (h : Tracks t.system.registry sid (t.activations sid)) : Aligned t sid := by
  have horder := h.treatmentOrder_eq
  have hmem (name : Text) : name ∈ t.system.registry.treatmentOrder sid ↔
      name ∈ t.system.registry.enablement.names sid := by
    rw [treatmentOrder, mem_map, h.mem_names]
    simp only [Finset.mem_sort, Finset.mem_image, Finset.mem_filter, h.mem_names]
    constructor
    · rintro ⟨_, ⟨other, hother, rfl⟩, rfl⟩
      exact hother.1
    · rintro ⟨source, hp⟩
      exact ⟨_, ⟨name, ⟨⟨source, hp⟩, h.installed _ hp⟩, rfl⟩, rfl⟩
  refine ⟨h.sources_keys, h.sequence_keys, fun name hnone hname => ?_, ?_, hmem, horder⟩
  · obtain ⟨source, hp⟩ := (h.mem_names name).mp hname
    exact h.installed _ hp hnone
  · rw [horder, Activations.treatment, ← map_append]
    refine List.Nodup.of_map (fun name => t.system.registry.enablement.orderKey sid name) ?_
    rw [map_map]
    exact (pairwise_map.mpr h.pairwise_orderKey).imp ne_of_lt

end Tracks

/-- What another operation leaves of a session. -/
structure Spared (s r : PackRegistry) (sid : Text) : Prop where
  names : r.enablement.names sid = s.enablement.names sid
  sources : r.enablement.sources sid = s.enablement.sources sid
  sequence : r.enablement.sequence sid = s.enablement.sequence sid
  counter : r.enablement.sessionActivationCounter.getD sid 0 =
    s.enablement.sessionActivationCounter.getD sid 0
  installed : ∀ name ∈ s.enablement.names sid, s.installed.get? name ≠ none →
    r.installed.get? name ≠ none

variable {s r : PackRegistry}

theorem get?_put_ne_none {name other : Text} (pack : InstalledPack)
    (h : s.installed.get? other ≠ none) : (s.put name pack).installed.get? other ≠ none := by
  rw [put, Dict.get?_set]
  split_ifs
  · exact Option.some_ne_none _
  · exact h

theorem PackRegistry.Loads.spared
    (h : Loads w s path purpose r failed) (sid : Text) : Spared s r sid := by
  cases h with
  | unread | absent | interrupted | already | unmet | mismatch | incompatible =>
    exact ⟨rfl, rfl, rfl, rfl, fun _ _ => id⟩
  | installed | replaced => exact ⟨rfl, rfl, rfl, rfl, fun _ _ => get?_put_ne_none _⟩

theorem PackSystem.Reload.spared {s : PackSystem} {w : Surroundings} {op : PackOp}
    (h : s.Reload w op r failed) (sid : Text) : Spared s.registry r sid := by
  cases h with
  | refused | archived => exact ⟨rfl, rfl, rfl, rfl, fun _ _ => id⟩
  | loads _ h => exact h.spared sid

theorem spared_ifInstalled {name sid : Text} {r : PackRegistry × Except PackError Unit}
    (h : Spared s r.1 sid) : Spared s (s.ifInstalled name r).1 sid := by
  unfold ifInstalled
  split_ifs
  · exact ⟨rfl, rfl, rfl, rfl, fun _ _ => id⟩
  · exact h

theorem getD_dropFrom {ν : Type} (d : Dict Text (Dict Text ν)) (sessionId packName sid : Text) :
    (Enablement.dropFrom d sessionId packName).getD sid .empty =
      if sid = sessionId then (d.getD sid .empty).erase packName else d.getD sid .empty := by
  rw [Enablement.dropFrom, Dict.getD, Dict.get?_filterMapValues, Dict.getD]
  cases d.get? sid <;> split_ifs <;> rfl

theorem spared_enableForSession {name other source sid : Text} (hother : sid ≠ other) :
    Spared s { s with enablement := s.enablement.enableForSession name other source } sid := by
  refine ⟨?_, ?_, ?_, ?_, fun _ _ => id⟩ <;>
    simp only [Enablement.enableForSession, Enablement.recordSessionPackActivation,
      Enablement.names, Enablement.sources, Enablement.sequence] <;>
    split_ifs <;> simp [hother]

theorem spared_disableForSession {name other sid : Text} (hother : sid ≠ other) :
    Spared s { s with enablement := s.enablement.disableForSession name other } sid := by
  have hdisable : ∀ e, e = s.enablement.disableForSession name other →
      Spared s { s with enablement := e } sid := by
    intro e he
    rw [Enablement.disableForSession] at he
    split at he
    · subst he
      exact ⟨rfl, rfl, rfl, rfl, fun _ _ => id⟩
    · split_ifs at he <;> subst he <;> refine ⟨?_, ?_, ?_, ?_, fun _ _ => id⟩ <;>
        simp [Enablement.names, Enablement.sources, Enablement.sequence,
          Enablement.clearSessionState, getD_dropFrom, hother]
  exact hdisable _ rfl

namespace Tracks

variable {s r : PackRegistry} {l : Activations}

theorem spared (h : Tracks s sid l) (hr : Spared s r sid) : Tracks r sid l where
  nodup := h.nodup
  source := h.source
  names := by rw [hr.names, h.names]
  recorded := by rw [hr.sources]; exact h.recorded
  numbered := by rw [hr.sequence]; exact h.numbered
  ordered := by rw [hr.sequence]; exact h.ordered
  counted := by rw [hr.sequence, hr.counter]; exact h.counted
  installed p hp := hr.installed p.1 ((h.mem_names p.1).mpr ⟨p.2, hp⟩) (h.installed p hp)

theorem without_of_notMem (h : Tracks s sid l)
    (hname : name ∉ s.enablement.names sid) : l.without name = l := by
  refine filter_eq_self.mpr fun p hp => decide_eq_true ?_
  rintro rfl
  exact hname ((h.mem_names p.1).mpr ⟨p.2, hp⟩)

theorem mem_without (name : Text) (p : Text × Text) : p ∈ l.without name ↔ p ∈ l ∧ p.1 ≠ name := by
  rw [Activations.without, List.mem_filter, decide_eq_true_iff]

theorem mem_map_without (name other : Text) :
    other ∈ (l.without name).map Prod.fst ↔ other ∈ l.map Prod.fst ∧ other ≠ name := by
  simp only [mem_map, mem_without]
  constructor
  · rintro ⟨p, ⟨hp, hne⟩, rfl⟩
    exact ⟨⟨p, hp, rfl⟩, hne⟩
  · rintro ⟨⟨p, hp, rfl⟩, hne⟩
    exact ⟨p, ⟨hp, hne⟩, rfl⟩

theorem enabled (h : Tracks s sid l) {name source : Text}
    (hsource : source = Enablement.explicit ∨ source = Enablement.shared)
    (hinstalled : s.installed.get? name ≠ none) :
    Tracks { s with enablement := s.enablement.enableForSession name sid source } sid
      (l.activate name source) := by
  have hexisting (other : Text) : ((s.enablement.sessionPackSources.getD sid .empty).get? name =
      some other) ↔ (name, other) ∈ l := h.recorded name other
  have hnames : (s.enablement.enableForSession name sid source).names sid =
      insert name (s.enablement.names sid) := by
    simp only [Enablement.enableForSession, Enablement.recordSessionPackActivation,
      Enablement.names]
    split_ifs <;> simp
  by_cases hkept : (name, source) ∈ l ∨
      source = Enablement.shared ∧ (name, Enablement.explicit) ∈ l
  · have hmem : name ∈ s.enablement.names sid := by
      rw [h.mem_names]
      exact hkept.elim (fun hp => ⟨_, hp⟩) fun hp => ⟨_, hp.2⟩
    rw [Activations.activate, if_pos hkept]
    have hsame : (name, Enablement.explicit) ∈ l ∧ source = Enablement.shared ∨
        (name, source) ∈ l := by tauto
    refine h.spared ⟨hnames.trans (Finset.insert_eq_of_mem hmem), ?_, ?_, ?_, fun _ _ => id⟩ <;>
      simp [Enablement.enableForSession, Enablement.recordSessionPackActivation,
        Enablement.sources, Enablement.sequence, hexisting, hsame]
  · have hstates : (s.enablement.enableForSession name sid source).sources sid =
          (s.enablement.sources sid).set name source ∧
        (s.enablement.enableForSession name sid source).sequence sid =
          (s.enablement.sequence sid).set name
            (s.enablement.sessionActivationCounter.getD sid 0 + 1) ∧
        (s.enablement.enableForSession name sid source).sessionActivationCounter.getD sid 0 =
          s.enablement.sessionActivationCounter.getD sid 0 + 1 := by
      simp only [Enablement.enableForSession, Enablement.recordSessionPackActivation,
        Enablement.sources, Enablement.sequence, hexisting]
      rw [if_neg (by tauto)]
      simp
    obtain ⟨hsources, hsequence, hcounter⟩ := hstates
    have hother {p : Text × Text} (hp : p ∈ l.without name) : p.1 ≠ name :=
      ((mem_without name p).mp hp).2
    rw [Activations.activate, if_neg hkept]
    refine ⟨?_, ?_, ?_, ?_, ?_, ?_, ?_, ?_⟩
    · rw [map_append, nodup_append]
      refine ⟨h.nodup.sublist (filter_sublist.map _), nodup_singleton _, ?_⟩
      rintro a ha b hb rfl
      exact ((mem_map_without name a).mp ha).2 (mem_singleton.mp hb)
    · refine forall_mem_append.mpr ⟨fun p hp => h.source p ((mem_without name p).mp hp).1, ?_⟩
      exact forall_mem_singleton.mpr hsource
    · rw [hnames, h.names]
      ext other
      simp only [Finset.mem_insert, mem_toFinset, map_append, mem_append,
        mem_map_without, map_cons, map_nil, mem_singleton]
      tauto
    · intro other source'
      rw [hsources, Dict.get?_set, mem_append, mem_without, mem_singleton]
      split_ifs with heq
      · simp [heq, eq_comm]
      · simp [heq, h.recorded]
    · intro other
      rw [hsequence, Dict.get?_set, map_append, mem_append, mem_map_without]
      split_ifs with heq
      · simp [heq]
      · simp [heq, h.numbered]
    · rw [hsequence, pairwise_append]
      refine ⟨?_, pairwise_singleton _ _, ?_⟩
      · refine (and_mem.mp (h.ordered.filter _)).imp fun ⟨hp, hq, hlt⟩ => ?_
        rw [Dict.getD_set, Dict.getD_set, if_neg (hother hp), if_neg (hother hq)]
        exact hlt
      · intro p hp q hq
        rw [mem_singleton.mp hq, Dict.getD_set, Dict.getD_set, if_neg (hother hp), if_pos rfl]
        exact Nat.lt_succ_of_le (h.counted p.1)
    · intro other
      rw [hsequence, hcounter, Dict.getD_set]
      split_ifs
      · exact le_rfl
      · exact (h.counted other).trans (Nat.le_succ _)
    · refine forall_mem_append.mpr
        ⟨fun p hp => h.installed p ((mem_without name p).mp hp).1, ?_⟩
      exact forall_mem_singleton.mpr hinstalled

theorem disabled (h : Tracks s sid l) (name : Text) :
    Tracks { s with enablement := s.enablement.disableForSession name sid } sid
      (l.without name) := by
  have hdisable : ∀ e, e = s.enablement.disableForSession name sid →
      Tracks { s with enablement := e } sid (l.without name) := by
    intro e he
    rw [Enablement.disableForSession] at he
    cases hget : s.enablement.sessionEnabled.get? sid with
    | none =>
      have hempty : s.enablement.names sid = ∅ := by rw [Enablement.names, Dict.getD, hget]; rfl
      rw [hget] at he
      subst he
      rw [h.without_of_notMem (by rw [hempty]; exact Finset.notMem_empty name)]
      exact h
    | some names =>
      have hnames : s.enablement.names sid = names := by rw [Enablement.names, Dict.getD, hget]; rfl
      have herase : names.erase name = ((l.without name).map Prod.fst).toFinset := by
        rw [← hnames, h.names]
        ext other
        rw [Finset.mem_erase, mem_toFinset, mem_toFinset, mem_map_without, and_comm]
      simp only [hget] at he
      split_ifs at he with hlast
      · subst he
        have hnil : l.without name = [] := by
          rw [hlast, eq_comm, toFinset_eq_empty_iff, map_eq_nil_iff] at herase
          exact herase
        rw [hnil]
        refine ⟨nodup_nil, forall_mem_nil _, ?_, ?_, ?_, nil, ?_, forall_mem_nil _⟩ <;>
          simp [Enablement.clearSessionState, Enablement.names, Enablement.sources,
            Enablement.sequence]
      · subst he
        refine ⟨h.nodup.sublist (filter_sublist.map _),
          fun p hp => h.source p ((mem_without name p).mp hp).1, ?_, ?_, ?_, ?_, ?_,
          fun p hp => h.installed p ((mem_without name p).mp hp).1⟩
        · simpa [Enablement.names] using herase
        · intro other source
          have hrecorded := h.recorded other source
          simp only [Enablement.sources, getD_dropFrom, if_true, Dict.get?_erase, mem_without]
            at hrecorded ⊢
          split_ifs with heq <;> simp [heq, hrecorded]
        · intro other
          have hnumbered := h.numbered other
          simp only [Enablement.sequence, getD_dropFrom, if_true, Dict.get?_erase, mem_map_without]
            at hnumbered ⊢
          split_ifs with heq <;> simp [heq, hnumbered]
        · refine (and_mem.mp (h.ordered.filter _)).imp ?_
          rintro _ _ ⟨hp, hq, hlt⟩
          simp only [Enablement.sequence, getD_dropFrom, if_true, Dict.getD_erase]
          rw [if_neg ((mem_without name _).mp hp).2, if_neg ((mem_without name _).mp hq).2]
          exact hlt
        · intro other
          have hcounted := h.counted other
          simp only [Enablement.sequence, getD_dropFrom, if_true, Dict.getD_erase] at hcounted ⊢
          split_ifs
          · exact Nat.zero_le _
          · exact hcounted
  exact hdisable _ rfl

end Tracks

namespace Sessions

variable {t : Sessions} {step : PackStep} {sid : Text}

theorem names_uninstall (h : s.uninstall w name = (s', .ok u)) (sid : Text) :
    s'.enablement.names sid = (s.enablement.names sid).erase name ∧
      s'.enablement.sources sid = s.enablement.sources sid ∧
      s'.enablement.sequence sid = s.enablement.sequence sid ∧
      s'.enablement.sessionActivationCounter = s.enablement.sessionActivationCounter ∧
      ∀ other, other ≠ name → s'.installed.get? other = s.installed.get? other := by
  rw [uninstall] at h
  cases hget : s.installed.get? name with
  | none =>
    rw [hget] at h
    cases h
  | some pack =>
    simp only [hget] at h
    split_ifs at h
    · cases h
    · cases h
      refine ⟨?_, rfl, rfl, rfl, fun other hother => ?_⟩
      · simp only [Enablement.names, Dict.getD, Dict.get?_mapValues]
        cases s.enablement.sessionEnabled.get? sid <;> rfl
      · rw [Dict.get?_erase, if_neg hother]

theorem tracks_next (h : Tracks t.system.registry sid (t.activations sid))
    (hspares : ∀ name, step.op = .uninstall name → Failed (t.system.outcome step) = false →
      name ∉ t.system.registry.enablement.names sid) :
    Tracks (t.next step).system.registry sid ((t.next step).activations sid) := by
  by_cases hreloads : step.op.reloads = true
  · have hsame : (t.next step).activations sid = t.activations sid :=
      Activations.track_of_reloads hreloads
    rw [hsame]
    exact h.spared ((PackSystem.reload_next hreloads).spared sid)
  obtain ⟨w, op⟩ := step
  simp only [next, PackSystem.next, PackSystem.outcome] at hspares ⊢
  cases op with
  | install | upgrade | downgrade | upgradeFromSource | archiveCurrent | rollback =>
    exact absurd rfl hreloads
  | enable | disable =>
    exact h.spared (spared_ifInstalled ⟨rfl, rfl, rfl, rfl, fun _ _ => id⟩)
  | applyEnablementMatrix matrix =>
    obtain ⟨_, hrows⟩ := t.system.registry.applyEnablementRows_eq matrix.entries
    refine h.spared ?_
    simp only [PackSystem.perform, PackSystem.withRegistry, applyEnablementMatrix,
      hrows]
    exact ⟨rfl, rfl, rfl, rfl, fun _ _ => id⟩
  | uninstall name =>
    have hspares := hspares name rfl
    simp only [PackSystem.perform, PackSystem.withRegistry, PackSystem.failed_map_done]
      at hspares ⊢
    cases huninstall : t.system.registry.uninstall w name with
    | mk s' result =>
      rw [huninstall] at hspares
      cases result with
      | error e =>
        have hsame : s' = t.system.registry := by
          rw [uninstall] at huninstall
          split at huninstall
          · exact (Prod.mk.inj huninstall).1.symm
          · dsimp only at huninstall
            split_ifs at huninstall
            · exact (Prod.mk.inj huninstall).1.symm
            · cases huninstall
        rw [hsame]
        exact h
      | ok u =>
        have hname := hspares rfl
        obtain ⟨hnames, hsources, hsequence, hcounter, hinstalled⟩ :=
          names_uninstall huninstall sid
        have hwithout : (t.activations sid).track sid false (.uninstall name) =
            t.activations sid := h.without_of_notMem hname
        refine hwithout.symm ▸ h.spared ⟨?_, hsources, hsequence, by rw [hcounter], ?_⟩
        · rw [hnames, Finset.erase_eq_of_notMem hname]
        · intro other hother hne
          rw [hinstalled other (fun heq => hname (heq ▸ hother))]
          exact hne
  | enableForSession name other source =>
    simp only [PackSystem.perform, PackSystem.withRegistry, PackSystem.failed_map_done,
      enableForSession, ifInstalled]
    split_ifs with hinstalled hsource
    · exact h
    · by_cases hother : other = sid
      · subst hother
        have htrack : (t.activations other).track other false
            (.enableForSession name other source) = (t.activations other).activate name source :=
          if_pos ⟨rfl, rfl⟩
        exact htrack.symm ▸ h.enabled hsource hinstalled
      · have htrack : (t.activations sid).track sid false
            (.enableForSession name other source) = t.activations sid :=
          if_neg fun heq => hother heq.2
        exact htrack.symm ▸ h.spared (spared_enableForSession (Ne.symm hother))
    · exact h
  | disableForSession name other =>
    simp only [PackSystem.perform, PackSystem.withRegistry, PackSystem.failed_map_done,
      disableForSession, ifInstalled]
    split_ifs with hinstalled
    · exact h
    · by_cases hother : other = sid
      · subst hother
        have htrack : (t.activations other).track other false
            (.disableForSession name other) = (t.activations other).without name :=
          if_pos ⟨rfl, rfl⟩
        exact htrack.symm ▸ h.disabled name
      · have htrack : (t.activations sid).track sid false
            (.disableForSession name other) = t.activations sid :=
          if_neg fun heq => hother heq.2
        exact htrack.symm ▸ h.spared (spared_disableForSession (Ne.symm hother))

/-- An uninstalled pack keeps its source. -/
theorem spares_of_aligned (h : ∀ sid, Tracks t.system.registry sid (t.activations sid))
    (haligned : ∀ sid, Aligned (t.next step) sid) : Spares t step := by
  intro name hop hfailed sid hname
  obtain ⟨w, op⟩ := step
  cases hop
  have haligned := (haligned sid).sources name
  simp only [next, PackSystem.next, PackSystem.outcome, PackSystem.perform,
    PackSystem.withRegistry, PackSystem.failed_map_done] at haligned hfailed
  cases huninstall : t.system.registry.uninstall w name with
  | mk s' result =>
    rw [huninstall] at haligned hfailed
    cases result with
    | error e => cases hfailed
    | ok u =>
      obtain ⟨hnames, hsources, -⟩ := names_uninstall huninstall sid
      dsimp only at haligned
      rw [hnames, hsources, ← (h sid).sources_keys] at haligned
      exact Finset.notMem_erase name _ (haligned.mpr hname)

def start (skills : SkillRegistry) : Sessions := ⟨.fresh skills, fun _ => []⟩

theorem tracks_start (skills : SkillRegistry) (sid : Text) :
    Tracks (start skills).system.registry sid ((start skills).activations sid) := by
  refine ⟨nodup_nil, nofun, ?_, ?_, ?_, nil, ?_, nofun⟩ <;>
    simp [start, PackSystem.fresh, Enablement.names, Enablement.sources, Enablement.sequence]

/-- The maps of all sessions stay aligned just as long as no pack is uninstalled that a session
has enabled. -/
theorem run_aligned_iff (skills : SkillRegistry) (steps : List PackStep) :
    History.Along next (fun t step => ∀ sid, Aligned (t.next step) sid) (start skills) steps ↔
      History.Along next Spares (start skills) steps :=
  History.along_congr (I := fun t => ∀ sid, Tracks t.system.registry sid (t.activations sid))
    (fun _ _ h hspares sid => tracks_next (h sid) fun name hop hfailed =>
      hspares name hop hfailed sid)
    (fun _ _ h => ⟨spares_of_aligned h, fun hspares sid => (tracks_next (h sid)
      fun name hop hfailed => hspares name hop hfailed sid).aligned⟩)
    (tracks_start skills) steps

def notesSteps : List PackStep :=
  [.enableForSession (Text.ofString "notes") (Text.ofString "s1") Enablement.shared,
    .uninstall (Text.ofString "notes")].foldl
      (fun steps op => steps ++ [⟨twoVersionsOf firstVersion "notes", op⟩])
      [installFirst firstVersion "notes"]

/-- The uninstalled pack keeps its source and its number. -/
theorem notesSteps_not_aligned :
    ¬ History.Along next (fun t step => ∀ sid, Aligned (t.next step) sid) (start .empty)
      notesSteps := by
  intro h
  have hsources := (h.2.2.1 (Text.ofString "s1")).sources (Text.ofString "notes")
  exact absurd hsources (by decide +kernel)

end Sessions

end Agent33.Packs
