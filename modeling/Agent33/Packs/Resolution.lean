import Agent33.Packs.Version

/-!
# What the resolver decides

A catalogue says which versions of each pack there are and what each version
depends on. An assignment of versions solves the requirements when it meets
them and what the assigned versions depend on. A resolution that meets no
conflict gives each pack the version that its first requirement selects, and it
meets none exactly when these versions meet the later requirements.
-/

namespace Agent33.Packs

open Library List Option DependencyResolver Version

namespace DependencyResolver

variable {r : DependencyResolver} {s s' : Resolution} {req : Requirement}
  {v : Version}

def selected (r : DependencyResolver) (req : Requirement) : Option Version :=
  (r.available.getD req.name []).find? req.meets

theorem meets_of_selected (h : r.selected req = some v) : req.meets v := find?_some h

theorem mem_of_selected (h : r.selected req = some v) : v ∈ r.available.getD req.name [] :=
  mem_of_find?_eq_some h

theorem selected_of_parse (h : VersionConstraint.parse req.constraint = .ok c) :
    r.selected req = (r.available.getD req.name []).find? c.satisfies := by
  have hmeets : req.meets = c.satisfies := by
    funext v
    simp only [Requirement.meets, h]
  rw [selected, hmeets]

theorem parse_of_meets (h : req.meets v) :
    ∃ c, VersionConstraint.parse req.constraint = .ok c ∧ c.satisfies v := by
  unfold Requirement.meets at h
  cases hc : VersionConstraint.parse req.constraint with
  | ok c => exact ⟨c, rfl, by simpa only [hc] using h⟩
  | error e => simp [hc] at h

theorem append_ne_nil {α : Type*} (xs : List α) (x : α) : ¬ xs ++ [x] = [] := by simp

theorem resolveOne_noConflict (h : r.resolveOne requirer s req = .ok s')
    (hs : s'.conflicts = []) :
    s.conflicts = [] ∧
      ((∃ text v, s.resolved.get? req.name = some text ∧ parse text = .ok v ∧
          req.meets v ∧ s'.resolved = s.resolved) ∨
        (s.resolved.get? req.name = none ∧ ∃ v, r.selected req = some v ∧
          s'.resolved = s.resolved.set req.name v.str)) := by
  unfold resolveOne at h
  split_ifs at h with hcircular
  · cases Except.ok.inj h
    exact absurd hs (append_ne_nil _ _)
  cases hc : VersionConstraint.parse req.constraint with
  | error e => simp [hc] at h
  | ok c =>
    cases hget : s.resolved.get? req.name with
    | some text =>
      cases hv : parse text with
      | error e => simp [hc, hget, hv, Resolution.visit] at h
      | ok v =>
        simp only [hc, hget, hv, Resolution.visit] at h
        split_ifs at h with hsat
        · cases Except.ok.inj h
          refine ⟨hs, .inl ⟨text, v, rfl, hv, ?_, rfl⟩⟩
          simpa only [Requirement.meets, hc] using hsat
        · cases Except.ok.inj h
          exact absurd hs (append_ne_nil _ _)
    | none =>
      simp only [hc, hget, Resolution.visit] at h
      split_ifs at h with hempty
      · cases Except.ok.inj h
        exact absurd hs (append_ne_nil _ _)
      cases hfind : (r.available.getD req.name []).find? c.satisfies with
      | none =>
        simp only [hfind] at h
        cases Except.ok.inj h
        exact absurd hs (append_ne_nil _ _)
      | some v =>
        simp only [hfind] at h
        cases Except.ok.inj h
        exact ⟨hs, .inr ⟨rfl, v, by rw [selected_of_parse hc, hfind], rfl⟩⟩

theorem resolveOne_resolved (hget : s.resolved.get? req.name = some v.str) (hv : req.meets v) :
    r.resolveOne requirer s req = .ok (s.visit req.name) := by
  obtain ⟨c, hc, hsat⟩ := parse_of_meets hv
  simp [resolveOne, hget, hc, Resolution.visit, parse_str, hsat]

theorem resolveOne_selected (hvisited : req.name ∉ s.visited)
    (hget : s.resolved.get? req.name = none) (hv : r.selected req = some v) :
    r.resolveOne requirer s req = .ok ((s.visit req.name).choose requirer req.name v) := by
  obtain ⟨c, hc, -⟩ := parse_of_meets (meets_of_selected hv)
  have hmem := mem_of_selected hv
  have hne : r.available.getD req.name [] ≠ [] := ne_nil_of_mem hmem
  rw [selected_of_parse hc] at hv
  simp [resolveOne, hvisited, hc, Resolution.visit, hget, hne, hv]

def run (r : DependencyResolver) (s : Resolution) (reqs : List Requirement) :
    Except Text Resolution :=
  reqs.foldlM (r.resolveOne root) s

variable {reqs done all : List Requirement}

theorem run_cons (h : r.run s (req :: reqs) = .ok s') :
    ∃ m, r.resolveOne root s req = .ok m ∧ r.run m reqs = .ok s' := by
  rw [run, foldlM_cons] at h
  cases hm : r.resolveOne root s req with
  | error e => simp [hm, bind, Except.bind] at h
  | ok m =>
    rw [hm] at h
    exact ⟨m, rfl, h⟩

theorem run_cons_of (h : r.resolveOne root s req = .ok m) :
    r.run s (req :: reqs) = r.run m reqs := by
  rw [run, foldlM_cons, h]
  rfl

/-- What a run without a conflict has chosen: each version was selected by a
requirement, and all the requirements are met. -/
structure Settled (r : DependencyResolver) (done : List Requirement) (s : Resolution) : Prop where
  chosen : ∀ name text, s.resolved.get? name = some text →
    ∃ req ∈ done, req.name = name ∧ ∃ v, r.selected req = some v ∧ text = v.str
  met : ∀ req ∈ done, ∃ v, s.resolved.get? req.name = some v.str ∧ req.meets v

theorem Settled.resolveOne (hsettled : Settled r done s) (h : r.resolveOne root s req = .ok s')
    (hs : s'.conflicts = []) : Settled r (done ++ [req]) s' := by
  obtain ⟨-, hstep⟩ := resolveOne_noConflict h hs
  cases hstep with
  | inl hkept =>
    obtain ⟨text, v, hget, hparse, hmeets, hresolved⟩ := hkept
    refine ⟨fun name other hother => ?_, fun other hother => ?_⟩
    · rw [hresolved] at hother
      obtain ⟨first, hfirst, hrest⟩ := hsettled.chosen name other hother
      exact ⟨first, mem_append_left _ hfirst, hrest⟩
    · rw [hresolved]
      cases mem_append.mp hother with
      | inl hdone => exact hsettled.met other hdone
      | inr hnew =>
        rw [mem_singleton.mp hnew]
        obtain ⟨first, -, -, w, -, htext⟩ := hsettled.chosen req.name text hget
        rw [htext, parse_str] at hparse
        exact ⟨v, by rw [hget, htext, Except.ok.inj hparse], hmeets⟩
  | inr hset =>
    obtain ⟨hnone, v, hv, hresolved⟩ := hset
    refine ⟨fun name other hother => ?_, fun other hother => ?_⟩
    · rw [hresolved, Dict.get?_set] at hother
      split_ifs at hother with hname
      · exact ⟨req, by simp, hname.symm, v, hv, (some.inj hother).symm⟩
      · obtain ⟨first, hfirst, hrest⟩ := hsettled.chosen name other hother
        exact ⟨first, mem_append_left _ hfirst, hrest⟩
    · rw [hresolved, Dict.get?_set]
      cases mem_append.mp hother with
      | inl hdone =>
        obtain ⟨w, hw, hmeets⟩ := hsettled.met other hdone
        split_ifs with hname
        · rw [hname, hnone] at hw
          exact absurd hw (by simp)
        · exact ⟨w, hw, hmeets⟩
      | inr hnew =>
        rw [mem_singleton.mp hnew, if_pos rfl]
        exact ⟨v, rfl, meets_of_selected hv⟩

theorem run_conflicts (h : r.run s reqs = .ok s') (hs : s'.conflicts = []) : s.conflicts = [] := by
  induction reqs generalizing s with
  | nil => rwa [Except.ok.inj h]
  | cons req rest ih =>
    obtain ⟨m, hm, hrest⟩ := run_cons h
    exact (resolveOne_noConflict hm (ih hrest)).1

theorem Settled.run (hsettled : Settled r done s) (h : r.run s reqs = .ok s')
    (hs : s'.conflicts = []) : Settled r (done ++ reqs) s' := by
  induction reqs generalizing s done with
  | nil => rwa [← Except.ok.inj h, append_nil]
  | cons req rest ih =>
    obtain ⟨m, hm, hrest⟩ := run_cons h
    have hstep := ih (hsettled.resolveOne hm (run_conflicts hrest hs)) hrest
    rwa [append_assoc] at hstep

theorem run_kept (h : r.run s reqs = .ok s') (hs : s'.conflicts = [])
    (hget : s.resolved.get? name = some text) : s'.resolved.get? name = some text := by
  induction reqs generalizing s with
  | nil => rwa [← Except.ok.inj h]
  | cons req rest ih =>
    obtain ⟨m, hm, hrest⟩ := run_cons h
    apply ih hrest
    obtain ⟨-, ⟨-, -, -, -, -, hresolved⟩ | ⟨hnone, v, -, hresolved⟩⟩ :=
      resolveOne_noConflict hm (run_conflicts hrest hs)
    · rwa [hresolved]
    · rw [hresolved, Dict.get?_set, if_neg, hget]
      intro hname
      rw [← hname, hget] at hnone
      exact absurd hnone (by simp)

def Agreeable (r : DependencyResolver) (all : List Requirement) (req : Requirement) : Prop :=
  ∃ v, r.selected req = some v ∧ ∀ other ∈ all, other.name = req.name → other.meets v

structure Ready (all : List Requirement) (s : Resolution) : Prop where
  noConflict : s.conflicts = []
  visited : ∀ name ∈ s.visited, (s.resolved.get? name).isSome
  suits : ∀ name text, s.resolved.get? name = some text →
    ∃ v : Version, text = v.str ∧ ∀ req ∈ all, req.name = name → req.meets v

theorem Ready.resolveOne (hready : Ready all s) (hreq : req ∈ all)
    (h : r.Agreeable all req ∨ (s.resolved.get? req.name).isSome) :
    ∃ m, r.resolveOne root s req = .ok m ∧ Ready all m ∧ (m.resolved.get? req.name).isSome ∧
      ∀ name, (s.resolved.get? name).isSome → (m.resolved.get? name).isSome := by
  cases hget : s.resolved.get? req.name with
  | some text =>
    obtain ⟨v, htext, hmeets⟩ := hready.suits req.name text hget
    rw [htext] at hget
    refine ⟨_, resolveOne_resolved hget (hmeets req hreq rfl), ⟨hready.noConflict, ?_,
      hready.suits⟩, by simp [Resolution.visit, hget], fun name hname => hname⟩
    intro name hname
    cases mem_cons.mp hname with
    | inl heq => simp [Resolution.visit, heq, hget]
    | inr hmem => exact hready.visited name hmem
  | none =>
    obtain ⟨v, hv, hmeets⟩ : r.Agreeable all req := h.resolve_right (by simp [hget])
    have hvisited : req.name ∉ s.visited := fun hmem => by
      simpa [hget] using hready.visited req.name hmem
    have hkept (name : Text) (hname : (s.resolved.get? name).isSome) :
        (((s.visit req.name).choose root req.name v).resolved.get? name).isSome := by
      simp only [Resolution.choose, Resolution.visit, Dict.get?_set]
      split_ifs
      · rfl
      · exact hname
    refine ⟨_, resolveOne_selected hvisited hget hv, ⟨hready.noConflict, ?_, ?_⟩,
      by simp [Resolution.choose], hkept⟩
    · intro name hname
      cases mem_cons.mp hname with
      | inl heq => simp [Resolution.choose, heq]
      | inr hmem => exact hkept name (hready.visited name hmem)
    · intro name text htext
      simp only [Resolution.choose, Resolution.visit, Dict.get?_set] at htext
      split_ifs at htext with hname
      · exact ⟨v, (some.inj htext).symm, fun other hother heq =>
          hmeets other hother (heq.trans hname)⟩
      · exact hready.suits name text htext

theorem Ready.run (hready : Ready all s) (hsub : reqs ⊆ all)
    (h : ∀ req ∈ reqs, r.Agreeable all req ∨ (s.resolved.get? req.name).isSome) :
    ∃ m, r.run s reqs = .ok m ∧ Ready all m ∧
      ∀ name, (s.resolved.get? name).isSome ∨ (∃ req ∈ reqs, req.name = name) →
        (m.resolved.get? name).isSome := by
  induction reqs generalizing s with
  | nil => exact ⟨s, rfl, hready, by simp⟩
  | cons req rest ih =>
    obtain ⟨m, hm, hmready, hnew, hkept⟩ :=
      hready.resolveOne (hsub mem_cons_self) (h req mem_cons_self)
    obtain ⟨m', hm', hready', hall⟩ := ih hmready (subset_of_cons_subset hsub)
      fun other hother => (h other (mem_cons_of_mem _ hother)).imp_right (hkept other.name)
    refine ⟨m', (run_cons_of hm).trans hm', hready', fun name hname => hall name ?_⟩
    rcases hname with hname | ⟨other, hother, heq⟩
    · exact .inl (hkept name hname)
    · cases mem_cons.mp hother with
      | inl hfirst => exact .inl (by rwa [← heq, hfirst])
      | inr hrest => exact .inr ⟨other, hrest, heq⟩

theorem run_append (reqs rest : List Requirement) (s : Resolution) :
    r.run s (reqs ++ rest) = (r.run s reqs).bind fun m => r.run m rest :=
  foldlM_append

theorem start_eq (reqs : List Requirement) :
    (start reqs).conflicts = [] ∧ (start reqs).visited = [] ∧ (start reqs).resolved = .empty := by
  have hstart : ∀ s : Resolution, (s.conflicts = [] ∧ s.visited = [] ∧ s.resolved = .empty) →
      let m := reqs.foldl (fun s req => s.track req.name root req.constraint) s
      m.conflicts = [] ∧ m.visited = [] ∧ m.resolved = .empty := by
    induction reqs with
    | nil => exact fun s h => h
    | cons req rest ih => exact fun s h => ih _ h
  exact hstart ⟨.empty, .empty, .empty, [], []⟩ ⟨rfl, rfl, rfl⟩

theorem ready_start (all reqs : List Requirement) : Ready all (start reqs) := by
  obtain ⟨hconflicts, hvisited, hresolved⟩ := start_eq reqs
  refine ⟨hconflicts, fun name hname => ?_, fun name text htext => ?_⟩
  · simp [hvisited] at hname
  · simp [hresolved] at htext

theorem settled_start (reqs : List Requirement) : Settled r [] (start reqs) := by
  refine ⟨fun name text htext => ?_, by simp⟩
  simp [(start_eq reqs).2.2] at htext

end DependencyResolver

structure Catalogue where
  available : Dict Text (List Version)
  dependencies : Text → Version → List Requirement

namespace Catalogue

variable {cat : Catalogue} {reqs : List Requirement}

def Meets (σ : Text → Option Version) (req : Requirement) : Prop :=
  ∃ v, σ req.name = some v ∧ req.meets v

structure Solves (cat : Catalogue) (reqs : List Requirement) (σ : Text → Option Version) :
    Prop where
  direct : ∀ req ∈ reqs, Meets σ req
  available : ∀ name v, σ name = some v → v ∈ cat.available.getD name []
  transitive : ∀ name v, σ name = some v → ∀ dep ∈ cat.dependencies name v, Meets σ dep

def listing (cat : Catalogue) : Dict Text (List Text) :=
  cat.available.mapValues fun _ versions => versions.map Version.str

def outcome (cat : Catalogue) (reqs : List Requirement) : Except Text ResolutionResult :=
  (DependencyResolver.init cat.listing).bind fun r => r.resolve reqs

def Returns (cat : Catalogue) (reqs : List Requirement) (resolved : Dict Text Text) : Prop :=
  ∃ result, cat.outcome reqs = .ok result ∧ result.success ∧ result.resolved = some resolved

def Succeeds (cat : Catalogue) (reqs : List Requirement) : Prop :=
  ∃ resolved, cat.Returns reqs resolved

def assignment (resolved : Dict Text Text) (name : Text) : Option Version :=
  (resolved.get? name).bind fun text => (Version.parse text).toOption

structure Correct (cat : Catalogue) (reqs : List Requirement) : Prop where
  complete : cat.Succeeds reqs ↔ ∃ σ, cat.Solves reqs σ
  sound : ∀ resolved, cat.Returns reqs resolved → cat.Solves reqs (assignment resolved)
  anyOrder : ∀ other, other.Perm reqs → (cat.Succeeds other ↔ cat.Succeeds reqs)

def versions (cat : Catalogue) (name : Text) : List Version :=
  (cat.available.getD name []).insertionSort (· ≥ ·)

def highest (cat : Catalogue) (req : Requirement) : Option Version :=
  (cat.versions req.name).find? req.meets

/-- The requirements on a pack select one version, and what it depends on is
met by the selected versions. -/
structure Consistent (cat : Catalogue) (reqs : List Requirement) : Prop where
  selects : ∀ req ∈ reqs, (cat.highest req).isSome
  agree : ∀ req ∈ reqs, ∀ other ∈ reqs, other.name = req.name →
    cat.highest other = cat.highest req
  closed : ∀ req ∈ reqs, ∀ v, cat.highest req = some v →
    ∀ dep ∈ cat.dependencies req.name v,
      ∃ other ∈ reqs, other.name = dep.name ∧ ∃ w, cat.highest other = some w ∧ dep.meets w

def Unmeetable (cat : Catalogue) (reqs : List Requirement) : Prop :=
  ∃ req ∈ reqs, ∀ v ∈ cat.available.getD req.name [],
    ∃ other ∈ reqs, other.name = req.name ∧ ¬ other.meets v

theorem parseAll_str (versions : List Version) :
    parseAll (versions.map str) = .ok versions := by
  induction versions with
  | nil => rfl
  | cons v rest ih =>
    rw [parseAll] at ih ⊢
    rw [map_cons, mapM_cons, parse_str, ih]
    rfl

theorem exists_init (cat : Catalogue) :
    ∃ r, init cat.listing = .ok r ∧
      ∀ name, r.available.getD name [] = cat.versions name := by
  have hfold : ∀ (es : List (Text × List Version)) (r : DependencyResolver),
      ∃ m, (es.map fun e => (e.1, e.2.map str)).foldlM
          (fun r pack => (parseAll pack.2).map (r.assign pack.1)) r = .ok m ∧
        m.available = (es.map fun e => (e.1, e.2.insertionSort (· ≥ ·))).foldl
          (fun d e => d.set e.1 e.2) r.available := by
    intro es
    induction es with
    | nil => exact fun r => ⟨r, rfl, rfl⟩
    | cons e rest ih =>
      intro r
      obtain ⟨m, hm, havailable⟩ := ih (r.assign e.1 e.2)
      refine ⟨m, ?_, havailable⟩
      rw [map_cons, foldlM_cons, parseAll_str]
      exact hm
  obtain ⟨r, hr, havailable⟩ := hfold cat.available.entries .empty
  have hentries : r.available =
      cat.available.mapValues fun _ versions => versions.insertionSort (· ≥ ·) := by
    apply Dict.ext
    rw [havailable, Dict.entries_mapValues]
    apply Dict.entries_ofList
    rw [List.map_map]
    exact cat.available.nodup
  refine ⟨r, ?_, fun name => ?_⟩
  · rw [init, listing, Dict.entries_mapValues]
    exact hr
  · rw [hentries, versions, Dict.getD, Dict.get?_mapValues, Dict.getD]
    cases cat.available.get? name with
    | none => rfl
    | some vs => rfl

theorem sortedGE_versions (name : Text) : (cat.versions name).SortedGE :=
  sortedGE_insertionSort

variable {req : Requirement} {v : Version}
    {r : DependencyResolver} {rest other : List Requirement}

theorem mem_versions : v ∈ cat.versions name ↔ v ∈ cat.available.getD name [] :=
  mem_insertionSort _

theorem outcome_eq (hr : init cat.listing = .ok r) : cat.outcome reqs =
      (r.run (start reqs) reqs).map finish := by
  rw [outcome, hr]
  rfl

theorem returns_iff (hr : init cat.listing = .ok r) :
    cat.Returns reqs resolved ↔ ∃ s, r.run (start reqs) reqs = .ok s ∧
      s.conflicts = [] ∧ s.resolved = resolved := by
  rw [Returns, outcome_eq hr]
  cases hs : r.run (start reqs) reqs with
  | error e => simp [Except.map]
  | ok s =>
    simp only [Except.map, Except.ok.injEq, exists_eq_left']
    by_cases hconflicts : s.conflicts = []
    · simp [finish, hconflicts, ResolutionResult.success]
    · simp [finish, hconflicts, ResolutionResult.success]

def Agreeable (cat : Catalogue) (reqs : List Requirement) (req : Requirement) : Prop :=
  ∃ v, cat.highest req = some v ∧ ∀ other ∈ reqs, other.name = req.name → other.meets v

theorem selected_eq (hr : ∀ name, r.available.getD name [] = cat.versions name) :
    r.selected = cat.highest := by
  funext req
  rw [selected, highest, hr]

theorem settled_of_returns (h : cat.Returns reqs resolved) :
    (∀ name text, resolved.get? name = some text →
      ∃ req ∈ reqs, req.name = name ∧ ∃ v, cat.highest req = some v ∧ text = v.str) ∧
    ∀ req ∈ reqs, ∃ v, resolved.get? req.name = some v.str ∧ req.meets v := by
  obtain ⟨r, hr, hversions⟩ := exists_init cat
  obtain ⟨s, hs, hconflicts, hresolved⟩ := (returns_iff hr).mp h
  have hsettled := (settled_start reqs).run hs hconflicts
  rw [nil_append] at hsettled
  rw [← selected_eq hversions, ← hresolved]
  exact ⟨hsettled.chosen, hsettled.met⟩

theorem agreeable_of_succeeds (h : cat.Succeeds (req :: rest)) :
    cat.Agreeable (req :: rest) req := by
  obtain ⟨resolved, h⟩ := h
  obtain ⟨-, hmet⟩ := settled_of_returns h
  obtain ⟨r, hr, hversions⟩ := exists_init cat
  obtain ⟨s, hs, hconflicts, hresolved⟩ := (returns_iff hr).mp h
  obtain ⟨m, hm, hrest⟩ := run_cons hs
  obtain ⟨-, ⟨text, -, hget, -⟩ | ⟨-, v, hv, hset⟩⟩ :=
    resolveOne_noConflict hm (run_conflicts hrest hconflicts)
  · simp [(start_eq (req :: rest)).2.2] at hget
  · rw [selected_eq hversions] at hv
    refine ⟨v, hv, fun other hother hname => ?_⟩
    have hnew : m.resolved.get? req.name = some v.str := by rw [hset, Dict.get?_set, if_pos rfl]
    have hkept := run_kept hrest hconflicts hnew
    obtain ⟨w, hw, hmeets⟩ := hmet other hother
    rw [hname, ← hresolved, hkept, some.injEq] at hw
    rwa [str_injective hw]

theorem succeeds_of_agreeable (hfirst : first ⊆ reqs)
    (hrest : rest ⊆ reqs) (hagree : ∀ req ∈ first, cat.Agreeable reqs req)
    (hnames : ∀ req ∈ rest, ∃ other ∈ first, other.name = req.name) :
    cat.Succeeds (first ++ rest) := by
  obtain ⟨r, hr, hversions⟩ := exists_init cat
  have hstart := ready_start reqs (first ++ rest)
  obtain ⟨m, hm, hmready, hmall⟩ := hstart.run (r := r) hfirst fun req hreq => .inl (by
    rw [DependencyResolver.Agreeable, selected_eq hversions]
    exact hagree req hreq)
  obtain ⟨s, hs, hready, -⟩ := hmready.run (r := r) hrest fun req hreq =>
    .inr (hmall req.name (.inr (hnames req hreq)))
  refine ⟨s.resolved, (returns_iff hr).mpr ⟨s, ?_, hready.noConflict, rfl⟩⟩
  rw [run_append, hm]
  exact hs

theorem exists_agreeable (h : ¬ cat.Unmeetable reqs) (hreq : req ∈ reqs) :
    ∃ other ∈ reqs, other.name = req.name ∧ cat.Agreeable reqs other := by
  obtain ⟨u, hu, hall⟩ : ∃ u ∈ cat.available.getD req.name [],
      ∀ other ∈ reqs, other.name = req.name → other.meets u := by
    by_contra hnone
    refine h ⟨req, hreq, fun v hv => ?_⟩
    by_contra hmeets
    exact hnone ⟨v, hv, fun other hother hname => by
      by_contra hother'
      exact hmeets ⟨other, hother, hname, hother'⟩⟩
  have hmem (p : Version → Bool) :
      p ∈ (reqs.filter fun other => other.name = req.name).map Requirement.meets ↔
        ∃ other ∈ reqs, other.name = req.name ∧ other.meets = p := by
    simp [and_assoc]
  obtain ⟨p, hp, v, hv, hcommon⟩ := exists_find?_common (cat.sortedGE_versions req.name)
    (ne_nil_of_mem ((hmem req.meets).mpr ⟨req, hreq, rfl, rfl⟩))
    (fun p hp => by
      obtain ⟨other, -, -, rfl⟩ := (hmem p).mp hp
      exact other.isInterval_meets)
    (mem_versions.mpr hu)
    (fun p hp => by
      obtain ⟨other, hother, hname, rfl⟩ := (hmem p).mp hp
      exact hall other hother hname)
  obtain ⟨other, hother, hname, rfl⟩ := (hmem p).mp hp
  refine ⟨other, hother, hname, v, by rw [highest, hname, hv], fun third hthird heq => ?_⟩
  exact hcommon third.meets ((hmem third.meets).mpr ⟨third, hthird, heq.trans hname, rfl⟩)

section

variable (h : cat.Returns reqs resolved)
include h

theorem assignment_eq_some :
    assignment resolved name = some v ↔ resolved.get? name = some v.str := by
  constructor
  · intro hv
    cases hget : resolved.get? name with
    | none => simp [assignment, hget] at hv
    | some text =>
      obtain ⟨-, -, -, w, -, hw⟩ := (settled_of_returns h).1 name text hget
      rw [assignment, hget, hw, bind_some, parse_str] at hv
      rw [hw, some.inj hv]
  · intro hget
    rw [assignment, hget, bind_some, parse_str]
    rfl

theorem selected_of_assignment (hv : assignment resolved name = some v) :
    ∃ req ∈ reqs, req.name = name ∧ cat.highest req = some v := by
  obtain ⟨req, hreq, hname, w, hw, htext⟩ :=
    (settled_of_returns h).1 name v.str ((assignment_eq_some h).mp hv)
  exact ⟨req, hreq, hname, by rw [hw, str_injective htext]⟩

theorem meets_of_returns (hreq : req ∈ reqs) : Meets (assignment resolved) req := by
  obtain ⟨v, hget, hmeets⟩ := (settled_of_returns h).2 req hreq
  exact ⟨v, (assignment_eq_some h).mpr hget, hmeets⟩

theorem available_of_assignment
    (hv : assignment resolved name = some v) : v ∈ cat.available.getD name [] := by
  obtain ⟨req, -, hname, hselected⟩ := selected_of_assignment h hv
  rw [← hname, ← mem_versions]
  exact mem_of_find?_eq_some hselected

end

theorem agreeable_of_mem (hsucceeds : ∀ other, other.Perm reqs → cat.Succeeds other)
    (hreq : req ∈ reqs) : cat.Agreeable reqs req := by
  have hperm := (perm_cons_erase hreq).symm
  obtain ⟨v, hv, hmeets⟩ := agreeable_of_succeeds (hsucceeds _ hperm)
  exact ⟨v, hv, fun other hother => hmeets other (hperm.mem_iff.mpr hother)⟩

theorem agree_of_agreeable {other : Requirement} (hreq : req ∈ reqs) (hother : other ∈ reqs)
    (hname : other.name = req.name) (h : cat.Agreeable reqs req) (h' : cat.Agreeable reqs other) :
    cat.highest other = cat.highest req := by
  obtain ⟨v, hv, hmeets⟩ := h
  obtain ⟨w, hw, hmeets'⟩ := h'
  rw [hw, hv, some.injEq]
  rw [highest, hname] at hw
  exact find?_agree (cat.sortedGE_versions req.name) hw hv (hmeets' req hreq hname.symm)
    (hmeets other hother hname)

section

variable (h : cat.Consistent reqs)
include h

theorem Consistent.agreeable (hreq : req ∈ reqs) : cat.Agreeable reqs req := by
  obtain ⟨v, hv⟩ := isSome_iff_exists.mp (h.selects req hreq)
  refine ⟨v, hv, fun other hother hname => ?_⟩
  have hsame := h.agree req hreq other hother hname
  exact find?_some (hsame.trans hv)

theorem Consistent.perm (hperm : other.Perm reqs) : cat.Consistent other := by
  refine ⟨fun req hreq => h.selects req (hperm.mem_iff.mp hreq),
    fun req hreq req' hreq' => h.agree req (hperm.mem_iff.mp hreq) req' (hperm.mem_iff.mp hreq'),
    fun req hreq v hv dep hdep => ?_⟩
  obtain ⟨req', hreq', hrest⟩ := h.closed req (hperm.mem_iff.mp hreq) v hv dep hdep
  exact ⟨req', hperm.mem_iff.mpr hreq', hrest⟩

theorem Consistent.succeeds : cat.Succeeds reqs := by
  rw [← append_nil reqs]
  apply succeeds_of_agreeable (List.Subset.refl reqs) (nil_subset reqs)
  · exact fun req hreq => h.agreeable hreq
  · simp

theorem Consistent.solves (hreturns : cat.Returns reqs resolved) :
    cat.Solves reqs (assignment resolved) := by
  refine ⟨fun req => meets_of_returns hreturns,
    fun name v => available_of_assignment hreturns, fun name v hv dep hdep => ?_⟩
  obtain ⟨req, hreq, rfl, hselected⟩ := selected_of_assignment hreturns hv
  obtain ⟨other, hother, hname, w, hw, hmeets⟩ := h.closed req hreq v hselected dep hdep
  obtain ⟨w', hw', -⟩ := meets_of_returns hreturns hother
  obtain ⟨third, hthird, hname', hselected'⟩ := selected_of_assignment hreturns hw'
  rw [h.agree other hother third hthird hname', hw] at hselected'
  exact ⟨w, by rw [← hname, hw', hselected'], hmeets⟩

end

theorem Unmeetable.not_solves (h : cat.Unmeetable reqs) {σ : Text → Option Version} :
    ¬ cat.Solves reqs σ := by
  intro hsolves
  obtain ⟨req, hreq, hnone⟩ := h
  obtain ⟨v, hv, -⟩ := hsolves.direct req hreq
  obtain ⟨other, hother, hname, hmeets⟩ := hnone v (hsolves.available req.name v hv)
  obtain ⟨w, hw, hother'⟩ := hsolves.direct other hother
  rw [hname, hv, some.injEq] at hw
  exact hmeets (hw ▸ hother')

theorem Unmeetable.not_succeeds (h : cat.Unmeetable reqs) (hperm : other.Perm reqs) :
    ¬ cat.Succeeds other := by
  rintro ⟨resolved, hreturns⟩
  obtain ⟨req, hreq, hnone⟩ := h
  obtain ⟨v, hv, -⟩ := meets_of_returns hreturns (hperm.mem_iff.mpr hreq)
  obtain ⟨third, hthird, hname, hmeets⟩ := hnone v (available_of_assignment hreturns hv)
  obtain ⟨w, hw, hthird'⟩ := meets_of_returns hreturns (hperm.mem_iff.mpr hthird)
  rw [hname, hv, some.injEq] at hw
  exact hmeets (hw ▸ hthird')

theorem succeeds_of_not_unmeetable (h : ¬ cat.Unmeetable reqs) :
    ∃ other, other.Perm reqs ∧ cat.Succeeds other := by
  classical
  refine ⟨_, filter_append_perm (fun req => decide (cat.Agreeable reqs req)) reqs,
    succeeds_of_agreeable (filter_subset_self _) (filter_subset_self _) ?_ ?_⟩
  · intro req hreq
    simpa using (List.mem_filter.mp hreq).2
  · intro req hreq
    obtain ⟨other, hother, hname, hagree⟩ := exists_agreeable h (List.mem_filter.mp hreq).1
    exact ⟨other, List.mem_filter.mpr ⟨hother, by simpa using hagree⟩, hname⟩

theorem Correct.consistent (h : cat.Correct reqs) (hmeetable : ¬ cat.Unmeetable reqs) :
    cat.Consistent reqs := by
  obtain ⟨other, hperm, hother⟩ := succeeds_of_not_unmeetable hmeetable
  have hall (third : List Requirement) (hthird : third.Perm reqs) : cat.Succeeds third :=
    (h.anyOrder third hthird).mpr ((h.anyOrder other hperm).mp hother)
  have hagreeable {req : Requirement} (hreq : req ∈ reqs) := agreeable_of_mem hall hreq
  have hagree (req : Requirement) (hreq : req ∈ reqs) (req' : Requirement) (hreq' : req' ∈ reqs)
      (hname : req'.name = req.name) : cat.highest req' = cat.highest req :=
    agree_of_agreeable hreq hreq' hname (hagreeable hreq) (hagreeable hreq')
  obtain ⟨resolved, hreturns⟩ := hall reqs (List.Perm.refl reqs)
  refine ⟨fun req hreq => ?_, hagree, fun req hreq v hv dep hdep => ?_⟩
  · obtain ⟨v, hv, -⟩ := hagreeable hreq
    rw [hv]
    rfl
  · obtain ⟨w, hw, -⟩ := meets_of_returns hreturns hreq
    obtain ⟨first, hfirst, hname, hselected⟩ := selected_of_assignment hreturns hw
    rw [hagree req hreq first hfirst hname, hv, some.injEq] at hselected
    rw [← hselected] at hw
    obtain ⟨u, hu, hmeets⟩ := (h.sound resolved hreturns).transitive req.name v hw dep hdep
    obtain ⟨other, hother, hdepname, hu'⟩ := selected_of_assignment hreturns hu
    exact ⟨other, hother, hdepname, u, hu', hmeets⟩

theorem Consistent.correct (h : cat.Consistent reqs) : cat.Correct reqs where
  complete := ⟨fun ⟨_, hreturns⟩ => ⟨_, h.solves hreturns⟩, fun _ => h.succeeds⟩
  sound _ := h.solves
  anyOrder _ hperm := iff_of_true (h.perm hperm).succeeds h.succeeds

theorem Unmeetable.correct (h : cat.Unmeetable reqs) : cat.Correct reqs where
  complete := iff_of_false (h.not_succeeds (List.Perm.refl reqs))
    fun ⟨_, hsolves⟩ => h.not_solves hsolves
  sound resolved hreturns := absurd ⟨resolved, hreturns⟩ (h.not_succeeds (List.Perm.refl reqs))
  anyOrder _ hperm := iff_of_false (h.not_succeeds hperm) (h.not_succeeds (List.Perm.refl reqs))

/-- The resolver is right about a catalogue and a list of requirements exactly
when the requirements on each pack select one version and the selected versions
meet each other's dependencies, or when some pack has no version that meets all
the requirements on it. -/
theorem correct_iff (cat : Catalogue) (reqs : List Requirement) :
    cat.Correct reqs ↔ cat.Consistent reqs ∨ cat.Unmeetable reqs := by
  constructor
  · intro h
    by_cases hunmeetable : cat.Unmeetable reqs
    · exact .inr hunmeetable
    · exact .inl (h.consistent hunmeetable)
  · intro h
    cases h with
    | inl hconsistent => exact hconsistent.correct
    | inr hunmeetable => exact hunmeetable.correct

def twoVersions : Catalogue where
  available := Dict.empty.set (Text.ofString "utils") [⟨1, 0, 0⟩, ⟨1, 1, 0⟩]
  dependencies _ _ := []

/-- The first version meets both requirements, but the resolver has taken the
second one when it comes to the second requirement. -/
theorem twoVersions_not_correct :
    ¬ twoVersions.Correct [⟨Text.ofString "utils", Text.ofString "*"⟩,
      ⟨Text.ofString "utils", Text.ofString "1.0.0"⟩] := by
  intro h
  have hsolves : twoVersions.Solves [⟨Text.ofString "utils", Text.ofString "*"⟩,
      ⟨Text.ofString "utils", Text.ofString "1.0.0"⟩]
      fun name => if name = Text.ofString "utils" then some ⟨1, 0, 0⟩ else none := by
    refine ⟨?_, fun name v hv => ?_, fun name v hv dep hdep => by cases hdep⟩
    · simp only [forall_mem_cons, not_mem_nil, false_implies, implies_true, and_true]
      exact ⟨⟨⟨1, 0, 0⟩, if_pos rfl, by decide +kernel⟩, ⟨1, 0, 0⟩, if_pos rfl, by decide +kernel⟩
    · split_ifs at hv with hname
      rw [hname, ← some.inj hv]
      decide +kernel
  obtain ⟨resolved, result, hresult, hsuccess, -⟩ := h.complete.mpr ⟨_, hsolves⟩
  have hfails : ((twoVersions.outcome [⟨Text.ofString "utils", Text.ofString "*"⟩,
      ⟨Text.ofString "utils", Text.ofString "1.0.0"⟩]).map ResolutionResult.success).toOption =
        some false := by decide +kernel
  rw [hresult] at hfails
  simp [Except.map, Except.toOption, hsuccess] at hfails

end Catalogue

end Agent33.Packs
