import Agent33.McpServer.ProxyManager

/-!
# What is listed is what is called

The list of the tools and the routing of a call filter the tools of a child each in their
own way. They agree when no two of the listed names collide and no allow list hides a
discovered tool that a call can reach.
-/

namespace Agent33.McpServer

open Library List Option EStateM ChildServerHandle

namespace ChildServerHandle

def admits (handle : ChildServerHandle) : Bool :=
  match Connectors.beforeCall.run handle.circuit with
  | .ok _ _ => true
  | .error _ _ => false

structure Ready (handle : ChildServerHandle) : Prop where
  admits : handle.admits = true
  allow : handle.config.governance.policy = .allow
  handler : handle.hasCallHandler = true

def Discovers (handle : ChildServerHandle) (tool : Text) : Prop :=
  (handle.discoveredTools.get? tool).isSome = true

theorem run_throw_ne_ok (x : HandleM Unit) (e : ProxyError) (handle handle' : ChildServerHandle) :
    (do x; throw e : HandleM Unit).run handle ≠ .ok () handle' := by
  rw [run_bind]
  cases x.run handle <;> exact nofun

theorem callTool_ok_iff (handle : ChildServerHandle) (tool : Text) :
    (∃ handle', (callTool tool).run handle = .ok () handle') ↔
      handle.Ready ∧ handle.Discovers tool ∧
        tool ∉ handle.config.governance.blockedTools := by
  unfold callTool
  rw [run_bind]
  dsimp only [run_get]
  cases hbefore : Connectors.beforeCall.run handle.circuit with
  | error e circuit =>
    have hadmits : handle.admits = false := by rw [admits, hbefore]
    dsimp only
    constructor
    · rintro ⟨handle', h⟩
      split_ifs at h
      · exact absurd h (run_throw_ne_ok _ _ _ _)
      · exact absurd h (run_throw_ne_ok _ _ _ _)
    · rintro ⟨hready, -⟩
      rw [hready.admits] at hadmits
      cases hadmits
  | ok a circuit =>
    have hadmits : handle.admits = true := by rw [admits, hbefore]
    dsimp only
    rw [run_bind]
    dsimp only [run_set]
    constructor
    · rintro ⟨handle', h⟩
      split_ifs at h with hunknown hdeny hask hblocked hhandler
      · cases h
      · cases h
      · cases h
      · cases h
      · refine ⟨⟨hadmits, ?_, hhandler⟩, ?_, hblocked⟩
        · cases hpolicy : handle.config.governance.policy with
          | allow => rfl
          | ask => exact absurd hpolicy hask
          | deny => exact absurd hpolicy hdeny
        · exact isNone_eq_false_iff.mp (Bool.eq_false_iff.mpr hunknown)
      · exact absurd h (run_throw_ne_ok _ _ _ _)
    · rintro ⟨hready, hdiscovers, hblocked⟩
      have hknown : ¬ (handle.discoveredTools.get? tool).isNone = true := by
        rw [← not_isSome, hdiscovers]
        decide
      refine ⟨{ handle with circuit }, ?_⟩
      rw [if_neg hknown, if_neg (by rw [hready.allow]; decide),
        if_neg (by rw [hready.allow]; decide), if_neg hblocked, if_pos hready.handler]
      rfl
theorem mem_listTools (handle : ChildServerHandle) (tool : Text) :
    tool ∈ handle.listTools.map (·.name) ↔
      handle.Discovers tool ∧ shows handle.config.governance tool = true := by
  simp only [listTools, List.mem_map, List.mem_filter, Dict.mem_values, Discovers,
    isSome_iff_exists]
  constructor
  · rintro ⟨listed, ⟨⟨name, hname⟩, hshows⟩, rfl⟩
    have hkey := handle.named name listed hname
    exact ⟨⟨listed, by rw [hkey, hname]⟩, hshows⟩
  · rintro ⟨⟨listed, hlisted⟩, hshows⟩
    have hkey := handle.named tool listed hlisted
    exact ⟨listed, ⟨⟨tool, hlisted⟩, by rw [hkey, hshows]⟩, hkey⟩

end ChildServerHandle

namespace ProxyManager

theorem collisions_foldl_visit (native : List Text) (entries : List (Text × Text)) (check : Check) :
    (entries.foldl (Check.visit native) check).collisions = [] ↔
      check.collisions = [] ∧
        (∀ e ∈ entries, e.1 ∉ native ∧ check.seen.get? e.1 = none) ∧
        (entries.map Prod.fst).Nodup := by
  induction entries generalizing check with
  | nil => simp
  | cons entry rest ih =>
    rw [foldl_cons, ih]
    unfold Check.visit
    by_cases hnative : entry.1 ∈ native
    · simp [hnative]
    · rw [if_neg hnative]
      cases hseen : check.seen.get? entry.1 with
      | some other => simp [hseen]
      | none =>
        simp only [mem_cons, forall_eq_or_imp, map_cons, nodup_cons, List.mem_map,
          Dict.get?_set]
        constructor
        · rintro ⟨hnone, hrest, hnodup⟩
          refine ⟨hnone, ⟨⟨hnative, hseen⟩, fun e he => ?_⟩, ?_, hnodup⟩
          · obtain ⟨hfree, hget⟩ := hrest e he
            split_ifs at hget
            exact ⟨hfree, hget⟩
          · rintro ⟨e, he, heq⟩
            have hget := (hrest e he).2
            rw [if_pos heq] at hget
            cases hget
        · rintro ⟨hnone, ⟨-, hrest⟩, hnotin, hnodup⟩
          refine ⟨hnone, fun e he => ⟨(hrest e he).1, ?_⟩, hnodup⟩
          rw [if_neg fun heq => hnotin ⟨e, he, heq⟩]
          exact (hrest e he).2

theorem collisionsAmong_eq_nil_iff (m : ProxyManager) (handles : List ChildServerHandle) :
    m.collisionsAmong handles = [] ↔
      (∀ e ∈ m.shown handles, e.1 ∉ m.nativeToolNames) ∧
        ((m.shown handles).map Prod.fst).Nodup := by
  rw [collisionsAmong, collisions_foldl_visit]
  simp [Dict.get?_empty]

theorem names_listAggregatedTools (m : ProxyManager) :
    m.listAggregatedTools.map (·.name) =
      (m.shown (m.children.values.filter running)).map Prod.fst := by
  simp only [listAggregatedTools, shown, entries, map_flatMap, List.map_map,
    Function.comp_def]

theorem exists_entry_iff (m : ProxyManager) (name server tool : Text) :
    (∃ entry ∈ m.listAggregatedTools, entry.name = name ∧ entry.proxyServerId = server ∧
        entry.originalName = tool) ↔
      ∃ handle ∈ m.children.values, running handle = true ∧
        tool ∈ handle.listTools.map (·.name) ∧ m.prefixedName handle tool = name ∧
        handle.config.id = server := by
  simp only [listAggregatedTools, entries, mem_flatMap, List.mem_filter, List.mem_map]
  constructor
  · rintro ⟨entry, ⟨handle, ⟨hhandle, hrunning⟩, listed, hlisted, rfl⟩, hname, hserver, htool⟩
    dsimp only at hname hserver htool
    exact ⟨handle, hhandle, hrunning, ⟨listed, hlisted, htool⟩, htool ▸ hname, hserver⟩
  · rintro ⟨handle, hhandle, hrunning, ⟨listed, hlisted, rfl⟩, hname, hserver⟩
    exact ⟨_, ⟨handle, ⟨hhandle, hrunning⟩, listed, hlisted, rfl⟩, hname, hserver, rfl⟩

variable {m : ProxyManager} {handle : ChildServerHandle}

theorem get?_id_of_mem (h : handle ∈ m.children.values) :
    m.children.get? handle.config.id = some handle := by
  obtain ⟨id, hid⟩ := (Dict.mem_values _ _).mp h
  rw [m.keyed id handle hid, hid]

theorem unprefixed?_eq_some_iff (m : ProxyManager) (name tool : Text)
    (handle : ChildServerHandle) :
    m.unprefixed? name handle = some tool ↔
      running handle = true ∧ handle.Discovers tool ∧ m.prefixedName handle tool = name := by
  unfold unprefixed? prefixedName
  constructor
  · intro h
    dsimp only at h
    split_ifs at h with hmatch hknown
    obtain ⟨rest, rfl⟩ := hmatch.2
    rw [some.injEq] at h
    rw [drop_left] at h hknown
    subst h
    exact ⟨hmatch.1, hknown, rfl⟩
  · rintro ⟨hrunning, hdiscovers, rfl⟩
    dsimp only
    rw [if_pos ⟨hrunning, prefix_append _ _⟩, drop_left]
    exact if_pos hdiscovers

/-- The prefixed name of a discovered tool of a running child is routed to that child: no
running child before it discovers a tool of the same prefixed name. -/
structure Reaches (m : ProxyManager) (handle : ChildServerHandle) (tool : Text) : Prop where
  running : running handle = true
  discovers : handle.Discovers tool
  first : ∃ before after, m.children.values = before ++ handle :: after ∧
    ∀ other ∈ before, ProxyManager.running other = true →
      ∀ tool', other.Discovers tool' → m.prefixedName other tool' ≠ m.prefixedName handle tool

theorem resolveServerForTool_eq_some_iff (m : ProxyManager) (name tool : Text)
    (handle : ChildServerHandle) :
    m.resolveServerForTool name = some (handle, tool) ↔
      m.Reaches handle tool ∧ m.prefixedName handle tool = name := by
  unfold resolveServerForTool
  rw [findSome?_eq_some_iff]
  constructor
  · rintro ⟨before, found, after, hsplit, hfound, hbefore⟩
    rw [map_eq_some_iff] at hfound
    obtain ⟨tool', htool', heq⟩ := hfound
    obtain ⟨rfl, rfl⟩ := Prod.mk.inj heq
    obtain ⟨hrunning, hdiscovers, rfl⟩ := (unprefixed?_eq_some_iff m _ _ _).mp htool'
    refine ⟨⟨hrunning, hdiscovers, before, after, hsplit, ?_⟩, rfl⟩
    intro other hother hrun tool hdisc hname
    have hnone := hbefore other hother
    rw [(unprefixed?_eq_some_iff m _ _ _).mpr ⟨hrun, hdisc, hname⟩] at hnone
    cases hnone
  · rintro ⟨⟨hrunning, hdiscovers, before, after, hsplit, hfirst⟩, rfl⟩
    refine ⟨before, handle, after, hsplit, ?_, ?_⟩
    · rw [(unprefixed?_eq_some_iff m _ _ _).mpr ⟨hrunning, hdiscovers, rfl⟩]
      rfl
    · intro other hother
      rw [map_eq_none_iff, eq_none_iff_forall_ne_some]
      intro tool' htool'
      obtain ⟨hrun, hdisc, hname⟩ := (unprefixed?_eq_some_iff m _ _ _).mp htool'
      exact hfirst other hother hrun tool' hdisc hname

def HandsOver (m : ProxyManager) (name server tool : Text) : Prop :=
  ∃ m', (callProxyTool name).run m = .ok (server, tool) m'

theorem onChild_ok_iff (hmem : handle ∈ m.children.values) (x : ChildServerHandle.HandleM Unit) :
    (∃ m', (onChild handle.config.id x).run m = .ok () m') ↔
      ∃ handle', x.run handle = .ok () handle' := by
  simp only [EStateM.run, onChild, get?_id_of_mem hmem]
  cases x handle with
  | ok a handle' => exact ⟨fun _ => ⟨handle', rfl⟩, fun _ => ⟨m.put handle', rfl⟩⟩
  | error e handle' =>
    constructor
    · rintro ⟨m', h⟩
      cases h
    · rintro ⟨other, h⟩
      cases h

theorem Reaches.mem (h : m.Reaches handle tool) : handle ∈ m.children.values := by
  obtain ⟨before, after, hsplit, -⟩ := h.first
  rw [hsplit]
  exact mem_append_right before mem_cons_self

theorem callProxyTool_of_resolved
    (h : m.resolveServerForTool name = some (handle, tool)) : (callProxyTool name).run m =
      (do
        onChild handle.config.id (callTool tool)
        pure (handle.config.id, tool) : ManagerM (Text × Text)).run m := by
  unfold callProxyTool
  rw [run_bind]
  dsimp only [run_get]
  rw [h]

theorem handsOver_iff (m : ProxyManager) (name server tool : Text) :
    m.HandsOver name server tool ↔
      ∃ handle, m.Reaches handle tool ∧ m.prefixedName handle tool = name ∧ handle.Ready ∧
        tool ∉ handle.config.governance.blockedTools ∧ handle.config.id = server := by
  constructor
  · rintro ⟨m', h⟩
    cases hresolve : m.resolveServerForTool name with
    | none =>
      unfold callProxyTool at h
      rw [run_bind] at h
      dsimp only [run_get] at h
      rw [hresolve] at h
      cases h
    | some resolved =>
      obtain ⟨handle, tool'⟩ := resolved
      obtain ⟨hreach, hname⟩ := (resolveServerForTool_eq_some_iff m _ _ _).mp hresolve
      rw [callProxyTool_of_resolved hresolve, run_bind] at h
      cases hcall : (onChild handle.config.id (callTool tool')).run m with
      | error e s =>
        rw [hcall] at h
        cases h
      | ok a s =>
        rw [hcall] at h
        obtain ⟨hready, -, hblocked⟩ := (callTool_ok_iff handle tool').mp
          ((onChild_ok_iff hreach.mem _).mp ⟨s, hcall⟩)
        cases h
        exact ⟨handle, hreach, hname, hready, hblocked, rfl⟩
  · rintro ⟨handle, hreach, hname, hready, hblocked, rfl⟩
    obtain ⟨m', hcall⟩ := (onChild_ok_iff hreach.mem _).mpr
      ((callTool_ok_iff handle tool).mpr ⟨hready, hreach.discovers, hblocked⟩)
    refine ⟨m', ?_⟩
    rw [callProxyTool_of_resolved
      ((resolveServerForTool_eq_some_iff m _ _ _).mpr ⟨hreach, hname⟩), run_bind, hcall]
    rfl

structure Faithful (m : ProxyManager) : Prop where
  distinct : (m.listAggregatedTools.map (·.name)).Nodup
  native : ∀ entry ∈ m.listAggregatedTools, entry.name ∉ m.nativeToolNames
  called : ∀ name server tool, m.HandsOver name server tool →
    ∃ entry ∈ m.listAggregatedTools, entry.name = name ∧ entry.proxyServerId = server ∧
      entry.originalName = tool
  hidden : ∀ name server tool handle, m.HandsOver name server tool →
    m.children.get? server = some handle →
      ChildServerHandle.shows handle.config.governance tool = true

/-- The collision check of the manager would find nothing on the running children, and no
allow list leaves out a tool that a call reaches. -/
structure Clean (m : ProxyManager) : Prop where
  apart : m.collisionsAmong (m.children.values.filter running) = []
  allowed : ∀ handle tool, m.Reaches handle tool → handle.Ready →
    tool ∉ handle.config.governance.blockedTools →
      handle.config.governance.allowedTools = [['*']] ∨
        tool ∈ handle.config.governance.allowedTools

theorem distinct_native_iff (m : ProxyManager) :
    (m.listAggregatedTools.map (·.name)).Nodup ∧
        (∀ entry ∈ m.listAggregatedTools, entry.name ∉ m.nativeToolNames) ↔
      m.collisionsAmong (m.children.values.filter running) = [] := by
  have hnative : (∀ entry ∈ m.listAggregatedTools, entry.name ∉ m.nativeToolNames) ↔
      ∀ name ∈ m.listAggregatedTools.map (·.name), name ∉ m.nativeToolNames := by
    simp only [List.forall_mem_map]
  rw [hnative, names_listAggregatedTools, collisionsAmong_eq_nil_iff, List.forall_mem_map,
    and_comm]

theorem faithful_iff_clean (m : ProxyManager) : m.Faithful ↔ m.Clean := by
  constructor
  · intro h
    refine ⟨(distinct_native_iff m).mp ⟨h.distinct, h.native⟩, ?_⟩
    intro handle tool hreach hready hblocked
    have hover := (handsOver_iff m _ _ tool).mpr ⟨handle, hreach, rfl, hready, hblocked, rfl⟩
    have hshows := h.hidden _ _ tool handle hover (get?_id_of_mem hreach.mem)
    rw [shows, decide_eq_true_eq] at hshows
    exact hshows.2
  · intro h
    obtain ⟨hdistinct, hnative⟩ := (distinct_native_iff m).mpr h.apart
    have hshown : ∀ name server tool, m.HandsOver name server tool →
        ∃ handle, m.Reaches handle tool ∧ m.prefixedName handle tool = name ∧
          handle.config.id = server ∧
            shows handle.config.governance tool = true := by
      intro name server tool hover
      obtain ⟨handle, hreach, hname, hready, hblocked, hid⟩ := (handsOver_iff m _ _ _).mp hover
      have hallowed := h.allowed handle tool hreach hready hblocked
      exact ⟨handle, hreach, hname, hid, decide_eq_true ⟨hblocked, hallowed⟩⟩
    refine ⟨hdistinct, hnative, ?_, ?_⟩
    · intro name server tool hover
      obtain ⟨handle, hreach, hname, hid, hshows⟩ := hshown name server tool hover
      have hlisted := (mem_listTools handle tool).mpr
        ⟨hreach.discovers, hshows⟩
      exact (exists_entry_iff m _ _ _).mpr
        ⟨handle, hreach.mem, hreach.running, hlisted, hname, hid⟩
    · intro name server tool handle hover hget
      obtain ⟨reached, hreach, -, rfl, hshows⟩ := hshown name server tool hover
      rw [get?_id_of_mem hreach.mem] at hget
      rwa [← some.inj hget]

theorem faithful_along_iff (m : ProxyManager) (ops : List Op) :
    History.Along (History.next Op.run) (fun m op => (History.next Op.run m op).Faithful) m ops ↔
      History.Along (History.next Op.run) (fun m op => (History.next Op.run m op).Clean) m ops :=
  History.along_congr (I := fun _ => True) (fun _ _ _ _ => trivial)
    (fun _ _ _ => faithful_iff_clean _) trivial ops

def idle : ProxyManager := {}

def readOnlyFleet : List Op :=
  [ .addServer { id := ['s'], governance := { allowedTools := [['r']] } },
    .registerTools ['s'] [{ name := ['r'] }, { name := ['w'] }],
    .setCallHandler ['s'] true ]

theorem not_faithful_readOnlyFleet :
    ¬ (readOnlyFleet.foldl (History.next Op.run) idle).Faithful := by
  intro h
  have hover : (readOnlyFleet.foldl (History.next Op.run) idle).HandsOver
      ['s', '_', '_', 'w'] ['s'] ['w'] := ⟨_, rfl⟩
  have hshows := h.hidden _ _ _ _ hover rfl
  revert hshows
  decide

end ProxyManager

end Agent33.McpServer
