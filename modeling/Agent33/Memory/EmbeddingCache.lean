import Agent33.Memory.EmbeddingSwap
import Mathlib.Data.List.ReduceOption

/-!
# The embedding cache under a swap

A call of `embed` or `embed_batch` looks its texts up, asks the provider for those it misses
and stores the answer, with awaits in between. A swap or rollback sets the model of the
provider, clears the cache under the lock of the cache and then changes the current model.
An embedding is known by the model that computed it and by its text.
-/

namespace Agent33.Memory

open Library List

structure Embedding where
  model : String
  text : String
  deriving DecidableEq

structure EmbeddingCache where
  maxSize : ℕ
  cache : Dict String Embedding := Dict.empty
  hits : ℕ := 0
  misses : ℕ := 0

namespace EmbeddingCache

def moveToEnd (c : EmbeddingCache) (key : String) (e : Embedding) : EmbeddingCache :=
  { c with cache := (c.cache.erase key).set key e }

def lookup (c : EmbeddingCache) (key : String) : Option Embedding × EmbeddingCache :=
  match c.cache.get? key with
  | none => (none, c)
  | some e => (some e, { c.moveToEnd key e with hits := c.hits + 1 })

def lookupAll (c : EmbeddingCache) : List String → List (Option Embedding) × EmbeddingCache
  | [] => ([], c)
  | key :: keys =>
    ((c.lookup key).1 :: (lookupAll (c.lookup key).2 keys).1, (lookupAll (c.lookup key).2 keys).2)

def store (c : EmbeddingCache) (key : String) (e : Embedding) : EmbeddingCache :=
  { c.moveToEnd key e with misses := c.misses + 1 }

def storeAll (c : EmbeddingCache) (stored : List (String × Embedding)) : EmbeddingCache :=
  stored.foldl (fun c place => c.store place.1 place.2) c

def evict (c : EmbeddingCache) : EmbeddingCache := { c with
  cache := ⟨c.cache.entries.drop (c.cache.entries.length - c.maxSize),
    c.cache.nodup.sublist ((drop_sublist _ _).map _)⟩ }

def clear (c : EmbeddingCache) : EmbeddingCache := { c with cache := Dict.empty }

end EmbeddingCache

/-- Where a call of `embed` or `embed_batch` stands; what was found has a place for each text. -/
inductive EmbedPhase
  | started
  | lookedUp (found : List (Option Embedding))
  | requested (found : List (Option Embedding)) (model : String)
  | answered (found : List (Option Embedding)) (new : List Embedding)
  | returned (results : List Embedding)
  | raised
  deriving DecidableEq

structure EmbedCall where
  texts : List String
  models : List String
  phase : EmbedPhase
  deriving DecidableEq

inductive Switch
  | swap (targetModelId initiatedBy : String)
  | rollback

def Switch.call (switch : Switch) (failure : Option Failure) : SwapCall :=
  match switch with
  | .swap targetModelId initiatedBy => .executeSwap targetModelId initiatedBy failure
  | .rollback => .rollbackLastSwap failure

def Switch.target (switch : Switch) (m : EmbeddingSwapManager) : Option EmbeddingModelInfo :=
  match switch with
  | .swap targetModelId _ =>
    if targetModelId = m.currentModel.modelId then none else m.models.get? targetModelId
  | .rollback => (m.history.find? EmbeddingSwapManager.isCompleted).bind fun lastCompleted =>
    m.models.get? lastCompleted.fromModel

/-- The manager is wired to the cache and to its provider; `switching` holds its lock. -/
structure Embedder where
  manager : EmbeddingSwapManager
  cache : EmbeddingCache
  switching : Option Switch := none
  calls : List EmbedCall := []

inductive EmbedStep
  | embed (texts : List String)
  | lookup (call : ℕ)
  | proceed (call : ℕ)
  | answer (call : ℕ) (count : ℕ)
  | store (call : ℕ)
  | raise (call : ℕ)
  | beginSwitch (switch : Switch) (error : Option String)
  | endSwitch (failure : Option Failure)

def missed (texts : List String) (found : List (Option Embedding)) : List String :=
  (texts.zip found).filterMap fun place => if place.2.isNone then some place.1 else none

def fill : List (Option Embedding) → List Embedding → List Embedding
  | [], _ => []
  | some e :: found, new => e :: fill found new
  | none :: found, e :: new => e :: fill found new
  | none :: found, [] => fill found []

namespace Embedder

variable (s : Embedder)

def inUse : List String :=
  s.manager.currentModel.modelId :: s.manager.providerModel.toList

def goes (n : ℕ) (texts models : List String) (phase : EmbedPhase) : Embedder :=
  { s with calls := s.calls.set n ⟨texts, models, phase⟩ }

def noted : Embedder :=
  { s with calls := s.calls.map fun call => { call with models := call.models ++ s.inUse } }

/-- A failure at the provider leaves nothing to wait for; else the cache lock is next. -/
def beginSwitch (switch : Switch) (error : Option String) : Embedder :=
  match s.switching, switch.target s.manager, error with
  | none, some _, some error =>
    { s with manager := s.manager.next (switch.call (some ⟨.setProvider, error⟩)) }
  | none, some target, none => noted { s with
      manager := s.manager.setProvider target.modelId
      switching := some switch }
  | _, _, _ => s

def endSwitch (failure : Option Failure) : Embedder :=
  match s.switching, failure with
  | none, _ => s
  | some _, some ⟨.setProvider, _⟩ => s
  | some switch, some ⟨.invalidateCache, error⟩ => noted { s with
      manager := s.manager.next (switch.call (some ⟨.invalidateCache, error⟩))
      switching := none }
  | some switch, failure => noted { s with
      manager := s.manager.next (switch.call failure)
      cache := s.cache.clear
      switching := none }

def next (textKey : String → String) (s : Embedder) : EmbedStep → Embedder
  | .embed texts => { s with calls := s.calls ++
      [⟨texts, s.inUse, if texts.isEmpty then .returned [] else .started⟩] }
  | .lookup n =>
    match s.calls[n]? with
    | some ⟨texts, models, .started⟩ =>
      { s with cache := (s.cache.lookupAll (texts.map textKey)).2 }.goes n texts models
        (.lookedUp (s.cache.lookupAll (texts.map textKey)).1)
    | _ => s
  | .proceed n =>
    match s.calls[n]?, s.manager.providerModel with
    | some ⟨texts, models, .lookedUp found⟩, some model =>
      if found.all Option.isSome then s.goes n texts models (.returned (fill found []))
      else s.goes n texts models (.requested found model)
    | _, _ => s
  | .answer n count =>
    match s.calls[n]? with
    | some ⟨texts, models, .requested found model⟩ => s.goes n texts models
        (.answered found (((missed texts found).map (Embedding.mk model)).take count))
    | _ => s
  | .store n =>
    match s.calls[n]? with
    | some ⟨texts, models, .answered found new⟩ =>
      let cache := s.cache.storeAll (((missed texts found).map textKey).zip new)
      -- an answer that is too short raises at its end, before the eviction
      if new.length < (missed texts found).length then
        { s with cache }.goes n texts models .raised
      else { s with cache := cache.evict }.goes n texts models (.returned (fill found new))
    | _ => s
  | .raise n =>
    match s.calls[n]? with
    | some ⟨texts, models, .lookedUp _⟩ => s.goes n texts models .raised
    | some ⟨texts, models, .requested _ _⟩ => s.goes n texts models .raised
    | some ⟨texts, models, .answered _ _⟩ => s.goes n texts models .raised
    | _ => s
  | .beginSwitch switch error => s.beginSwitch switch error
  | .endSwitch failure => s.endSwitch failure

end Embedder

namespace EmbeddingCache

theorem get?_moveToEnd (c : EmbeddingCache) (key key' : String) (e : Embedding) :
    (c.moveToEnd key e).cache.get? key' = if key' = key then some e else c.cache.get? key' := by
  rw [moveToEnd, Dict.get?_set, Dict.get?_erase]
  split_ifs <;> rfl

theorem get?_lookup (c : EmbeddingCache) (key key' : String) :
    (c.lookup key).2.cache.get? key' = c.cache.get? key' := by
  rw [lookup]
  split
  case h_1 => rfl
  case h_2 e he =>
    change (c.moveToEnd key e).cache.get? key' = _
    rw [get?_moveToEnd]
    split_ifs with hkey
    · rw [hkey, he]
    · rfl

theorem get?_lookupAll (c : EmbeddingCache) (keys : List String) (key : String) :
    (c.lookupAll keys).2.cache.get? key = c.cache.get? key := by
  induction keys generalizing c with
  | nil => rfl
  | cons key' keys ih => exact (ih _).trans (get?_lookup c key' key)

variable {c : EmbeddingCache}

theorem get?_of_mem_lookupAll {keys : List String} (h : some e ∈ (c.lookupAll keys).1) :
    ∃ key, c.cache.get? key = some e := by
  induction keys generalizing c with
  | nil => cases h
  | cons key keys ih =>
    rcases mem_cons.mp h with h | h
    · refine ⟨key, ?_⟩
      rw [lookup] at h
      split at h
      case h_1 => cases h
      case h_2 e' he' =>
        rw [he']
        exact h.symm
    · obtain ⟨key', hget⟩ := ih h
      exact ⟨key', (get?_lookup c key key').symm.trans hget⟩

theorem get?_storeAll (h : (c.storeAll stored).cache.get? key = some e) :
    c.cache.get? key = some e ∨ (key, e) ∈ stored := by
  induction stored generalizing c with
  | nil => exact .inl h
  | cons place stored ih =>
    rcases ih (c := c.store place.1 place.2) h with h | h
    · change (c.moveToEnd place.1 place.2).cache.get? key = some e at h
      rw [get?_moveToEnd] at h
      split_ifs at h with hkey
      · obtain rfl := Option.some.inj h
        exact .inr (hkey ▸ mem_cons_self)
      · exact .inl h
    · exact .inr (mem_cons_of_mem _ h)

theorem get?_evict (h : c.evict.cache.get? key = some e) : c.cache.get? key = some e := by
  rw [← Dict.mem_entries] at h ⊢
  exact mem_of_mem_drop h

end EmbeddingCache

def EmbedPhase.models : EmbedPhase → List String
  | .started | .raised => []
  | .lookedUp found => found.reduceOption.map Embedding.model
  | .requested found model => model :: found.reduceOption.map Embedding.model
  | .answered found new => found.reduceOption.map Embedding.model ++ new.map Embedding.model
  | .returned results => results.map Embedding.model

def EmbedPhase.new : EmbedPhase → List Embedding
  | .answered _ new => new
  | _ => []

theorem mem_fill (h : e ∈ fill found new) : some e ∈ found ∨ e ∈ new := by
  fun_induction fill found new with
  | case1 => cases h
  | case2 e' found new ih =>
    rcases mem_cons.mp h with rfl | h
    · exact .inl mem_cons_self
    · exact (ih h).imp_left (mem_cons_of_mem _)
  | case3 found e' new ih =>
    rcases mem_cons.mp h with rfl | h
    · exact .inr mem_cons_self
    · exact (ih h).imp (mem_cons_of_mem _) (mem_cons_of_mem _)
  | case4 found ih => exact (ih h).imp_left (mem_cons_of_mem _)

namespace Embedder

def Fresh (s : Embedder) : Prop :=
  ∀ call ∈ s.calls, ∀ results, call.phase = .returned results →
    ∀ e ∈ results, e.model ∈ call.models

/-- What is stored was computed by a model in use, and a switch that fails to clear the cache
leaves no embedding of its own model there. -/
def Coherent (s : Embedder) : EmbedStep → Prop
  | .store n => ∀ call ∈ s.calls[n]?, ∀ e ∈ call.phase.new, e.model ∈ s.inUse
  | .endSwitch failure => s.switching.isSome = true →
      failure.any (fun f => f.step = .invalidateCache) = true →
        ∀ e ∈ s.cache.cache.values, e.model = s.manager.currentModel.modelId
  | _ => True

instance (s : Embedder) (e : EmbedStep) : Decidable (s.Coherent e) :=
  match e with
  | .store n => inferInstanceAs (Decidable
      (∀ call ∈ s.calls[n]?, ∀ e ∈ call.phase.new, e.model ∈ s.inUse))
  | .endSwitch failure => inferInstanceAs (Decidable (s.switching.isSome = true →
      failure.any (fun f => f.step = .invalidateCache) = true →
        ∀ e ∈ s.cache.cache.values, e.model = s.manager.currentModel.modelId))
  | .embed _ | .lookup _ | .proceed _ | .answer _ _ | .raise _ | .beginSwitch _ _ =>
    .isTrue trivial

/-- The provider has the current model, or the one that a switch in progress goes to. -/
def Wired (s : Embedder) : Prop :=
  match s.switching with
  | none => s.manager.providerModel = some s.manager.currentModel.modelId
  | some switch => ∃ target, switch.target s.manager = some target ∧
      s.manager.providerModel = some target.modelId

structure Sound (s : Embedder) : Prop where
  wired : s.Wired
  cached : ∀ {key : String} {e : Embedding}, s.cache.cache.get? key = some e → e.model ∈ s.inUse
  inUse : ∀ call ∈ s.calls, ∀ model ∈ s.inUse, model ∈ call.models
  calls : ∀ call ∈ s.calls, ∀ model ∈ call.phase.models, model ∈ call.models

variable {s : Embedder}

theorem Sound.fresh (h : s.Sound) : s.Fresh := by
  intro call hcall results hphase e he
  refine h.calls call hcall e.model ?_
  rw [hphase]
  exact mem_map_of_mem he

theorem Sound.goes (h : s.Sound) (hcall : s.calls[n]? = some ⟨texts, models, phase⟩)
    {cache : EmbeddingCache}
    (hcached : ∀ {key : String} {e : Embedding}, cache.cache.get? key = some e → e.model ∈ s.inUse)
    (hphase : ∀ model ∈ phase'.models, model ∈ models) :
    ({ s with cache }.goes n texts models phase').Sound := by
  have hold : (⟨texts, models, phase⟩ : EmbedCall) ∈ s.calls := mem_of_getElem? hcall
  refine ⟨h.wired, hcached, fun call hmem => ?_, fun call hmem => ?_⟩
  · rcases mem_or_eq_of_mem_set hmem with hmem | rfl
    · exact h.inUse call hmem
    · exact fun model => h.inUse _ hold model
  · rcases mem_or_eq_of_mem_set hmem with hmem | rfl
    · exact h.calls call hmem
    · exact hphase

theorem Sound.noted (hwired : s.Wired)
    (hcached : ∀ {key : String} {e : Embedding},
      s.cache.cache.get? key = some e → e.model ∈ s.inUse)
    (hcalls : ∀ call ∈ s.calls, ∀ model ∈ call.phase.models, model ∈ call.models) :
    s.noted.Sound := by
  refine ⟨hwired, hcached, fun call hmem model hmodel => ?_, fun call hmem model hmodel => ?_⟩
  · obtain ⟨call, _, rfl⟩ := mem_map.mp hmem
    exact mem_append_right _ hmodel
  · obtain ⟨call, hcall, rfl⟩ := mem_map.mp hmem
    exact mem_append_left _ (hcalls call hcall model hmodel)

theorem mem_models_fill (h : model ∈ (EmbedPhase.returned (fill found new)).models) :
    model ∈ (EmbedPhase.answered found new).models := by
  obtain ⟨e, he, rfl⟩ := mem_map.mp h
  rcases mem_fill he with he | he
  · exact mem_append_left _ (mem_map_of_mem (reduceOption_mem_iff.mpr he))
  · exact mem_append_right _ (mem_map_of_mem he)

section

variable (h : s.Sound) (textKey : String → String)
include h textKey

theorem Sound.lookup (n : ℕ) : (s.next textKey (.lookup n)).Sound := by
  rw [next]
  split
  case h_2 => exact h
  case h_1 texts models hcall =>
    refine h.goes hcall (fun hget => ?_) fun model hmodel => ?_
    · rw [EmbeddingCache.get?_lookupAll] at hget
      exact h.cached hget
    · obtain ⟨e, he, rfl⟩ := mem_map.mp hmodel
      obtain ⟨key, hget⟩ := EmbeddingCache.get?_of_mem_lookupAll (reduceOption_mem_iff.mp he)
      exact h.inUse _ (mem_of_getElem? hcall) _ (h.cached hget)

theorem Sound.proceed (n : ℕ) : (s.next textKey (.proceed n)).Sound := by
  rw [next]
  split
  case h_2 => exact h
  case h_1 texts models found model hcall hmodel =>
    have hmem := mem_of_getElem? hcall
    split_ifs
    · refine h.goes hcall h.cached fun model' hmodel' => ?_
      have hfill := mem_models_fill hmodel'
      rw [EmbedPhase.models, map_nil, append_nil] at hfill
      exact h.calls _ hmem model' hfill
    · refine h.goes hcall h.cached fun model' hmodel' => ?_
      rcases mem_cons.mp hmodel' with rfl | hmodel'
      · exact h.inUse _ hmem model' (by simp [Embedder.inUse, hmodel])
      · exact h.calls _ hmem model' hmodel'

theorem Sound.answer (n count : ℕ) : (s.next textKey (.answer n count)).Sound := by
  rw [next]
  split
  case h_2 => exact h
  case h_1 texts models found model hcall =>
    have hmem := mem_of_getElem? hcall
    refine h.goes hcall h.cached fun model' hmodel' => ?_
    rcases mem_append.mp hmodel' with hmodel' | hmodel'
    · exact h.calls _ hmem model' (mem_cons_of_mem _ hmodel')
    · obtain ⟨e, he, rfl⟩ := mem_map.mp hmodel'
      obtain ⟨text, _, rfl⟩ := mem_map.mp (mem_of_mem_take he)
      exact h.calls _ hmem model mem_cons_self

theorem Sound.store (hcoherent : s.Coherent (.store n)) : (s.next textKey (.store n)).Sound := by
  rw [next]
  split
  case h_2 => exact h
  case h_1 texts models found new hcall =>
    have hmem := mem_of_getElem? hcall
    have hstored {key : String} {e : Embedding} (hget : (s.cache.storeAll
        (((missed texts found).map textKey).zip new)).cache.get? key = some e) :
        e.model ∈ s.inUse := by
      rcases EmbeddingCache.get?_storeAll hget with hget | hzip
      · exact h.cached hget
      · exact hcoherent _ hcall e (of_mem_zip hzip).2
    split_ifs
    · exact h.goes hcall hstored fun model hmodel => by cases hmodel
    · exact h.goes hcall (fun hget => hstored (EmbeddingCache.get?_evict hget)) fun model hmodel =>
        h.calls _ hmem model (mem_models_fill hmodel)

theorem Sound.raise (n : ℕ) : (s.next textKey (.raise n)).Sound := by
  rw [next]
  split
  case h_4 => exact h
  case h_1 hcall => exact h.goes hcall h.cached fun model hmodel => by cases hmodel
  case h_2 hcall => exact h.goes hcall h.cached fun model hmodel => by cases hmodel
  case h_3 hcall => exact h.goes hcall h.cached fun model hmodel => by cases hmodel

theorem Sound.embed (texts : List String) : (s.next textKey (.embed texts)).Sound := by
  refine ⟨h.wired, h.cached, fun call hmem => ?_, fun call hmem => ?_⟩
  · rcases mem_append.mp hmem with hmem | hmem
    · exact h.inUse call hmem
    · rw [mem_singleton.mp hmem]
      exact fun _ hmodel => hmodel
  · rcases mem_append.mp hmem with hmem | hmem
    · exact h.calls call hmem
    · rw [mem_singleton.mp hmem]
      intro model hmodel
      dsimp only at hmodel
      split_ifs at hmodel <;> cases hmodel

end

theorem switch_next {m : EmbeddingSwapManager} {switch : Switch} {target : EmbeddingModelInfo}
    (h : switch.target m = some target) (failure : Option Failure) :
    (m.next (switch.call failure)).currentModel =
        (if failure.isNone then target else m.currentModel) ∧
      (m.next (switch.call failure)).providerModel = m.providerModel.map fun _ =>
        if failure.isNone then target.modelId else m.currentModel.modelId := by
  have hreturned : ∃ r mark status,
      m.returned (switch.call failure) = some (m.switch target r mark status failure) := by
    cases switch with
    | swap targetModelId initiatedBy =>
      rw [Switch.target] at h
      split_ifs at h with hactive
      refine ⟨⟨m.currentModel.modelId, targetModelId, initiatedBy, .pending, ""⟩, id, .completed,
        ?_⟩
      simp only [Switch.call, EmbeddingSwapManager.returned, EmbeddingSwapManager.executeSwap, h,
        if_neg hactive]
      rfl
    | rollback =>
      obtain ⟨last, hlast, htarget⟩ := Option.bind_eq_some_iff.mp h
      refine ⟨⟨m.currentModel.modelId, last.fromModel, "system:rollback", .pending, ""⟩,
        EmbeddingSwapManager.markRolledBack, .rolledBack, ?_⟩
      simp only [Switch.call, EmbeddingSwapManager.returned, EmbeddingSwapManager.rollbackLastSwap,
        hlast, htarget]
  obtain ⟨r, mark, status, hreturned⟩ := hreturned
  rw [EmbeddingSwapManager.next, hreturned]
  cases failure with
  | none => exact ⟨rfl, rfl⟩
  | some f =>
    rw [EmbeddingSwapManager.switch_reverts]
    exact ⟨rfl, rfl⟩

theorem Sound.beginSwitch (h : s.Sound) (switch : Switch) (error : Option String) :
    (s.beginSwitch switch error).Sound := by
  have hwired := h.wired
  unfold Wired at hwired
  unfold Embedder.beginSwitch
  split
  case h_1 target error hswitching htarget =>
    rw [hswitching] at hwired
    obtain ⟨hcurrent, hprovider⟩ := switch_next htarget (some ⟨.setProvider, error⟩)
    have hsame : (s.manager.next (switch.call (some ⟨.setProvider, error⟩))).providerModel =
        s.manager.providerModel := by
      rw [hprovider, hwired]
      rfl
    have hinUse : ({ s with
        manager := s.manager.next (switch.call (some ⟨.setProvider, error⟩)) } : Embedder).inUse =
          s.inUse := by
      rw [Embedder.inUse, Embedder.inUse, hsame, hcurrent]
      rfl
    refine ⟨?_, fun hget => hinUse ▸ h.cached hget, fun call hcall => hinUse ▸ h.inUse call hcall,
      h.calls⟩
    rw [Wired, hswitching]
    rw [hsame, hcurrent]
    exact hwired
  case h_2 target hswitching htarget =>
    rw [hswitching] at hwired
    refine Sound.noted ?_ (fun {key e} hget => ?_) h.calls
    · rw [Wired]
      refine ⟨target, htarget, ?_⟩
      change s.manager.providerModel.map _ = _
      rw [hwired]
      rfl
    · have hmem := h.cached hget
      rw [Embedder.inUse, hwired] at hmem
      simp only [Option.toList_some, mem_cons, not_mem_nil, or_false, or_self] at hmem
      rw [Embedder.inUse, hmem]
      exact mem_cons_self
  case h_3 => exact h

theorem Sound.endSwitch (h : s.Sound) {failure : Option Failure}
    (hcoherent : s.Coherent (.endSwitch failure)) : (s.endSwitch failure).Sound := by
  have hwired := h.wired
  unfold Wired at hwired
  have hended (switch : Switch) (hswitching : s.switching = some switch) (failure : Option Failure)
      (cache : EmbeddingCache) : ({ s with
        manager := s.manager.next (switch.call failure)
        cache
        switching := none } : Embedder).Wired := by
    rw [hswitching] at hwired
    obtain ⟨target, htarget, hprovider⟩ := hwired
    obtain ⟨hcurrent, hprovider'⟩ := switch_next htarget failure
    change (s.manager.next _).providerModel = some (s.manager.next _).currentModel.modelId
    rw [hprovider', hcurrent, hprovider]
    cases failure <;> rfl
  unfold Embedder.endSwitch
  split
  case h_1 => exact h
  case h_2 => exact h
  case h_3 switch error hswitching =>
    refine Sound.noted (hended switch hswitching _ s.cache) (fun {key e} hget => ?_) h.calls
    have hmodel := hcoherent (by rw [hswitching]; rfl) rfl e
      (mem_map_of_mem ((Dict.mem_entries _ key e).mpr hget))
    rw [hswitching] at hwired
    obtain ⟨target, htarget, _⟩ := hwired
    obtain ⟨hcurrent, _⟩ := switch_next htarget (some ⟨.invalidateCache, error⟩)
    rw [Embedder.inUse, hcurrent, hmodel]
    exact mem_cons_self
  case h_4 switch hswitching _ _ =>
    exact Sound.noted (hended switch hswitching _ _) (fun hget => by cases hget) h.calls

def start (currentModel : EmbeddingModelInfo) (maxHistory : Int)
    (registered : List EmbeddingModelInfo) (maxSize : Int) : Embedder where
  manager := EmbeddingSwapManager.start currentModel maxHistory true registered
  cache := { maxSize := (max 1 maxSize).toNat }

theorem Sound.start (currentModel : EmbeddingModelInfo) (maxHistory : Int)
    (registered : List EmbeddingModelInfo) (maxSize : Int) :
    (Embedder.start currentModel maxHistory registered maxSize).Sound := by
  refine ⟨?_, fun hget => (nomatch hget), fun _ hcall => (nomatch hcall),
    fun _ hcall => (nomatch hcall)⟩
  have key (m : EmbeddingSwapManager) (hm : m.providerModel = some m.currentModel.modelId) :
      (registered.foldl EmbeddingSwapManager.registerModel m).providerModel =
        some (registered.foldl EmbeddingSwapManager.registerModel m).currentModel.modelId := by
    induction registered generalizing m with
    | nil => exact hm
    | cons info registered ih => exact ih _ hm
  exact key (.new currentModel maxHistory true) rfl

theorem Sound.next (h : s.Sound) (textKey : String → String)
    (hcoherent : s.Coherent e) : (s.next textKey e).Sound := by
  cases e with
  | embed texts => exact h.embed textKey texts
  | lookup n => exact h.lookup textKey n
  | proceed n => exact h.proceed textKey n
  | answer n count => exact h.answer textKey n count
  | store n => exact h.store textKey hcoherent
  | raise n => exact h.raise textKey n
  | beginSwitch switch error => exact h.beginSwitch switch error
  | endSwitch failure => exact h.endSwitch hcoherent

/-- If nothing is stored that a model out of use has computed, every result comes from a model
that has been in use since its call started. -/
theorem run_fresh (textKey : String → String) (currentModel : EmbeddingModelInfo)
    (maxHistory : Int) (registered : List EmbeddingModelInfo) (maxSize : Int)
    (steps : List EmbedStep)
    (h : History.Along (next textKey) Coherent
      (start currentModel maxHistory registered maxSize) steps) :
    History.Along (next textKey) (fun s e => (s.next textKey e).Fresh)
      (start currentModel maxHistory registered maxSize) steps :=
  History.Along.imp (I := Sound) (R := Coherent) (fun _ _ hs he _ => hs.next textKey he)
    (fun _ _ hs he _ => (hs.next textKey he).fresh) (Sound.start ..) h h

def storedBefore : List EmbedStep :=
  [.embed ["x"], .lookup 0, .proceed 0, .answer 0 1, .store 0,
    .beginSwitch (.swap "b" "admin") none, .endSwitch none, .embed ["x"], .lookup 1, .proceed 1,
    .answer 1 1, .store 1]

theorem run_fresh_storedBefore :
    History.Along (next id) (fun s e => (s.next id e).Fresh)
      (start (EmbeddingSwapManager.model "a") 100 [EmbeddingSwapManager.model "b"] 1024)
      storedBefore :=
  run_fresh id _ _ _ _ storedBefore (by decide +kernel)

def storedAfter : List EmbedStep :=
  [.embed ["x"], .lookup 0, .proceed 0, .answer 0 1, .beginSwitch (.swap "b" "admin") none,
    .endSwitch none, .store 0, .embed ["x"], .lookup 1, .proceed 1]

theorem storedAfter_not_fresh :
    ¬History.Along (next id) (fun s e => (s.next id e).Fresh)
      (start (EmbeddingSwapManager.model "a") 100 [EmbeddingSwapManager.model "b"] 1024)
      storedAfter := by
  intro h
  have hfresh := h.2.2.2.2.2.2.2.2.2.1
  have hstale := hfresh ⟨["x"], ["b", "b"], .returned [⟨"a", "x"⟩]⟩ (by decide +kernel)
    [⟨"a", "x"⟩] rfl ⟨"a", "x"⟩ mem_cons_self
  revert hstale
  decide +kernel

end Embedder

end Agent33.Memory
