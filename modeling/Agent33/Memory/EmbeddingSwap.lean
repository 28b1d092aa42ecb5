import Agent33.Library.Dict
import Agent33.Library.History
import Mathlib.Data.List.TakeDrop

/-!
# Swapping the embedding model

A swap sets the model of the provider, clears the cache and then changes the current model;
a failure inside sets provider and current model back. A rollback goes to the model before
the last completed swap of the history, which keeps a bounded number of records.
-/

namespace Agent33.Memory

open Library List Option

inductive SwapStatus
  | pending
  | completed
  | rolledBack
  | failed
  deriving DecidableEq

structure EmbeddingModelInfo where
  modelId : String
  provider : String
  dimensions : ℕ
  maxTokens : ℕ := 8192
  version : String := "1.0"
  description : String := ""
  deriving DecidableEq

structure SwapRecord where
  fromModel : String
  toModel : String
  initiatedBy : String
  status : SwapStatus := .pending
  error : String := ""

/-- The history has its newest record first. `providerModel` is the model of the wired
provider. -/
structure EmbeddingSwapManager where
  currentModel : EmbeddingModelInfo
  models : Dict String EmbeddingModelInfo
  maxHistory : ℕ
  history : List SwapRecord := []
  providerModel : Option String := none

/-- The inner steps of a swap that may raise: setting the model of the provider, clearing
the cache, logging the success. -/
inductive InnerStep
  | setProvider
  | invalidateCache
  | log
  deriving DecidableEq

structure Failure where
  step : InnerStep
  error : String
  deriving DecidableEq

namespace EmbeddingSwapManager

def new (currentModel : EmbeddingModelInfo) (maxHistory : Int) (wired : Bool) :
    EmbeddingSwapManager where
  currentModel
  models := Dict.empty.set currentModel.modelId currentModel
  maxHistory := (max 1 maxHistory).toNat
  providerModel := if wired then some currentModel.modelId else none

variable (m : EmbeddingSwapManager)

def registerModel (info : EmbeddingModelInfo) : EmbeddingSwapManager :=
  { m with models := m.models.set info.modelId info }

def setProvider (modelId : String) : EmbeddingSwapManager :=
  { m with providerModel := m.providerModel.map fun _ => modelId }

def append (r : SwapRecord) : EmbeddingSwapManager :=
  { m with history := (r :: m.history).take m.maxHistory }

/-- The body of the `try`, with the error it ends in; `mark` is applied to the history before
the log. -/
def switchTo (target : EmbeddingModelInfo)
    (mark : List SwapRecord → List SwapRecord) (failure : Option Failure) :
    EmbeddingSwapManager × Option String :=
  let switched := m.setProvider target.modelId
  let done := { switched with currentModel := target, history := mark m.history }
  match failure with
  | none => (done, none)
  | some ⟨.setProvider, error⟩ => (m, some error)
  | some ⟨.invalidateCache, error⟩ => (switched, some error)
  | some ⟨.log, error⟩ => (done, some error)

def revert (previous : EmbeddingModelInfo) : EmbeddingSwapManager :=
  { m with currentModel := previous }.setProvider previous.modelId

def switch (target : EmbeddingModelInfo) (r : SwapRecord)
    (mark : List SwapRecord → List SwapRecord) (status : SwapStatus) (failure : Option Failure) :
    SwapRecord × EmbeddingSwapManager :=
  match m.switchTo target mark failure with
  | (m', none) => ({ r with status }, m'.append { r with status })
  | (m', some error) =>
    ({ r with status := .failed, error },
      (m'.revert m.currentModel).append { r with status := .failed, error })

def executeSwap (targetModelId initiatedBy : String)
    (failure : Option Failure) : Except String (SwapRecord × EmbeddingSwapManager) :=
  match m.models.get? targetModelId with
  | none => .error ("Model '" ++ targetModelId ++ "' is not registered")
  | some target =>
    if targetModelId = m.currentModel.modelId then
      .error ("Model '" ++ targetModelId ++ "' is already active")
    else
      .ok (m.switch target ⟨m.currentModel.modelId, targetModelId, initiatedBy, .pending, ""⟩ id
        .completed failure)

def isCompleted (r : SwapRecord) : Bool := decide (r.status = .completed)

def markRolledBack : List SwapRecord → List SwapRecord
  | [] => []
  | r :: rs =>
    if isCompleted r then { r with status := .rolledBack } :: rs else r :: markRolledBack rs

def rollbackLastSwap (failure : Option Failure) : Option (SwapRecord × EmbeddingSwapManager) :=
  match m.history.find? isCompleted with
  | none => none
  | some lastCompleted =>
    match m.models.get? lastCompleted.fromModel with
    | none => none
    | some target => some
      (m.switch target
        ⟨m.currentModel.modelId, lastCompleted.fromModel, "system:rollback", .pending, ""⟩
        markRolledBack .rolledBack failure)

end EmbeddingSwapManager

inductive SwapCall
  | executeSwap (targetModelId initiatedBy : String) (failure : Option Failure)
  | rollbackLastSwap (failure : Option Failure)

namespace EmbeddingSwapManager

def returned (m : EmbeddingSwapManager) : SwapCall → Option (SwapRecord × EmbeddingSwapManager)
  | .executeSwap targetModelId initiatedBy failure =>
    (m.executeSwap targetModelId initiatedBy failure).toOption
  | .rollbackLastSwap failure => m.rollbackLastSwap failure

def next (m : EmbeddingSwapManager) (call : SwapCall) : EmbeddingSwapManager :=
  match m.returned call with
  | none => m
  | some (_, m') => m'

def tally (p : SwapRecord → Bool) (m : EmbeddingSwapManager) : List SwapCall → ℕ
  | [] => 0
  | call :: calls =>
    (if (m.returned call).any (fun result => p result.1) then 1 else 0) +
      tally p (m.next call) calls

def Agrees (m : EmbeddingSwapManager) : Prop := ∀ modelId ∈ m.providerModel,
  modelId = m.currentModel.modelId

structure Steady (m : EmbeddingSwapManager) (call : SwapCall) : Prop where
  agrees : (m.next call).Agrees
  failed : ∀ r m', m.returned call = some (r, m') → r.status = .failed →
    m'.currentModel = m.currentModel ∧ m'.providerModel = m.providerModel

variable {m : EmbeddingSwapManager}
  {mark : List SwapRecord → List SwapRecord}

def marked (mark : List SwapRecord → List SwapRecord) (failure : Option Failure)
    (history : List SwapRecord) : List SwapRecord :=
  if failure.all (fun f => f.step = .log) then mark history else history

theorem switch_none (m : EmbeddingSwapManager) (target : EmbeddingModelInfo) (r : SwapRecord)
    (mark : List SwapRecord → List SwapRecord) (status : SwapStatus) :
    m.switch target r mark status none = ({ r with status }, { m with
      currentModel := target
      providerModel := m.providerModel.map fun _ => target.modelId
      history := ({ r with status } :: marked mark none m.history).take m.maxHistory }) := rfl

theorem switch_reverts (m : EmbeddingSwapManager) (target : EmbeddingModelInfo) (r : SwapRecord)
    (mark : List SwapRecord → List SwapRecord) (status : SwapStatus) (f : Failure) :
    m.switch target r mark status (some f) = ({ r with status := .failed, error := f.error },
      { m with
        providerModel := m.providerModel.map fun _ => m.currentModel.modelId
        history := ({ r with status := .failed, error := f.error } ::
          marked mark (some f) m.history).take m.maxHistory }) := by
  obtain ⟨step, error⟩ := f
  cases step <;>
    simp [switch, switchTo, revert, setProvider, append, marked, Function.comp_def]

theorem switch_some (hagrees : m.Agrees) (target : EmbeddingModelInfo) (r : SwapRecord)
    (mark : List SwapRecord → List SwapRecord) (status : SwapStatus) (f : Failure) :
    m.switch target r mark status (some f) = ({ r with status := .failed, error := f.error },
      { m with history := ({ r with status := .failed, error := f.error } ::
          marked mark (some f) m.history).take m.maxHistory }) := by
  have hprovider : m.providerModel.map (fun _ => m.currentModel.modelId) = m.providerModel := by
    cases hmodel : m.providerModel with
    | none => rfl
    | some modelId => exact congrArg some (hagrees modelId hmodel).symm
  rw [switch_reverts, hprovider]

theorem returned_cases (h : m.returned call = some (r, m')) :
    (∃ targetModelId initiatedBy failure target,
      call = .executeSwap targetModelId initiatedBy failure ∧
        m.models.get? targetModelId = some target ∧ (r, m') = m.switch target
          ⟨m.currentModel.modelId, targetModelId, initiatedBy, .pending, ""⟩ id .completed
          failure) ∨
    ∃ failure lastCompleted target, call = .rollbackLastSwap failure ∧
      m.history.find? isCompleted = some lastCompleted ∧
        m.models.get? lastCompleted.fromModel = some target ∧ (r, m') = m.switch target
          ⟨m.currentModel.modelId, lastCompleted.fromModel, "system:rollback", .pending, ""⟩
          markRolledBack .rolledBack failure := by
  cases call with
  | executeSwap targetModelId initiatedBy failure =>
    rw [returned, executeSwap] at h
    split at h
    case h_1 => cases h
    case h_2 target htarget =>
      split_ifs at h
      · cases h
      · exact .inl ⟨_, _, _, target, rfl, htarget, (some.inj h).symm⟩
  | rollbackLastSwap failure =>
    rw [returned, rollbackLastSwap] at h
    split at h
    case h_1 => cases h
    case h_2 lastCompleted hlast =>
      split at h
      case h_1 => cases h
      case h_2 target htarget =>
        exact .inr ⟨_, _, target, rfl, hlast, htarget, (some.inj h).symm⟩

theorem switch_steady (hagrees : m.Agrees) (hstatus : status ≠ .failed)
    (failure : Option Failure) :
    (m.switch target r mark status failure).2.Agrees ∧
      (m.switch target r mark status failure).2.models = m.models ∧
        ((m.switch target r mark status failure).1.status = .failed →
          (m.switch target r mark status failure).2.currentModel = m.currentModel ∧
            (m.switch target r mark status failure).2.providerModel = m.providerModel) := by
  cases failure with
  | none =>
    rw [switch_none]
    refine ⟨fun modelId hmodel => ?_, rfl, fun hfailed => absurd hfailed hstatus⟩
    obtain ⟨_, _, rfl⟩ := map_eq_some_iff.mp hmodel
    rfl
  | some f =>
    rw [switch_some hagrees]
    exact ⟨hagrees, rfl, fun _ => ⟨rfl, rfl⟩⟩

theorem returned_steady (hagrees : m.Agrees)
    (h : m.returned call = some (r, m')) : m'.Agrees ∧ m'.models = m.models ∧
      (r.status = .failed →
        m'.currentModel = m.currentModel ∧ m'.providerModel = m.providerModel) := by
  rcases returned_cases h with ⟨_, _, failure, target, _, _, hr⟩ | ⟨failure, _, target, _, _, _, hr⟩
  · obtain ⟨rfl, rfl⟩ := Prod.mk.inj hr
    exact switch_steady hagrees (by decide) failure
  · obtain ⟨rfl, rfl⟩ := Prod.mk.inj hr
    exact switch_steady hagrees (by decide) failure

theorem Agrees.next (h : m.Agrees) (call : SwapCall) : (m.next call).Agrees := by
  rw [EmbeddingSwapManager.next]
  split
  case h_1 => exact h
  case h_2 hreturned => exact (returned_steady h hreturned).1

theorem Agrees.steady (h : m.Agrees) (call : SwapCall) : m.Steady call :=
  ⟨h.next call, fun _ _ hreturned => (returned_steady h hreturned).2.2⟩

theorem length_markRolledBack (rs : List SwapRecord) : (markRolledBack rs).length = rs.length := by
  induction rs with
  | nil => rfl
  | cons r rs ih =>
    rw [markRolledBack]
    split_ifs
    · rfl
    · simp [ih]

theorem filter_markRolledBack (rs : List SwapRecord) :
    (markRolledBack rs).filter isCompleted = (rs.filter isCompleted).tail := by
  induction rs with
  | nil => rfl
  | cons r rs ih =>
    rw [markRolledBack]
    split_ifs with hr
    · rw [filter_cons_of_neg (by simp [isCompleted]), filter_cons_of_pos hr,
        tail_cons]
    · rw [filter_cons_of_neg hr, filter_cons_of_neg hr, ih]

theorem markRolledBack_append (h : rs.filter isCompleted ≠ [])
    (old : List SwapRecord) : markRolledBack (rs ++ old) = markRolledBack rs ++ old := by
  induction rs with
  | nil => exact absurd rfl h
  | cons r rs ih =>
    rw [cons_append, markRolledBack, markRolledBack]
    split_ifs with hr
    · rfl
    · rw [filter_cons_of_neg hr] at h
      rw [ih h, cons_append]

/-- The last `n` records of the history, of which the completed ones went from the models of
the stack, the last one first. -/
def Window (m : EmbeddingSwapManager) (stack : List String) (n : ℕ) : Prop :=
  ∃ recent old, m.history = recent ++ old ∧ recent.length = n ∧
    (recent.filter isCompleted).map SwapRecord.fromModel = stack

theorem Window.append {m m' : EmbeddingSwapManager} {recent old : List SwapRecord} {n : ℕ}
    {r : SwapRecord} {stack : List String} (hlength : recent.length = n)
    (hhistory : m'.history = (r :: (recent ++ old)).take m.maxHistory) (hn : n + 1 ≤ m.maxHistory)
    (hstack : ((r :: recent).filter isCompleted).map SwapRecord.fromModel = stack) :
    m'.Window stack (n + 1) := by
  have hcons : (r :: recent).length = n + 1 := by rw [length_cons, hlength]
  refine ⟨r :: recent, old.take (m.maxHistory - (n + 1)), ?_, hcons, hstack⟩
  rw [hhistory, ← cons_append, take_append, hcons, take_of_length_le (by omega)]

theorem Window.push {stack : List String} {n : ℕ} {targetModelId initiatedBy : String}
    {failure : Option Failure} {m' : EmbeddingSwapManager} (h : m.Window stack n)
    (hagrees : m.Agrees) (hn : n + 1 ≤ m.maxHistory)
    (hreturned : m.returned (.executeSwap targetModelId initiatedBy failure) = some (r, m')) :
    (isCompleted r = true ∧ m'.Window (m.currentModel.modelId :: stack) (n + 1) ∧
      m.models.get? targetModelId = some m'.currentModel) ∨
    (isCompleted r = false ∧ m'.Window stack (n + 1) ∧ m'.currentModel = m.currentModel) := by
  obtain ⟨recent, old, hhistory, hlength, rfl⟩ := h
  rcases returned_cases hreturned with ⟨_, _, failure, target, hcall, htarget, hr⟩ |
    ⟨_, _, _, hcall, _⟩
  · obtain ⟨rfl, rfl, rfl⟩ := SwapCall.executeSwap.inj hcall
    cases failure with
    | none =>
      rw [switch_none] at hr
      obtain ⟨rfl, rfl⟩ := Prod.mk.inj hr
      refine .inl ⟨rfl, ?_, htarget⟩
      exact Window.append hlength (congrArg (fun rs => (_ :: rs).take m.maxHistory) hhistory) hn rfl
    | some f =>
      rw [switch_some hagrees] at hr
      obtain ⟨rfl, rfl⟩ := Prod.mk.inj hr
      refine .inr ⟨rfl, ?_, rfl⟩
      have hmarked : marked id (some f) m.history = recent ++ old := by
        rw [marked, id_eq, ite_self, hhistory]
      exact Window.append hlength (congrArg (fun rs => (_ :: rs).take m.maxHistory) hmarked) hn rfl
  · cases hcall

section

variable (h : m.Window (top :: stack) n) (htarget : m.models.get? top = some target)
include h htarget

theorem Window.returned (failure : Option Failure) :
    m.returned (.rollbackLastSwap failure) = some (m.switch target
      ⟨m.currentModel.modelId, top, "system:rollback", .pending, ""⟩ markRolledBack .rolledBack
      failure) := by
  obtain ⟨recent, old, hhistory, _, hstack⟩ := h
  obtain ⟨last, rest, hfilter, rfl, _⟩ := map_eq_cons_iff.mp hstack
  have hfind : m.history.find? isCompleted = some last := by
    rw [← head?_filter, hhistory, filter_append, hfilter]
    rfl
  simp only [EmbeddingSwapManager.returned, rollbackLastSwap, hfind, htarget]

theorem Window.pop :
    (m.next (.rollbackLastSwap none)).currentModel = target ∧
      (n + 1 ≤ m.maxHistory → (m.next (.rollbackLastSwap none)).Window stack (n + 1)) := by
  rw [next, h.returned htarget]
  obtain ⟨recent, old, hhistory, hlength, hstack⟩ := h
  obtain ⟨last, rest, hfilter, rfl, rfl⟩ := map_eq_cons_iff.mp hstack
  refine ⟨rfl, fun hn => ?_⟩
  have hne : recent.filter isCompleted ≠ [] := hfilter ▸ cons_ne_nil last rest
  have hmarked : marked markRolledBack none m.history = markRolledBack recent ++ old := by
    rw [hhistory]
    exact markRolledBack_append hne old
  refine Window.append ((length_markRolledBack recent).trans hlength)
    (congrArg (fun rs => (_ :: rs).take m.maxHistory) hmarked) hn ?_
  rw [filter_cons_of_neg (by simp [isCompleted]), filter_markRolledBack, hfilter,
    tail_cons]

theorem Window.keep (hagrees : m.Agrees) (hf : f.step ≠ .log) (hn : n + 1 ≤ m.maxHistory) :
    (m.next (.rollbackLastSwap (some f))).currentModel = m.currentModel ∧
      (m.next (.rollbackLastSwap (some f))).Window (top :: stack) (n + 1) := by
  rw [next, h.returned htarget, switch_some hagrees]
  obtain ⟨recent, old, hhistory, hlength, hstack⟩ := h
  have hmarked : marked markRolledBack (some f) m.history = recent ++ old := by
    rw [marked, if_neg (by simpa using hf), hhistory]
  refine ⟨rfl, Window.append hlength (congrArg (fun rs => (_ :: rs).take m.maxHistory) hmarked)
    hn ?_⟩
  rw [filter_cons_of_neg (by simp [isCompleted])]
  exact hstack

end

/-- A call changes neither the registered models nor the bound of the history, and wires no
provider. -/
structure Framed (m m' : EmbeddingSwapManager) : Prop where
  models : m'.models = m.models
  maxHistory : m'.maxHistory = m.maxHistory
  wired : m'.providerModel.isSome = m.providerModel.isSome

theorem Framed.trans (h : Framed m₁ m₂) (h' : Framed m₂ m₃) : Framed m₁ m₃ :=
  ⟨h'.models.trans h.models, h'.maxHistory.trans h.maxHistory, h'.wired.trans h.wired⟩

theorem switch_framed (m : EmbeddingSwapManager) (target : EmbeddingModelInfo) (r : SwapRecord)
    (mark : List SwapRecord → List SwapRecord) (status : SwapStatus) (failure : Option Failure) :
    Framed m (m.switch target r mark status failure).2 := by
  rcases failure with _ | ⟨step, error⟩
  · exact ⟨rfl, rfl, by simp [switch_none]⟩
  · cases step <;>
      exact ⟨rfl, rfl, by simp [switch, switchTo, revert, setProvider, EmbeddingSwapManager.append]⟩

theorem next_framed (m : EmbeddingSwapManager) (call : SwapCall) : Framed m (m.next call) := by
  rw [next]
  split
  case h_1 => exact ⟨rfl, rfl, rfl⟩
  case h_2 r m' hreturned =>
    rcases returned_cases hreturned with ⟨_, _, _, _, _, _, hr⟩ | ⟨_, _, _, _, _, _, hr⟩
    · obtain ⟨_, rfl⟩ := Prod.mk.inj hr
      exact switch_framed ..
    · obtain ⟨_, rfl⟩ := Prod.mk.inj hr
      exact switch_framed ..

def run (m : EmbeddingSwapManager) (calls : List SwapCall) : EmbeddingSwapManager :=
  calls.foldl next m

theorem run_framed (m : EmbeddingSwapManager) (calls : List SwapCall) : Framed m (m.run calls) := by
  induction calls generalizing m with
  | nil => exact ⟨rfl, rfl, rfl⟩
  | cons call calls ih => exact (next_framed m call).trans (ih (m.next call))

theorem Agrees.run (h : m.Agrees) (calls : List SwapCall) : (m.run calls).Agrees := by
  induction calls generalizing m with
  | nil => exact h
  | cons call calls ih => exact ih (h.next call)

def Keyed (m : EmbeddingSwapManager) : Prop :=
  ∀ modelId info, m.models.get? modelId = some info → info.modelId = modelId

structure SwapRequest where
  targetModelId : String
  initiatedBy : String
  failure : Option Failure := none

def SwapRequest.call (request : SwapRequest) : SwapCall :=
  .executeSwap request.targetModelId request.initiatedBy request.failure

structure Undoes (base m : EmbeddingSwapManager) (stack : List String) (n : ℕ) : Prop where
  window : m.Window stack n
  agrees : m.Agrees
  framed : Framed base m
  empty : stack = [] → m.currentModel = base.currentModel
  bottom : ∀ modelId ∈ stack.getLast?, modelId = base.currentModel.modelId
  registered : ∀ modelId ∈ m.currentModel.modelId :: stack,
    (base.models.get? modelId).isSome = true

theorem Undoes.swap {request : SwapRequest} (h : Undoes base m stack n) (hkeyed : base.Keyed)
    (hn : n + (if (m.returned request.call).isSome then 1 else 0) ≤ base.maxHistory) :
    ∃ stack', stack'.length = stack.length +
        (if (m.returned request.call).any (fun result => isCompleted result.1) then 1 else 0) ∧
      Undoes base (m.next request.call) stack'
        (n + if (m.returned request.call).isSome then 1 else 0) := by
  rw [next]
  cases hreturned : m.returned request.call with
  | none => exact ⟨stack, rfl, h⟩
  | some result =>
    obtain ⟨r, m'⟩ := result
    rw [hreturned, isSome_some, if_pos rfl, ← h.framed.maxHistory] at hn
    have hagrees := (returned_steady h.agrees hreturned).1
    have hframed : Framed m m' := by
      have hnext := next_framed m request.call
      rwa [next, hreturned] at hnext
    rcases h.window.push h.agrees hn hreturned with ⟨hr, hwindow, htarget⟩ | ⟨hr, hwindow, hcurrent⟩
    · refine ⟨m.currentModel.modelId :: stack, by simp [hr], hwindow, hagrees,
        h.framed.trans hframed, fun hnil => (nomatch hnil), fun modelId hlast => ?_,
        fun modelId hmem => ?_⟩
      · cases stack with
        | nil =>
          rw [← h.empty rfl]
          exact (some.inj hlast).symm
        | cons top stack => exact h.bottom modelId hlast
      · rw [h.framed.models] at htarget
        rcases mem_cons.mp hmem with rfl | hmem
        · rw [hkeyed _ _ htarget, htarget, isSome_some]
        · exact h.registered modelId hmem
    · exact ⟨stack, by simp [hr], hwindow, hagrees, h.framed.trans hframed,
        fun hnil => hcurrent.trans (h.empty hnil), h.bottom, hcurrent ▸ h.registered⟩

def anyRecord : SwapRecord → Bool := fun _ => true

theorem Undoes.swaps (h : Undoes base m stack n) (requests : List SwapRequest)
    (hkeyed : base.Keyed)
    (hn : n + m.tally anyRecord (requests.map SwapRequest.call) ≤ base.maxHistory) :
    ∃ stack', stack'.length =
        stack.length + m.tally isCompleted (requests.map SwapRequest.call) ∧
      Undoes base (m.run (requests.map SwapRequest.call)) stack'
        (n + m.tally anyRecord (requests.map SwapRequest.call)) := by
  induction requests generalizing m stack n with
  | nil => exact ⟨stack, rfl, h⟩
  | cons request requests ih =>
    simp only [map_cons, tally] at hn ⊢
    have hany : (m.returned request.call).any (fun result => anyRecord result.1) =
        (m.returned request.call).isSome := by
      cases m.returned request.call <;> rfl
    rw [hany] at hn ⊢
    rw [← Nat.add_assoc] at hn
    obtain ⟨stack', hlength, h'⟩ := h.swap hkeyed (le_trans (Nat.le_add_right ..) hn)
    obtain ⟨stack'', hlength', h''⟩ := ih h' hn
    exact ⟨stack'', by rw [hlength', hlength, Nat.add_assoc], by rwa [← Nat.add_assoc]⟩

def callsToLast : List (Option Failure) → ℕ
  | [] => 0
  | failure :: failures =>
    if (failure :: failures).all Option.isSome then 0 else callsToLast failures + 1

theorem callsToLast_pos (h : ¬failures.all Option.isSome = true) : 0 < callsToLast failures := by
  cases failures with
  | nil => exact absurd rfl h
  | cons failure failures =>
    rw [callsToLast, if_neg h]
    exact Nat.succ_pos _

theorem count_none_of_all {failures : List (Option Failure)}
    (h : failures.all Option.isSome = true) : failures.count none = 0 :=
  List.count_eq_zero.mpr fun hmem => absurd (List.all_eq_true.mp h none hmem) (by decide)

theorem all_of_count_none {failures : List (Option Failure)} (h : failures.count none = 0) :
    failures.all Option.isSome = true :=
  List.all_eq_true.mpr fun _ hmem => isSome_iff_ne_none.mpr fun hnone =>
    List.count_eq_zero.mp h (hnone ▸ hmem)

theorem currentModel_failed {f : Failure} (h : m.Agrees) :
    (m.next (.rollbackLastSwap (some f))).currentModel = m.currentModel := by
  rw [next]
  split
  case h_1 => rfl
  case h_2 r m' hreturned =>
    rcases returned_cases hreturned with ⟨_, _, _, _, hcall, _⟩ | ⟨_, _, _, hcall, _, _, hr⟩
    · cases hcall
    · obtain rfl := SwapCall.rollbackLastSwap.inj hcall
      rw [switch_some h] at hr
      obtain ⟨_, rfl⟩ := Prod.mk.inj hr
      rfl

theorem currentModel_allFailed {failures : List (Option Failure)} (h : m.Agrees)
    (hfailures : failures.all Option.isSome = true) :
    (m.run (failures.map SwapCall.rollbackLastSwap)).currentModel = m.currentModel := by
  induction failures generalizing m with
  | nil => rfl
  | cons failure failures ih =>
    rw [all_cons, Bool.and_eq_true] at hfailures
    obtain ⟨f, rfl⟩ := isSome_iff_exists.mp hfailures.1
    exact (ih (h.next _) hfailures.2).trans (currentModel_failed h)

theorem Undoes.pop (h : Undoes base m (top :: stack) n) (hkeyed : base.Keyed)
    (hbase : base.models.get? base.currentModel.modelId = some base.currentModel) :
    (stack = [] → (m.next (.rollbackLastSwap none)).currentModel = base.currentModel) ∧
      (n + 1 ≤ base.maxHistory → Undoes base (m.next (.rollbackLastSwap none)) stack (n + 1)) := by
  obtain ⟨info, hinfo⟩ := isSome_iff_exists.mp
    (h.registered top (mem_cons_of_mem _ mem_cons_self))
  obtain ⟨hcurrent, hwindow⟩ := h.window.pop (h.framed.models ▸ hinfo)
  have hempty (hnil : stack = []) :
      (m.next (.rollbackLastSwap none)).currentModel = base.currentModel := by
    subst hnil
    rw [h.bottom top rfl, hbase] at hinfo
    exact hcurrent.trans (some.inj hinfo).symm
  refine ⟨hempty, fun hn => ⟨hwindow (h.framed.maxHistory ▸ hn), h.agrees.next _,
    h.framed.trans (next_framed m _), hempty, fun modelId hlast => ?_, fun modelId hmem => ?_⟩⟩
  · refine h.bottom modelId ?_
    rw [getLast?_cons, mem_def.mp hlast]
    rfl
  · rw [hcurrent, hkeyed top info hinfo] at hmem
    exact h.registered modelId (mem_cons_of_mem _ hmem)

theorem Undoes.keep (h : Undoes base m (top :: stack) n)
    (hf : f.step ≠ .log) (hn : n + 1 ≤ base.maxHistory) :
    Undoes base (m.next (.rollbackLastSwap (some f))) (top :: stack) (n + 1) := by
  obtain ⟨info, hinfo⟩ := isSome_iff_exists.mp
    (h.registered top (mem_cons_of_mem _ mem_cons_self))
  obtain ⟨hcurrent, hwindow⟩ := h.window.keep (h.framed.models ▸ hinfo) h.agrees hf
    (h.framed.maxHistory ▸ hn)
  exact ⟨hwindow, h.agrees.next _, h.framed.trans (next_framed m _), fun hnil => (nomatch hnil),
    h.bottom, hcurrent ▸ h.registered⟩

theorem Undoes.rollbacks (h : Undoes base m stack n)
    (hkeyed : base.Keyed)
    (hbase : base.models.get? base.currentModel.modelId = some base.currentModel)
    (hlog : ∀ f, some f ∈ failures → f.step ≠ .log) (hcount : failures.count none = stack.length)
    (hn : n + callsToLast failures ≤ base.maxHistory + 1) :
    (m.run (failures.map SwapCall.rollbackLastSwap)).currentModel = base.currentModel := by
  induction failures generalizing m stack n with
  | nil => exact h.empty (length_eq_zero_iff.mp hcount.symm)
  | cons failure failures ih =>
    have hlog' (f : Failure) (hf : some f ∈ failures) : f.step ≠ .log :=
      hlog f (mem_cons_of_mem _ hf)
    by_cases hall : (failure :: failures).all Option.isSome = true
    · rw [currentModel_allFailed h.agrees hall,
        h.empty (length_eq_zero_iff.mp (hcount.symm.trans (count_none_of_all hall)))]
    rw [callsToLast, if_neg hall] at hn
    cases stack with
    | nil => exact absurd (all_of_count_none hcount) hall
    | cons top stack =>
      cases failure with
      | none =>
        rw [count_cons_self, length_cons, Nat.add_right_cancel_iff] at hcount
        obtain ⟨hempty, hpop⟩ := h.pop hkeyed hbase
        by_cases hrest : failures.all Option.isSome = true
        · -- the last rollback that succeeds takes the bottom of the stack
          exact (currentModel_allFailed (h.agrees.next _) hrest).trans
            (hempty (length_eq_zero_iff.mp (hcount.symm.trans (count_none_of_all hrest))))
        · have hpos := callsToLast_pos hrest
          exact ih (hpop (by omega)) hlog' hcount (by omega)
      | some f =>
        rw [count_cons_of_ne (by simp)] at hcount
        have hrest : ¬failures.all Option.isSome = true := fun hrest => hall hrest
        have hpos := callsToLast_pos hrest
        exact ih (h.keep (hlog f mem_cons_self) (by omega)) hlog' hcount (by omega)

variable (currentModel : EmbeddingModelInfo) (maxHistory : Int) (wired : Bool)
  (registered : List EmbeddingModelInfo)

def start : EmbeddingSwapManager :=
  registered.foldl registerModel (new currentModel maxHistory wired)

theorem start_sound :
    (start currentModel maxHistory wired registered).Agrees ∧
      (start currentModel maxHistory wired registered).Keyed := by
  have hset (m : EmbeddingSwapManager) (info : EmbeddingModelInfo) (hm : m.Keyed) :
      (m.registerModel info).Keyed := by
    intro modelId info' hget
    rw [registerModel, Dict.get?_set] at hget
    split_ifs at hget with hid
    · obtain rfl := some.inj hget
      exact hid.symm
    · exact hm modelId info' hget
  have hregister (m : EmbeddingSwapManager) (hm : m.Agrees ∧ m.Keyed) :
      (registered.foldl registerModel m).Agrees ∧ (registered.foldl registerModel m).Keyed := by
    induction registered generalizing m with
    | nil => exact hm
    | cons info registered ih => exact ih _ ⟨hm.1, hset m info hm.2⟩
  refine hregister _ ⟨fun modelId hmodel => ?_, fun modelId info hget => ?_⟩
  · cases wired with
    | true => exact (some.inj hmodel).symm
    | false => cases hmodel
  · rw [new, Dict.get?_set] at hget
    split_ifs at hget with hid
    · obtain rfl := some.inj hget
      exact hid.symm
    · cases hget

/-- As many completed swaps as rollbacks without a failure go back to where they began. -/
def Restores (m : EmbeddingSwapManager) (requests : List SwapRequest)
    (failures : List (Option Failure)) : Prop :=
  m.tally isCompleted (requests.map SwapRequest.call) = failures.count none →
    let m' := (m.run (requests.map SwapRequest.call)).run (failures.map SwapCall.rollbackLastSwap)
    m'.currentModel = m.currentModel ∧ m'.providerModel = m.providerModel

/-- The records of the swaps and of all rollbacks but the last fit into the history, no rollback
fails at its log, and the current model is the one registered under its id. -/
def Kept (m : EmbeddingSwapManager) (requests : List SwapRequest)
    (failures : List (Option Failure)) : Prop :=
  none ∈ failures →
    m.tally anyRecord (requests.map SwapRequest.call) + callsToLast failures ≤ m.maxHistory + 1 ∧
      (∀ failure ∈ failures, failure.all (fun f => f.step ≠ .log) = true) ∧
        m.models.get? m.currentModel.modelId = some m.currentModel

theorem providerModel_eq {m m' : EmbeddingSwapManager} (h : m.Agrees) (h' : m'.Agrees)
    (hwired : m'.providerModel.isSome = m.providerModel.isSome)
    (hcurrent : m'.currentModel = m.currentModel) : m'.providerModel = m.providerModel := by
  cases hmodel : m.providerModel with
  | none =>
    rw [hmodel, isSome_none, isSome_eq_false_iff, isNone_iff_eq_none] at hwired
    exact hwired
  | some modelId =>
    rw [hmodel, isSome_some] at hwired
    obtain ⟨modelId', hmodel'⟩ := isSome_iff_exists.mp hwired
    rw [hmodel', h' modelId' hmodel', h modelId hmodel, hcurrent]

theorem currentModel_swaps {requests : List SwapRequest} (h : m.Agrees)
    (hnone : m.tally isCompleted (requests.map SwapRequest.call) = 0) :
    (m.run (requests.map SwapRequest.call)).currentModel = m.currentModel := by
  induction requests generalizing m with
  | nil => rfl
  | cons request requests ih =>
    rw [map_cons, tally, Nat.add_eq_zero_iff] at hnone
    refine (ih (h.next _) hnone.2).trans ?_
    rw [next]
    split
    case h_1 => rfl
    case h_2 r m' hreturned =>
      rw [hreturned] at hnone
      rcases returned_cases hreturned with ⟨_, _, failure, _, _, _, hr⟩ | ⟨_, _, _, hcall, _⟩
      · obtain ⟨rfl, rfl⟩ := Prod.mk.inj hr
        cases failure with
        | none => exact absurd hnone.1 Nat.one_ne_zero
        | some f =>
          exact congrArg (fun result => result.2.currentModel) (switch_some h _ _ _ _ f)
      · cases hcall

theorem restores_of_kept (hagrees : m.Agrees) (hkeyed : m.Keyed)
    (h : m.Kept requests failures) : m.Restores requests failures := by
  intro hcount
  have hcurrent : ((m.run (requests.map SwapRequest.call)).run
      (failures.map SwapCall.rollbackLastSwap)).currentModel = m.currentModel := by
    by_cases hnone : none ∈ failures
    · obtain ⟨hroom, hlog, hactive⟩ := h hnone
      have hpos : 0 < callsToLast failures := callsToLast_pos fun hall =>
        absurd (List.all_eq_true.mp hall none hnone) (by decide)
      have hstart : Undoes m m [] 0 := by
        refine ⟨⟨[], m.history, rfl, rfl, rfl⟩, hagrees, ⟨rfl, rfl, rfl⟩, fun _ => rfl, ?_, ?_⟩
        · simp
        · simp [hactive]
      obtain ⟨stack, hlength, hstack⟩ := hstart.swaps requests hkeyed (by omega)
      rw [length_nil, Nat.zero_add, hcount] at hlength
      exact hstack.rollbacks hkeyed hactive (fun f hf => by simpa using hlog (some f) hf)
        hlength.symm (by omega)
    · have hzero := List.count_eq_zero.mpr hnone
      rw [currentModel_allFailed (hagrees.run _) (all_of_count_none hzero),
        currentModel_swaps hagrees (hcount.trans hzero)]
  refine ⟨hcurrent, ?_⟩
  have hwired := ((run_framed m (requests.map SwapRequest.call)).trans
    (run_framed _ (failures.map SwapCall.rollbackLastSwap))).wired
  exact providerModel_eq hagrees ((hagrees.run _).run _) hwired hcurrent

/-- In every run provider and current model agree and a failed call changes neither; swaps
that are kept are undone by as many rollbacks, from every state of the run. -/
theorem run_disciplined (calls : List SwapCall) :
    History.Along next Steady (start currentModel maxHistory wired registered) calls ∧
      ∀ requests failures,
        ((start currentModel maxHistory wired registered).run calls).Kept requests failures →
          ((start currentModel maxHistory wired registered).run calls).Restores requests
            failures := by
  obtain ⟨hagrees, hkeyed⟩ := start_sound currentModel maxHistory wired registered
  have hmodels := (run_framed (start currentModel maxHistory wired registered) calls).models
  refine ⟨?_, fun requests failures h => ?_⟩
  · exact History.along_of_invariant (I := Agrees) (fun _ call h => h.next call)
      (fun _ call h => h.steady call) hagrees calls
  · refine restores_of_kept (hagrees.run calls) (fun modelId info hget => ?_) h
    exact hkeyed modelId info (hmodels ▸ hget)

def model (modelId : String) : EmbeddingModelInfo where
  modelId
  provider := "ollama"
  dimensions := 768

/-- Two swaps and two rollbacks leave three records before the last one. -/
theorem run_disciplined_three :
    (start (model "a") 3 true [model "b", model "c"]).Restores
      [⟨"b", "admin", none⟩, ⟨"c", "admin", none⟩] [none, none] := by
  refine (run_disciplined (model "a") 3 true [model "b", model "c"] []).2 _ _ fun _ => ?_
  decide +kernel

/-- A history of two records has lost the first swap when its rollback comes. -/
theorem two_not_restores :
    (start (model "a") 2 true [model "b", model "c"]).maxHistory = 2 ∧
      ¬(start (model "a") 2 true [model "b", model "c"]).Restores
        [⟨"b", "admin", none⟩, ⟨"c", "admin", none⟩] [none, none] := by
  refine ⟨by decide +kernel, fun h => ?_⟩
  exact absurd (h (by decide +kernel)).1 (by decide +kernel)

end EmbeddingSwapManager

end Agent33.Memory
