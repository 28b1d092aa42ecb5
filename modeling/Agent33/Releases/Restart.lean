import Agent33.Releases.Persistence

/-!
# Restart transparency of the release service

Every operation writes after its last change, except for the one that cuts a release
candidate: it stores the release first and sets the version of the candidate then.
-/

namespace Agent33.Releases

open Library JsonText Codec Library.Hoare List Option EStateM

section Stored

variable {data : ReleaseData}

theorem nodup_payload : ((data.payload timestamps).map Prod.fst).Nodup := by
  simp [ReleaseData.payload]

theorem normal_payload (h : encode floats (.dict (named (data.payload timestamps))) = some v) :
    Normal v := by
  refine normal_encode_named h nodup_payload ?_
  simp only [ReleaseData.payload, forall_mem_cons]
  exact ⟨fun v hv => (restore_encode _ hv).1, fun v hv => (restore_encode _ hv).1,
    fun v hv => (restore_encode _ hv).1, fun v hv => (restore_encode _ hv).1,
    forall_mem_nil _⟩

theorem loadData_encode (h : encode floats (.dict (named (data.payload timestamps))) = some v) :
    loadData timestamps v = data := by
  have hentry : ∀ {α : Type} (c : Codec α) {name : String} (d : Dict String α),
      (name, c.dumpDict d) ∈ data.payload timestamps → c.restore (v.entry name) = d :=
    fun c name d hmem => by
      obtain ⟨w, hw, hencode⟩ := entry_encode h nodup_payload _ hmem
      rw [hw, (c.restore_encode hencode).2]
  rw [loadData, hentry _ data.releases, hentry _ data.rules, hentry _ data.executions,
    hentry _ data.records] <;> simp [ReleaseData.payload]

structure SameData (a b : ReleaseData) : Prop where
  releases : ∀ id, a.releases.get? id = b.releases.get? id
  rules : ∀ id, a.rules.get? id = b.rules.get? id
  executions : ∀ id, a.executions.get? id = b.executions.get? id
  records : ∀ id, a.records.get? id = b.records.get? id

theorem sameData_loadData (hv : Normal v) (hw : Normal w) (h : Same v w) :
    SameData (loadData timestamps v) (loadData timestamps w) := by
  have hentry : ∀ {α : Type} (c : Codec α) (name key : String),
      (c.restore (v.entry name)).get? key = (c.restore (w.entry name)).get? key :=
    fun c name => c.get?_restore_same (normal_entry hv name) (normal_entry hw name)
      (entry_same hv hw h name)
  exact ⟨hentry _ _, hentry _ _, hentry _ _, hentry _ _⟩

end Stored

namespace DurableService

variable (timestamps : Timestamps) (svc : DurableService)

def UpToDate : Prop :=
  loadData timestamps svc.stored = svc.data

section Writes

variable (encoding : Encoding)

def Saving {α : Type} (x : DurableM α) : Prop :=
  Triple (fun _ => True) x (fun _ => UpToDate encoding.timestamps) fun _ _ => True

variable {encoding}

theorem saving_persistState : Saving encoding (persistState encoding) := by
  refine Triple.get_bind fun svc _ => triple_at ?_
  cases hsnapshot : snapshot encoding svc.data with
  | none => trivial
  | some stored =>
    obtain ⟨v, hv, rfl⟩ := map_eq_some_iff.mp hsnapshot
    change loadData encoding.timestamps (normalise v) = svc.data
    rw [normalise_of_normal (normal_payload hv), loadData_encode hv]

variable {svc svc' : DurableService} {α β : Type} {reply : Reply} {rollbackId ruleId : String}
    {request : Request}

theorem Saving.after (x : DurableM α) (hf : ∀ a, Saving encoding (f a)) :
    Saving encoding (x >>= f) :=
  (triple_true x).bind hf

theorem Saving.return (hx : Saving encoding x) (f : α → β) : Saving encoding (do return f (← x)) :=
  hx.bind fun _ => triple_pure fun _ h => h

theorem saving_persist (a : α) : Saving encoding (do persistState encoding; return a) :=
  saving_persistState.return fun _ => a

variable (releaseId : String)

open Saving

theorem saving_transition (toStatus : ReleaseStatus) :
    Saving encoding (transition encoding releaseId toStatus) := by
  refine after _ fun release => ?_
  split_ifs
  · exact after _ fun _ => saving_persist _
  · exact fun _ _ => trivial

theorem saving_startValidation (lookup : ScanLookup) :
    Saving encoding (startValidation encoding releaseId lookup) := by
  refine Triple.bind (saving_transition releaseId .validating) fun release => ?_
  refine Triple.get_bind fun svc hsvc => ?_
  split_ifs
  · exact triple_pure fun _ h => h ▸ hsvc
  · exact Triple.pre (after _ fun _ => saving_persist _) fun _ _ => trivial

theorem saving_publish (releaseId releasedBy : String) (now : ℤ) :
    Saving encoding (publish encoding releaseId releasedBy now) := by
  refine after _ fun release => ?_
  split_ifs
  · exact fun _ _ => trivial
  · exact after _ fun _ => after _ fun _ => saving_persist _

theorem saving_runRule (call : SyncCall) (dryRun : Bool) (status : SyncStatus)
    (completedAt : Option ℤ) : Saving encoding (runRule encoding call dryRun status completedAt) :=
  after _ fun _ => after _ fun _ => saving_persist _

theorem saving_initiateRollback (record : RollbackRecord) :
    Saving encoding (initiateRollback encoding releaseId record) := by
  refine after _ fun release => after _ fun _ => ?_
  dsimp only
  split_ifs <;> exact after _ fun _ => saving_persist _

/-- The request writes nothing: it is a query, or about something that does not exist. -/
def Silent (svc : DurableService) : Request → Prop
  | .getRelease _ => True
  | .evaluateChecklist _ => True
  | .getRule _ => True
  | .getExecution _ => True
  | .getRollback _ => True
  | .removeRule ruleId => svc.data.rules.get? ruleId = none
  | .approve rollbackId _ => svc.data.records.get? rollbackId = none
  | .completeStep rollbackId _ => svc.data.records.get? rollbackId = none
  | .complete rollbackId _ => svc.data.records.get? rollbackId = none
  | .fail rollbackId _ => svc.data.records.get? rollbackId = none
  | _ => False

def SetsVersion (svc : DurableService) : Request → Prop
  | .cutRc releaseId rcVersion => rcVersion ≠ "" ∧
      ∀ release, svc.data.releases.get? releaseId = some release → release.rcVersion ≠ rcVersion
  | _ => False

def Returns (encoding : Encoding) (svc : DurableService) (request : Request) : Prop :=
  ∃ reply svc', (request.reply encoding).run svc = .ok reply svc'

theorem getRelease_run (svc : DurableService) :
    (getRelease releaseId).run svc =
      match svc.data.releases.get? releaseId with
      | none => .error (.notFound ("Release not found: " ++ releaseId)) svc
      | some release => .ok release svc := by
  rw [getRelease, run_bind, run_get]
  dsimp only
  cases svc.data.releases.get? releaseId <;> rfl

theorem getRollback_run (rollbackId : String) (svc : DurableService) :
    (getRollback rollbackId).run svc = .ok (svc.data.records.get? rollbackId) svc := rfl

theorem updateRollback_silent (h : svc.data.records.get? rollbackId = none)
    (f : RollbackRecord → RollbackRecord) :
    (updateRollback encoding rollbackId f).run svc = .ok none svc := by
  rw [updateRollback, run_bind, getRollback_run, h]
  rfl

theorem removeRule_silent (h : svc.data.rules.get? ruleId = none) :
    (removeRule encoding ruleId).run svc = .ok false svc := by
  rw [removeRule, run_bind, run_get]
  dsimp only
  rw [h]
  rfl

theorem map_run (f : α → β) (x : DurableM α) (svc : DurableService) : (f <$> x).run svc =
      match x.run svc with
      | .ok a svc' => .ok (f a) svc'
      | .error e svc' => .error e svc' := by
  rw [map_eq_pure_bind, run_bind]
  cases x.run svc <;> rfl

theorem next_silent (hsilent : Silent svc request)
    (hrun : (request.reply encoding).run svc = .ok reply svc') : svc' = svc := by
  cases request with
  | getRelease releaseId =>
    rw [Request.reply, map_run, getRelease_run] at hrun
    cases hget : svc.data.releases.get? releaseId with
    | none =>
      rw [hget] at hrun
      cases hrun
    | some release =>
      rw [hget] at hrun
      cases hrun
      rfl
  | evaluateChecklist releaseId =>
    rw [Request.reply, map_run, evaluateChecklist, run_bind, getRelease_run] at hrun
    cases hget : svc.data.releases.get? releaseId with
    | none =>
      rw [hget] at hrun
      cases hrun
    | some release =>
      rw [hget] at hrun
      cases hrun
      rfl
  | getRule ruleId =>
    cases hrun
    rfl
  | getExecution executionId =>
    cases hrun
    rfl
  | getRollback rollbackId =>
    cases hrun
    rfl
  | removeRule ruleId =>
    rw [Request.reply, map_run, removeRule_silent hsilent] at hrun
    cases hrun
    rfl
  | approve rollbackId approvedBy =>
    rw [Request.reply, map_run, approve, updateRollback_silent hsilent] at hrun
    cases hrun
    rfl
  | completeStep rollbackId stepDescription =>
    rw [Request.reply, map_run, completeStep, updateRollback_silent hsilent] at hrun
    cases hrun
    rfl
  | complete rollbackId now =>
    rw [Request.reply, map_run, complete, updateRollback_silent hsilent] at hrun
    cases hrun
    rfl
  | fail rollbackId error =>
    rw [Request.reply, map_run, fail, updateRollback_silent hsilent] at hrun
    cases hrun
    rfl
  | _ => exact hsilent.elim

theorem Saving.of_map (hx : Saving encoding x)
    (hrun : (f <$> x).run svc = .ok reply svc') : UpToDate encoding.timestamps svc' := by
  have h := hx svc trivial
  rw [map_run] at hrun
  cases hresult : x.run svc with
  | ok a s =>
    rw [hresult] at h hrun
    cases hrun
    exact h
  | error e s =>
    rw [hresult] at hrun
    cases hrun

theorem removeRule_writes (h : svc.data.rules.get? ruleId = some rule) :
    (removeRule encoding ruleId).run svc = (do
      modifyData fun data => { data with rules := data.rules.erase ruleId }
      persistState encoding
      return true : DurableM Bool).run svc := by
  rw [removeRule, run_bind, run_get]
  dsimp only
  rw [h]

theorem updateRollback_writes {record : RollbackRecord}
    (h : svc.data.records.get? rollbackId = some record) (f : RollbackRecord → RollbackRecord) :
    (updateRollback encoding rollbackId f).run svc = (do
      putRecord (f record) rollbackId
      persistState encoding
      return some (f record) : DurableM (Option RollbackRecord)).run svc := by
  rw [updateRollback, run_bind, getRollback_run, h]

theorem upToDate_updateRollback (hloud : svc.data.records.get? rollbackId ≠ none)
    (hrun : (Reply.rollback <$> updateRollback encoding rollbackId f).run svc = .ok reply svc') :
    UpToDate encoding.timestamps svc' := by
  obtain ⟨record, hget⟩ := ne_none_iff_exists'.mp hloud
  rw [map_run, updateRollback_writes hget, ← map_run] at hrun
  exact of_map (after _ fun _ => saving_persist _) hrun

theorem upToDate_of_loud (hloud : ¬ Silent svc request)
    (hrc : ∀ id version, request ≠ .cutRc id version)
    (hrun : (request.reply encoding).run svc = .ok reply svc') :
    UpToDate encoding.timestamps svc' := by
  cases request with
  | createRelease releaseId version releaseType description createdAt =>
    exact of_map (after _ fun _ => saving_persist _) hrun
  | transition releaseId toStatus => exact of_map (saving_transition _ _) hrun
  | freeze releaseId => exact of_map (saving_transition _ _) hrun
  | cutRc releaseId rcVersion => exact absurd rfl (hrc releaseId rcVersion)
  | startValidation releaseId lookup => exact of_map (saving_startValidation _ _) hrun
  | publish releaseId releasedBy now => exact of_map (saving_publish _ _ _) hrun
  | markFailed releaseId => exact of_map (saving_transition _ _) hrun
  | updateCheck releaseId checkId status message =>
    exact of_map (after _ fun _ => after _ fun _ => saving_persist _) hrun
  | applyComponentSecurityGate releaseId summary policy =>
    exact of_map (after _ fun _ => after _ fun _ => saving_persist _) hrun
  | addRule rule => exact of_map (after _ fun _ => saving_persist _) hrun
  | removeRule ruleId =>
    obtain ⟨rule, hget⟩ := ne_none_iff_exists'.mp hloud
    rw [Request.reply, map_run, removeRule_writes hget, ← map_run] at hrun
    exact of_map (after _ fun _ => saving_persist _) hrun
  | dryRun call => exact of_map (saving_runRule _ _ _ _) hrun
  | execute call now => exact of_map (saving_runRule _ _ _ _) hrun
  | createRollback record => exact of_map (after _ fun _ => saving_persist _) hrun
  | approve rollbackId approvedBy => exact upToDate_updateRollback hloud hrun
  | completeStep rollbackId stepDescription => exact upToDate_updateRollback hloud hrun
  | complete rollbackId now => exact upToDate_updateRollback hloud hrun
  | fail rollbackId error => exact upToDate_updateRollback hloud hrun
  | initiateRollback releaseId record =>
    exact of_map (saving_initiateRollback _ _) hrun
  | _ => exact absurd trivial hloud

theorem persistState_run (svc : DurableService) :
    (persistState encoding).run svc =
      match snapshot encoding svc.data with
      | none => .error .storage svc
      | some stored => .ok ⟨⟩ { svc with stored } := by
  rw [persistState, run_bind, run_get]
  dsimp only
  cases snapshot encoding svc.data <;> rfl

theorem transition_ok {releaseId : String} {toStatus : ReleaseStatus} {release : DatedRelease}
    (hrun : (transition encoding releaseId toStatus).run svc = .ok release svc') :
    ∃ old, svc.data.releases.get? releaseId = some old ∧ release.rcVersion = old.rcVersion ∧
      svc'.data.releases.get? releaseId = some release := by
  rw [transition, run_bind, getRelease_run] at hrun
  cases hget : svc.data.releases.get? releaseId with
  | none =>
    rw [hget] at hrun
    cases hrun
  | some old =>
    rw [hget] at hrun
    dsimp only at hrun
    split_ifs at hrun with hvalid
    · rw [run_bind] at hrun
      change EStateM.run (persistState encoding >>= fun _ => pure _) { svc with data := _ } = _
        at hrun
      rw [run_bind, persistState_run] at hrun
      split at hrun
      · next heq =>
        split at heq
        · cases heq
        · cases heq
          cases hrun
          exact ⟨old, rfl, rfl, by rw [Dict.get?_set, if_pos rfl]⟩
      · cases hrun
    · cases hrun

theorem upToDate_cutRc {releaseId rcVersion : String}
    (hrun : (Request.reply encoding (.cutRc releaseId rcVersion)).run svc = .ok reply svc') :
    UpToDate encoding.timestamps svc' ↔ ¬ SetsVersion svc (.cutRc releaseId rcVersion) := by
  have hsaving := (saving_transition releaseId .rc : Saving encoding _) svc trivial
  rw [Request.reply, map_run, cutRc, run_bind] at hrun
  cases htransition : (transition encoding releaseId .rc).run svc with
  | error e svc₁ =>
    rw [htransition] at hrun
    cases hrun
  | ok release svc₁ =>
    rw [htransition] at hrun hsaving
    obtain ⟨old, hold, hversion, hnew⟩ := transition_ok htransition
    change UpToDate encoding.timestamps svc₁ at hsaving
    by_cases hempty : rcVersion = ""
    · simp only [if_pos hempty] at hrun
      cases hrun
      exact iff_of_true hsaving fun h => h.1 hempty
    · simp only [if_neg hempty] at hrun
      cases hrun
      have hset : UpToDate encoding.timestamps { svc₁ with data := { svc₁.data with
          releases := svc₁.data.releases.set releaseId { release with rcVersion } } } ↔
            release.rcVersion = rcVersion := by
        rw [UpToDate] at hsaving ⊢
        dsimp only
        rw [hsaving]
        constructor
        · intro h
          have hget := congrArg (fun data => data.releases.get? releaseId) h
          simp only [hnew, Dict.get?_set, if_true, some.injEq] at hget
          exact congrArg (fun r => r.rcVersion) hget
        · rintro rfl
          rw [Dict.set_eq_self hnew]
      refine hset.trans ?_
      rw [SetsVersion, hold, hversion]
      simp [hempty]

end Writes

structure Agree (a b : DurableService) : Prop where
  data : SameData a.data b.data
  hasScanService : a.hasScanService = b.hasScanService
  securityGatePolicy : a.securityGatePolicy = b.securityGatePolicy

section Agree

variable {encoding : Encoding}

abbrev Blind {α : Type} (x : DurableM α) : Prop := Simulates Agree (fun e : ReleaseError => e) x x

theorem Agree.isNone_snapshot (h : Agree a b) :
    snapshot encoding a.data = none ↔ snapshot encoding b.data = none := by
  have hsome : ∀ data, (snapshot encoding data).isSome ↔
      ∀ field ∈ data.payload encoding.timestamps, (encode encoding.floats field.2).isSome :=
    fun data => by rw [snapshot, isSome_map, isSome_encode_named]
  rw [← not_isSome_iff_eq_none, ← not_isSome_iff_eq_none, not_iff_not, hsome, hsome]
  simp only [ReleaseData.payload, forall_mem_cons, isSome_encode_dumpDict, h.data.releases,
    h.data.rules, h.data.executions, h.data.records]

theorem blind_persistState : Blind (persistState encoding) := by
  intro a b h
  have hnone : snapshot encoding a.data = none ↔ snapshot encoding b.data = none :=
    h.isNone_snapshot
  rw [persistState_run, persistState_run]
  cases hb : snapshot encoding b.data with
  | none =>
    rw [hnone.mpr hb]
    exact ⟨a, rfl, h⟩
  | some stored =>
    obtain ⟨other, ha⟩ := ne_none_iff_exists'.mp fun ha => by
      rw [hnone.mp ha] at hb
      cases hb
    rw [ha]
    exact ⟨_, rfl, h.data, h.hasScanService, h.securityGatePolicy⟩

theorem blind_getRelease (releaseId : String) : Blind (getRelease releaseId) := by
  refine simulates_get fun a b h => ?_
  rw [h.data.releases]
  cases b.data.releases.get? releaseId with
  | none => exact simulates_throw _
  | some release => exact simulates_pure release

theorem blind_modifyData (hf : ∀ a b, SameData a b → SameData (f a) (f b)) : Blind (modifyData f) :=
  simulates_modify fun _ _ h => ⟨hf _ _ h.data, h.hasScanService, h.securityGatePolicy⟩

theorem get?_set_congr {α : Type} {d d' : Dict String α} (h : ∀ id, d.get? id = d'.get? id)
    (key : String) (value : α) (id : String) :
    (d.set key value).get? id = (d'.set key value).get? id := by
  rw [Dict.get?_set, Dict.get?_set, h]

theorem blind_putRelease (releaseId : String) (release : DatedRelease) :
    Blind (putRelease releaseId release) :=
  blind_modifyData fun _ _ h =>
    ⟨get?_set_congr h.releases releaseId release, h.rules, h.executions, h.records⟩

theorem blind_persist {α : Type} (a : α) : Blind (do persistState encoding; return a) :=
  blind_persistState.bind fun _ => simulates_pure a

theorem blind_transition (releaseId : String) (toStatus : ReleaseStatus) :
    Blind (transition encoding releaseId toStatus) := by
  refine (blind_getRelease releaseId).bind fun release => ?_
  split_ifs
  · exact (blind_putRelease _ _).bind fun _ => blind_persist _
  · exact simulates_throw _

theorem blind_cutRc (releaseId rcVersion : String) :
    Blind (cutRc encoding releaseId rcVersion) := by
  refine (blind_transition releaseId .rc).bind fun release => ?_
  split_ifs
  · exact simulates_pure _
  · exact (blind_putRelease _ _).bind fun _ => simulates_pure _

theorem blind_startValidation (releaseId : String) (lookup : ScanLookup) :
    Blind (startValidation encoding releaseId lookup) := by
  refine (blind_transition releaseId .validating).bind fun release => ?_
  refine simulates_get fun a b h => ?_
  rw [h.hasScanService, h.securityGatePolicy]
  split_ifs
  · exact simulates_pure _
  · exact (blind_putRelease _ _).bind fun _ => blind_persist _

theorem blind_publish (releaseId releasedBy : String) (now : ℤ) :
    Blind (publish encoding releaseId releasedBy now) := by
  refine (blind_getRelease releaseId).bind fun release => ?_
  split_ifs
  · exact simulates_throw _
  · refine (blind_transition releaseId .released).bind fun release => ?_
    exact (blind_putRelease _ _).bind fun _ => blind_persist _

theorem blind_updateRelease {α : Type} (releaseId : String) (f : DatedRelease → DatedRelease)
    (g : DatedRelease → α) :
    Blind (do
      let release ← getRelease releaseId
      putRelease releaseId (f release)
      persistState encoding
      return g release) :=
  (blind_getRelease releaseId).bind fun _ => (blind_putRelease _ _).bind fun _ => blind_persist _

theorem blind_getRule (ruleId : String) : Blind (getRule ruleId) :=
  simulates_get fun a b h => by
    rw [h.data.rules]
    exact simulates_pure _

theorem blind_removeRule (ruleId : String) : Blind (removeRule encoding ruleId) := by
  refine simulates_get fun a b h => ?_
  rw [h.data.rules]
  cases b.data.rules.get? ruleId with
  | none => exact simulates_pure _
  | some rule =>
    have herase : Blind (modifyData fun data => { data with rules := data.rules.erase ruleId }) :=
      blind_modifyData fun a b h => ⟨h.releases, fun id => by
        rw [Dict.get?_erase, Dict.get?_erase, h.rules], h.executions, h.records⟩
    exact herase.bind fun _ => blind_persist true

theorem blind_runRule (call : SyncCall) (dryRun : Bool) (status : SyncStatus)
    (completedAt : Option ℤ) : Blind (runRule encoding call dryRun status completedAt) := by
  refine (blind_getRule call.ruleId).bind fun rule => ?_
  refine (blind_modifyData fun a b h => ?_).bind fun _ => blind_persist _
  exact ⟨h.releases, h.rules, get?_set_congr h.executions _ _, h.records⟩

theorem blind_putRecord (record : RollbackRecord) (rollbackId : String) :
    Blind (putRecord record rollbackId) :=
  blind_modifyData fun _ _ h =>
    ⟨h.releases, h.rules, h.executions, get?_set_congr h.records rollbackId record⟩

theorem blind_createRollback (record : RollbackRecord) : Blind (createRollback encoding record) :=
  (blind_putRecord _ _).bind fun _ => blind_persist _

theorem blind_getRollback (rollbackId : String) : Blind (getRollback rollbackId) :=
  simulates_get fun a b h => by
    rw [h.data.records]
    exact simulates_pure _

theorem blind_updateRollback (rollbackId : String) (f : RollbackRecord → RollbackRecord) :
    Blind (updateRollback encoding rollbackId f) := by
  refine (blind_getRollback rollbackId).bind fun record => ?_
  cases record with
  | none => exact simulates_pure _
  | some record => exact (blind_putRecord _ _).bind fun _ => blind_persist _

theorem blind_initiateRollback (releaseId : String) (record : RollbackRecord) :
    Blind (initiateRollback encoding releaseId record) := by
  refine (blind_getRelease releaseId).bind fun release => ?_
  refine Simulates.bind ((blind_createRollback _).map _) fun _ => ?_
  dsimp only
  split_ifs
  · exact (blind_transition releaseId .rolledBack).bind fun _ => blind_persist _
  · exact blind_persist _

theorem blind_reply (request : Request) : Blind (request.reply encoding) := by
  cases request with
  | createRelease releaseId version releaseType description createdAt =>
    exact Simulates.map ((blind_putRelease _ _).bind fun _ => blind_persist _) _
  | getRelease releaseId => exact (blind_getRelease releaseId).map _
  | transition releaseId toStatus => exact (blind_transition _ _).map _
  | freeze releaseId => exact (blind_transition _ _).map _
  | cutRc releaseId rcVersion => exact (blind_cutRc _ _).map _
  | startValidation releaseId lookup => exact (blind_startValidation _ _).map _
  | publish releaseId releasedBy now => exact (blind_publish _ _ _).map _
  | markFailed releaseId => exact (blind_transition _ _).map _
  | updateCheck releaseId checkId status message =>
    exact (blind_updateRelease releaseId (fun r => r.checked checkId status message) _).map _
  | evaluateChecklist releaseId =>
    exact Simulates.map ((blind_getRelease releaseId).bind fun _ => simulates_pure _) _
  | applyComponentSecurityGate releaseId summary policy =>
    exact (blind_updateRelease releaseId
      (fun r => r.gated (evaluateSecurityGate summary (policy.getD {}))) fun _ => _).map _
  | addRule rule =>
    refine Simulates.map ((blind_modifyData fun a b h => ?_).bind fun _ => blind_persist _) _
    exact ⟨h.releases, get?_set_congr h.rules _ _, h.executions, h.records⟩
  | getRule ruleId => exact (blind_getRule ruleId).map _
  | removeRule ruleId => exact (blind_removeRule ruleId).map _
  | dryRun call => exact (blind_runRule _ _ _ _).map _
  | execute call now => exact (blind_runRule _ _ _ _).map _
  | getExecution executionId =>
    exact Simulates.map (simulates_get fun a b h => by
      rw [h.data.executions]
      exact simulates_pure _) _
  | createRollback record => exact (blind_createRollback _).map _
  | getRollback rollbackId => exact (blind_getRollback _).map _
  | approve rollbackId approvedBy => exact (blind_updateRollback _ _).map _
  | completeStep rollbackId stepDescription => exact (blind_updateRollback _ _).map _
  | complete rollbackId now => exact (blind_updateRollback _ _).map _
  | fail rollbackId error => exact (blind_updateRollback _ _).map _
  | initiateRollback releaseId record => exact (blind_initiateRollback _ _).map _

def replies (encoding : Encoding) : DurableService → List Request → List (Except ReleaseError Reply)
  | _, [] => []
  | svc, request :: later =>
    match (request.reply encoding).run svc with
    | .ok reply svc' => .ok reply :: replies encoding svc' later
    | .error e svc' => .error e :: replies encoding svc' later

theorem replies_of_agree (h : Agree a b) (later : List Request) :
    replies encoding a later = replies encoding b later := by
  induction later generalizing a b with
  | nil => rfl
  | cons request later ih =>
    have hreply := (blind_reply request : Blind (request.reply encoding)) a b h
    rw [replies, replies]
    cases hrun : (request.reply encoding).run b with
    | ok reply b' =>
      rw [hrun] at hreply
      obtain ⟨a', ha, hagree⟩ := hreply
      rw [ha]
      exact congrArg _ (ih hagree)
    | error e b' =>
      rw [hrun] at hreply
      obtain ⟨a', ha, hagree⟩ := hreply
      rw [ha]
      exact congrArg _ (ih hagree)

end Agree

def rebuilt (payload : Snapshot) : DurableService :=
  create timestamps svc.hasScanService svc.securityGatePolicy payload

structure Transparent (encoding : Encoding) (svc : DurableService) : Prop where
  upToDate : UpToDate encoding.timestamps svc
  same : ∀ payload : Snapshot, Same payload svc.stored.1 →
    SameData (rebuilt encoding.timestamps svc payload).data svc.data
  lists : ∀ payload : Snapshot, Same payload svc.stored.1 →
    let data := (rebuilt encoding.timestamps svc payload).data
    data.releases.entries.Perm svc.data.releases.entries ∧
      data.rules.entries.Perm svc.data.rules.entries
  replies : ∀ payload : Snapshot, Same payload svc.stored.1 → ∀ later,
    replies encoding (rebuilt encoding.timestamps svc payload) later = replies encoding svc later

theorem transparent_iff {encoding : Encoding} {svc : DurableService} :
    Transparent encoding svc ↔ UpToDate encoding.timestamps svc := by
  refine ⟨fun h => h.upToDate, fun h => ?_⟩
  have hsame : ∀ payload : Snapshot, Same payload svc.stored.1 →
      SameData (rebuilt encoding.timestamps svc payload).data svc.data := fun payload hpayload => by
    have hdata : SameData (loadData encoding.timestamps payload.1)
        (loadData encoding.timestamps svc.stored.1) :=
      sameData_loadData payload.2 svc.stored.2 hpayload
    rw [h] at hdata
    exact hdata
  refine ⟨h, hsame, fun payload hpayload => ?_, fun payload hpayload => ?_⟩
  · have hdata := hsame payload hpayload
    exact ⟨Dict.perm_entries hdata.releases, Dict.perm_entries hdata.rules⟩
  · exact replies_of_agree ⟨hsame payload hpayload, rfl, rfl⟩

def next (encoding : Encoding) (svc : DurableService) (request : Request) : DurableService :=
  History.next (Request.reply encoding) svc request

def Saves (request : Request) : Prop :=
  ¬ SetsVersion svc request ∧ (Silent svc request → UpToDate timestamps svc)

theorem upToDate_next_iff {encoding : Encoding} {svc svc' : DurableService} {request : Request}
    {reply : Reply} (hrun : (request.reply encoding).run svc = .ok reply svc') :
    UpToDate encoding.timestamps svc' ↔ Saves encoding.timestamps svc request := by
  by_cases hcut : ∃ releaseId rcVersion, request = .cutRc releaseId rcVersion
  · obtain ⟨releaseId, rcVersion, rfl⟩ := hcut
    rw [upToDate_cutRc hrun, Saves, and_iff_left]
    exact False.elim
  · have hsets : ¬ SetsVersion svc request := fun h => by
      cases request with
      | cutRc releaseId rcVersion => exact hcut ⟨releaseId, rcVersion, rfl⟩
      | _ => exact h
    rw [Saves, and_iff_right hsets]
    by_cases hsilent : Silent svc request
    · rw [next_silent hsilent hrun]
      exact ⟨fun h _ => h, fun h => h hsilent⟩
    · refine iff_of_true (upToDate_of_loud hsilent (fun id version h => ?_) hrun)
        fun h => absurd h hsilent
      exact hcut ⟨id, version, h⟩

theorem transparent_next_iff (encoding : Encoding) (svc : DurableService) (request : Request) :
    (Returns encoding svc request → Transparent encoding (next encoding svc request)) ↔
      (Returns encoding svc request → Saves encoding.timestamps svc request) := by
  refine forall_congr' fun ⟨reply, svc', hrun⟩ => ?_
  have hnext : next encoding svc request = svc' := by
    rw [next, History.next, hrun]
  rw [hnext, transparent_iff, upToDate_next_iff hrun]

/-- From every store, in a run of the service over it, the operations that return leave a
service that a restart does not change, as long as they save what they do. -/
theorem transparent_iff_saves (encoding : Encoding) (hasScanService : Bool)
    (securityGatePolicy : SecurityGatePolicy) (stored : Snapshot) (requests : List Request) :
    History.Along (next encoding) (fun svc request => Returns encoding svc request →
        Transparent encoding (next encoding svc request))
        (create encoding.timestamps hasScanService securityGatePolicy stored) requests ↔
      History.Along (next encoding) (fun svc request => Returns encoding svc request →
        Saves encoding.timestamps svc request)
        (create encoding.timestamps hasScanService securityGatePolicy stored) requests :=
  History.along_congr (I := fun _ => True) (fun _ _ _ _ => trivial)
    (fun svc request _ => transparent_next_iff encoding svc request) trivial requests

def emptySnapshot : Snapshot := ⟨.obj [], nodup_nil, trivial⟩

def plainEncoding : Encoding where
  floats := { repr := fun _ => [], parse := fun _ => 0 }
  timestamps := strokes

def candidateRun : List Request :=
  [.createRelease "rel-1" "1.0.0" .minor "" 0, .freeze "rel-1", .cutRc "rel-1" "1.0.0-rc.1"]

theorem not_transparent_candidateRun :
    ¬ History.Along (next plainEncoding) (fun svc request => Returns plainEncoding svc request →
        Transparent plainEncoding (next plainEncoding svc request))
        (create strokes false {} emptySnapshot) candidateRun := by
  intro ⟨_, _, hcut, _⟩
  have hreturns : Returns plainEncoding (next plainEncoding (next plainEncoding
      (create strokes false {} emptySnapshot) (.createRelease "rel-1" "1.0.0" .minor "" 0))
        (.freeze "rel-1")) (.cutRc "rel-1" "1.0.0-rc.1") := ⟨_, _, rfl⟩
  obtain ⟨hsaves, -⟩ := (transparent_next_iff _ _ _).mp hcut hreturns
  refine hsaves ⟨by decide, fun release hrelease => ?_⟩
  obtain rfl := some.inj hrelease
  decide

end DurableService

end Agent33.Releases
