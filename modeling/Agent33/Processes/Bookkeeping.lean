import Agent33.Processes.ManagedProcesses

/-!
# The bookkeeping of the processes

The tasks keep the handles in order by themselves. The limit, the results of terminations and
the records rest besides on what the calls find after they have waited.
-/

namespace Agent33.Processes

open Library List Option

namespace ProcessManagerService

variable {manager : ProcessManagerService} {s t : ManagerState} {id : Text}

def Settles (s t : ManagerState) : Prop :=
  ∀ id record record', s.records.get? id = some record → record.status ≠ .running →
    t.records.get? id = some record' → record'.status = record.status

theorem settles_of_eq (h : t.records = s.records) : Settles s t := by
  intro id record record' hold _ hnew
  rw [h, hold] at hnew
  rw [some.inj hnew]

theorem settles_set (hget : s.records.get? id = some old)
    (h : old.status ≠ .running → new.status = old.status) (hrecords : t.records =
      s.records.set id new) : Settles s t := by
  intro other record record' hold hfinal hnew
  rw [hrecords, Dict.get?_set] at hnew
  split_ifs at hnew with heq
  · rw [heq, hget] at hold
    cases hold
    cases hnew
    exact h hfinal
  · rw [hold] at hnew
    rw [some.inj hnew]

/-- The step finds the limit as it was when it was checked, and no termination loses its task
or its record. -/
def Orderly (manager : ProcessManagerService) (s : ManagerState) : ProcessEvent → Prop
  | .spawned k none _ => ∀ start, s.starts[k]? = some start → start.outcome = none →
      s.handles.entries.length < manager.limit ∧ start.processId ∉ s.records.keys
  | .graceRunsOut k => ∀ termination job, s.terminations[k]? = some termination →
      termination.outcome = none → s.jobs[termination.job]? = some job →
        Watcher.isOver job.watcher = true
  | .cleanupCompleted tenantId maxAge now => ∀ termination ∈ s.terminations,
      termination.outcome = none → ∀ record,
        s.records.get? termination.processId = some record →
          keepsRecord s tenantId maxAge now termination.processId record = true
  | _ => True

variable {now : ℤ} {record : ManagedProcessRecord} {event : ProcessEvent}

theorem kept_spawned (h : Kept manager s) (horderly : Orderly manager s (.spawned k error now)) :
    Kept manager (manager.spawned s k error now) ∧ Settles s (manager.spawned s k error now) := by
  unfold spawned
  split
  · rename_i processId command tenantId hstart
    cases error with
    | some message =>
      exact ⟨h.congr rfl rfl rfl rfl rfl, settles_of_eq rfl⟩
    | none =>
      obtain ⟨hroom, hnew⟩ := horderly _ hstart rfl
      have hcore := (h.core.register ⟨processId, manager.redact command, tenantId, .running,
        now, none, none, []⟩ rfl rfl hnew hroom).kept_persist h.stored.empty
      refine ⟨hcore.congr rfl rfl rfl rfl rfl, ?_⟩
      intro other record record' hold hfinal hfound
      have hrecords : (manager.register s ⟨processId, command, tenantId, none⟩ now).2.records =
          s.records.set processId ⟨processId, manager.redact command, tenantId, .running, now,
            none, none, []⟩ := persist_records manager _
      dsimp only at hfound
      rw [hrecords, Dict.get?_set, if_neg, hold] at hfound
      · rw [some.inj hfound]
      · rintro rfl
        rw [(Dict.get?_eq_none _ _).mpr hnew] at hold
        cases hold
  · exact ⟨h, settles_of_eq rfl⟩

theorem kept_childExits (h : Kept manager s) (j : ℕ) (exitCode : ℤ) :
    Kept manager (childExits s j exitCode) ∧ Settles s (childExits s j exitCode) := by
  unfold childExits
  split
  · rename_i processId watcher hjob
    refine ⟨⟨h.core.setJob hjob rfl rfl ?_, h.stored.congr rfl rfl⟩, settles_of_eq rfl⟩
    exact fun hcancelled => h.core.uncancelled _ (mem_of_getElem? hjob) hcancelled
  · exact ⟨h, settles_of_eq rfl⟩

theorem kept_watcherWakes (h : Kept manager s) (j : ℕ) :
    Kept manager (watcherWakes s j) ∧ Settles s (watcherWakes s j) := by
  unfold watcherWakes
  split
  · rename_i processId exitCode hjob
    exact ⟨⟨h.core.setJob hjob rfl rfl nofun, h.stored.congr rfl rfl⟩, settles_of_eq rfl⟩
  · exact ⟨h, settles_of_eq rfl⟩

theorem exited_status_of_terminated (exitCode now : ℤ) (h : record.status = .terminated) :
    (exited record exitCode now).status = .terminated := by
  unfold exited
  dsimp only
  rw [if_pos h]
  exact h

theorem exited_status_ne_running (record : ManagedProcessRecord) (exitCode now : ℤ) :
    (exited record exitCode now).status ≠ .running := by
  unfold exited
  dsimp only
  split_ifs with hterminated
  · rw [hterminated]
    exact nofun
  · exact nofun
  · exact nofun
  · exact nofun

theorem exited_processId (record : ManagedProcessRecord) (exitCode now : ℤ) :
    (exited record exitCode now).processId = record.processId ∧
      (exited record exitCode now).tenantId = record.tenantId := by
  unfold exited
  dsimp only
  split_ifs <;> exact ⟨rfl, rfl⟩

section

variable (h : Kept manager s)
include h

theorem kept_watcherFinishes (j : ℕ) (now : ℤ) :
    Kept manager (manager.watcherFinishes s j now) ∧
      Settles s (manager.watcherFinishes s j now) := by
  unfold watcherFinishes
  split
  · rename_i processId child exitCode hjob
    have hhandle := h.core.watched j _ hjob rfl
    obtain ⟨_, _, _, _, record, hrecord, hstatus⟩ := h.core.handled processId j hhandle
    rw [hrecord]
    dsimp only
    obtain ⟨hid, htenant⟩ := exited_processId record exitCode now
    have hreleased := h.core.release hjob rfl
    have hset := hreleased.setRecord (exited record exitCode now) hrecord
      (hid.trans (h.core.keyed _ _ hrecord)) htenant (exited_status_ne_running _ _ _)
      (.inl (by rw [Dict.get?_erase, if_pos rfl]))
    have hstored : Stored manager (manager.persist
      { s with records := s.records.set processId (exited record exitCode now) }) :=
      stored_persist h.stored.empty
    obtain ⟨persisted, hpersist⟩ := persist_eq manager
      { s with records := s.records.set processId (exited record exitCode now) }
    rw [hpersist] at hstored ⊢
    refine ⟨⟨hset.congr rfl rfl rfl rfl, hstored.congr rfl rfl⟩, settles_set hrecord ?_ rfl⟩
    intro hfinal
    have hterminated := hstatus.resolve_left hfinal
    rw [exited_status_of_terminated exitCode now hterminated, hterminated]
  · exact ⟨h, settles_of_eq rfl⟩

theorem kept_terminateBegins (processId tenantId : Text) (now : ℤ) :
    Kept manager (manager.terminateBegins s processId tenantId now) ∧
      Settles s (manager.terminateBegins s processId tenantId now) := by
  unfold terminateBegins
  cases hvisible : visible? s processId tenantId with
  | none => exact ⟨h, settles_of_eq rfl⟩
  | some record =>
    obtain ⟨hrecord, htenant⟩ := visible?_eq_some.mp hvisible
    have hid := h.core.keyed _ _ hrecord
    dsimp only
    cases hhandle : s.handles.get? processId with
    | some j =>
      obtain ⟨_, _, _, _, found, hfound, hstatus⟩ := h.core.handled processId j hhandle
      rw [hrecord] at hfound
      cases hfound
      dsimp only
      generalize hclosed : ({ record with status := .terminated, finishedAt := some now } :
        ManagedProcessRecord) = closed
      have hterminated : closed.status = .terminated := by rw [← hclosed]
      have hset := h.core.setRecord closed hrecord (by rw [← hclosed]; exact hid)
        (by rw [← hclosed]) (by rw [hterminated]; exact nofun) (.inr hterminated)
      refine ⟨(hset.kept_persist h.stored.empty).addTermination ?_,
        settles_set hrecord ?_ (persist_records manager _)⟩
      · refine ⟨closed, ?_, by rw [hterminated]; exact nofun⟩
        rw [visible?_congr (persist_records manager _),
          visible?_setRecord hrecord (by rw [← hclosed]) hvisible, if_pos rfl]
      · intro hfinal
        rw [hterminated, hstatus.resolve_left hfinal]
    | none =>
      dsimp only
      by_cases hrunning : record.status = .running
      · rw [if_pos hrunning]
        generalize hclosed : (ManagedProcessRecord.mk _ _ _ .interrupted _ _ _ _) = closed
        have hinterrupted : closed.status = .interrupted := by rw [← hclosed]
        have hset := h.core.setRecord closed hrecord (by rw [← hclosed]; exact hid)
          (by rw [← hclosed]) (by rw [hinterrupted]; exact nofun) (.inl hhandle)
        refine ⟨(hset.kept_persist h.stored.empty).addTermination ?_,
          settles_set hrecord ?_ (persist_records manager _)⟩
        · exact ⟨closed, rfl, by rw [← hclosed]; exact hid, by rw [hinterrupted]; exact nofun⟩
        · intro hfinal
          exact absurd hrunning hfinal
      · rw [if_neg hrunning]
        exact ⟨h.addTermination ⟨record, rfl, hid, hrunning⟩, settles_of_eq rfl⟩

theorem kept_graceRunsOut (horderly : Orderly manager s (.graceRunsOut k)) :
    Kept manager (graceRunsOut s k) ∧ Settles s (graceRunsOut s k) := by
  unfold graceRunsOut
  split
  · rename_i processId tenantId j htermination
    cases hjob : s.jobs[j]? with
    | none => exact ⟨h, settles_of_eq rfl⟩
    | some job =>
      dsimp only
      rw [if_pos (horderly _ job htermination rfl hjob)]
      exact ⟨h, settles_of_eq rfl⟩
  · exact ⟨h, settles_of_eq rfl⟩

theorem kept_terminateResumes (k : ℕ) :
    Kept manager (manager.terminateResumes s k) ∧
      Settles s (manager.terminateResumes s k) := by
  unfold terminateResumes
  split
  · rename_i processId tenantId j htermination
    obtain ⟨record, hvisible, hfinal⟩ :=
      h.core.pending _ (mem_of_getElem? htermination) rfl
    split
    · refine ⟨⟨h.core.withTerminations ?_, h.stored.congr rfl rfl⟩, settles_of_eq rfl⟩
      intro t ht
      rcases mem_or_eq_of_mem_set ht with hold | rfl
      · exact .inl hold
      · have hid := h.core.keyed _ _ (visible?_eq_some.mp hvisible).1
        refine .inr ⟨manager.sanitize record, ?_, hid, hfinal⟩
        unfold getProcess
        rw [hvisible]
    · rename_i hjob
      exact absurd rfl (h.core.uncancelled _ (mem_of_getElem? hjob))
    · exact ⟨h, settles_of_eq rfl⟩
  · exact ⟨h, settles_of_eq rfl⟩

theorem kept_cleanupCompleted
    (horderly : Orderly manager s (.cleanupCompleted tenantId maxAge now)) :
    Kept manager (manager.cleanupCompleted s tenantId maxAge now) ∧
      Settles s (manager.cleanupCompleted s tenantId maxAge now) := by
  unfold cleanupCompleted
  dsimp only
  generalize hrecords : s.records.filterMapValues _ = records
  have hget : ∀ id, records.get? id = (s.records.get? id).bind fun record =>
      if keepsRecord s tenantId maxAge now id record then some record else none := by
    intro id
    rw [← hrecords, Dict.get?_filterMapValues]
  split_ifs
  · have hsub : ∀ id record, records.get? id = some record →
        s.records.get? id = some record := by
      intro id record hfound
      rw [hget] at hfound
      obtain ⟨old, hold, hkeep⟩ := bind_eq_some_iff.mp hfound
      split_ifs at hkeep
      rw [hold, hkeep]
    have hkeeps : ∀ id record, s.records.get? id = some record →
        keepsRecord s tenantId maxAge now id record = true → records.get? id = some record := by
      intro id record hold hkeep
      rw [hget, hold, bind_some, if_pos hkeep]
    have hcore : Core manager { s with records } := by
      refine h.core.restrict hsub ?_ ?_
      · intro id j record hhandle hold
        refine hkeeps id record hold ?_
        have hmem : id ∈ s.handles.keys := by
          by_contra hnot
          rw [(Dict.get?_eq_none _ _).mpr hnot] at hhandle
          cases hhandle
        unfold keepsRecord
        rw [decide_eq_true hmem]
        rfl
      · intro t ht houtcome record hold
        exact hkeeps _ record hold (horderly t ht houtcome record hold)
    refine ⟨hcore.kept_persist h.stored.empty, ?_⟩
    intro id record record' hold _ hfound
    rw [persist_records] at hfound
    rw [hsub id record' hfound, some.injEq] at hold
    rw [hold]
  · exact ⟨h, settles_of_eq rfl⟩

end

theorem recovered_processId (now : ℤ) (record : ManagedProcessRecord) :
    (recovered now record).processId = record.processId := by
  unfold recovered
  split_ifs <;> rfl

theorem recovered_status_of_ne (h : record.status ≠ .running) :
    (recovered now record).status = record.status := by
  unfold recovered
  rw [if_neg h]

theorem recovered_status_of_running (h : record.status = .running) :
    (recovered now record).status = .interrupted := by
  unfold recovered
  rw [if_pos h]

theorem get?_restarts (h : Kept manager s) (hdurable : manager.durable = true) (now : ℤ)
    (id : Text) : (manager.restarts s now).records.get? id = (s.records.get? id).map fun record =>
      recovered now (manager.sanitize (manager.sanitize record)) := by
  unfold restarts
  dsimp only
  rw [persist_records, h.stored.recorded hdurable, List.map_map]
  dsimp only
  have hpair : ∀ p ∈ s.records.values.map ((fun record =>
      (record.processId, recovered now (manager.sanitize record))) ∘ manager.sanitize),
      ∃ record, s.records.get? p.1 = some record ∧
        p.2 = recovered now (manager.sanitize (manager.sanitize record)) := by
    intro p hp
    obtain ⟨record, hrecord, rfl⟩ := List.mem_map.mp hp
    obtain ⟨key, hkey⟩ := (Dict.mem_values _ _).mp hrecord
    refine ⟨record, ?_, rfl⟩
    change s.records.get? record.processId = some record
    rw [h.core.keyed key record hkey, hkey]
  cases hold : s.records.get? id with
  | some record =>
    refine Dict.get?_foldl_set_of_unique (.inl ?_) ?_
    · refine List.mem_map.mpr ⟨record, (Dict.mem_values _ _).mpr ⟨id, hold⟩, ?_⟩
      exact Prod.ext (h.core.keyed id record hold) rfl
    · intro value hvalue
      obtain ⟨found, hfound, hvalue⟩ := hpair _ hvalue
      rw [hold, some.injEq] at hfound
      rw [hfound]
      exact hvalue
  | none =>
    rw [map_none]
    by_contra hne
    obtain ⟨value, hvalue⟩ := ne_none_iff_exists'.mp hne
    rcases Dict.mem_or_get?_of_foldl_set hvalue with hmem | hempty
    · obtain ⟨found, hfound, -⟩ := hpair _ hmem
      rw [hold] at hfound
      cases hfound
    · cases hempty

theorem restarts_empty (h : Kept manager s) (hdurable : manager.durable = false) (now : ℤ) :
    (manager.restarts s now).records = Dict.empty := by
  unfold restarts
  dsimp only
  rw [persist_records, h.stored.empty hdurable]
  rfl

theorem core_fresh {persisted : List ManagedProcessRecord}
    (hkeyed : ∀ id record, records.get? id = some record → record.processId = id) :
    Core manager { records, persisted } where
  keyed := hkeyed
  limited := Nat.zero_le _
  handled := nofun
  watched := nofun
  uncancelled := nofun
  pending := nofun
  answered := nofun

theorem kept_restarts (h : Kept manager s) (now : ℤ) :
    Kept manager (manager.restarts s now) ∧ Settles s (manager.restarts s now) := by
  have hold : ∀ id record', (manager.restarts s now).records.get? id = some record' →
      ∃ record, s.records.get? id = some record ∧
        record' = recovered now (manager.sanitize (manager.sanitize record)) := by
    intro id record' hfound
    cases hdurable : manager.durable with
    | true =>
      rw [get?_restarts h hdurable] at hfound
      obtain ⟨record, hrecord, hrecovered⟩ := map_eq_some_iff.mp hfound
      exact ⟨record, hrecord, hrecovered.symm⟩
    | false =>
      rw [restarts_empty h hdurable] at hfound
      cases hfound
  refine ⟨Core.kept_persist (core_fresh ?_) h.stored.empty, ?_⟩
  · intro id record' hfound
    obtain ⟨record, hrecord, rfl⟩ := hold id record' (by
      unfold restarts
      dsimp only
      rw [persist_records]
      exact hfound)
    exact (recovered_processId now _).trans (h.core.keyed id record hrecord)
  · intro id record record' hrecord hfinal hfound
    obtain ⟨found, hfound', rfl⟩ := hold id record' hfound
    rw [hrecord] at hfound'
    cases hfound'
    exact recovered_status_of_ne hfinal

theorem Kept.step (h : Kept manager s) (horderly : Orderly manager s event) :
    Kept manager (manager.step s event) ∧ Settles s (manager.step s event) := by
  cases event with
  | startBegins processId command tenantId directoryOk =>
    exact ⟨h.congr rfl rfl rfl rfl rfl, settles_of_eq rfl⟩
  | spawned k error now => exact kept_spawned h horderly
  | childExits j exitCode => exact kept_childExits h j exitCode
  | watcherWakes j => exact kept_watcherWakes h j
  | watcherFinishes j now => exact kept_watcherFinishes h j now
  | terminateBegins processId tenantId now => exact kept_terminateBegins h processId tenantId now
  | graceRunsOut k => exact kept_graceRunsOut h horderly
  | terminateResumes k => exact kept_terminateResumes h k
  | cleanupCompleted tenantId maxAge now => exact kept_cleanupCompleted h horderly
  | restarts now => exact kept_restarts h now

/-- What the bookkeeping owes after a step: the limit, a final record from each termination,
no handle of a process that has exited when its task is over, final records that stay as
they are, and interrupted ones after a restart. -/
structure Bookkept (manager : ProcessManagerService) (s : ManagerState) (event : ProcessEvent)
    (t : ManagerState) : Prop where
  limited : t.handles.entries.length ≤ manager.limit
  answered : ∀ x ∈ t.terminations, ∀ outcome, x.outcome = some outcome →
    ∃ record, outcome = .returned record ∧ record.processId = x.processId ∧
      record.status ≠ .running
  released : ∀ id (j : ℕ) job exitCode, t.handles.get? id = some j → t.jobs[j]? = some job →
    job.child = some exitCode → Watcher.isOver job.watcher = false
  settled : Settles s t
  recovered : ∀ now, event = .restarts now → manager.durable = true → ∀ id record,
    s.records.get? id = some record → record.status = .running →
      ∃ record', t.records.get? id = some record' ∧ record'.status = .interrupted

theorem Kept.bookkept (h : Kept manager s) (horderly : Orderly manager s event) :
    Bookkept manager s event (manager.step s event) := by
  obtain ⟨hkept, hsettles⟩ := h.step horderly
  refine ⟨hkept.core.limited, hkept.core.answered, ?_, hsettles, ?_⟩
  · intro id j job exitCode hhandle hjob _
    obtain ⟨found, hfound, -, hover, -⟩ := hkept.core.handled id j hhandle
    rw [hjob, some.injEq] at hfound
    rw [hfound]
    exact hover
  · rintro now rfl hdurable id record hrecord hrunning
    refine ⟨recovered now (manager.sanitize (manager.sanitize record)), ?_,
      recovered_status_of_running hrunning⟩
    exact (get?_restarts h hdurable now id).trans (by rw [hrecord]; rfl)

theorem kept_init (manager : ProcessManagerService) : Kept manager {} :=
  ⟨core_fresh nofun, ⟨fun _ => rfl, fun _ => rfl⟩⟩

/-- In a run whose steps are all orderly, the bookkeeping is right after every step. -/
theorem bookkept_along_of_orderly (manager : ProcessManagerService) (events : List ProcessEvent)
    (h : History.Along manager.step (Orderly manager) {} events) :
    History.Along manager.step (fun s event => Bookkept manager s event (manager.step s event))
      {} events :=
  History.Along.imp (I := Kept manager) (fun _ _ hs horderly _ => (hs.step horderly).1)
    (fun _ _ hs horderly _ => hs.bookkept horderly) (kept_init manager) h h

def sampleManager : ProcessManagerService where
  redact text := text
  maxProcesses := 1
  durable := true

def sampleEvents : List ProcessEvent :=
  [.startBegins "p".toList "sleep 60".toList [] true, .spawned 0 none 10,
    .terminateBegins "p".toList [] 20]

theorem bookkept_along_of_orderly_sample :
    History.Along sampleManager.step
      (fun s event => Bookkept sampleManager s event (sampleManager.step s event)) {}
      (sampleEvents ++ [.childExits 0 (-15), .watcherWakes 0, .watcherFinishes 0 21,
        .terminateResumes 0, .restarts 30]) := by
  refine bookkept_along_of_orderly sampleManager _
    ⟨trivial, ?_, trivial, trivial, trivial, trivial, trivial, trivial, trivial⟩
  intro start hstart _
  cases hstart
  exact ⟨Nat.zero_lt_one, not_mem_nil⟩

/-- The grace period of a termination runs out: the call ends without a record. -/
theorem not_bookkept_graceRunsOut :
    ¬ Bookkept sampleManager (sampleEvents.foldl sampleManager.step {}) (.graceRunsOut 0)
      (sampleManager.step (sampleEvents.foldl sampleManager.step {}) (.graceRunsOut 0)) := by
  intro h
  obtain ⟨record, houtcome, -⟩ := h.answered ⟨"p".toList, [], 0, some .cancelled⟩
    (mem_of_getElem? (i := 0) rfl) .cancelled rfl
  cases houtcome

end ProcessManagerService

end Agent33.Processes
