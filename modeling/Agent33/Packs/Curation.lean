import Agent33.Library.Dict
import Agent33.Library.History

/-!
# Curation of packs

The records that follow a pack through review, listing and featuring, with the store that
they are written to. What the quality assessment finds is opaque here.
-/

namespace Agent33.Packs

open Library

inductive CurationStatus
  | draft
  | submitted
  | underReview
  | changesRequested
  | approved
  | listed
  | featured
  | deprecated
  | unlisted
  deriving DecidableEq

namespace CurationStatus

def validTransitions : CurationStatus → List CurationStatus
  | draft => [submitted]
  | submitted => [underReview]
  | underReview => [approved, changesRequested]
  | changesRequested => [submitted]
  | approved => [listed]
  | listed => [featured, deprecated, unlisted]
  | featured => [listed, deprecated, unlisted]
  | deprecated => [unlisted]
  | unlisted => [submitted]

end CurationStatus

structure CurationRecord (Assessment : Type) where
  packName : Text
  version : Text := []
  status : CurationStatus := .draft
  assessment : Option Assessment := none
  badges : List Text := []
  featured : Bool := false
  verified : Bool := false
  reviewerId : Text := []
  reviewNotes : Text := []
  deprecationReason : Text := []
  submittedAt : Option Int := none
  reviewedAt : Option Int := none
  listedAt : Option Int := none

structure AssessedPack (Assessment : Type) where
  version : Text
  assessment : Assessment

inductive CurationError
  | notInstalled (packName : Text)
  | noRecord (packName : Text)
  | invalidTransition (fromState toState : CurationStatus)
  | invalidDecision (decision : Text)

structure CurationService (Assessment : Type) where
  records : Dict Text (CurationRecord Assessment) := Dict.empty
  stored : Option (Dict Text (CurationRecord Assessment)) := none

namespace CurationService

variable {Assessment : Type}

variable (Assessment) in
abbrev CurationM := EStateM CurationError (CurationService Assessment)

def persist : CurationM Assessment Unit :=
  modify fun svc => { svc with stored := svc.stored.map fun _ => svc.records }

variable (packName : Text)

def putRecord (record : CurationRecord Assessment) :
    CurationM Assessment (CurationRecord Assessment) := do
  modify fun svc => { svc with records := svc.records.set packName record }
  persist
  return record

def requireRecord : CurationM Assessment (CurationRecord Assessment) := do
  match (← get).records.get? packName with
  | none => throw (.noRecord packName)
  | some record => return record

/-- `version or pack.version`. -/
def versionOf (version : Text) (pack : AssessedPack Assessment) : Text :=
  if version = [] then pack.version else version

def submit (packName version : Text) (pack : Option (AssessedPack Assessment)) (now : Int) :
    CurationM Assessment (CurationRecord Assessment) := do
  match pack with
  | none => throw (.notInstalled packName)
  | some pack =>
    let new : CurationRecord Assessment :=
      { packName, version := versionOf version pack, status := .submitted
        assessment := some pack.assessment, submittedAt := some now }
    match (← get).records.get? packName with
    | none => putRecord packName new
    | some existing =>
      if existing.status = .unlisted ∨ existing.status = .changesRequested then
        putRecord packName { existing with
          status := .submitted, version := versionOf version pack
          assessment := some pack.assessment, submittedAt := some now }
      else putRecord packName new

def advance (target : CurationStatus)
    (f : CurationRecord Assessment → CurationRecord Assessment) :
    CurationM Assessment (CurationRecord Assessment) := do
  let record ← requireRecord packName
  if target ∈ record.status.validTransitions then
    putRecord packName (f { record with status := target })
  else throw (.invalidTransition record.status target)

def startReview (packName reviewerId : Text) : CurationM Assessment (CurationRecord Assessment) :=
  advance packName .underReview fun record => { record with reviewerId }

def decisionTarget (decision : Text) : Option CurationStatus :=
  if decision = "approved".toList then some .approved
  else if decision = "changes_requested".toList then some .changesRequested
  else none

def completeReview (packName decision notes reviewerId : Text) (now : Int) :
    CurationM Assessment (CurationRecord Assessment) := do
  discard (requireRecord packName)
  match decisionTarget decision with
  | none => throw (.invalidDecision decision)
  | some target =>
    advance packName target fun record => { record with
      reviewNotes := notes
      reviewerId := if reviewerId = [] then record.reviewerId else reviewerId
      reviewedAt := some now }

def listPack (now : Int) : CurationM Assessment (CurationRecord Assessment) :=
  advance packName .listed fun record => { record with listedAt := some now }

def featuredBadge : Text := "featured".toList

def verifiedBadge : Text := "verified".toList

def addBadge (badge : Text) (badges : List Text) : List Text :=
  if badge ∈ badges then badges else badges ++ [badge]

def feature : CurationM Assessment (CurationRecord Assessment) :=
  advance packName .featured fun record => { record with
    featured := true, badges := addBadge featuredBadge record.badges }

/-- `badges.remove` takes the first one. -/
def withoutFeatured (record : CurationRecord Assessment) : CurationRecord Assessment :=
  { record with featured := false, badges := record.badges.erase featuredBadge }

def unfeature : CurationM Assessment (CurationRecord Assessment) :=
  advance packName .listed withoutFeatured

def verify : CurationM Assessment (CurationRecord Assessment) := do
  let record ← requireRecord packName
  putRecord packName
    { record with verified := true, badges := addBadge verifiedBadge record.badges }

def deprecatePack (packName reason : Text) : CurationM Assessment (CurationRecord Assessment) :=
  advance packName .deprecated fun record => { record with deprecationReason := reason }

def unlist : CurationM Assessment (CurationRecord Assessment) :=
  advance packName .unlisted withoutFeatured

end CurationService

end Agent33.Packs

/-!
## The lifecycle of curated packs

Every operation but a new submission follows the state machine. The flag and the badge of
a featured pack go with its status where it is unfeatured or unlisted, not where it is
listed again or deprecated.
-/

namespace Agent33.Packs

open Library

inductive CurationOp (Assessment : Type)
  | submit (packName version : Text) (pack : Option (AssessedPack Assessment)) (now : Int)
  | startReview (packName reviewerId : Text)
  | completeReview (packName decision notes reviewerId : Text) (now : Int)
  | listPack (packName : Text) (now : Int)
  | feature (packName : Text)
  | unfeature (packName : Text)
  | verify (packName : Text)
  | deprecatePack (packName reason : Text)
  | unlist (packName : Text)
  | restart

variable {Assessment : Type}

namespace CurationOp

def perform : CurationOp Assessment → CurationService.CurationM Assessment Unit
  | .submit packName version pack now => discard (CurationService.submit packName version pack now)
  | .startReview packName reviewerId => discard (CurationService.startReview packName reviewerId)
  | .completeReview packName decision notes reviewerId now =>
    discard (CurationService.completeReview packName decision notes reviewerId now)
  | .listPack packName now => discard (CurationService.listPack packName now)
  | .feature packName => discard (CurationService.feature packName)
  | .unfeature packName => discard (CurationService.unfeature packName)
  | .verify packName => discard (CurationService.verify packName)
  | .deprecatePack packName reason => discard (CurationService.deprecatePack packName reason)
  | .unlist packName => discard (CurationService.unlist packName)
  | .restart => modify fun svc => { svc with records := svc.stored.getD Dict.empty }

end CurationOp

structure Curated (Assessment : Type) where
  service : CurationService Assessment := {}
  approvals : List (Text × Text) := []

namespace Curated

variable (s : Curated Assessment)

def record? (packName : Text) : Option (CurationRecord Assessment) :=
  s.service.records.get? packName

def approval : CurationOp Assessment → List (Text × Text)
  | .completeReview packName decision _ _ _ =>
    match s.record? packName with
    | none => []
    | some record =>
      if decision = "approved".toList ∧ record.status = .underReview then
        [(packName, record.version)]
      else []
  | _ => []

def next (op : CurationOp Assessment) : Curated Assessment where
  service := History.next CurationOp.perform s.service op
  approvals := s.approvals ++ s.approval op

/-- Listed packs were approved in their version, and a pack is featured by status, flag and
badge alike. -/
structure RecordSound (approvals : List (Text × Text)) (packName : Text)
    (record : CurationRecord Assessment) : Prop where
  approved : record.status = .listed ∨ record.status = .featured →
    (packName, record.version) ∈ approvals
  flag : record.featured = true ↔ record.status = .featured
  badge : CurationService.featuredBadge ∈ record.badges ↔ record.status = .featured

structure SameReview (old new : CurationRecord Assessment) : Prop where
  reviewerId : new.reviewerId = old.reviewerId
  reviewNotes : new.reviewNotes = old.reviewNotes
  reviewedAt : new.reviewedAt = old.reviewedAt
  badges : new.badges = old.badges
  verified : new.verified = old.verified

/-- The operation changes the status of a record along the edges of the state machine, a
submission discards nothing, and all records are sound after it. -/
structure Orderly (s : Curated Assessment) (op : CurationOp Assessment) : Prop where
  edge : ∀ packName old new, s.record? packName = some old →
    (s.next op).record? packName = some new → old.status ≠ new.status →
      new.status ∈ old.status.validTransitions
  kept : ∀ packName version pack now, op = .submit packName version pack now →
    ∀ old new, s.record? packName = some old → (s.next op).record? packName = some new →
      SameReview old new
  sound : ∀ packName record, (s.next op).record? packName = some record →
    RecordSound (s.next op).approvals packName record

structure Unreviewed (record : CurationRecord Assessment) : Prop where
  reviewerId : record.reviewerId = []
  reviewNotes : record.reviewNotes = []
  reviewedAt : record.reviewedAt = none
  badges : record.badges = []
  verified : record.verified = false

/-- A submission meets no record, one that was unlisted or sent back, or one that waits for its
first review, and a featured pack is neither listed again nor deprecated. -/
def Regular : CurationOp Assessment → Prop
  | .submit packName _ pack _ => pack.isSome = true → ∀ record, s.record? packName = some record →
    record.status = .unlisted ∨ record.status = .changesRequested ∨
      record.status = .submitted ∧ Unreviewed record
  | .listPack packName _ => ∀ record, s.record? packName = some record → record.status ≠ .featured
  | .deprecatePack packName _ =>
    ∀ record, s.record? packName = some record → record.status ≠ .featured
  | _ => True

def advanced (packName : Text) (target : CurationStatus)
    (f : CurationRecord Assessment → CurationRecord Assessment) :
    Option (Text × CurationRecord Assessment) :=
  match s.record? packName with
  | none => none
  | some old =>
    if target ∈ old.status.validTransitions then some (packName, f { old with status := target })
    else none

def submitted (packName version : Text) (pack : AssessedPack Assessment)
    (now : Int) : CurationRecord Assessment :=
  let new : CurationRecord Assessment :=
    { packName, version := CurationService.versionOf version pack, status := .submitted
      assessment := some pack.assessment, submittedAt := some now }
  match s.record? packName with
  | none => new
  | some old =>
    if old.status = .unlisted ∨ old.status = .changesRequested then
      { old with
        status := .submitted, version := CurationService.versionOf version pack
        assessment := some pack.assessment, submittedAt := some now }
    else new

def reviewed (notes reviewerId : Text) (now : Int) (record : CurationRecord Assessment) :
    CurationRecord Assessment :=
  { record with
    reviewNotes := notes
    reviewerId := if reviewerId = [] then record.reviewerId else reviewerId
    reviewedAt := some now }

def featuredRecord (record : CurationRecord Assessment) : CurationRecord Assessment :=
  { record with
    featured := true
    badges := CurationService.addBadge CurationService.featuredBadge record.badges }

def verifiedRecord (record : CurationRecord Assessment) : CurationRecord Assessment :=
  { record with
    verified := true
    badges := CurationService.addBadge CurationService.verifiedBadge record.badges }

def written :
    CurationOp Assessment → Option (Text × CurationRecord Assessment)
  | .submit packName version pack now =>
    pack.map fun pack => (packName, s.submitted packName version pack now)
  | .startReview packName reviewerId =>
    s.advanced packName .underReview fun record => { record with reviewerId }
  | .completeReview packName decision notes reviewerId now =>
    match CurationService.decisionTarget decision with
    | none => none
    | some target => s.advanced packName target (reviewed notes reviewerId now)
  | .listPack packName now =>
    s.advanced packName .listed fun record => { record with listedAt := some now }
  | .feature packName => s.advanced packName .featured featuredRecord
  | .unfeature packName => s.advanced packName .listed CurationService.withoutFeatured
  | .verify packName => (s.record? packName).map fun record => (packName, verifiedRecord record)
  | .deprecatePack packName reason =>
    s.advanced packName .deprecated fun record => { record with deprecationReason := reason }
  | .unlist packName => s.advanced packName .unlisted CurationService.withoutFeatured
  | .restart => none

def put :
    Option (Text × CurationRecord Assessment) → CurationService Assessment
  | none => s.service
  | some (packName, record) =>
    let records := s.service.records.set packName record
    { records, stored := s.service.stored.map fun _ => records }

theorem requireRecord_run (packName : Text) :
    (CurationService.requireRecord packName).run s.service =
      match s.record? packName with
      | none => .error (.noRecord packName) s.service
      | some record => .ok record s.service := by
  rw [CurationService.requireRecord, EStateM.run_bind, EStateM.run_get, record?]
  dsimp only
  cases s.service.records.get? packName <;> rfl

theorem next_advance (packName : Text) (target : CurationStatus)
    (f : CurationRecord Assessment → CurationRecord Assessment) :
    History.next (fun _ : Unit => discard (CurationService.advance packName target f)) s.service
      () = s.put (s.advanced packName target f) := by
  rw [History.next, Hoare.run_discard, CurationService.advance, EStateM.run_bind,
    requireRecord_run, advanced]
  cases s.record? packName with
  | none => rfl
  | some old =>
    dsimp only
    split_ifs <;> rfl

open CurationService in
theorem next_service (hop : op ≠ .restart) : (s.next op).service = s.put (s.written op) := by
  cases op with
  | submit packName version pack now =>
    cases pack with
    | none => rfl
    | some pack =>
      rw [written, Option.map_some, submitted, record?]
      change History.next (fun _ : Unit => discard (submit packName version
        (some pack) now)) s.service () = _
      rw [History.next, Hoare.run_discard, submit,
        EStateM.run_bind, EStateM.run_get]
      dsimp only
      cases s.service.records.get? packName with
      | none => rfl
      | some old =>
        dsimp only
        split_ifs <;> rfl
  | startReview packName reviewerId => exact s.next_advance packName _ _
  | completeReview packName decision notes reviewerId now =>
    change History.next (fun _ : Unit => discard (completeReview packName decision
      notes reviewerId now)) s.service () = _
    rw [written, completeReview]
    cases hdecision : decisionTarget decision with
    | none =>
      rw [History.next, Hoare.run_discard, EStateM.run_bind, Hoare.run_discard, requireRecord_run]
      cases s.record? packName <;> rfl
    | some target =>
      refine Eq.trans ?_ (s.next_advance packName target (reviewed notes reviewerId now))
      rw [History.next, History.next, Hoare.run_discard, Hoare.run_discard, EStateM.run_bind,
        Hoare.run_discard, requireRecord_run]
      cases hrecord : s.record? packName with
      | none =>
        rw [advance, EStateM.run_bind, requireRecord_run, hrecord]
      | some record => rfl
  | listPack packName now => exact s.next_advance packName _ _
  | feature packName => exact s.next_advance packName _ _
  | unfeature packName => exact s.next_advance packName _ _
  | verify packName =>
    change History.next (fun _ : Unit => discard (verify packName)) s.service () = _
    rw [written, History.next, Hoare.run_discard, verify, EStateM.run_bind,
      requireRecord_run]
    cases s.record? packName <;> rfl
  | deprecatePack packName reason => exact s.next_advance packName _ _
  | unlist packName => exact s.next_advance packName _ _
  | restart => exact absurd rfl hop

structure RecordKept (approvals : List (Text × Text)) (packName : Text)
    (record : CurationRecord Assessment) : Prop where
  approved : record.status ∈ [.approved, .listed, .featured, .deprecated] →
    (packName, record.version) ∈ approvals
  flag : record.featured = true ↔ record.status = .featured
  badge : CurationService.featuredBadge ∈ record.badges ↔ record.status = .featured
  nodup : record.badges.Nodup
  notDraft : record.status ≠ .draft

structure Kept (s : Curated Assessment) : Prop where
  record : ∀ packName record, s.record? packName = some record →
    RecordKept s.approvals packName record
  stored : ∀ records, s.service.stored = some records → records = s.service.records

theorem RecordKept.sound {approvals : List (Text × Text)}
    (h : RecordKept approvals packName record) :
    RecordSound approvals packName record := by
  refine ⟨fun hstatus => h.approved ?_, h.flag, h.badge⟩
  rcases hstatus with hstatus | hstatus <;> simp [hstatus]

variable {s : Curated Assessment} {old new : CurationRecord Assessment}


theorem kept_start (stored : Bool) :
    Kept ({ service := { stored := if stored then some Dict.empty else none } } :
      Curated Assessment) := by
  constructor
  · exact fun _ _ h => nomatch h
  · intro records h
    cases stored with
    | false => cases h
    | true => exact (Option.some.inj h).symm

theorem advanced_eq (hold : s.record? packName = some old)
    (hedge : target ∈ old.status.validTransitions) :
    s.advanced packName target f = some (packName, f { old with status := target }) := by
  rw [advanced, hold]
  exact if_pos hedge

theorem eq_of_advanced (h : s.advanced packName target f = some p) :
    ∃ old, s.record? packName = some old ∧ target ∈ old.status.validTransitions ∧
      p = (packName, f { old with status := target }) := by
  rw [advanced] at h
  cases hrecord : s.record? packName with
  | none =>
    rw [hrecord] at h
    cases h
  | some old =>
    rw [hrecord] at h
    dsimp only at h
    split_ifs at h with hedge
    exact ⟨old, rfl, hedge, (Option.some.inj h).symm⟩

theorem mem_addBadge {badge other : Text} :
    other ∈ CurationService.addBadge badge badges ↔ other ∈ badges ∨ other = badge := by
  rw [CurationService.addBadge]
  split_ifs with h
  · exact ⟨.inl, fun hor => hor.elim id fun heq => heq ▸ h⟩
  · simp

theorem nodup_addBadge {badge : Text} (h : badges.Nodup) :
    (CurationService.addBadge badge badges).Nodup := by
  rw [CurationService.addBadge]
  split_ifs with hmem
  · exact h
  · exact List.nodup_append.mpr ⟨h, List.nodup_singleton _, fun a ha b hb hab =>
      hmem (List.mem_singleton.mp hb ▸ hab ▸ ha)⟩

section RecordKept

variable {approvals approvals' : List (Text × Text)}

section

variable (h : RecordKept approvals packName old)
include h

theorem RecordKept.change (hold : old.status ≠ .featured)
    (hnew : new.status ≠ .featured) (hdraft : new.status ≠ .draft)
    (hfeatured : new.featured = old.featured) (hbadges : new.badges = old.badges)
    (happroved : new.status ∈ [.approved, .listed, .featured, .deprecated] →
      (packName, new.version) ∈ approvals') : RecordKept approvals' packName new := by
  refine ⟨happroved, ?_, ?_, hbadges ▸ h.nodup, hdraft⟩
  · rw [hfeatured, h.flag]
    exact iff_of_false hold hnew
  · rw [hbadges, h.badge]
    exact iff_of_false hold hnew

theorem RecordKept.withoutFeatured (hfeatured : target ≠ .featured) (hdraft : target ≠ .draft)
    (happroved : (packName, old.version) ∈ approvals') :
    RecordKept approvals' packName
      (CurationService.withoutFeatured { old with status := target }) := by
  refine ⟨fun _ => happroved, ?_, ?_, h.nodup.erase _, hdraft⟩
  · exact iff_of_false Bool.false_ne_true hfeatured
  · refine iff_of_false (fun hmem => ?_) hfeatured
    exact (h.nodup.mem_erase_iff.mp hmem).1 rfl

theorem RecordKept.featuredRecord (happroved : (packName, old.version) ∈ approvals') :
    RecordKept approvals' packName
      (Curated.featuredRecord { old with status := .featured }) := by
  refine ⟨fun _ => happroved, iff_of_true rfl rfl, ?_, nodup_addBadge h.nodup, nofun⟩
  exact iff_of_true (mem_addBadge.mpr (.inr rfl)) rfl

theorem RecordKept.verifiedRecord (happrovals : ∀ a ∈ approvals, a ∈ approvals') :
    RecordKept approvals' packName (Curated.verifiedRecord old) := by
  refine ⟨fun hstatus => happrovals _ (h.approved hstatus), h.flag, ?_, nodup_addBadge h.nodup,
    h.notDraft⟩
  refine Iff.trans (mem_addBadge.trans (or_iff_left ?_)) h.badge
  decide

end

end RecordKept

theorem approved_of_edge {approvals : List (Text × Text)}
    (h : RecordKept approvals packName old) (hedge : target ∈ old.status.validTransitions)
    (htarget : target ∈ [.listed, .featured, .deprecated, .unlisted]) :
    (packName, old.version) ∈ approvals := by
  refine h.approved ?_
  revert hedge htarget
  cases old.status <;> cases target <;> decide

open CurationStatus

theorem recordKept_of_written (h : s.Kept) (hop : s.Regular op)
    (hwritten : s.written op = some p) :
    RecordKept (s.approvals ++ s.approval op) p.1 p.2 := by
  have happrovals : ∀ a ∈ s.approvals, a ∈ s.approvals ++ s.approval op :=
    fun a ha => List.mem_append_left _ ha
  cases op with
  | submit packName version pack now =>
    obtain ⟨pack, -, rfl⟩ := Option.map_eq_some_iff.mp hwritten
    dsimp only
    rw [submitted]
    cases hrecord : s.record? packName with
    | none => exact ⟨fun hstatus => by simp at hstatus, by simp, by simp, List.nodup_nil, nofun⟩
    | some old =>
      dsimp only
      split_ifs with hstatus
      · refine (h.record _ _ hrecord).change ?_ nofun nofun rfl rfl fun hmem => by simp at hmem
        rcases hstatus with hstatus | hstatus <;> rw [hstatus] <;> nofun
      · exact ⟨fun hstatus => by simp at hstatus, by simp, by simp, List.nodup_nil, nofun⟩
  | startReview packName reviewerId =>
    rw [written] at hwritten
    obtain ⟨old, hold, hedge, rfl⟩ := eq_of_advanced hwritten
    refine (h.record _ _ hold).change ?_ nofun nofun rfl rfl fun hmem => by simp at hmem
    intro hstatus
    simp [hstatus, validTransitions] at hedge
  | completeReview packName decision notes reviewerId now =>
    rw [written] at hwritten
    cases hdecision : CurationService.decisionTarget decision with
    | none =>
      rw [hdecision] at hwritten
      cases hwritten
    | some target =>
      rw [hdecision] at hwritten
      obtain ⟨old, hold, hedge, rfl⟩ := eq_of_advanced hwritten
      rw [CurationService.decisionTarget] at hdecision
      split_ifs at hdecision with happroved hchanges
      · obtain rfl := Option.some.inj hdecision
        have hstatus : old.status = .underReview := by
          revert hedge
          cases old.status <;> decide
        refine (h.record _ _ hold).change (by rw [hstatus]; nofun) nofun nofun rfl rfl fun _ => ?_
        refine List.mem_append_right _ ?_
        rw [approval, hold]
        dsimp only
        rw [if_pos ⟨happroved, hstatus⟩]
        exact List.mem_singleton_self _
      · obtain rfl := Option.some.inj hdecision
        refine (h.record _ _ hold).change ?_ nofun nofun rfl rfl fun hmem => by
          simp [reviewed] at hmem
        intro hstatus
        simp [hstatus, validTransitions] at hedge
  | listPack | deprecatePack =>
    rw [written] at hwritten
    obtain ⟨old, hold, hedge, rfl⟩ := eq_of_advanced hwritten
    have hkept := h.record _ _ hold
    have happroved := happrovals _ (approved_of_edge hkept hedge (by decide))
    exact hkept.change (hop old hold) nofun nofun rfl rfl fun _ => happroved
  | feature packName =>
    rw [written] at hwritten
    obtain ⟨old, hold, hedge, rfl⟩ := eq_of_advanced hwritten
    have hkept := h.record _ _ hold
    exact hkept.featuredRecord (happrovals _ (approved_of_edge hkept hedge (by decide)))
  | unfeature | unlist =>
    rw [written] at hwritten
    obtain ⟨old, hold, hedge, rfl⟩ := eq_of_advanced hwritten
    have hkept := h.record _ _ hold
    exact hkept.withoutFeatured nofun nofun
      (happrovals _ (approved_of_edge hkept hedge (by decide)))
  | verify packName =>
    obtain ⟨old, hold, rfl⟩ := Option.map_eq_some_iff.mp hwritten
    exact (h.record _ _ hold).verifiedRecord happrovals
  | restart => cases hwritten

theorem record?_put (p : Text × CurationRecord Assessment) (name : Text) :
    (s.put (some p)).records.get? name = if name = p.1 then some p.2 else s.record? name :=
  Dict.get?_set _ _ _ _

theorem stored_put (h : s.Kept) (w : Option (Text × CurationRecord Assessment))
    (hstored : (s.put w).stored = some records) :
    records = (s.put w).records := by
  cases w with
  | none => exact h.stored records hstored
  | some p =>
    obtain ⟨_, -, rfl⟩ := Option.map_eq_some_iff.mp hstored
    rfl

theorem record?_restart (h : s.Kept)
    (hrecord : (s.next .restart).record? name = some record) : s.record? name = some record := by
  change (s.service.stored.getD Dict.empty).get? name = some record at hrecord
  cases hstored : s.service.stored with
  | none =>
    rw [hstored] at hrecord
    cases hrecord
  | some records =>
    rw [hstored, Option.getD_some, h.stored records hstored] at hrecord
    exact hrecord

theorem Kept.next (h : s.Kept) (hop : s.Regular op) : (s.next op).Kept := by
  have hweaken : ∀ name record, s.record? name = some record →
      RecordKept (s.next op).approvals name record := fun name record hrecord =>
    let hkept := h.record name record hrecord
    ⟨fun hstatus => List.mem_append_left _ (hkept.approved hstatus), hkept.flag, hkept.badge,
      hkept.nodup, hkept.notDraft⟩
  by_cases hrestart : op = .restart
  · subst hrestart
    refine ⟨fun name record hrecord => hweaken name record (record?_restart h hrecord), ?_⟩
    intro records hstored
    change s.service.stored = some records at hstored
    change records = s.service.stored.getD Dict.empty
    rw [hstored, Option.getD_some]
  · have hservice := s.next_service hrestart
    refine ⟨fun name record hrecord => ?_, fun records hstored => ?_⟩
    · rw [record?, hservice] at hrecord
      cases hwritten : s.written op with
      | none =>
        rw [hwritten] at hrecord
        exact hweaken name record hrecord
      | some p =>
        rw [hwritten, record?_put] at hrecord
        split_ifs at hrecord with hname
        · cases hrecord
          rw [hname]
          exact recordKept_of_written h hop hwritten
        · exact hweaken name record hrecord
    · rw [hservice] at hstored ⊢
      exact stored_put h _ hstored

theorem edge_of_written (hop : s.Regular op)
    (hwritten : s.written op = some p) (hold : s.record? p.1 = some old)
    (hne : old.status ≠ p.2.status) : p.2.status ∈ old.status.validTransitions := by
  have hadvanced : ∀ {name target f}, s.advanced name target f = some p →
      (∀ record : CurationRecord Assessment, (f record).status = record.status) →
        p.2.status ∈ old.status.validTransitions := by
    intro name target f hp hf
    obtain ⟨record, hrecord, hedge, rfl⟩ := eq_of_advanced hp
    obtain rfl := Option.some.inj (hrecord.symm.trans hold)
    dsimp only
    rwa [hf]
  cases op with
  | submit packName version pack now =>
    obtain ⟨pack, hpack, rfl⟩ := Option.map_eq_some_iff.mp hwritten
    have hstatus : (s.submitted packName version pack now).status = .submitted := by
      rw [submitted, hold]
      dsimp only
      split_ifs <;> rfl
    rcases hop (by rw [hpack]; rfl) old hold with hs | hs | ⟨hs, -⟩
    · simp [hs, hstatus, validTransitions]
    · simp [hs, hstatus, validTransitions]
    · exact absurd (hs.trans hstatus.symm) hne
  | startReview packName reviewerId =>
    rw [written] at hwritten
    exact hadvanced hwritten fun _ => rfl
  | completeReview packName decision notes reviewerId now =>
    rw [written] at hwritten
    cases hdecision : CurationService.decisionTarget decision with
    | none =>
      rw [hdecision] at hwritten
      cases hwritten
    | some target =>
      rw [hdecision] at hwritten
      exact hadvanced hwritten fun _ => rfl
  | listPack packName now =>
    rw [written] at hwritten
    exact hadvanced hwritten fun _ => rfl
  | feature packName => exact hadvanced hwritten fun _ => rfl
  | unfeature packName => exact hadvanced hwritten fun _ => rfl
  | verify packName =>
    obtain ⟨record, hrecord, rfl⟩ := Option.map_eq_some_iff.mp hwritten
    obtain rfl := Option.some.inj (hrecord.symm.trans hold)
    exact absurd rfl hne
  | deprecatePack packName reason =>
    rw [written] at hwritten
    exact hadvanced hwritten fun _ => rfl
  | unlist packName => exact hadvanced hwritten fun _ => rfl
  | restart => cases hwritten

theorem sameReview_submitted {version : Text} {pack : AssessedPack Assessment} {now : Int}
    (hold : s.record? packName = some old) :
    SameReview old (s.submitted packName version pack now) ↔
      old.status = .unlisted ∨ old.status = .changesRequested ∨ Unreviewed old := by
  rw [submitted, hold]
  dsimp only
  by_cases hstatus : old.status = .unlisted ∨ old.status = .changesRequested
  · rw [if_pos hstatus]
    refine iff_of_true ⟨rfl, rfl, rfl, rfl, rfl⟩ ?_
    exact hstatus.elim .inl fun h => .inr (.inl h)
  · rw [if_neg hstatus]
    obtain ⟨hunlisted, hchanges⟩ := not_or.mp hstatus
    rw [or_iff_right hunlisted, or_iff_right hchanges]
    exact ⟨fun ⟨h₁, h₂, h₃, h₄, h₅⟩ => ⟨h₁.symm, h₂.symm, h₃.symm, h₄.symm, h₅.symm⟩,
      fun ⟨h₁, h₂, h₃, h₄, h₅⟩ => ⟨h₁.symm, h₂.symm, h₃.symm, h₄.symm, h₅.symm⟩⟩

theorem record?_next_of_written (hop : op ≠ .restart)
    (hwritten : s.written op = some p) (name : Text) :
    (s.next op).record? name = if name = p.1 then some p.2 else s.record? name := by
  rw [record?, s.next_service hop, hwritten]
  exact record?_put p name

theorem record?_next_of_not_written (hop : op ≠ .restart) (hwritten : s.written op = none)
    (name : Text) : (s.next op).record? name = s.record? name := by
  rw [record?, s.next_service hop, hwritten]
  rfl

theorem not_featured_of_sound (h : s.Kept) (hop : op ≠ .restart)
    (horderly : s.Orderly op) (hold : s.record? packName = some old)
    (hwritten : s.written op = some (packName, new)) (hfeatured : new.featured = old.featured)
    (hnew : new.status ≠ .featured) : old.status ≠ .featured := by
  intro hstatus
  have hnext := record?_next_of_written hop hwritten packName
  rw [if_pos rfl] at hnext
  have hflag := (horderly.sound packName new hnext).flag
  rw [hfeatured, (h.record _ _ hold).flag] at hflag
  exact hnew (hflag.mp hstatus)

theorem regular_of_orderly (h : s.Kept) (horderly : s.Orderly op) : s.Regular op := by
  cases op with
  | submit packName version pack now =>
    intro hpack old hold
    obtain ⟨pack, rfl⟩ := Option.isSome_iff_exists.mp hpack
    have hop : CurationOp.submit packName version (some pack) now ≠ .restart := nofun
    have hnext : (s.next (.submit packName version (some pack) now)).record? packName = _ :=
      record?_next_of_written hop rfl packName
    rw [if_pos rfl] at hnext
    have hkept := horderly.kept packName version _ now rfl old _ hold hnext
    rw [sameReview_submitted hold] at hkept
    rcases hkept with hstatus | hstatus | hnone
    · exact .inl hstatus
    · exact .inr (.inl hstatus)
    · have hsubmitted : (s.submitted packName version pack now).status = .submitted := by
        rw [submitted, hold]
        dsimp only
        split_ifs <;> rfl
      have hedge := horderly.edge packName old _ hold hnext
      have hdraft := (h.record _ _ hold).notDraft
      rw [hsubmitted] at hedge
      revert hedge hdraft
      cases hstatus : old.status <;> simp [validTransitions, hnone]
  | listPack packName now =>
    intro old hold hstatus
    have hop : CurationOp.listPack packName now ≠ (.restart : CurationOp Assessment) := nofun
    have hwritten : s.written (.listPack packName now) =
        some (packName, { old with status := .listed, listedAt := some now }) := by
      rw [written]
      refine advanced_eq hold ?_
      simp [hstatus, validTransitions]
    exact not_featured_of_sound h hop horderly hold hwritten rfl nofun hstatus
  | deprecatePack packName reason =>
    intro old hold hstatus
    have hop : CurationOp.deprecatePack packName reason ≠ (.restart : CurationOp Assessment) :=
      nofun
    have hwritten : s.written (.deprecatePack packName reason) =
        some (packName, { old with status := .deprecated, deprecationReason := reason }) := by
      rw [written]
      refine advanced_eq hold ?_
      simp [hstatus, validTransitions]
    exact not_featured_of_sound h hop horderly hold hwritten rfl nofun hstatus
  | _ => trivial

theorem orderly_of_regular (h : s.Kept) (hop : s.Regular op) : s.Orderly op := by
  refine ⟨fun name old new hold hnew hne => ?_, fun name version pack now hsubmit old new hold hnew
    => ?_, fun name record hrecord => ((h.next hop).record name record hrecord).sound⟩
  · by_cases hrestart : op = .restart
    · subst hrestart
      have := hold.symm.trans (record?_restart h hnew)
      exact absurd (congrArg CurationRecord.status (Option.some.inj this)) hne
    · cases hwritten : s.written op with
      | none =>
        rw [record?_next_of_not_written hrestart hwritten, hold] at hnew
        exact absurd (congrArg CurationRecord.status (Option.some.inj hnew)) hne
      | some p =>
        rw [record?_next_of_written hrestart hwritten] at hnew
        split_ifs at hnew with hname
        · subst hname
          obtain rfl := Option.some.inj hnew
          exact edge_of_written hop hwritten hold hne
        · rw [hold] at hnew
          exact absurd (congrArg CurationRecord.status (Option.some.inj hnew)) hne
  · have hrestart : op ≠ .restart := by
      rw [hsubmit]
      nofun
    subst hsubmit
    cases pack with
    | none =>
      rw [record?_next_of_not_written hrestart rfl, hold] at hnew
      obtain rfl := Option.some.inj hnew
      exact ⟨rfl, rfl, rfl, rfl, rfl⟩
    | some pack =>
      rw [record?_next_of_written hrestart rfl, if_pos rfl] at hnew
      obtain rfl := Option.some.inj hnew
      rw [sameReview_submitted hold]
      exact (hop rfl old hold).imp id (Or.imp id And.right)

/-- From the start, with a store or without one, a run is orderly where its operations are
regular. -/
theorem along_orderly_iff (Assessment : Type) (stored : Bool)
    (ops : List (CurationOp Assessment)) :
    History.Along next Orderly
        { service := { stored := if stored then some Dict.empty else none } } ops ↔
      History.Along next Regular
        { service := { stored := if stored then some Dict.empty else none } } ops :=
  History.along_congr (fun _ _ h hop => Kept.next h hop)
    (fun _ _ h => ⟨regular_of_orderly h, orderly_of_regular h⟩) (kept_start stored) ops

def featuredThenDeprecated : List (CurationOp Unit) :=
  let pack := "tools".toList
  [.submit pack [] (some ⟨"1.0.0".toList, ()⟩) 0, .startReview pack "ann".toList,
    .completeReview pack "approved".toList [] [] 1, .listPack pack 2, .feature pack,
    .deprecatePack pack "old".toList]

theorem not_orderly_featuredThenDeprecated :
    ¬ History.Along next Orderly { service := { stored := some Dict.empty } }
      featuredThenDeprecated := by
  intro h
  have hregular := (along_orderly_iff Unit true featuredThenDeprecated).mp h
  obtain ⟨_, _, _, _, _, hfeatured, _⟩ := hregular
  exact hfeatured _ rfl rfl

end Curated

end Agent33.Packs
