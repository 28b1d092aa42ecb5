import Agent33.Library.History
import Agent33.Tools.Approvals

/-!
# Approval tokens

Tokens that are signed for approved requests, with the sets of consumed and revoked
token ids. Times are in microseconds, the claims of a token count seconds. What the
library makes of a token is a parameter: it accepts the tokens that were signed with
the secret of the manager until they expire.
-/

namespace Agent33.Security.ApprovalTokens

open Library Tools.Approvals

structure ApprovalTokenPayload where
  typ : String := "a33_approval"
  sub : String := ""
  jti : Text := []
  tool : Text := []
  op : Text := []
  argHash : Text := []
  tenantId : String := ""
  scope : String := "tools:execute"
  oneTime : Bool := true
  exp : Int := 0
  iat : Int := 0
  deriving DecidableEq

inductive ApprovalTokenError
  | raised (message : Text)

/-- Signing with the secret of the manager, the claims of the tokens that were signed
with it, and the hash of the arguments of a tool. -/
structure Jwt where
  encode : ApprovalTokenPayload → Text
  signed : Text → Except Text ApprovalTokenPayload
  argHash : Text → Json → Text

def second : Int := 1000000

/-- `jwt.decode`, with the errors of the manager. -/
def Jwt.decode (jwt : Jwt) (token : Text) (now : Int) :
    Except ApprovalTokenError ApprovalTokenPayload :=
  match jwt.signed token with
  | .error e => .error (.raised ("Invalid approval token: ".toList ++ e))
  | .ok payload =>
    if payload.exp * second ≤ now then .error (.raised "Approval token has expired".toList)
    else .ok payload

structure ApprovalTokenManager where
  defaultTtlSeconds : Int := 300
  defaultOneTime : Bool := true
  consumed : Dict Text Int := Dict.empty
  revoked : Dict Text Int := Dict.empty
  stateStore : Option (Dict Text Int × Dict Text Int) := none

abbrev TokenM := EStateM ApprovalTokenError ApprovalTokenManager

def issue (jwt : Jwt) (manager : ApprovalTokenManager) (now : Int)
    (approval : ToolApprovalRequest) (arguments : Json) (ttlSeconds : Option Int)
    (oneTime : Option Bool) : Except ApprovalTokenError Text :=
  if approval.status ≠ .approved then
    .error (.raised ("Cannot issue token for approval in status=".toList ++
      approval.status.value.toList))
  else
    let iat := now / second
    .ok (jwt.encode {
      sub := if approval.reviewedBy = "" then approval.requestedBy else approval.reviewedBy
      iat
      exp := iat + ttlSeconds.getD manager.defaultTtlSeconds
      jti := approval.approvalId
      tool := approval.toolName
      op := approval.operation
      argHash := jwt.argHash approval.toolName arguments
      tenantId := approval.tenantId
      oneTime := oneTime.getD manager.defaultOneTime })

namespace ApprovalTokenManager

def persistState (manager : ApprovalTokenManager) : ApprovalTokenManager :=
  { manager with stateStore := manager.stateStore.map fun _ => (manager.consumed, manager.revoked) }

def retention (manager : ApprovalTokenManager) : Int := 2 * manager.defaultTtlSeconds * second

def keep (cutoff : Int) (times : Dict Text Int) : Dict Text Int :=
  times.filterMapValues fun _ time => if cutoff < time then some time else none

variable (manager : ApprovalTokenManager) (now : Int)

def pruneConsumed : ApprovalTokenManager :=
  let pruned := keep (now - manager.retention) manager.consumed
  if pruned.entries ≠ manager.consumed.entries then
    { manager with consumed := pruned }.persistState
  else manager

def pruneRevoked : ApprovalTokenManager :=
  let pruned := keep (now - manager.retention) manager.revoked
  if pruned.entries ≠ manager.revoked.entries then
    { manager with revoked := pruned }.persistState
  else manager

def consumeLocked (jti : Text) : ApprovalTokenManager :=
  { manager with consumed := manager.consumed.set jti now }.persistState

end ApprovalTokenManager

def checkClaims (jwt : Jwt) (payload : ApprovalTokenPayload) (toolName : Text) (arguments : Json)
    (tenantId : String) : Except ApprovalTokenError Unit :=
  if payload.typ ≠ "a33_approval" then
    .error (.raised "Token is not an approval token (wrong typ)".toList)
  else if payload.tool ≠ toolName then
    .error (.raised ("Token tool mismatch: expected=".toList ++ toolName ++ ", got=".toList ++
      payload.tool))
  else if payload.argHash ≠ jwt.argHash toolName arguments then
    .error (.raised "Token argument hash mismatch (arguments were tampered)".toList)
  else if tenantId ≠ "" ∧ payload.tenantId ≠ "" ∧ payload.tenantId ≠ tenantId then
    .error (.raised ("Token tenant mismatch: expected=".toList ++ tenantId.toList ++
      ", got=".toList ++ payload.tenantId.toList))
  else .ok ()

def useToken (now : Int) (payload : ApprovalTokenPayload) (consume : Bool) :
    TokenM ApprovalTokenPayload := do
  let manager ← get
  if (manager.revoked.get? payload.jti).isSome then
    throw (.raised "Token has been revoked".toList)
  else if payload.oneTime ∧ (manager.consumed.get? payload.jti).isSome then
    throw (.raised "One-time token has already been consumed".toList)
  else if consume ∧ payload.oneTime then
    set (manager.consumeLocked now payload.jti)
    return payload
  else return payload

def validate (jwt : Jwt) (now : Int) (token toolName : Text) (arguments : Json)
    (tenantId : String) (consume : Bool) : TokenM ApprovalTokenPayload := do
  modify fun manager => (manager.pruneConsumed now).pruneRevoked now
  match jwt.decode token now with
  | .error e => throw e
  | .ok payload =>
    match checkClaims jwt payload toolName arguments tenantId with
    | .error e => throw e
    | .ok _ => useToken now payload consume

def consume (now : Int) (jti : Text) : TokenM Bool := do
  modify fun manager => manager.pruneConsumed now
  let manager ← get
  if (manager.consumed.get? jti).isSome then return false
  else
    modify fun manager => manager.consumeLocked now jti
    return true

def revoke (now : Int) (jti : Text) : TokenM Bool := do
  let manager ← get
  if (manager.revoked.get? jti).isSome then return false
  else
    set { manager with revoked := manager.revoked.set jti now }.persistState
    return true

end Agent33.Security.ApprovalTokens

/-!
## How long a revocation lasts

Revoked and consumed token ids are forgotten after twice the default lifetime. A token
that expires by then stays dead; one that lives longer comes back.
-/

namespace Agent33.Security.ApprovalTokens

open Library

/-- The ids of a set are some of those in a log, with their times, and an id of the log
that is not in the set was in it for the whole retention. -/
structure Tracked (times : Dict Text Int) (log : List (Text × Int)) (retention now : Int) :
    Prop where
  recorded : ∀ {jti time}, times.get? jti = some time → (jti, time) ∈ log
  kept : ∀ {jti time}, (jti, time) ∈ log →
    (times.get? jti).isSome ∨ ∃ start, (jti, start) ∈ log ∧ start + retention ≤ now

namespace Tracked

theorem empty (retention now : Int) : Tracked Dict.empty [] retention now :=
  ⟨fun h => (nomatch h), fun h => (nomatch h)⟩

section

variable (h : Tracked times log retention now)
include h

theorem mono (hle : now ≤ later) : Tracked times log retention later := by
  refine ⟨h.recorded, fun hmem => ?_⟩
  rcases h.kept hmem with hsome | ⟨start, hstart, hold⟩
  · exact .inl hsome
  · exact .inr ⟨start, hstart, hold.trans hle⟩

theorem keep : Tracked (ApprovalTokenManager.keep (now - retention) times) log retention now := by
  have hget (jti : Text) : (ApprovalTokenManager.keep (now - retention) times).get? jti =
      (times.get? jti).bind fun time => if now - retention < time then some time else none :=
    Dict.get?_filterMapValues _ _ _
  refine ⟨fun {jti time} hsome => ?_, fun {jti time} hmem => ?_⟩
  · rw [hget] at hsome
    obtain ⟨time', htime, hif⟩ := Option.bind_eq_some_iff.mp hsome
    split_ifs at hif
    exact Option.some.inj hif ▸ h.recorded htime
  · rcases h.kept hmem with hsome | hold
    · obtain ⟨start, hstart⟩ := Option.isSome_iff_exists.mp hsome
      by_cases hlt : now - retention < start
      · refine .inl ?_
        rw [hget, hstart, Option.bind_some, if_pos hlt]
        rfl
      · exact .inr ⟨start, h.recorded hstart, by omega⟩
    · exact .inr hold

theorem set (jti : Text) : Tracked (times.set jti now) (log ++ [(jti, now)]) retention now := by
  refine ⟨fun {jti' time} hsome => ?_, fun {jti' time} hmem => ?_⟩
  · rw [Dict.get?_set] at hsome
    split_ifs at hsome with hjti
    · obtain rfl := Option.some.inj hsome
      subst hjti
      exact List.mem_append_right _ (List.mem_singleton_self _)
    · exact List.mem_append_left _ (h.recorded hsome)
  · rw [Dict.get?_set]
    split_ifs with hjti
    · exact .inl rfl
    · rcases List.mem_append.mp hmem with hmem | hmem
      · rcases h.kept hmem with hsome | ⟨start, hstart, hold⟩
        · exact .inl hsome
        · exact .inr ⟨start, List.mem_append_left _ hstart, hold⟩
      · exact absurd (Prod.mk.inj (List.mem_singleton.mp hmem)).1 hjti

theorem again
    (hjti : (times.get? jti).isSome) : Tracked times (log ++ [(jti, now)]) retention now := by
  refine ⟨fun hsome => List.mem_append_left _ (h.recorded hsome), fun {jti' time} hmem => ?_⟩
  rcases List.mem_append.mp hmem with hmem | hmem
  · rcases h.kept hmem with hsome | ⟨start, hstart, hold⟩
    · exact .inl hsome
    · exact .inr ⟨start, List.mem_append_left _ hstart, hold⟩
  · obtain ⟨rfl, _⟩ := Prod.mk.inj (List.mem_singleton.mp hmem)
    exact .inl hjti

end

end Tracked

inductive TokenOp
  | issue (approval : Tools.Approvals.ToolApprovalRequest) (arguments : Json)
      (ttlSeconds : Option Int) (oneTime : Option Bool)
  | validate (token toolName : Text) (arguments : Json) (tenantId : String) (consume : Bool)
  | consume (jti : Text)
  | revoke (jti : Text)

structure Session where
  manager : ApprovalTokenManager
  clock : Int
  revoked : List (Text × Int) := []
  consumed : List (Text × Int) := []

def Session.next (jwt : Jwt) (s : Session) (op : Int × TokenOp) : Session :=
  match op with
  | (now, .issue _ _ _ _) => { s with clock := now }
  | (now, .validate token toolName arguments tenantId consume) =>
    match (validate jwt now token toolName arguments tenantId consume).run s.manager with
    | .error _ manager => { s with manager, clock := now }
    | .ok payload manager => { s with
        manager
        clock := now
        consumed := if consume ∧ payload.oneTime then s.consumed ++ [(payload.jti, now)]
          else s.consumed }
  | (now, .consume jti) =>
    match (consume now jti).run s.manager with
    | .error _ manager => { s with manager, clock := now }
    | .ok _ manager => { s with manager, clock := now, consumed := s.consumed ++ [(jti, now)] }
  | (now, .revoke jti) =>
    match (revoke now jti).run s.manager with
    | .error _ manager => { s with manager, clock := now }
    | .ok _ manager => { s with manager, clock := now, revoked := s.revoked ++ [(jti, now)] }

def Session.Killed (s : Session) (payload : ApprovalTokenPayload) (time : Int) : Prop :=
  (payload.jti, time) ∈ s.revoked ∨ payload.oneTime = true ∧ (payload.jti, time) ∈ s.consumed

def Ordered (s : Session) (op : Int × TokenOp) : Prop := s.clock ≤ op.1

instance (s : Session) (op : Int × TokenOp) : Decidable (Ordered s op) :=
  inferInstanceAs (Decidable (s.clock ≤ op.1))

def StaysDead (jwt : Jwt) (s : Session) : Int × TokenOp → Prop
  | (now, .validate token toolName arguments tenantId consume) =>
    ∀ payload time, jwt.signed token = .ok payload → s.Killed payload time →
      ∀ payload' manager,
        (validate jwt now token toolName arguments tenantId consume).run s.manager ≠
          .ok payload' manager
  | _ => True

/-- A token that was revoked or consumed is presented before that is forgotten, or after
the token has expired. -/
def Remembered (jwt : Jwt) (s : Session) : Int × TokenOp → Prop
  | (now, .validate token _ _ _ _) =>
    ∀ payload time, jwt.signed token = .ok payload → s.Killed payload time →
      now < time + s.manager.retention ∨ payload.exp * second ≤ now
  | _ => True

section

variable {s : Session} {now : Int}

theorem pruneConsumed_spec (manager : ApprovalTokenManager) (now : Int) :
    (manager.pruneConsumed now).consumed =
        ApprovalTokenManager.keep (now - manager.retention) manager.consumed ∧
      (manager.pruneConsumed now).revoked = manager.revoked ∧
      (manager.pruneConsumed now).retention = manager.retention := by
  rw [ApprovalTokenManager.pruneConsumed]
  split_ifs with h
  · exact ⟨rfl, rfl, rfl⟩
  · exact ⟨(Dict.ext (not_not.mp h)).symm, rfl, rfl⟩

theorem pruneRevoked_spec (manager : ApprovalTokenManager) (now : Int) :
    (manager.pruneRevoked now).revoked =
        ApprovalTokenManager.keep (now - manager.retention) manager.revoked ∧
      (manager.pruneRevoked now).consumed = manager.consumed ∧
      (manager.pruneRevoked now).retention = manager.retention := by
  rw [ApprovalTokenManager.pruneRevoked]
  split_ifs with h
  · exact ⟨rfl, rfl, rfl⟩
  · exact ⟨(Dict.ext (not_not.mp h)).symm, rfl, rfl⟩

structure TrackedBy (s : Session) (manager : ApprovalTokenManager) (now : Int) : Prop where
  retention : manager.retention = s.manager.retention
  revoked : Tracked manager.revoked s.revoked s.manager.retention now
  consumed : Tracked manager.consumed s.consumed s.manager.retention now

variable {manager : ApprovalTokenManager}

theorem TrackedBy.pruneConsumed (h : TrackedBy s manager now) :
    TrackedBy s (manager.pruneConsumed now) now := by
  obtain ⟨hconsumed, hrevoked, hretention⟩ := pruneConsumed_spec manager now
  refine ⟨hretention.trans h.retention, hrevoked ▸ h.revoked, ?_⟩
  rw [hconsumed, h.retention]
  exact h.consumed.keep

theorem TrackedBy.pruneRevoked (h : TrackedBy s manager now) :
    TrackedBy s (manager.pruneRevoked now) now := by
  obtain ⟨hrevoked, hconsumed, hretention⟩ := pruneRevoked_spec manager now
  refine ⟨hretention.trans h.retention, ?_, hconsumed ▸ h.consumed⟩
  rw [hrevoked, h.retention]
  exact h.revoked.keep

def pruned (manager : ApprovalTokenManager) (now : Int) : ApprovalTokenManager :=
  (manager.pruneConsumed now).pruneRevoked now

theorem useToken_run (now : Int) (payload : ApprovalTokenPayload) (consume : Bool)
    (manager : ApprovalTokenManager) :
    (useToken now payload consume).run manager =
      if (manager.revoked.get? payload.jti).isSome then
        .error (.raised "Token has been revoked".toList) manager
      else if payload.oneTime ∧ (manager.consumed.get? payload.jti).isSome then
        .error (.raised "One-time token has already been consumed".toList) manager
      else .ok payload
        (if consume ∧ payload.oneTime then manager.consumeLocked now payload.jti else manager) := by
  simp only [useToken, EStateM.run_bind, EStateM.run_get]
  split_ifs <;> rfl

theorem checkClaims_ok (h : checkClaims jwt payload toolName arguments tenantId = .ok ()) :
    payload.tool = toolName ∧ payload.argHash = jwt.argHash toolName arguments := by
  rw [checkClaims] at h
  split_ifs at h with htyp htool hhash
  exact ⟨not_not.mp htool, not_not.mp hhash⟩

theorem validate_cases (jwt : Jwt) (now : Int) (token toolName : Text) (arguments : Json)
    (tenantId : String) (consume : Bool) (manager : ApprovalTokenManager) :
    (∃ e, (validate jwt now token toolName arguments tenantId consume).run manager =
        .error e (pruned manager now)) ∨
      ∃ payload, jwt.signed token = .ok payload ∧ now < payload.exp * second ∧
        checkClaims jwt payload toolName arguments tenantId = .ok () ∧
        (pruned manager now).revoked.get? payload.jti = none ∧
        (payload.oneTime = true → (pruned manager now).consumed.get? payload.jti = none) ∧
        (validate jwt now token toolName arguments tenantId consume).run manager =
          .ok payload (if consume ∧ payload.oneTime then
            (pruned manager now).consumeLocked now payload.jti else pruned manager now) := by
  cases hdecode : jwt.decode token now with
  | error e =>
    refine .inl ⟨e, ?_⟩
    rw [validate, hdecode]
    rfl
  | ok payload =>
    have hsigned : jwt.signed token = .ok payload ∧ now < payload.exp * second := by
      rw [Jwt.decode] at hdecode
      cases hsigned : jwt.signed token with
      | error e =>
        rw [hsigned] at hdecode
        cases hdecode
      | ok payload' =>
        rw [hsigned] at hdecode
        dsimp only at hdecode
        split_ifs at hdecode with hexp
        obtain rfl := Except.ok.inj hdecode
        exact ⟨rfl, not_le.mp hexp⟩
    cases hclaims : checkClaims jwt payload toolName arguments tenantId with
    | error e =>
      refine .inl ⟨e, ?_⟩
      rw [validate, hdecode]
      dsimp only
      rw [hclaims]
      rfl
    | ok =>
      have hrun : (validate jwt now token toolName arguments tenantId consume).run manager =
          (useToken now payload consume).run (pruned manager now) := by
        rw [validate, hdecode]
        dsimp only
        rw [hclaims]
        rfl
      rw [hrun, useToken_run]
      by_cases hrevoked : ((pruned manager now).revoked.get? payload.jti).isSome
      · rw [if_pos hrevoked]
        exact .inl ⟨_, rfl⟩
      · rw [if_neg hrevoked]
        by_cases hconsumed : payload.oneTime ∧
            ((pruned manager now).consumed.get? payload.jti).isSome
        · rw [if_pos hconsumed]
          exact .inl ⟨_, rfl⟩
        · rw [if_neg hconsumed]
          refine .inr ⟨payload, hsigned.1, hsigned.2, hclaims, ?_, fun hone => ?_, rfl⟩
          · exact Option.not_isSome_iff_eq_none.mp hrevoked
          · exact Option.not_isSome_iff_eq_none.mp fun hsome => hconsumed ⟨hone, hsome⟩

def Faithful (s : Session) : Prop := TrackedBy s s.manager s.clock

theorem TrackedBy.pruned (h : TrackedBy s manager now) :
    TrackedBy s (pruned manager now) now := h.pruneConsumed.pruneRevoked

theorem Faithful.at (h : Faithful s) (hle : s.clock ≤ now) : TrackedBy s s.manager now :=
  ⟨rfl, h.revoked.mono hle, h.consumed.mono hle⟩

theorem TrackedBy.consumeLocked (h : TrackedBy s manager now) (jti : Text) : Faithful { s with
      manager := manager.consumeLocked now jti
      clock := now
      consumed := s.consumed ++ [(jti, now)] } := by
  have hretention : (manager.consumeLocked now jti).retention = s.manager.retention := h.retention
  refine ⟨rfl, ?_, ?_⟩
  · rw [hretention]
    exact h.revoked
  · rw [hretention]
    exact h.consumed.set jti

theorem TrackedBy.faithful (h : TrackedBy s manager now) :
    Faithful { s with manager, clock := now } := by
  refine ⟨rfl, ?_, ?_⟩
  · rw [h.retention]
    exact h.revoked
  · rw [h.retention]
    exact h.consumed

theorem consume_run (now : Int) (jti : Text) (manager : ApprovalTokenManager) :
    (consume now jti).run manager =
      if ((manager.pruneConsumed now).consumed.get? jti).isSome then
        .ok false (manager.pruneConsumed now)
      else .ok true ((manager.pruneConsumed now).consumeLocked now jti) := by
  simp only [consume, EStateM.run_bind, EStateM.run_get, EStateM.run_modify]
  split_ifs <;> rfl

theorem revoke_run (now : Int) (jti : Text) (manager : ApprovalTokenManager) :
    (revoke now jti).run manager =
      if (manager.revoked.get? jti).isSome then .ok false manager
      else .ok true { manager with revoked := manager.revoked.set jti now }.persistState := by
  simp only [revoke, EStateM.run_bind, EStateM.run_get]
  split_ifs <;> rfl

theorem Faithful.next (h : Faithful s) (hop : Ordered s op) : Faithful (s.next jwt op) := by
  obtain ⟨now, op⟩ := op
  have hnow := h.at hop
  cases op with
  | issue => exact hnow.faithful
  | validate token toolName arguments tenantId consume =>
    rw [Session.next]
    rcases validate_cases jwt now token toolName arguments tenantId consume s.manager with
      ⟨e, hrun⟩ | ⟨payload, _, _, _, _, _, hrun⟩
    · rw [hrun]
      exact hnow.pruned.faithful
    · rw [hrun]
      dsimp only
      split_ifs
      · exact hnow.pruned.consumeLocked payload.jti
      · exact hnow.pruned.faithful
  | consume jti =>
    rw [Session.next, consume_run]
    split_ifs with hconsumed
    · have hpruned := hnow.pruneConsumed
      refine ⟨rfl, ?_, ?_⟩
      · rw [show Session.manager _ = s.manager.pruneConsumed now from rfl, hpruned.retention]
        exact hpruned.revoked
      · rw [show Session.manager _ = s.manager.pruneConsumed now from rfl, hpruned.retention]
        exact hpruned.consumed.again hconsumed
    · exact hnow.pruneConsumed.consumeLocked jti
  | revoke jti =>
    rw [Session.next, revoke_run]
    split_ifs with hrevoked
    · exact ⟨rfl, hnow.revoked.again hrevoked, hnow.consumed⟩
    · exact ⟨rfl, hnow.revoked.set jti, hnow.consumed⟩

theorem staysDead_of_remembered (h : Faithful s) (hop : Ordered s op)
    (hremembered : Remembered jwt s op) : StaysDead jwt s op := by
  obtain ⟨now, op⟩ := op
  have htracked := (h.at hop).pruned
  cases op with
  | validate token toolName arguments tenantId consume =>
    intro payload time hsigned hkilled payload' manager hok
    rcases validate_cases jwt now token toolName arguments tenantId consume s.manager with
      ⟨e, hrun⟩ | ⟨found, hfound, hunexpired, _, hrevoked, hconsumed, _⟩
    · rw [hrun] at hok
      cases hok
    · obtain rfl := Except.ok.inj (hsigned.symm.trans hfound)
      have hforgotten : ∃ start, s.Killed payload start ∧ start + s.manager.retention ≤ now := by
        rcases hkilled with hmem | ⟨hone, hmem⟩
        · rcases htracked.revoked.kept hmem with hsome | ⟨start, hstart, hold⟩
          · rw [hrevoked] at hsome
            cases hsome
          · exact ⟨start, .inl hstart, hold⟩
        · rcases htracked.consumed.kept hmem with hsome | ⟨start, hstart, hold⟩
          · rw [hconsumed hone] at hsome
            cases hsome
          · exact ⟨start, .inr ⟨hone, hstart⟩, hold⟩
      obtain ⟨start, hstart, hold⟩ := hforgotten
      rcases hremembered payload start hsigned hstart with hlt | hexpired
      · omega
      · omega
  | _ => trivial

end

def Session.start (defaultTtlSeconds : Int) (defaultOneTime durable : Bool) (clock : Int) :
    Session where
  manager := {
    defaultTtlSeconds
    defaultOneTime
    stateStore := if durable then some (Dict.empty, Dict.empty) else none }
  clock := clock

/-- Revoked and consumed tokens stay dead in every run that presents them only while the
manager remembers them, or after they have expired. -/
theorem staysDead_of_run (jwt : Jwt) (defaultTtlSeconds : Int) (defaultOneTime durable : Bool)
    (clock : Int) (ops : List (Int × TokenOp))
    (hordered : History.Along (Session.next jwt) Ordered
      (Session.start defaultTtlSeconds defaultOneTime durable clock) ops)
    (hremembered : History.Along (Session.next jwt) (Remembered jwt)
      (Session.start defaultTtlSeconds defaultOneTime durable clock) ops) :
    History.Along (Session.next jwt) (StaysDead jwt)
      (Session.start defaultTtlSeconds defaultOneTime durable clock) ops := by
  refine History.Along.imp (I := Faithful) ?_ ?_ ?_ hordered hremembered
  · exact fun s op h hop _ => h.next hop
  · exact fun s op => staysDead_of_remembered
  · exact ⟨rfl, Tracked.empty _ _, Tracked.empty _ _⟩

def tableJwt (table : List (Text × ApprovalTokenPayload)) : Jwt where
  encode payload := ((table.find? fun entry => entry.2 = payload).map Prod.fst).getD []
  signed token :=
    match (table.find? fun entry => entry.1 = token).map Prod.snd with
    | none => .error "Signature verification failed".toList
    | some payload => .ok payload
  argHash toolName _ := toolName

def shellApproval : Tools.Approvals.ToolApprovalRequest where
  approvalId := "APR-1".toList
  status := .approved
  reason := .toolPolicyAsk
  toolName := "shell".toList
  requestedBy := "ops"

def hourJwt : Jwt := tableJwt [("token".toList,
  { sub := "ops", jti := "APR-1".toList, tool := "shell".toList, argHash := "shell".toList,
    exp := 3600 })]

def revokedHour (later : Int) : List (Int × TokenOp) :=
  [(0, .issue shellApproval (.obj []) (some 3600) none), (1 * second, .revoke "APR-1".toList),
    (later * second, .validate "token".toList "shell".toList (.obj []) "" false)]

theorem staysDead_revokedHour :
    History.Along (Session.next hourJwt) (StaysDead hourJwt) (Session.start 300 true false 0)
      (revokedHour 500) := by
  refine staysDead_of_run hourJwt 300 true false 0 (revokedHour 500)
    ⟨by decide, by decide, by decide, trivial⟩ ⟨trivial, trivial, ?_, trivial⟩
  intro payload time hsigned hkilled
  obtain rfl := Except.ok.inj hsigned
  rcases hkilled with hmem | ⟨_, hmem⟩
  · obtain ⟨_, rfl⟩ := Prod.mk.inj (List.mem_singleton.mp hmem)
    exact .inl (by decide)
  · cases hmem

theorem not_staysDead_revokedHour :
    issue hourJwt (Session.start 300 true false 0).manager 0 shellApproval (.obj []) (some 3600)
        none = .ok "token".toList ∧
      ¬ History.Along (Session.next hourJwt) (StaysDead hourJwt) (Session.start 300 true false 0)
        (revokedHour 700) := by
  refine ⟨rfl, fun ⟨_, _, h, _⟩ => ?_⟩
  exact h _ (1 * second) rfl (.inl (List.mem_singleton_self _)) _ _ rfl

end Agent33.Security.ApprovalTokens
