import Agent33.Security.ApprovalTokens

/-!
# What an approval lets through

The governance check over the approval service and the token manager. An approved
request is looked up before the other checks and consumed after them, so that a call
that is refused leaves it usable and a call that goes through uses it up.
-/

namespace Agent33.Tools.ApprovalBinding

open Library Library.Hoare Tools.Governance Tools.Approvals Security List Option ApprovalTokens

structure World where
  approvals : ToolApprovalService
  tokens : ApprovalTokens.ApprovalTokenManager := {}
  clock : Int := 0

namespace World

def lookup (w : World) (approvalId : Text) : Option ToolApprovalRequest :=
  w.approvals.requests.get? approvalId

def withApprovals {α : Type} (w : World) (result : α × ToolApprovalService) : α × World :=
  (result.1, { w with approvals := result.2 })

end World

def approvalService : ApprovalService World where
  request asked w := { w with approvals := w.approvals.request w.clock asked }
  isApproved approvalId toolName operation tenantId w :=
    w.withApprovals (w.approvals.isApproved w.clock approvalId toolName operation tenantId)
  consumeIfApproved approvalId toolName operation tenantId w :=
    w.withApprovals (w.approvals.consumeIfApproved w.clock approvalId toolName operation tenantId)

def tokenManager (jwt : ApprovalTokens.Jwt) : ApprovalTokenManager World where
  validate token toolName arguments tenantId w :=
    match (ApprovalTokens.validate jwt w.clock token toolName arguments tenantId false).run
      w.tokens with
    | .ok payload tokens => (some ⟨payload.jti, payload.oneTime⟩, { w with tokens })
    | .error _ tokens => (none, { w with tokens })
  consume jti w :=
    match (ApprovalTokens.consume w.clock jti).run w.tokens with
    | .ok consumed tokens => (consumed, { w with tokens })
    | .error _ tokens => (false, { w with tokens })

def governed (jwt : ApprovalTokens.Jwt) (withTokens : Bool) (approvedTools : List Text) :
    ToolGovernance World where
  approvalService := some approvalService
  approvalTokenManager := if withTokens then some (tokenManager jwt) else none
  approvedTools := approvedTools

/-- The request that a call presents: the one that its token was signed for, or the one
that it names. -/
def presented (jwt : ApprovalTokens.Jwt) (withTokens : Bool) (params : Json) : Option Text :=
  match nonEmptyText (params.field? "__approval_token"), withTokens with
  | some token, true =>
    match jwt.signed token with
    | .ok payload => some payload.jti
    | .error _ => none
  | _, _ => nonEmptyText (params.field? "__approval_id")

def TokenFits (jwt : ApprovalTokens.Jwt) (withTokens : Bool) (toolName : Text) (params : Json) :
    Prop :=
  ∀ token, nonEmptyText (params.field? "__approval_token") = some token → withTokens = true →
    ∃ payload, jwt.signed token = .ok payload ∧ payload.tool = toolName ∧
      payload.argHash = jwt.argHash toolName (sanitizeApprovalArguments params)

def asks (python : Python) (approvedTools : List Text) (context : ToolContext)
    (toolName operation : Text) : Bool :=
  decide (checkToolPolicy python context.toolPolicies toolName operation = some "ask".toList ∧
    toolName ∉ approvedTools)

def needsApproval (python : Python) (approvedTools : List Text) (context : ToolContext)
    (level : Option AutonomyLevel) (toolName operation : Text) : Bool :=
  asks python approvedTools context toolName operation ||
    decide (level = some .supervised ∧ operation ∈ destructiveParams toolName)

structure Fresh (svc : ToolApprovalService) : Prop where
  injective : Function.Injective svc.newApprovalId
  numbered : ∀ id ∈ svc.requests.keys, ∃ i < svc.requests.keys.length, id = svc.newApprovalId i

structure Kept (w w' : World) : Prop where
  fresh : Fresh w'.approvals
  decided : ∀ {id request}, w.lookup id = some request → request.status ≠ .pending →
    w'.lookup id = some request
  approved : ∀ {id request}, w'.lookup id = some request → request.status = .approved →
    w.lookup id = some request

variable {w w' w'' : World} {now : Int}

theorem Kept.refl (h : Fresh w.approvals) : Kept w w := ⟨h, fun h _ => h, fun h _ => h⟩

theorem Kept.trans (h : Kept w w') (h' : Kept w' w'') : Kept w w'' :=
  ⟨h'.fresh, fun hlookup hstatus => h'.decided (h.decided hlookup hstatus) hstatus,
    fun hlookup hstatus => h.approved (h'.approved hlookup hstatus) hstatus⟩

theorem requests_expirePending (svc : ToolApprovalService) (now : Int) :
    (svc.expirePending now).requests =
      svc.requests.mapValues fun _ request => request.expire now := by
  rw [ToolApprovalService.expirePending]
  split_ifs <;> rfl

theorem newApprovalId_expirePending (svc : ToolApprovalService) (now : Int) :
    (svc.expirePending now).newApprovalId = svc.newApprovalId := by
  rw [ToolApprovalService.expirePending]
  split_ifs <;> rfl

theorem Fresh.expirePending (h : Fresh svc) (now : Int) : Fresh (svc.expirePending now) := by
  refine ⟨?_, fun id hid => ?_⟩
  · rw [newApprovalId_expirePending]
    exact h.injective
  · rw [requests_expirePending, Dict.keys_mapValues] at hid ⊢
    rw [newApprovalId_expirePending]
    exact h.numbered id hid

theorem Fresh.putRequest (h : Fresh svc) {id : Text} (hid : id ∈ svc.requests.keys)
    (request : ToolApprovalRequest) : Fresh (svc.putRequest id request).persistState := by
  have hkeys : (svc.putRequest id request).persistState.requests.keys = svc.requests.keys := by
    change (svc.requests.set id request).keys = _
    rw [Dict.keys_set, if_pos hid]
  refine ⟨h.injective, fun id' hid' => ?_⟩
  rw [hkeys] at hid' ⊢
  exact h.numbered id' hid'

theorem Fresh.newApprovalId_notMem (h : Fresh svc) :
    svc.newApprovalId svc.requests.entries.length ∉ svc.requests.keys := by
  intro hmem
  obtain ⟨i, hi, heq⟩ := h.numbered _ hmem
  have hlength : svc.requests.keys.length = svc.requests.entries.length := length_map _
  have := h.injective heq
  omega

theorem Fresh.new (h : Fresh svc) (request : ToolApprovalRequest) :
    Fresh
      (svc.putRequest (svc.newApprovalId svc.requests.entries.length) request).persistState := by
  have hlength : svc.requests.keys.length = svc.requests.entries.length := length_map _
  have hkeys : (svc.requests.set (svc.newApprovalId svc.requests.entries.length) request).keys =
      svc.requests.keys ++ [svc.newApprovalId svc.requests.entries.length] := by
    rw [Dict.keys_set, if_neg h.newApprovalId_notMem]
  refine ⟨h.injective, fun id hid => ?_⟩
  change id ∈ (svc.requests.set _ request).keys at hid
  change ∃ i < (svc.requests.set _ request).keys.length, id = svc.newApprovalId i
  rw [hkeys] at hid ⊢
  rw [length_append, length_singleton]
  rcases mem_append.mp hid with hid | hid
  · obtain ⟨i, hi, heq⟩ := h.numbered id hid
    exact ⟨i, by omega, heq⟩
  · exact ⟨svc.requests.entries.length, by omega, mem_singleton.mp hid⟩

theorem expire_of_decided {request : ToolApprovalRequest} (h : request.status ≠ .pending) :
    request.expire now = request := by
  rw [ToolApprovalRequest.expire, if_neg]
  simp [ToolApprovalRequest.due, h]

theorem expire_of_approved {request : ToolApprovalRequest}
    (h : (request.expire now).status = .approved) : request.expire now = request := by
  rw [ToolApprovalRequest.expire] at h ⊢
  split_ifs at h ⊢
  rfl

theorem get?_expirePending (svc : ToolApprovalService) (now : Int) (id : Text) :
    (svc.expirePending now).requests.get? id =
      (svc.requests.get? id).map fun request => request.expire now := by
  rw [requests_expirePending, Dict.get?_mapValues]

theorem kept_expirePending (h : Fresh w.approvals) (now : Int) :
    Kept w { w with approvals := w.approvals.expirePending now } := by
  refine ⟨h.expirePending now, fun {id request} hlookup hstatus => ?_,
    fun {id request} hlookup hstatus => ?_⟩
  · change (w.approvals.expirePending now).requests.get? id = some request
    rw [get?_expirePending, show w.approvals.requests.get? id = some request from hlookup,
      map_some, expire_of_decided hstatus]
  · change (w.approvals.expirePending now).requests.get? id = some request at hlookup
    rw [get?_expirePending] at hlookup
    obtain ⟨old, hold, rfl⟩ := map_eq_some_iff.mp hlookup
    rw [expire_of_approved hstatus]
    exact hold

theorem kept_request (h : Fresh w.approvals) (asked : ApprovalRequest) :
    Kept w { w with approvals := w.approvals.request w.clock asked } := by
  have hexpire := kept_expirePending h w.clock
  refine hexpire.trans ⟨hexpire.fresh.new _, fun {id request} hlookup _ => ?_,
    fun {id request} hlookup hstatus => ?_⟩
  · change (Dict.set _ _ _).get? id = some request
    rw [Dict.get?_set, if_neg]
    · exact hlookup
    · rintro rfl
      refine hexpire.fresh.newApprovalId_notMem ?_
      by_contra hnot
      rw [← Dict.get?_eq_none] at hnot
      cases hnot.symm.trans hlookup
  · change (Dict.set _ _ _).get? id = some request at hlookup
    rw [Dict.get?_set] at hlookup
    split_ifs at hlookup
    · cases some.inj hlookup
      cases hstatus
    · exact hlookup

def Steady (w : World) (g : GovernanceState World) : Prop := Kept w g.world

theorem onWorld_run {α : Type} (f : World → α × World) (g : GovernanceState World) :
    (onWorld f).run g = .ok (f g.world).1 { g with world := (f g.world).2 } := rfl

theorem keeps_onWorld {α : Type} {f : World → α × World} (h : ∀ w', Kept w w' → Kept w (f w').2) :
    Keeps (Steady w) (onWorld f) := fun g hg => h g.world hg

theorem kept_isApproved (id toolName operation : Text) (tenantId : String) (h : Kept w w') :
    Kept w (approvalService.isApproved id toolName operation tenantId w').2 :=
  h.trans (kept_expirePending h.fresh w'.clock)

theorem kept_tokens (h : Kept w w') (tokens : ApprovalTokens.ApprovalTokenManager) :
    Kept w { w' with tokens } := ⟨h.fresh, h.decided, h.approved⟩

theorem kept_validate (jwt : ApprovalTokens.Jwt) (token toolName : Text) (arguments : Json)
    (tenantId : String) (h : Kept w w') :
    Kept w ((tokenManager jwt).validate token toolName arguments tenantId w').2 := by
  simp only [tokenManager]
  cases (validate jwt w'.clock token toolName arguments tenantId false).run
    w'.tokens <;> exact kept_tokens h _

variable {jwt : ApprovalTokens.Jwt} {withTokens : Bool} {approvedTools : List Text}

def askService (consume : Bool) (id toolName operation : Text) (tenantId : String) :
    GovernanceM World Bool :=
  if !consume then onWorld (approvalService.isApproved id toolName operation tenantId)
  else onWorld (approvalService.consumeIfApproved id toolName operation tenantId)

theorem tryConsume_id (toolName operation : Text) (tenantId : String)
    (consume : Bool)
    (h : nonEmptyText (params.field? "__approval_token") = none ∨ withTokens = false) :
    tryConsumeApproval (governed jwt withTokens approvedTools) params toolName operation tenantId
        consume =
      match nonEmptyText (params.field? "__approval_id") with
      | none => pure false
      | some id => askService consume id toolName operation tenantId := by
  have hmanager : (governed jwt false approvedTools).approvalTokenManager = none := rfl
  rw [tryConsumeApproval]
  rcases h with htoken | rfl
  · rw [htoken]
    cases nonEmptyText (params.field? "__approval_id") <;> rfl
  · rw [hmanager]
    cases nonEmptyText (params.field? "__approval_token") <;>
      cases nonEmptyText (params.field? "__approval_id") <;> rfl

theorem tryConsume_token (toolName operation : Text)
    (tenantId : String) (consume : Bool)
    (h : nonEmptyText (params.field? "__approval_token") = some token) :
    tryConsumeApproval (governed jwt true approvedTools) params toolName operation tenantId
        consume = (do
      let payload ← onWorld ((tokenManager jwt).validate token toolName
        (sanitizeApprovalArguments params) tenantId)
      match payload with
      | none => return false
      | some payload =>
        if !consume then
          onWorld (approvalService.isApproved payload.jti toolName operation tenantId)
        else
          let consumed ← onWorld
            (approvalService.consumeIfApproved payload.jti toolName operation tenantId)
          if !consumed then return false
          else if !payload.oneTime then return true
          else onWorld ((tokenManager jwt).consume payload.jti)) := by
  have hmanager :
      (governed jwt true approvedTools).approvalTokenManager = some (tokenManager jwt) := rfl
  rw [tryConsumeApproval, h, hmanager]
  dsimp only
  refine congrArg _ (funext fun payload => ?_)
  cases payload <;> rfl

theorem keeps_lookup (params : Json) (toolName operation : Text) (tenantId : String) :
    Keeps (Steady w) (tryConsumeApproval (governed jwt withTokens approvedTools) params toolName
      operation tenantId false) := by
  have hservice (id : Text) : Keeps (Steady w)
      (onWorld (approvalService.isApproved id toolName operation tenantId)) :=
    keeps_onWorld fun _ => kept_isApproved id toolName operation tenantId
  have hid (h : nonEmptyText (params.field? "__approval_token") = none ∨ withTokens = false) :
      Keeps (Steady w) (tryConsumeApproval (governed jwt withTokens approvedTools) params toolName
        operation tenantId false) := by
    rw [tryConsume_id toolName operation tenantId false h]
    cases nonEmptyText (params.field? "__approval_id") with
    | none => exact keeps_pure _
    | some id => exact hservice id
  cases htoken : nonEmptyText (params.field? "__approval_token") with
  | none => exact hid (.inl htoken)
  | some token =>
    cases withTokens with
    | false => exact hid (.inr rfl)
    | true =>
      rw [tryConsume_token toolName operation tenantId false htoken]
      refine (keeps_onWorld fun _ => kept_validate jwt token toolName _ tenantId).bind
        fun payload => ?_
      cases payload with
      | none => exact keeps_pure _
      | some payload => exact hservice payload.jti

variable {python : Python} {params : Json} {toolName operation : Text} {context : ToolContext}

theorem keeps_requestApproval (reason : ApprovalReason) (details : Text)
    (riskTier : ApprovalRiskTier) :
    Keeps (Steady w) (requestApproval python (governed jwt withTokens approvedTools) params toolName
      operation context reason details riskTier) := by
  rw [requestApproval]
  dsimp only [governed]
  cases params.getKey "command" (.str "") with
  | error e => exact keeps_throw e
  | ok command => exact keeps_modify fun g hg => hg.trans (kept_request hg.fresh _)

theorem keeps_approvedOrRequested (reason : ApprovalReason) (details : Text)
    (riskTier : ApprovalRiskTier) :
    Keeps (Steady w) (approvedOrRequested python (governed jwt withTokens approvedTools) params
      toolName operation context reason details riskTier) := by
  refine (keeps_lookup params toolName operation context.tenantId).bind fun approved => ?_
  cases approved with
  | true => exact keeps_pure _
  | false =>
    exact (keeps_requestApproval reason details riskTier).bind fun _ => keeps_pure _

theorem checkPolicies_spec :
    Triple (Steady w)
      (checkPolicies python (governed jwt withTokens approvedTools) params toolName operation
        context)
      (fun result g => Steady w g ∧
        ∀ approved, result = some approved →
          approved = asks python approvedTools context toolName operation)
      (fun _ => Steady w) := by
  rw [checkPolicies]
  cases hpolicy : checkToolPolicy python context.toolPolicies toolName operation with
  | none =>
    refine triple_pure fun g hg => ⟨hg, fun approved h => ?_⟩
    simp [asks, hpolicy] at h ⊢
    exact h
  | some policy =>
    dsimp only
    split_ifs with hdeny hask
    · exact triple_pure fun g hg => ⟨hg, fun approved h => (nomatch h)⟩
    · refine Triple.bind (keeps_approvedOrRequested _ _ _) fun approved => ?_
      refine triple_pure fun g hg => ⟨hg, fun found h => ?_⟩
      split_ifs at h
      obtain rfl := some.inj h
      exact (decide_eq_true ⟨hpolicy.trans (congrArg some hask.1), hask.2⟩).symm
    · refine triple_pure fun g hg => ⟨hg, fun found h => ?_⟩
      obtain rfl := some.inj h
      refine (decide_eq_false fun hboth => hask ⟨?_, hboth.2⟩).symm
      exact some.inj (hpolicy.symm.trans hboth.1)

theorem checkAutonomy_spec (level : Option AutonomyLevel) (approved : Bool) :
    Triple (Steady w)
      (checkAutonomy python (governed jwt withTokens approvedTools) params toolName operation
        context level approved)
      (fun result g => Steady w g ∧
        ∀ found, result = some found →
          found = (approved || decide (level = some .supervised ∧
            operation ∈ destructiveParams toolName)))
      (fun _ => Steady w) := by
  have hpass (hne : level ≠ some .supervised) :
      Triple (Steady w) (pure (some approved) : GovernanceM World (Option Bool))
        (fun result g => Steady w g ∧ ∀ found, result = some found →
          found = (approved || decide (level = some .supervised ∧
            operation ∈ destructiveParams toolName)))
        (fun _ => Steady w) := by
    refine triple_pure fun g hg => ⟨hg, fun found h => ?_⟩
    obtain rfl := some.inj h
    simp [hne]
  cases level with
  | none => exact hpass (by simp)
  | some level =>
    cases level with
    | full => exact hpass (by simp)
    | readOnly =>
      refine triple_pure fun g hg => ⟨hg, fun found h => ?_⟩
      split_ifs at h
      simpa using (some.inj h).symm
    | supervised =>
      rw [checkAutonomy]
      split_ifs with hdestructive
      · refine Triple.bind (keeps_approvedOrRequested _ _ _) fun approved' => ?_
        refine triple_pure fun g hg => ⟨hg, fun found h => ?_⟩
        split_ifs at h
        simpa [hdestructive.1] using (some.inj h).symm
      · refine triple_pure fun g hg => ⟨hg, fun found h => ?_⟩
        obtain rfl := some.inj h
        cases approved with
        | true => rfl
        | false => simpa using hdestructive

structure Consumed (w w' : World) (id : Text) (request : ToolApprovalRequest) : Prop where
  fresh : Fresh w'.approvals
  found : w.lookup id = some request
  status : request.status = .approved
  used : w'.lookup id = some request.consume
  others : ∀ {id' request'}, id' ≠ id → w.lookup id' = some request' →
    request'.status ≠ .pending → w'.lookup id' = some request'

/-- The request has the tool of the call, its operation unless it names none, and the tenant
of the caller unless that is empty. -/
def Fits (request : ToolApprovalRequest) (toolName operation : Text) (tenantId : String) : Prop :=
  request.toolName = toolName ∧ (request.operation = [] ∨ request.operation = operation) ∧
    (tenantId = "" ∨ request.tenantId = tenantId)

theorem consumeIfApproved_cases (id toolName operation : Text) (tenantId : String)
    (h : Kept w w') :
    ∃ consumed w'', approvalService.consumeIfApproved id toolName operation tenantId w' =
        (consumed, w'') ∧ w''.tokens = w'.tokens ∧ w''.clock = w'.clock ∧
      ((consumed = false ∧ Kept w w'') ∨
        (consumed = true ∧ ∃ request, Consumed w w'' id request ∧
          Fits request toolName operation tenantId)) := by
  refine ⟨_, _, rfl, rfl, rfl, ?_⟩
  have hexpire := h.trans (kept_expirePending h.fresh w'.clock)
  simp only [ToolApprovalService.consumeIfApproved]
  cases husable : (w'.approvals.expirePending w'.clock).usable id toolName operation tenantId with
  | none => exact .inl ⟨rfl, hexpire⟩
  | some request =>
    obtain ⟨hlookup, hmatches⟩ := filter_eq_some_iff.mp husable
    rw [Bool.and_eq_true, decide_eq_true_eq, ToolApprovalRequest.matchesCall, decide_eq_true_eq]
      at hmatches
    obtain ⟨hstatus, htenant, htool, hoperation⟩ := hmatches
    have hmem : id ∈ (w'.approvals.expirePending w'.clock).requests.keys := by
      by_contra hnot
      rw [← Dict.get?_eq_none] at hnot
      cases hnot.symm.trans hlookup
    refine .inr ⟨rfl, request, ⟨hexpire.fresh.putRequest hmem _, hexpire.approved hlookup hstatus,
      hstatus, ?_, fun {id' request'} hne hlookup' hstatus' => ?_⟩, htool, hoperation, htenant⟩
    · change (Dict.set _ _ _).get? id = _
      rw [Dict.get?_set, if_pos rfl]
    · change (Dict.set _ _ _).get? id' = _
      rw [Dict.get?_set, if_neg hne]
      exact hexpire.decided hlookup' hstatus'

def Settled (jwt : ApprovalTokens.Jwt) (withTokens : Bool) (w : World) (params : Json)
    (toolName operation : Text) (tenantId : String) (result : Bool) (g : GovernanceState World) :
    Prop :=
  (result = false ∧ Steady w g) ∨
    (result = true ∧ ∃ id request, presented jwt withTokens params = some id ∧
      Consumed w g.world id request ∧ Fits request toolName operation tenantId ∧
      TokenFits jwt withTokens toolName params)

theorem consumeById_spec (tenantId : String)
    (h : nonEmptyText (params.field? "__approval_token") = none ∨ withTokens = false) :
    Triple (Steady w)
      (tryConsumeApproval (governed jwt withTokens approvedTools) params toolName operation tenantId
        true)
      (Settled jwt withTokens w params toolName operation tenantId) (fun _ => Steady w) := by
  rw [tryConsume_id toolName operation tenantId true h]
  have hpresented :
      presented jwt withTokens params = nonEmptyText (params.field? "__approval_id") := by
    rcases h with htoken | rfl
    · simp [presented, htoken]
    · unfold presented
      cases nonEmptyText (params.field? "__approval_token") <;> rfl
  have hfits : TokenFits jwt withTokens toolName params := by
    intro token htoken hwith
    rcases h with hnone | hfalse
    · cases hnone.symm.trans htoken
    · cases hfalse.symm.trans hwith
  cases hid : nonEmptyText (params.field? "__approval_id") with
  | none => exact triple_pure fun g hg => .inl ⟨rfl, hg⟩
  | some id =>
    intro g hg
    obtain ⟨consumed, w'', hrun, _, _, hcases⟩ :=
      consumeIfApproved_cases id toolName operation tenantId hg
    change Settled jwt withTokens w params toolName operation tenantId
      (approvalService.consumeIfApproved id toolName operation tenantId g.world).1
      { g with
        world := (approvalService.consumeIfApproved id toolName operation tenantId g.world).2 }
    rw [hrun]
    rcases hcases with ⟨rfl, hkept⟩ | ⟨rfl, request, hconsumed, hfit⟩
    · exact .inl ⟨rfl, hkept⟩
    · exact .inr ⟨rfl, id, request, hpresented.trans hid, hconsumed, hfit, hfits⟩

theorem consume_of_validated (h : (pruned manager now).consumed.get? jti = none) :
    ∃ tokens, (consume now jti).run (pruned manager now) =
      .ok true tokens := by
  rw [consume_run, if_neg]
  · exact ⟨_, rfl⟩
  · rw [(pruneConsumed_spec _ now).1, ApprovalTokens.ApprovalTokenManager.keep,
      Dict.get?_filterMapValues, h]
    exact Bool.false_ne_true

theorem consumeByToken_spec (tenantId : String)
    (h : nonEmptyText (params.field? "__approval_token") = some token) :
    Triple (Steady w)
      (tryConsumeApproval (governed jwt true approvedTools) params toolName operation tenantId true)
      (Settled jwt true w params toolName operation tenantId) (fun _ => Steady w) := by
  rw [tryConsume_token toolName operation tenantId true h]
  intro g hg
  rw [EStateM.run_bind, onWorld_run]
  rcases validate_cases jwt g.world.clock token toolName
    (sanitizeApprovalArguments params) tenantId false g.world.tokens with
    ⟨e, hrun⟩ | ⟨payload, hsigned, _, hclaims, _, hunused, hrun⟩
  · have hvalidate : (tokenManager jwt).validate token toolName (sanitizeApprovalArguments params)
        tenantId g.world =
        (none, { g.world with tokens := pruned g.world.tokens g.world.clock }) := by
      simp only [tokenManager, hrun]
    rw [hvalidate]
    exact .inl ⟨rfl, kept_tokens hg _⟩
  · have hvalidate : (tokenManager jwt).validate token toolName (sanitizeApprovalArguments params)
        tenantId g.world = (some ⟨payload.jti, payload.oneTime⟩,
          { g.world with tokens := pruned g.world.tokens g.world.clock }) := by
      simp only [tokenManager, hrun]
      simp
    have hpresented : presented jwt true params = some payload.jti := by
      simp [presented, h, hsigned]
    have hfits : TokenFits jwt true toolName params := by
      intro token' htoken' _
      obtain rfl := some.inj (h.symm.trans htoken')
      obtain ⟨htool, hhash⟩ := checkClaims_ok hclaims
      exact ⟨payload, hsigned, htool, hhash⟩
    rw [hvalidate]
    obtain ⟨consumed, w'', hconsume, htokens, hclock, hcases⟩ :=
      consumeIfApproved_cases payload.jti toolName operation tenantId
        (kept_tokens hg (pruned g.world.tokens g.world.clock))
    dsimp only
    rw [if_neg (by decide), EStateM.run_bind, onWorld_run, hconsume]
    rcases hcases with ⟨rfl, hkept⟩ | ⟨rfl, request, hrequest, hfit⟩
    · exact .inl ⟨rfl, hkept⟩
    · cases hone : payload.oneTime with
      | false => exact .inr ⟨rfl, _, request, hpresented, hrequest, hfit, hfits⟩
      | true =>
        obtain ⟨tokens, htokens'⟩ := consume_of_validated (hunused hone)
        have hlast : (tokenManager jwt).consume payload.jti w'' = (true, { w'' with tokens }) := by
          simp only [tokenManager, htokens, hclock, htokens']
        change Settled jwt true w params toolName operation tenantId
          ((tokenManager jwt).consume payload.jti w'').1
          { g with world := ((tokenManager jwt).consume payload.jti w'').2 }
        rw [hlast]
        exact .inr ⟨rfl, _, request, hpresented, ⟨hrequest.fresh, hrequest.found, hrequest.status,
          hrequest.used, hrequest.others⟩, hfit, hfits⟩

theorem consume_spec (tenantId : String) :
    Triple (Steady w)
      (tryConsumeApproval (governed jwt withTokens approvedTools) params toolName operation tenantId
        true)
      (Settled jwt withTokens w params toolName operation tenantId) (fun _ => Steady w) := by
  cases htoken : nonEmptyText (params.field? "__approval_token") with
  | none => exact consumeById_spec tenantId (.inl htoken)
  | some token =>
    cases withTokens with
    | false => exact consumeById_spec tenantId (.inr rfl)
    | true => exact consumeByToken_spec tenantId htoken

/-- The answer of the check: nothing was consumed and no approval was relied on, or the
presented one was consumed. -/
def Answered (python : Python) (jwt : ApprovalTokens.Jwt) (withTokens : Bool)
    (approvedTools : List Text) (w : World) (params : Json) (toolName operation : Text)
    (context : ToolContext) (level : Option AutonomyLevel) (result : Bool)
    (g : GovernanceState World) : Prop :=
  (Steady w g ∧ (result = true →
      needsApproval python approvedTools context level toolName operation = false)) ∨
    (result = true ∧ ∃ id request, presented jwt withTokens params = some id ∧
      Consumed w g.world id request ∧ Fits request toolName operation context.tenantId ∧
      TokenFits jwt withTokens toolName params)

theorem keeps_checkRate (subject : String) (now : Int) :
    Keeps (Steady w) (checkRate subject now : GovernanceM World Bool) := fun _ hg => hg

variable (now jwt withTokens approvedTools context) in
theorem preExecuteCheck_spec (level : Option AutonomyLevel)
    (hop : resolveOperation python toolName params = .ok operation) :
    Triple (Steady w)
      (preExecuteCheck python (governed jwt withTokens approvedTools) now toolName params context
        level)
      (Answered python jwt withTokens approvedTools w params toolName operation context level)
      (fun _ => Steady w) := by
  have hrefuse : ∀ g, Steady w g →
      Answered python jwt withTokens approvedTools w params toolName operation context level false
        g := fun g hg => .inl ⟨hg, fun h => (nomatch h)⟩
  rw [preExecuteCheck, hop]
  dsimp only
  refine Triple.bind checkPolicies_spec fun outcome => ?_
  cases outcome with
  | none => exact triple_pure fun g hg => hrefuse g hg.1
  | some approved =>
    refine Triple.of_fact fun hasks => ?_
    have happroved := hasks approved rfl
    refine Triple.bind (keeps_checkRate _ now) fun withinRate => ?_
    cases withinRate with
    | false => exact triple_pure hrefuse
    | true =>
      refine Triple.bind (checkAutonomy_spec level approved) fun outcome => ?_
      cases outcome with
      | none => exact triple_pure fun g hg => hrefuse g hg.1
      | some approved' =>
        refine Triple.of_fact fun hfound => ?_
        have hneeds : approved' =
            needsApproval python approvedTools context level toolName operation := by
          rw [hfound approved' rfl, happroved, needsApproval]
        dsimp only
        by_cases hpermission :
          (!Permissions.checkPermission "tools:execute" context.userScopes) = true
        · rw [if_pos hpermission]
          exact triple_pure hrefuse
        · rw [if_neg hpermission]
          cases checkAllowlists python toolName params context with
          | error e => exact triple_throw fun g hg => hg
          | ok within =>
            cases within with
            | false => exact triple_pure hrefuse
            | true =>
              dsimp only
              split_ifs with happroved'
              · refine Triple.conseq (consume_spec context.tenantId) (fun _ h => h) ?_
                  fun _ _ h => h
                intro result g hsettled
                rcases hsettled with ⟨rfl, hg⟩ | hsettled
                · exact hrefuse g hg
                · exact .inr hsettled
              · refine triple_pure fun g hg => .inl ⟨hg, fun _ => ?_⟩
                rw [← hneeds]
                simpa using happroved'

inductive Op
  | preExecuteCheck (now : Int) (toolName : Text) (params : Json) (context : ToolContext)
      (level : Option AutonomyLevel)
  | request (asked : ApprovalRequest)
  | decide (approvalId : Text) (approved : Bool) (reviewedBy : String) (reviewNote : Text)
  | wait (clock : Int)

structure Session where
  state : GovernanceState World
  used : List Text := []

def FitsCall (jwt : ApprovalTokens.Jwt) (withTokens : Bool) (request : ToolApprovalRequest)
    (toolName operation : Text) (context : ToolContext) (params : Json) : Prop :=
  Fits request toolName operation context.tenantId ∧ TokenFits jwt withTokens toolName params

def SameCall (request : ToolApprovalRequest) (toolName operation : Text) (context : ToolContext)
    (params : Json) : Prop :=
  request.toolName = toolName ∧ request.operation = operation ∧
    request.tenantId = context.tenantId ∧
    request.arguments = sanitizeApprovalArguments params

section

variable (python : Python) (jwt : ApprovalTokens.Jwt) (withTokens : Bool)
  (approvedTools : List Text)

def check (s : Session) (now : Int) (toolName : Text) (params : Json) (context : ToolContext)
    (level : Option AutonomyLevel) : EStateM.Result Exn (GovernanceState World) Bool :=
  (preExecuteCheck python (governed jwt withTokens approvedTools) now toolName params context
    level).run s.state

def strength (toolName : Text) (params : Json) (context : ToolContext)
    (level : Option AutonomyLevel) : Option Text :=
  match resolveOperation python toolName params with
  | .error _ => none
  | .ok operation =>
    if needsApproval python approvedTools context level toolName operation then
      presented jwt withTokens params
    else none

def Session.next (s : Session) : Op → Session
  | .preExecuteCheck now toolName params context level =>
    match check python jwt withTokens approvedTools s now toolName params context level with
    | .error _ state => { s with state }
    | .ok result state =>
      { state
        used := if result then
            s.used ++ (strength python jwt withTokens approvedTools toolName params context
              level).toList
          else s.used }
  | .request asked => { s with state := { s.state with
      world := approvalService.request asked s.state.world } }
  | .decide approvalId approved reviewedBy reviewNote => { s with state := { s.state with
      world := (s.state.world.withApprovals (s.state.world.approvals.decide s.state.world.clock
        approvalId approved reviewedBy reviewNote)).2 } }
  | .wait clock => { s with state := { s.state with world := { s.state.world with clock } } }

/-- What a check promises. A call that it lets through on the strength of an approval uses
up an approved request that has let no call through and that fits the call; a call that
it refuses leaves every approved request as it was. -/
def Bound (fits : ToolApprovalRequest → Text → Text → ToolContext → Json → Prop) (s : Session) :
    Op → Prop
  | .preExecuteCheck now toolName params context level =>
    ∀ operation result state, resolveOperation python toolName params = .ok operation →
      check python jwt withTokens approvedTools s now toolName params context level =
        .ok result state →
      (result = true →
        needsApproval python approvedTools context level toolName operation = true →
        ∃ id request, presented jwt withTokens params = some id ∧ id ∉ s.used ∧
          s.state.world.lookup id = some request ∧ request.status = .approved ∧
          fits request toolName operation context params) ∧
      (result = false → ∀ id request, s.state.world.lookup id = some request →
        request.status = .approved → state.world.lookup id = some request)
  | _ => True

structure Accounted (s : Session) : Prop where
  fresh : Fresh s.state.world.approvals
  used : ∀ id ∈ s.used, ∃ request, s.state.world.lookup id = some request ∧
    request.status = .consumed

variable {python jwt withTokens approvedTools}

theorem Accounted.steady (h : Accounted s)
    (hstate : Steady s.state.world state) : Accounted { s with state } := by
  refine ⟨hstate.fresh, fun id hid => ?_⟩
  obtain ⟨request, hlookup, hstatus⟩ := h.used id hid
  exact ⟨request, hstate.decided hlookup (by simp [hstatus]), hstatus⟩

theorem check_error {level : Option AutonomyLevel}
    (h : resolveOperation python toolName params = .error e) :
    check python jwt withTokens approvedTools s now toolName params context level =
      .error e s.state := by
  rw [check, preExecuteCheck, h]
  rfl

theorem kept_decide (h : Fresh w.approvals) (approvalId : Text) (approved : Bool)
    (reviewedBy : String) (reviewNote : Text) :
    Fresh (w.approvals.decide w.clock approvalId approved reviewedBy reviewNote).2 ∧
      ∀ {id request}, w.lookup id = some request → request.status ≠ .pending →
        (w.approvals.decide w.clock approvalId approved reviewedBy reviewNote).2.requests.get? id =
          some request := by
  have hexpire := kept_expirePending h w.clock
  rw [ToolApprovalService.decide]
  dsimp only
  cases hfound : (w.approvals.expirePending w.clock).requests.get? approvalId with
  | none => exact ⟨hexpire.fresh, hexpire.decided⟩
  | some request =>
    dsimp only
    by_cases hstatus : request.status ≠ .pending
    · rw [if_pos hstatus]
      exact ⟨hexpire.fresh, hexpire.decided⟩
    · rw [if_neg hstatus]
      refine ⟨hexpire.fresh.putRequest ?_ _, fun {id request'} hlookup hdecided => ?_⟩
      · by_contra hnot
        rw [← Dict.get?_eq_none] at hnot
        cases hnot.symm.trans hfound
      · change (Dict.set _ _ _).get? id = some request'
        rw [Dict.get?_set, if_neg]
        · exact hexpire.decided hlookup hdecided
        · rintro rfl
          have heq := hexpire.decided hlookup hdecided
          obtain rfl := some.inj (heq.symm.trans hfound)
          exact hstatus hdecided

theorem Accounted.next (h : Accounted s) (op : Op) :
    Accounted (s.next python jwt withTokens approvedTools op) := by
  cases op with
  | preExecuteCheck now toolName params context level =>
    rw [Session.next]
    cases hop : resolveOperation python toolName params with
    | error e =>
      rw [check_error hop]
      exact h
    | ok operation =>
      have hspec := preExecuteCheck_spec now jwt withTokens approvedTools context level hop s.state
        (Kept.refl h.fresh)
      rw [check]
      cases hrun : (preExecuteCheck python (governed jwt withTokens approvedTools) now toolName
        params context level).run s.state with
      | error e state =>
        rw [hrun] at hspec
        exact h.steady hspec
      | ok result state =>
        rw [hrun] at hspec
        dsimp only
        rcases hspec with ⟨hsteady, hneeds⟩ | ⟨rfl, id, request, hpresented, hconsumed, _, _⟩
        · cases result with
          | false => exact h.steady hsteady
          | true =>
            rw [if_pos rfl, strength, hop]
            dsimp only
            rw [if_neg (by rw [hneeds rfl]; exact Bool.false_ne_true), toList_none,
              append_nil]
            exact h.steady hsteady
        · rw [if_pos rfl]
          refine ⟨hconsumed.fresh, fun id' hid' => ?_⟩
          by_cases hid : id' = id
          · subst hid
            exact ⟨_, hconsumed.used, rfl⟩
          · have hused : id' ∈ s.used := by
              refine (mem_append.mp hid').resolve_right fun hmem => hid ?_
              rw [strength, hop] at hmem
              dsimp only at hmem
              split_ifs at hmem
              · rw [hpresented] at hmem
                exact mem_singleton.mp hmem
              · cases hmem
            obtain ⟨request', hlookup, hstatus⟩ := h.used id' hused
            exact ⟨request', hconsumed.others hid hlookup (by simp [hstatus]), hstatus⟩
  | request asked => exact h.steady (kept_request h.fresh asked)
  | decide approvalId approved reviewedBy reviewNote =>
    obtain ⟨hfresh, hdecided⟩ := kept_decide h.fresh approvalId approved reviewedBy reviewNote
    refine ⟨hfresh, fun id hid => ?_⟩
    obtain ⟨request, hlookup, hstatus⟩ := h.used id hid
    exact ⟨request, hdecided hlookup (by simp [hstatus]), hstatus⟩
  | wait clock => exact ⟨h.fresh, h.used⟩

theorem Accounted.bound (h : Accounted s) (op : Op) :
    Bound python jwt withTokens approvedTools (FitsCall jwt withTokens) s op := by
  cases op with
  | preExecuteCheck now toolName params context level =>
    intro operation result state hop hrun
    have hspec := preExecuteCheck_spec now jwt withTokens approvedTools context level hop s.state
      (Kept.refl h.fresh)
    rw [check] at hrun
    rw [hrun] at hspec
    rcases hspec with ⟨hsteady, hneeds⟩ | ⟨rfl, id, request, hpresented, hconsumed, hfits, htoken⟩
    · refine ⟨fun htrue hneed => ?_, fun _ id request hlookup hstatus => ?_⟩
      · rw [hneeds htrue] at hneed
        cases hneed
      · exact hsteady.decided hlookup (by simp [hstatus])
    · refine ⟨fun _ _ => ⟨id, request, hpresented, fun hused => ?_, hconsumed.found,
        hconsumed.status, hfits, htoken⟩, fun hfalse => (nomatch hfalse)⟩
      obtain ⟨request', hlookup, hstatus⟩ := h.used id hused
      obtain rfl := some.inj (hconsumed.found.symm.trans hlookup)
      cases hconsumed.status.symm.trans hstatus
  | _ => trivial

end

def Session.start (newApprovalId : ℕ → Text) (defaultTtlMinutes : Int) (durable : Bool)
    (tokens : ApprovalTokens.ApprovalTokenManager) (limiter : RateLimiter) : Session where
  state := {
    limiter
    world := {
      approvals := {
        newApprovalId
        defaultTtlMinutes
        stateStore := if durable then some Dict.empty else none }
      tokens } }

/-- Every check binds its approval, in every run. -/
theorem bound_of_run (python : Python) (jwt : ApprovalTokens.Jwt) (withTokens : Bool)
    (approvedTools : List Text) (newApprovalId : ℕ → Text)
    (hids : Function.Injective newApprovalId) (defaultTtlMinutes : Int) (durable : Bool)
    (tokens : ApprovalTokens.ApprovalTokenManager) (limiter : RateLimiter) (ops : List Op) :
    History.Along (Session.next python jwt withTokens approvedTools)
      (Bound python jwt withTokens approvedTools (FitsCall jwt withTokens))
      (Session.start newApprovalId defaultTtlMinutes durable tokens limiter) ops := by
  refine History.along_of_invariant (I := Accounted) (fun s op h => h.next op)
    (fun s op h => h.bound op) ?_ ops
  exact ⟨⟨hids, fun id hid => (nomatch hid)⟩, fun id hid => (nomatch hid)⟩

def paddedId (n : ℕ) : Text := "APR-".toList ++ List.replicate n '0'

def listRequest : ApprovalRequest where
  reason := .toolPolicyAsk
  toolName := "shell".toList
  operation := []
  command := "ls".toList
  requestedBy := "agent"
  tenantId := "acme"
  details := []
  arguments := .obj [("command", .str "ls")]
  riskTier := .medium

/-- A command is approved for a tenant, and another one is presented without a tenant. -/
def swappedCommand : List Op :=
  [.request listRequest,
    .decide (paddedId 0) true "ops" [],
    .preExecuteCheck 0 "shell".toList
      (.obj [("command", .str "rm -rf build"), ("__approval_id", .str "APR-")])
      { userScopes := ["tools:execute"],
        toolPolicies := Dict.ofList [("shell".toList, "ask".toList)] } none]

theorem bound_swappedCommand :
    History.Along (Session.next (asciiPython []) (ApprovalTokens.tableJwt []) true [])
      (Bound (asciiPython []) (ApprovalTokens.tableJwt []) true []
        (FitsCall (ApprovalTokens.tableJwt []) true))
      (Session.start paddedId 60 true {} { perMinute := 60, burst := 10 }) swappedCommand := by
  refine bound_of_run _ _ true [] paddedId (fun m n h => ?_) 60 true {} _ swappedCommand
  simpa [paddedId] using congrArg List.length h

theorem not_sameCall_swappedCommand :
    ¬ History.Along (Session.next (asciiPython []) (ApprovalTokens.tableJwt []) true [])
      (Bound (asciiPython []) (ApprovalTokens.tableJwt []) true [] SameCall)
      (Session.start paddedId 60 true {} { perMinute := 60, burst := 10 }) swappedCommand := by
  intro ⟨_, _, h, _⟩
  obtain ⟨id, request, hpresented, _, hlookup, _, _, _, htenant, _⟩ :=
    (h [] true _ rfl rfl).1 rfl (by decide +kernel)
  obtain rfl := some.inj hpresented
  obtain rfl := some.inj hlookup
  exact absurd htenant (by decide)

end Agent33.Tools.ApprovalBinding
