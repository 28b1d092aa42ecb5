import Agent33.Library.Hoare
import Agent33.Tools.Governance

/-!
# Arguments that the governance can check

The governance takes the arguments of a tool call for an object whose fields have
the types that the checks of the allow lists expect. When a check raises is decided
by the fields that it gets to.
-/

namespace Agent33.Tools.Governance

open Library Library.Hoare Security.Permissions Json

variable {W : Type}

def argument (params : Json) (key : String) : Json := (params.field? key).getD (.str "")

structure ListsFine (python : Python) (toolName : Text) (params : Json) (context : ToolContext) :
    Prop where
  command : toolName = "shell".toList →
    (argument params "command").truthy = true → (argument params "command").isStr = true
  path : toolName = "file_ops".toList → context.pathAllowlist ≠ [] →
    (argument params "path").isStr = true
  url : toolName = "web_fetch".toList → context.domainAllowlist ≠ [] →
    ((argument params "url").truthy = true → (argument params "url").isStr = true) ∧
      ∀ s, argument params "url" = .str s → ∃ host, python.urlHostname s.toList = .ok host

section AllowLists

variable {params : Json}

theorem getKey_argument (hobj : params.isObj = true) (key : String) :
    params.getKey key (.str "") = .ok (argument params key) :=
  getKey_of_isObj hobj key _

theorem asText_ok_iff {value : Json} : (∃ text, value.asText = .ok text) ↔ value.isStr = true := by
  cases value <;> simp [asText, isStr]

theorem hostOf_ok_iff {url : Json} : (∃ domain, hostOf python url = .ok domain) ↔
    (url.truthy = true → url.isStr = true) ∧
      ∀ s, url = .str s → ∃ host, python.urlHostname s.toList = .ok host := by
  cases url with
  | str s =>
    cases hhost : python.urlHostname s.toList <;> simp [hostOf, hhost, isStr, Except.map]
  | null => simp [hostOf, isStr, truthy]
  | bool b => cases b <;> simp [hostOf, isStr, truthy]
  | int n => by_cases hn : n = 0 <;> simp [hostOf, isStr, truthy, hn]
  | float bits =>
    cases htruthy : (float bits).truthy <;> simp [hostOf, isStr, htruthy]
  | arr items => cases items <;> simp [hostOf, isStr, truthy]
  | obj fields => cases fields <;> simp [hostOf, isStr, truthy]

theorem validateCommand_ok_iff {command : Json} :
    (∃ valid, validateCommand command context = .ok valid) ↔
      (command.truthy = true → command.isStr = true) := by
  cases htruthy : command.truthy with
  | false => simp [validateCommand, htruthy]
  | true =>
    cases command with
    | str s =>
      simp only [validateCommand, htruthy, isStr]
      split_ifs <;> simp
    | _ => simp [validateCommand, htruthy, isStr]

theorem bind_pure_ok_iff {ε α β : Type} {x : Except ε α} {f : α → β} :
    (∃ b, (do let a ← x; return f a) = .ok b) ↔ ∃ a, x = .ok a := by
  cases x <;> simp [bind, Except.bind, pure, Except.pure]

theorem checkAllowlists_ok_iff (hobj : params.isObj = true) :
    (∃ allowed, checkAllowlists python toolName params context = .ok allowed) ↔
      ListsFine python toolName params context := by
  have hshell : ("shell".toList : Text) ≠ "file_ops".toList := by decide
  have hfetch : ("shell".toList : Text) ≠ "web_fetch".toList := by decide
  have hfiles : ("file_ops".toList : Text) ≠ "web_fetch".toList := by decide
  rw [checkAllowlists]
  simp only [getKey_argument hobj]
  split_ifs with htool hpath hurl
  · rw [htool]
    refine Iff.trans validateCommand_ok_iff ?_
    exact ⟨fun h => ⟨fun _ => h, fun h => absurd h hshell, fun h => absurd h hfetch⟩,
      fun h => h.command rfl⟩
  · rw [hpath.1]
    refine (bind_pure_ok_iff.trans asText_ok_iff).trans ?_
    exact ⟨fun h => ⟨fun h => absurd h.symm hshell, fun _ _ => h, fun h => absurd h hfiles⟩,
      fun h => h.path rfl hpath.2⟩
  · rw [hurl.1]
    refine (bind_pure_ok_iff.trans hostOf_ok_iff).trans ?_
    exact ⟨fun h => ⟨fun h => absurd h.symm hfetch, fun h => absurd h.symm hfiles, fun _ _ => h⟩,
      fun h => h.url rfl hurl.2⟩
  · exact iff_of_true ⟨true, rfl⟩ ⟨fun h => absurd h htool, fun h hlist => absurd ⟨h, hlist⟩ hpath,
      fun h hlist => absurd ⟨h, hlist⟩ hurl⟩

end AllowLists

section Gates

variable (python : Python) (governance : ToolGovernance W) (now : Int) (toolName : Text)
  (params : Json) (context : ToolContext) (level : Option AutonomyLevel)

/-- The checks before those of the allow lists: refused, or whether an approval was
found. -/
def gates (operation : Text) : GovernanceM W (Option Bool) := do
  match ← checkPolicies python governance params toolName operation context with
  | none => return none
  | some approved =>
    let withinRate ← checkRate (context.userScopes.headD "__anon__") now
    if !withinRate then return none
    else
      match ← checkAutonomy python governance params toolName operation context level approved with
      | none => return none
      | some approved =>
        return if checkPermission "tools:execute" context.userScopes then some approved else none

def checkLists (operation : Text) : Option Bool → GovernanceM W Bool
  | none => return false
  | some approved =>
    match checkAllowlists python toolName params context with
    | .error e => throw e
    | .ok false => return false
    | .ok true =>
      if approved then
        tryConsumeApproval governance params toolName operation context.tenantId true
      else return true

theorem preExecuteCheck_eq (h : resolveOperation python toolName params = .ok operation) :
    preExecuteCheck python governance now toolName params context level =
      gates python governance now toolName params context level operation >>=
        checkLists python governance toolName params context operation := by
  rw [preExecuteCheck, h, gates]
  simp only [bind_assoc]
  refine bind_congr fun policy => ?_
  cases policy with
  | none => rfl
  | some approved =>
    simp only [bind_assoc]
    refine bind_congr fun withinRate => ?_
    cases withinRate with
    | false => rfl
    | true =>
      simp only [Bool.not_true, Bool.false_eq_true, if_false, bind_assoc]
      refine bind_congr fun approved => ?_
      cases approved with
      | none => rfl
      | some approved =>
        cases checkPermission "tools:execute" context.userScopes <;> rfl

variable {python governance toolName params context}

theorem resolveOperation_ok_iff :
    (∃ operation, resolveOperation python toolName params = .ok operation) ↔
      params.isObj = true := by
  rw [resolveOperation]
  cases hobj : params.isObj with
  | true =>
    simp only [getKey_of_isObj hobj, iff_true]
    split_ifs <;> exact ⟨_, rfl⟩
  | false =>
    simp only [getKey_of_not_isObj hobj]
    split_ifs <;> simp [Except.map]

theorem total_onWorld {α : Type} (f : W → α × W) : Total (onWorld f) := fun _ => trivial

theorem total_tryConsumeApproval (operation : Text) (tenantId : String) (consume : Bool) :
    Total (tryConsumeApproval governance params toolName operation tenantId consume) := by
  unfold tryConsumeApproval
  split
  · refine (total_onWorld _).bind fun payload => ?_
    split
    · exact total_pure _
    · split_ifs
      · exact total_pure _
      · exact total_onWorld _
    · cases consume with
      | false =>
        simp only [Bool.not_false, if_true]
        exact total_onWorld _
      | true =>
        refine (total_onWorld _).bind fun consumed => ?_
        split_ifs
        · exact total_pure _
        · exact total_pure _
        · exact total_onWorld _
  · split
    · split_ifs
      · exact total_onWorld _
      · exact total_onWorld _
    · exact total_pure _

section

variable (hobj : params.isObj = true) (operation : Text)
include hobj operation

theorem total_requestApproval
    (reason : ApprovalReason) (details : Text) (riskTier : ApprovalRiskTier) :
    Total (requestApproval python governance params toolName operation context reason details
      riskTier) := by
  unfold requestApproval
  cases governance.approvalService with
  | none => exact total_pure _
  | some service =>
    simp only [getKey_of_isObj hobj]
    exact total_modify _

theorem total_approvedOrRequested
    (reason : ApprovalReason) (details : Text) (riskTier : ApprovalRiskTier) :
    Total (approvedOrRequested python governance params toolName operation context reason details
      riskTier) := by
  refine (total_tryConsumeApproval operation context.tenantId false).bind fun approved => ?_
  split_ifs
  · exact total_pure _
  · exact (total_requestApproval hobj operation reason details riskTier).bind fun _ => total_pure _

theorem total_checkPolicies :
    Total (checkPolicies python governance params toolName operation context) := by
  unfold checkPolicies
  split
  · exact total_pure _
  · split_ifs
    · exact total_pure _
    · exact (total_approvedOrRequested hobj _ _ _ _).bind fun _ => total_pure _
    · exact total_pure _

theorem total_checkAutonomy (approved : Bool) :
    Total (checkAutonomy python governance params toolName operation context level approved) := by
  unfold checkAutonomy
  split
  · exact total_pure _
  · split_ifs
    · exact (total_approvedOrRequested hobj _ _ _ _).bind fun _ => total_pure _
    · exact total_pure _
  · exact total_pure _

theorem total_gates :
    Total (gates python governance now toolName params context level operation) := by
  refine (total_checkPolicies hobj operation).bind fun policy => ?_
  cases policy with
  | none => exact total_pure _
  | some approved =>
    refine Total.bind (fun _ => trivial) fun withinRate => ?_
    cases withinRate with
    | false => exact total_pure _
    | true =>
      refine (total_checkAutonomy level hobj operation approved).bind fun approved => ?_
      cases approved with
      | none => exact total_pure _
      | some approved => exact total_pure _

theorem checkLists_returns_iff (approved : Bool)
    (s : GovernanceState W) :
    Returns (checkLists python governance toolName params context operation (some approved)) s
      (fun _ _ => True) ↔ ListsFine python toolName params context := by
  rw [← checkAllowlists_ok_iff hobj, checkLists]
  cases hlists : checkAllowlists python toolName params context with
  | error e => simp [returns_throw]
  | ok allowed =>
    refine iff_of_true ?_ ⟨allowed, rfl⟩
    cases allowed with
    | false => trivial
    | true =>
      simp only
      split_ifs
      · exact total_tryConsumeApproval operation context.tenantId true s
      · trivial

end

variable (python governance toolName params context) in
def GovernanceFine (s : GovernanceState W) : Prop :=
  params.isObj = true ∧ ∀ operation, resolveOperation python toolName params = .ok operation →
    ∀ approved s', (gates python governance now toolName params context level operation).run s =
      .ok (some approved) s' → ListsFine python toolName params context

theorem preExecuteCheck_returns_iff (s : GovernanceState W) :
    Returns (preExecuteCheck python governance now toolName params context level) s
      (fun _ _ => True) ↔
      GovernanceFine python governance now toolName params context level s := by
  rw [GovernanceFine]
  cases hop : resolveOperation python toolName params with
  | error e =>
    have hobj : params.isObj = false := by
      by_contra h
      obtain ⟨operation, hoperation⟩ := resolveOperation_ok_iff.mpr (Bool.of_not_eq_false h)
      rw [hop] at hoperation
      cases hoperation
    simp [preExecuteCheck, hop, hobj, returns_throw]
  | ok operation =>
    have hobj := resolveOperation_ok_iff.mp ⟨operation, hop⟩
    rw [preExecuteCheck_eq python governance now toolName params context level hop, returns_bind,
      (total_gates now level hobj operation).returns_iff]
    simp only [hobj, Except.ok.injEq, forall_eq', true_and]
    constructor
    · intro h approved s' hrun
      exact (checkLists_returns_iff hobj operation approved s').mp (h _ s' hrun)
    · intro h approved s' hrun
      cases approved with
      | none => trivial
      | some approved =>
        exact (checkLists_returns_iff hobj operation approved s').mpr (h approved s' hrun)

end Gates

end Agent33.Tools.Governance
