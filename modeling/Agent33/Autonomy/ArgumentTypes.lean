import Agent33.Autonomy.Enforcement

/-!
# Arguments that the enforcer can check

The enforcer takes a command, a path and a domain for strings. A command that is not
empty has to have a first word.
-/

namespace Agent33.Autonomy

open Library Library.Hoare

/-- The enforcer can tell the name of the command, and its arguments when a permission
asks for them. -/
structure CommandFine (budget : AutonomyBudget) (command : Json) : Prop where
  name : command.truthy = true → ∃ s, command = .str s ∧ Text.words s.toList ≠ []
  args : command.isStr = false → [] ∉ budget.deniedCommands → [] ∉ budget.requireApprovalCommands →
    ∀ permission, budget.allowedCommands.find? (fun permission => permission.command = []) =
      some permission → permission.argsPattern = []

theorem commandName_ok_iff : (∃ name, commandName command = .ok name) ↔
    (command.truthy = true → ∃ s, command = .str s ∧ Text.words s.toList ≠ []) := by
  cases htruthy : command.truthy with
  | false => simp [commandName, htruthy]
  | true =>
    cases command with
    | str s => cases hwords : Text.words s.toList <;> simp [commandName, htruthy, hwords]
    | _ => simp [commandName, htruthy]

theorem commandName_of_not_isStr (hstr : command.isStr = false)
    (hname : commandName command = .ok name) : name = [] := by
  cases htruthy : command.truthy with
  | false => simpa [commandName, htruthy, eq_comm] using hname
  | true =>
    obtain ⟨s, rfl, _⟩ := commandName_ok_iff.mp ⟨name, hname⟩ htruthy
    exact absurd hstr.symm Bool.false_ne_true

theorem permitted_ok_iff (permissions : List CommandPermission) :
    (∃ allowed, permitted python command name permissions = .ok allowed) ↔
      (command.isStr = false →
        ∀ permission, permissions.find? (fun permission => permission.command = name) =
          some permission → permission.argsPattern = []) := by
  induction permissions with
  | nil => simp [permitted]
  | cons permission rest ih =>
    rw [permitted]
    by_cases hname : permission.command = name
    · by_cases hpattern : permission.argsPattern = []
      · simp [hname, hpattern]
      · cases command with
        | str s =>
          simp only [if_pos hname, if_neg hpattern, commandArgs, Json.isStr]
          split_ifs
          · simp
          · simpa [Json.isStr] using ih
        | _ => simp [hname, hpattern, commandArgs, Json.isStr]
    · rw [if_neg hname, ih, List.find?_cons_of_neg (by simpa using hname)]

theorem total_modifyContext (f : EnforcementContext → EnforcementContext) :
    Total (modifyContext f) := total_modify _

theorem total_blockWith (message : Text) : Total (blockWith message) :=
  (total_modifyContext _).bind fun _ => total_pure _

theorem total_checkLimit (exceeded : RuntimeEnforcer → Bool) (reason description : Text) :
    Total (checkLimit exceeded reason description) := by
  refine total_get.bind fun enforcer => ?_
  split_ifs
  · refine (total_modifyContext _).bind fun _ => ?_
    exact Total.bind (total_modify _) fun _ => total_pure _
  · exact total_pure _

theorem total_checkToolCallLimit : Total checkToolCallLimit := by
  refine total_get.bind fun enforcer => ?_
  dsimp only
  split_ifs
  · exact (total_modifyContext _).bind fun _ => total_pure _
  · exact total_pure _

theorem total_recordIteration : Total recordIteration :=
  (total_modifyContext _).bind fun _ => total_checkLimit _ _ _

theorem total_checkDuration (now : Int) : Total (checkDuration now) := total_checkLimit _ _ _

theorem checkCommand_returns_iff (enforcer : RuntimeEnforcer) :
    Returns (checkCommand python command) enforcer (fun _ _ => True) ↔
      CommandFine enforcer.budget command := by
  rw [checkCommand, returns_bind, returns_get]
  dsimp only
  cases hname : commandName command with
  | error e =>
    have hfine :=
      mt commandName_ok_iff.mpr (by simp [hname] : ¬ ∃ name, commandName command = .ok name)
    exact iff_of_false (fun h => h) fun h => hfine h.name
  | ok name =>
    have hfirst := commandName_ok_iff.mp ⟨name, hname⟩
    dsimp only
    by_cases hdenied : name ∈ enforcer.budget.deniedCommands
    · rw [if_pos hdenied]
      refine iff_of_true (total_blockWith _ _) ⟨hfirst, fun hstr hnot => ?_⟩
      exact absurd (commandName_of_not_isStr hstr hname ▸ hdenied) hnot
    rw [if_neg hdenied]
    by_cases happroval : name ∈ enforcer.budget.requireApprovalCommands
    · rw [if_pos happroval]
      refine iff_of_true ((total_modifyContext _).bind (fun _ => total_pure _) _)
        ⟨hfirst, fun hstr _ hnot => ?_⟩
      exact absurd (commandName_of_not_isStr hstr hname ▸ happroval) hnot
    rw [if_neg happroval]
    have hpermitted : (∃ allowed,
        permitted python command name enforcer.budget.allowedCommands = .ok allowed) ↔ _ :=
      permitted_ok_iff enforcer.budget.allowedCommands
    cases hallowed : permitted python command name enforcer.budget.allowedCommands with
    | error e =>
      refine iff_of_false (fun h => h) fun h => ?_
      obtain ⟨allowed, hok⟩ := hpermitted.mpr fun hstr => by
        obtain rfl := commandName_of_not_isStr hstr hname
        exact h.args hstr hdenied happroval
      rw [hallowed] at hok
      cases hok
    | ok allowed =>
      refine iff_of_true ?_ ⟨hfirst, fun hstr _ _ => ?_⟩
      · dsimp only
        split_ifs
        · exact total_blockWith _ _
        · exact (total_modifyContext _).bind (fun _ => total_checkToolCallLimit) _
      · have hperm := hpermitted.mp ⟨allowed, hallowed⟩ hstr
        rwa [commandName_of_not_isStr hstr hname] at hperm

theorem returns_fileCheck_iff {path : Json} {enforcer : RuntimeEnforcer}
    {check : Text → EnforcerM EnforcementResult} (hcheck : ∀ text, Total (check text)) :
    Returns (match path.asText with
      | .error e => throw e
      | .ok path => check path) enforcer (fun _ _ => True) ↔ path.isStr = true := by
  cases path with
  | str s => exact iff_of_true (hcheck s.toList enforcer) rfl
  | _ => exact iff_of_false (fun h => h) Bool.false_ne_true

theorem checkFileRead_returns_iff (path : Json) (enforcer : RuntimeEnforcer) :
    Returns (checkFileRead path) enforcer (fun _ _ => True) ↔ path.isStr = true := by
  refine returns_fileCheck_iff fun text => total_get.bind fun enforcer => ?_
  dsimp only
  split_ifs
  · exact total_blockWith _
  · exact total_blockWith _
  · exact total_pure _

theorem checkFileWrite_returns_iff (path : Json) (lines : Int) (enforcer : RuntimeEnforcer) :
    Returns (checkFileWrite path lines) enforcer (fun _ _ => True) ↔ path.isStr = true := by
  refine returns_fileCheck_iff fun text => total_get.bind fun enforcer => ?_
  dsimp only
  split_ifs
  · exact total_blockWith _
  · exact total_blockWith _
  · refine (total_modifyContext _).bind fun _ => (total_checkLimit _ _ _).bind fun result => ?_
    split_ifs
    · exact total_pure _
    · exact total_checkLimit _ _ _

theorem checkNetwork_returns_iff (domain : Json) (enforcer : RuntimeEnforcer) :
    Returns (checkNetwork python domain) enforcer (fun _ _ => True) ↔
      (enforcer.budget.network.enabled = true → domain.isStr = true) := by
  rw [checkNetwork, returns_bind, returns_get]
  dsimp only
  cases enforcer.budget.network.enabled with
  | false => exact iff_of_true (total_blockWith _ _) fun h => absurd h Bool.false_ne_true
  | true =>
    simp only [if_true, true_implies]
    refine returns_fileCheck_iff fun text => ?_
    split_ifs
    · exact total_blockWith _
    · exact total_blockWith _
    · refine (total_modifyContext _).bind fun _ => total_get.bind fun enforcer => ?_
      split_ifs
      · exact total_blockWith _
      · exact total_pure _

end Agent33.Autonomy
