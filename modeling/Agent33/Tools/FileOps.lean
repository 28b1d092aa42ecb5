import Agent33.Library.FileTree
import Agent33.Tools.Governance

/-!
# Files and their allow list

The checks that the file tool makes of a path before it reads, writes or lists what the path leads
to, against the check of the same allow list before the call. The first looks at the places that
paths lead to, the second at the texts, which go on below an allowed directory to any other place.
-/

namespace Agent33.Tools.FileOps

open Library Library.PathWalk List Text
open Tools.Governance (checkAllowlists)

inductive FileOperation
  | read
  | write
  | list
  deriving DecidableEq

def FileOperation.name : FileOperation → String
  | .read => "read"
  | .write => "write"
  | .list => "list"

inductive Refusal
  | noOperation
  | noPath
  | nullBytes
  | outside (place : Place) (allowlist : List Text)
  | linkOutside (place : Place)
  | parentOutside (place : Place)
  | unknownOperation (operation : Text)

inductive Outcome
  | fails (refusal : Refusal)
  | runs (operation : FileOperation) (place : Place)

def nul : Char := Char.ofNat 0

section Tool

variable (fs : FileSystem)

def resolvePath (path : Text) : Except Exn Place :=
  if nul ∈ path then .error .valueError else .ok (resolve fs path)

/-- The loop of `_path_allowed`. -/
def anyContains (place : Place) : List Text → Except Exn Bool
  | [] => .ok false
  | allowed :: rest => do
    let root ← resolvePath fs allowed
    if root.isSuffixOf place then return true else anyContains place rest

def pathAllowed (allowlist : List Text) (place : Place) : Except Exn Bool :=
  if allowlist = [] then .ok true else anyContains fs place allowlist

def isLink : Place → Bool
  | [] => false
  | name :: dir => decide (fs.enter dir name ≠ name :: dir)

/-- `resolve` of a path that is resolved already. -/
def resolveAgain (place : Place) : Place := walk fs [] place.reverse

/-- `_write`, up to the write itself. -/
def write (allowlist : List Text) (place : Place) : Except Exn Outcome := do
  let parent := resolveAgain fs place.tail
  if !(← pathAllowed fs allowlist parent) then return .fails (.parentOutside parent)
  else return .runs .write place

def dispatch (allowlist : List Text) (operation : Text) (place : Place) : Except Exn Outcome :=
  if operation = "read".toList then .ok (.runs .read place)
  else if operation = "write".toList then write fs allowlist place
  else if operation = "list".toList then .ok (.runs .list place)
  else .ok (.fails (.unknownOperation operation))

/-- `execute`, up to the operation itself. -/
def execute (allowlist : List Text) (operation path : Text) : Except Exn Outcome := do
  let operation := Text.strip operation
  let rawPath := Text.strip path
  if operation = [] then return .fails .noOperation
  else if rawPath = [] then return .fails .noPath
  else if nul ∈ rawPath then return .fails .nullBytes
  else
    let resolved ← resolvePath fs rawPath
    if !(← pathAllowed fs allowlist resolved) then return .fails (.outside resolved allowlist)
    else if isLink fs resolved then
      let target := resolveAgain fs resolved
      if !(← pathAllowed fs allowlist target) then return .fails (.linkOutside target)
      else dispatch fs allowlist operation resolved
    else dispatch fs allowlist operation resolved

end Tool

section Agreement

variable (python : Python) (fs : FileSystem) (context : ToolContext)

variable (operation : FileOperation)

def arguments (path : String) : Json :=
  .obj [("operation", .str operation.name), ("path", .str path)]

def Passes (path : String) : Prop :=
  checkAllowlists python "file_ops".toList (arguments operation path) context = .ok true

def LeadsTo (path : String) (place : Place) : Prop :=
  Text.strip path.toList ≠ [] ∧ nul ∉ Text.strip path.toList ∧
    place = resolve fs (Text.strip path.toList)

/-- The place lies inside one of the allowed directories; a file that is written does when its
parent does. Without an allow list all places do. -/
def LiesInside (place : Place) : Prop :=
  context.pathAllowlist = [] ∨ ∃ allowed ∈ context.pathAllowlist, nul ∉ allowed ∧
    resolve fs allowed <:+ (if operation = .write then place.tail else place)

/-- A call that passes the check before it is one whose path leads inside the allowed directories,
and the tool runs every call whose path does. -/
structure Agrees (operation : FileOperation) (path : String) : Prop where
  inside : Passes python context operation path → ∀ place, LeadsTo fs path place →
    LiesInside fs context operation place
  runs : ∀ place, LeadsTo fs path place → LiesInside fs context operation place →
    execute fs context.pathAllowlist operation.name.toList path.toList =
      .ok (.runs operation place)

end Agreement

section Checks

theorem anyContains_eq_true_iff :
    anyContains fs place allowlist = .ok true ↔
      ∃ allowed ∈ allowlist.takeWhile (nul ∉ ·), resolve fs allowed <:+ place := by
  induction allowlist with
  | nil => simp [anyContains]
  | cons allowed rest ih =>
    rw [anyContains, resolvePath]
    by_cases hnul : nul ∈ allowed
    · simp [hnul, bind, Except.bind]
    · by_cases hin : resolve fs allowed <:+ place
      · simp [hnul, hin, bind, Except.bind, pure, Except.pure]
      · simp only [hnul, hin, bind, Except.bind, isSuffixOf_iff_suffix, ↓reduceIte, ih,
          not_false_eq_true, decide_true, takeWhile_cons_of_pos, exists_mem_cons_iff,
          false_or]

theorem isLink_of_real {fs : FileSystem} {place : Place} (h : Real fs.enter place) :
    isLink fs place = false := by
  cases place with
  | nil => rfl
  | cons name dir => simp [isLink, h.2.1]

theorem execute_of_leadsTo (h : LeadsTo fs path place) (operation : FileOperation) :
    execute fs allowlist operation.name.toList path.toList = (do
      if !(← pathAllowed fs allowlist place) then return .fails (.outside place allowlist)
      else dispatch fs allowlist operation.name.toList place) := by
  obtain ⟨hsome, hnul, rfl⟩ := h
  have hreal : Real fs.enter (resolve fs (strip path.toList)) := real_resolve _
  have hstrip : strip operation.name.toList = operation.name.toList := by
    cases operation <;> decide
  have hop : operation.name.toList ≠ [] := by cases operation <;> decide
  simp only [execute, hstrip, if_neg hop, if_neg hsome, if_neg hnul, resolvePath, bind,
    Except.bind, isLink_of_real hreal, Bool.false_eq_true, ↓reduceIte]

theorem dispatch_of_real {fs : FileSystem} {place : Place} (h : Real fs.enter place)
    (operation : FileOperation)
    (hparent : operation = .write → pathAllowed fs allowlist place.tail = .ok true) :
    dispatch fs allowlist operation.name.toList place = .ok (.runs operation place) := by
  cases operation with
  | read => rfl
  | list => rfl
  | write =>
    rw [dispatch, if_neg (by decide), if_pos (by decide), write, resolveAgain,
      walk_real (real_tail h), hparent rfl]
    rfl

theorem execute_of_allowed (h : LeadsTo fs path place) (operation : FileOperation)
    (hplace : pathAllowed fs allowlist place = .ok true)
    (hparent : operation = .write → pathAllowed fs allowlist place.tail = .ok true) :
    execute fs allowlist operation.name.toList path.toList = .ok (.runs operation place) := by
  have hreal : Real fs.enter place := by
    rw [h.2.2]
    exact real_resolve _
  rw [execute_of_leadsTo h, hplace]
  exact dispatch_of_real hreal operation hparent

theorem allowed_of_execute (h : LeadsTo fs path place)
    (hruns : execute fs allowlist operation.name.toList path.toList =
      .ok (.runs operation place)) : pathAllowed fs allowlist place = .ok true := by
  rw [execute_of_leadsTo h] at hruns
  cases hplace : pathAllowed fs allowlist place with
  | error e =>
    rw [hplace] at hruns
    cases hruns
  | ok inside =>
    cases inside with
    | true => rfl
    | false =>
      rw [hplace] at hruns
      cases hruns

end Checks

section Lists

variable {python : Python} {fs : FileSystem} {context : ToolContext}

theorem passes_iff (operation : FileOperation) (path : String) :
    Passes python context operation path ↔
      context.pathAllowlist = [] ∨ ∃ allowed ∈ context.pathAllowlist, allowed <+: path.toList := by
  have hpath : (arguments operation path).getKey "path" (.str "") = .ok (.str path) := rfl
  have hshell : ("file_ops".toList : Text) ≠ "shell".toList := by decide
  rw [Passes, checkAllowlists, if_neg hshell]
  by_cases hnone : context.pathAllowlist = []
  · simp [hnone, pure, Except.pure]
  · rw [if_pos ⟨rfl, hnone⟩, hpath]
    simp [hnone, Json.asText, bind, Except.bind, pure, Except.pure]

theorem strip_append_steps (text : Text) (k : ℕ) :
    strip (text ++ steps (k + 1)) = lstrip text ++ steps (k + 1) := by
  have hfront : lstrip (text ++ steps (k + 1)) = lstrip text ++ steps (k + 1) := by
    have hsteps : (steps (k + 1)).dropWhile isSpace = steps (k + 1) := by
      rw [steps, replicate_succ, flatten_cons]
      exact dropWhile_cons_of_neg (by decide)
    rw [lstrip, dropWhile_append, hsteps]
    split
    · rename_i hnone
      rw [lstrip, List.isEmpty_iff.mp hnone, nil_append]
    · rfl
  have hback : (lstrip text ++ steps (k + 1)).reverse =
      '.' :: '.' :: '/' :: (lstrip text ++ steps k).reverse := by
    rw [steps, replicate_succ', flatten_append, ← append_assoc, reverse_append]
    rfl
  rw [strip, hfront, hback, lstrip, dropWhile_cons_of_neg (by decide), ← hback,
    reverse_reverse]

theorem mem_lstrip (hc : isSpace c = false) (h : c ∈ text) : c ∈ lstrip text := by
  rw [← takeWhile_append_dropWhile (p := isSpace) (l := text)] at h
  rcases mem_append.mp h with h | h
  · have hspace := mem_takeWhile_imp h
    rw [hc] at hspace
    cases hspace
  · exact h

theorem mem_strip (hc : isSpace c = false) (h : c ∈ text) : c ∈ strip text :=
  mem_reverse.mpr (mem_lstrip hc (mem_reverse.mpr (mem_lstrip hc h)))

theorem exists_path_to_root (fs : FileSystem) (hnul : nul ∉ allowed) :
    ∃ path : String, allowed <+: path.toList ∧ LeadsTo fs path [] := by
  obtain ⟨k, hroot⟩ := exists_steps_to_root fs (lstrip allowed)
  have htext : (String.ofList (allowed ++ steps (k + 1))).toList = allowed ++ steps (k + 1) :=
    String.toList_ofList
  refine ⟨String.ofList (allowed ++ steps (k + 1)), ?_, ?_⟩
  · rw [htext]
    exact prefix_append _ _
  · rw [LeadsTo, htext, strip_append_steps, hroot]
    refine ⟨append_ne_nil_of_right_ne_nil _ (cons_ne_nil _ _), ?_, rfl⟩
    intro hmem
    rcases mem_append.mp hmem with hmem | hmem
    · exact hnul ((dropWhile_sublist _).subset hmem)
    · obtain ⟨up, hup, hmem⟩ := List.mem_flatten.mp hmem
      rw [eq_of_mem_replicate hup] at hmem
      revert hmem
      decide

/-- The checks agree on all calls just when there is no allow list, when it has the root, or when no
entry of it can be resolved. -/
theorem agrees_iff (python : Python) (fs : FileSystem) (context : ToolContext) :
    (∀ operation path, Agrees python fs context operation path) ↔
      context.pathAllowlist = [] ∨
        (∃ allowed ∈ context.pathAllowlist.takeWhile (nul ∉ ·), resolve fs allowed = []) ∨
        ∀ allowed ∈ context.pathAllowlist, nul ∈ allowed := by
  constructor
  · intro h
    by_cases hnone : context.pathAllowlist = []
    · exact .inl hnone
    right
    by_cases hall : ∀ allowed ∈ context.pathAllowlist, nul ∈ allowed
    · exact .inr hall
    left
    push Not at hall
    obtain ⟨allowed, hmem, hnul⟩ := hall
    obtain ⟨path, hpath, hroot⟩ := exists_path_to_root fs hnul
    have hinside := (h .read path).inside
      ((passes_iff .read path).mpr (.inr ⟨allowed, hmem, hpath⟩)) [] hroot
    have hplace := allowed_of_execute hroot ((h .read path).runs [] hroot hinside)
    rw [pathAllowed, if_neg hnone, anyContains_eq_true_iff] at hplace
    obtain ⟨root, hfirst, hresolve⟩ := hplace
    exact ⟨root, hfirst, suffix_nil.mp hresolve⟩
  · rintro (hnone | ⟨root, hroot, hresolve⟩ | hall) operation path
    · exact ⟨fun _ _ _ => .inl hnone, fun place hleads _ =>
        execute_of_allowed hleads operation (if_pos hnone) fun _ => if_pos hnone⟩
    · have hnone : context.pathAllowlist ≠ [] := fun hnone => by
        rw [hnone] at hroot
        cases hroot
      have hallowed : ∀ place, pathAllowed fs context.pathAllowlist place = .ok true := by
        intro place
        rw [pathAllowed, if_neg hnone, anyContains_eq_true_iff]
        exact ⟨root, hroot, by rw [hresolve]; exact nil_suffix⟩
      refine ⟨fun _ place _ => .inr ⟨root, (takeWhile_sublist _).subset hroot, ?_, ?_⟩,
        fun place hleads _ => execute_of_allowed hleads operation (hallowed _) fun _ => hallowed _⟩
      · simpa using mem_takeWhile_imp hroot
      · rw [hresolve]
        exact nil_suffix
    · refine ⟨fun hpasses place hleads => ?_, fun place hleads hinside => ?_⟩
      · rcases (passes_iff operation path).mp hpasses with hnone | ⟨allowed, hmem, hpath⟩
        · exact .inl hnone
        · exact absurd (mem_strip (by decide) (hpath.subset (hall allowed hmem))) hleads.2.1
      · rcases hinside with hnone | ⟨allowed, hmem, hnul, -⟩
        · exact execute_of_allowed hleads operation (if_pos hnone) fun _ => if_pos hnone
        · exact absurd (hall allowed hmem) hnul

/-- A path that goes on from an allowed one without a slash. -/
theorem not_agrees_sibling : ¬ ∀ (python : Python) (fs : FileSystem) (context : ToolContext)
    (operation : FileOperation) (path : String), Agrees python fs context operation path := by
  intro h
  have hinside := (h (asciiPython []) plain { pathAllowlist := ["/allowed".toList] } .read
    "/allowed_evil/x").inside ((passes_iff _ _).mpr (.inr ⟨_, mem_cons_self, by decide⟩))
    ["x".toList, "allowed_evil".toList] ⟨by decide, by decide, by decide⟩
  rcases hinside with hnone | ⟨allowed, hallowed, -, hsuffix⟩
  · cases hnone
  · rw [mem_singleton.mp hallowed] at hsuffix
    revert hsuffix
    decide

end Lists

end Agent33.Tools.FileOps
