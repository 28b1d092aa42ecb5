import Agent33.Library.Words
import Agent33.Tools.ApplyPatch
import Agent33.Tools.Governance

/-!
# The resources that tools touch

The built-in tools up to the point at which they run a program, read or write a
file or contact a host, as functions of their parameters. What follows that
point happens in the world outside.
-/

namespace Agent33.Tools

open Library List
open Tools.Governance (hasSubshell commandSegments)

inductive Resource
  | command (name arguments : Text)
  | read (path : Text)
  | write (path : Text)
  | host (host : Text)
  deriving DecidableEq

structure Platform where
  /-- The path that a path leads to, from a directory or else the current one. -/
  resolve : Option Text → Text → Text
  /-- The tool is registered and its schema accepts the parameters. -/
  accepts : Text → Json → Bool

variable (python : Python) (platform : Platform) (context : ToolContext) (params : Json)

/-- `params.get(key, default)` as a string, none where its methods raise. -/
def textParam (key : String) (default : Text := []) : Option Text :=
  match params with
  | .obj fields =>
    match (Json.obj fields).field? key with
    | none => some default
    | some (.str s) => some s.toList
    | some _ => none
  | _ => none

def executables (command : Text) : Option (List Text) :=
  (((commandSegments command).map Text.strip).filter (· ≠ [])).foldr (fun segment names => do
    let names ← names
    let parts ← Shlex.split segment
    return parts.take 1 ++ names) (some [])

def firstWord (command : Text) : Text := (Text.words command).headD []

def argumentsText (command : Text) : Text :=
  Text.strip (command.drop (firstWord command).length)

/-- The program that `ShellTool.execute` runs. -/
def shellTouches : List Resource :=
  match (textParam params "command").map Text.strip with
  | none => []
  | some command =>
    if command = [] ∨ hasSubshell command = true then []
    else
      match executables command, Shlex.split command with
      | some (name :: names), some (program :: _) =>
        if context.commandAllowlist ≠ [] ∧
          ¬(∀ n ∈ name :: names, n ∈ context.commandAllowlist) then []
        else [.command program (argumentsText command)]
      | _, _ => []

/-- `path.relative_to(root)` for absolute paths in normal form. -/
def isWithin (path root : Text) : Bool :=
  decide (path = root) || (if root = ['/'] then root else root ++ ['/']).isPrefixOf path

def parentPath (path : Text) : Text :=
  let parent := ((path.reverse.dropWhile (· ≠ '/')).tail).reverse
  if parent = [] then ['/'] else parent

def pathAllowed (path : Text) : Bool :=
  context.pathAllowlist.isEmpty ||
    context.pathAllowlist.any fun allowed => isWithin path (platform.resolve none allowed)

/-- The path that `FileOpsTool.execute` opens. -/
def fileOpsTouches : List Resource :=
  match (textParam params "operation").map Text.strip, (textParam params "path").map Text.strip with
  | some operation, some rawPath =>
    if operation = [] ∨ rawPath = [] ∨ Char.ofNat 0 ∈ rawPath then []
    else
      let resolved := platform.resolve none rawPath
      if !pathAllowed platform context resolved then []
      else if operation = "read".toList ∨ operation = "list".toList then [.read resolved]
      else if operation = "write".toList ∧
          pathAllowed platform context (platform.resolve none (parentPath resolved)) = true ∧
          (textParam params "content").isSome = true then
        [.write resolved]
      else []
  | _, _ => []

/-- The host that `WebFetchTool.execute` contacts. -/
def webFetchTouches : List Resource :=
  match (textParam params "url").map Text.strip, textParam params "method" "GET".toList with
  | some url, some method =>
    if url = [] ∨ python.upper method ∉ ["GET".toList, "POST".toList] then []
    else
      match python.urlHostname url with
      | .error _ => []
      | .ok host =>
        let domain := host.getD []
        if context.domainAllowlist.any fun allowed =>
          decide (domain = allowed) || ('.' :: allowed).isSuffixOf domain then [.host domain]
        else []
  | _, _ => []

/-- The text of a patch, with `str()` around it. -/
def patchText : Option Text :=
  match params.getKey "patch" (.str ""), params with
  | .ok (.str s), _ => some s.toList
  | .ok patch, _ => some (python.str patch)
  | .error _, _ => none

def namedPaths (change : ApplyPatch.PatchChange) : List Text :=
  (change.path :: change.newPath.toList).filter (· ≠ [])

def dryRun : Bool :=
  match params.field? "dry_run" with
  | none => false
  | some value => value.truthy

/-- The paths that the patch of `ApplyPatchTool.execute` names; a dry run reads them. -/
def applyPatchTouches : List Resource :=
  match patchText python params with
  | none => []
  | some patch =>
    match ApplyPatch.parsePatch patch with
    | .error _ => []
    | .ok changes => (changes.flatMap namedPaths).map fun path =>
        (if dryRun params then Resource.read else Resource.write)
          (platform.resolve context.workingDir path)

def touches (toolName : Text) : List Resource :=
  if !platform.accepts toolName params then []
  else if toolName = "shell".toList then shellTouches context params
  else if toolName = "file_ops".toList then fileOpsTouches platform context params
  else if toolName = "web_fetch".toList then webFetchTouches python context params
  else if toolName = "apply_patch".toList then applyPatchTouches python platform context params
  else []

section Shapes

variable {python platform context params}

theorem mem_shellTouches (h : r ∈ shellTouches context params) :
    ∃ program text, r = .command program text := by
  unfold shellTouches at h
  split at h
  · cases h
  · split_ifs at h
    · cases h
    · split at h
      · split_ifs at h
        · cases h
        · exact ⟨_, _, mem_singleton.mp h⟩
      · cases h

theorem mem_fileOpsTouches (h : r ∈ fileOpsTouches platform context params) :
    ∃ path, r = .read path ∨ r = .write path := by
  unfold fileOpsTouches at h
  split at h
  · dsimp only at h
    split_ifs at h
    · cases h
    · cases h
    · exact ⟨_, .inl (mem_singleton.mp h)⟩
    · exact ⟨_, .inr (mem_singleton.mp h)⟩
    · cases h
  · cases h

theorem mem_webFetchTouches (h : r ∈ webFetchTouches python context params) :
    ∃ host, r = .host host := by
  unfold webFetchTouches at h
  split at h
  · split_ifs at h
    · cases h
    · split at h
      · cases h
      · dsimp only at h
        split_ifs at h
        · exact ⟨_, mem_singleton.mp h⟩
        · cases h
  · cases h

theorem mem_applyPatchTouches (h : r ∈ applyPatchTouches python platform context params) :
    ∃ path, r = .read path ∨ r = .write path := by
  unfold applyPatchTouches at h
  split at h
  · cases h
  · split at h
    · cases h
    · obtain ⟨path, -, rfl⟩ := mem_map.mp h
      split_ifs
      · exact ⟨_, .inl rfl⟩
      · exact ⟨_, .inr rfl⟩

theorem mem_touches_shell (h : r ∈ touches python platform context params "shell".toList) :
    ∃ program text, r = .command program text := by
  rw [touches, if_pos (show "shell".toList = "shell".toList from rfl)] at h
  split_ifs at h
  · cases h
  · exact mem_shellTouches h

theorem mem_touches_fileOps (h : r ∈ touches python platform context params "file_ops".toList) :
    ∃ path, r = .read path ∨ r = .write path := by
  rw [touches, if_neg (show ¬"file_ops".toList = "shell".toList by decide), if_pos rfl] at h
  split_ifs at h
  · cases h
  · exact mem_fileOpsTouches h

theorem mem_touches_webFetch (h : r ∈ touches python platform context params "web_fetch".toList) :
    ∃ host, r = .host host := by
  rw [touches, if_neg (show ¬"web_fetch".toList = "shell".toList by decide),
    if_neg (show ¬"web_fetch".toList = "file_ops".toList by decide), if_pos rfl] at h
  split_ifs at h
  · cases h
  · exact mem_webFetchTouches h

theorem mem_touches_applyPatch
    (h : r ∈ touches python platform context params "apply_patch".toList) :
    ∃ path, r = .read path ∨ r = .write path := by
  rw [touches, if_neg (show ¬"apply_patch".toList = "shell".toList by decide),
    if_neg (show ¬"apply_patch".toList = "file_ops".toList by decide),
    if_neg (show ¬"apply_patch".toList = "web_fetch".toList by decide), if_pos rfl] at h
  split_ifs at h
  · cases h
  · exact mem_applyPatchTouches h

theorem touches_other (hshell : toolName ≠ "shell".toList)
    (hfile : toolName ≠ "file_ops".toList) (hweb : toolName ≠ "web_fetch".toList)
    (hpatch : toolName ≠ "apply_patch".toList) :
    touches python platform context params toolName = [] := by
  rw [touches, if_neg hshell, if_neg hfile, if_neg hweb, if_neg hpatch, ite_self]

end Shapes

end Agent33.Tools
