import Agent33.Library.History
import Agent33.Library.Marks
import Agent33.Tools.ApplyPatch

/-!
# The patch tool on a device that fails

The planning and the application of a patch where every operation of the file
system may fail, after it has done all, some or nothing of its work.
-/

namespace Agent33.Tools.FailingDisk

open Library Library.Hoare Library.Marks
open Tools.ApplyPatch (Fault PatchChange PlannedChange FsM buildOperationSummary parsePatch)

/-- How the device lets an operation down. A write that stops halfway has opened the
file and written `n` characters. A directory is then missing, and the `n` directories
right above it that were to be made with it. -/
inductive Failure
  | refused
  | halfway (n : ℕ)

/-- The tree, what the device does with the operations to come, and the files that
were opened for writing or removed. -/
structure Disk where
  tree : FileTree
  outcomes : List (Option Failure) := []
  changed : List Path := []

inductive DiskFault
  | raised (fault : Fault)
  | device

abbrev DiskM := EStateM DiskFault Disk

def Disk.failure (d : Disk) : Option Failure := d.outcomes.head?.join

def Disk.next (d : Disk) : Disk := { d with outcomes := d.outcomes.tail }

def Disk.put (d : Disk) (files : List Path) (tree : FileTree) : Disk :=
  { d with tree := tree, changed := files ++ d.changed }

def Disk.Touched (d : Disk) : Prop := d.changed ≠ []

instance : DecidablePred Disk.Touched := fun d => inferInstanceAs (Decidable (d.changed ≠ []))

section Operations

variable {α : Type}

def lift (result : Except Fault α) : DiskM α := fun d =>
  match result with
  | .ok a => .ok a d
  | .error fault => .error (.raised fault) d

def read (look : FileTree → Except OsError α) : DiskM α := fun d =>
  match d.failure with
  | some _ => .error .device d.next
  | none =>
    match look d.tree with
    | .ok a => .ok a d.next
    | .error e => .error (.raised (.os e)) d.next

def exists? (path : Path) : DiskM Bool := read fun t => .ok (t.exists? path)

def isDir (path : Path) : DiskM Bool := read fun t => .ok (t.isDir path)

def readText (path : Path) : DiskM Text := read fun t => t.readText path

def Failure.partOf (part : ℕ → FileTree → Except OsError FileTree) :
    Failure → FileTree → Option FileTree
  | .refused, _ => none
  | .halfway n, t => (part n t).toOption

def change (files : List Path) (op : FileTree → Except OsError FileTree)
    (part : Failure → FileTree → Option FileTree) : DiskM Unit := fun d =>
  match d.failure with
  | some failure =>
    match part failure d.tree with
    | some tree => .error .device (d.next.put files tree)
    | none => .error .device d.next
  | none =>
    match op d.tree with
    | .ok tree => .ok () (d.next.put files tree)
    | .error e => .error (.raised (.os e)) d.next

def mkdirParents (path : Path) : DiskM Unit :=
  change [] (ApplyPatch.mkdirParents path)
    (Failure.partOf fun n => ApplyPatch.mkdirParents (path.drop (n + 1)))

def writeText (path : Path) (content : Text) : DiskM Unit :=
  change [path] (·.writeText path content)
    (Failure.partOf fun n t => t.writeText path (content.take n))

def unlink (path : Path) : DiskM Unit := change [path] (·.unlink path) fun _ _ => none

end Operations

def readFile (path : Path) : DiskM Text := do
  if !(← exists? path) then
    throw (.raised (.patch ("Target file does not exist: " ++ path.str)))
  if ← isDir path then
    throw (.raised (.patch ("Patch target must be a file, not a directory: " ++ path.str)))
  readText path

def planAt (change : PatchChange) (source target : Path) : DiskM PlannedChange :=
  match change.action with
  | .add => do
    if ← exists? source then
      throw (.raised (.patch ("Cannot add file that already exists: " ++ source.str)))
    return {
      action := .add
      sourcePath := source
      targetPath := target
      beforeContent := none
      afterContent := some (Text.joinWith ['\n'] change.addLines)
      addedLines := change.addLines.length
      removedLines := 0 }
  | .delete => do
    let beforeContent ← readFile source
    return {
      action := .delete
      sourcePath := source
      targetPath := target
      beforeContent := some beforeContent
      afterContent := none
      addedLines := 0
      removedLines := (Text.splitlines beforeContent).length }
  | .update => do
    let beforeContent ← readFile source
    let (afterContent, addedLines, removedLines) ←
      lift (ApplyPatch.applyBlocks beforeContent change.blocks)
    if source ≠ target then
      if ← exists? target then
        throw (.raised (.patch ("Cannot move file onto existing path: " ++ target.str)))
    return {
      action := .update
      sourcePath := source
      targetPath := target
      beforeContent := some beforeContent
      afterContent := some afterContent
      addedLines := addedLines
      removedLines := removedLines }

def planChange (context : ApplyPatch.ToolContext) (change : PatchChange) : DiskM PlannedChange := do
  let source ← lift (ApplyPatch.resolvePath context change.path)
  let target ← lift (ApplyPatch.targetPath context change source)
  planAt change source target

def planChanges (context : ApplyPatch.ToolContext) : List PatchChange → DiskM (List PlannedChange)
  | [] => pure []
  | change :: rest => do
    let plan ← planChange context change
    let plans ← planChanges context rest
    return plan :: plans

def writeTarget (plan : PlannedChange) : DiskM Unit := do
  mkdirParents plan.targetPath.tail
  writeText plan.targetPath (plan.afterContent.getD [])

def removeSource (plan : PlannedChange) : DiskM Unit := do
  if ← exists? plan.sourcePath then
    unlink plan.sourcePath

def applyChange (plan : PlannedChange) : DiskM Unit :=
  match plan.action with
  | .add => writeTarget plan
  | .delete => unlink plan.sourcePath
  | .update => do
    writeTarget plan
    if plan.sourcePath ≠ plan.targetPath then
      removeSource plan

def applyChanges : List PlannedChange → DiskM Unit
  | [] => pure ()
  | plan :: rest => do
    applyChange plan
    applyChanges rest

structure MutationAuditStore where
  durable : Bool

variable (store : MutationAuditStore)

def MutationAuditStore.record : DiskM Unit :=
  if store.durable then read fun _ => .ok () else pure ()

def recordFailure (error : String) : DiskM ApplyPatch.ToolResult := do
  store.record
  return .fail error

def applyPatch (context : ApplyPatch.ToolContext) (dryRun : Bool)
    (patchText : Text) : DiskM ApplyPatch.ToolResult := do
  let changes ← lift ((parsePatch patchText).mapError .patch)
  let plans ← planChanges context changes
  if !dryRun then
    applyChanges plans
  store.record
  return .ok dryRun (if dryRun then "preview" else "applied") (plans.map buildOperationSummary)

def execute (context : ApplyPatch.ToolContext) (dryRun : Bool)
    (patchText : Text) : DiskM ApplyPatch.ToolResult := do
  if Text.strip patchText = [] then
    recordFailure store "Patch payload is required"
  else
    try
      applyPatch store context dryRun patchText
    catch
      | .raised (.patch message) => recordFailure store message
      | fault => throw fault

end Agent33.Tools.FailingDisk
