import Agent33.Library.FileTree

/-!
# The patch tool

The parser of patch texts, the planning of a change against the files as they
are, and the application of the plans. A patch is planned as a whole before its
first change is applied.
-/

namespace Agent33.Tools.ApplyPatch

open Library List EStateM

inductive LinePrefix
  | context
  | added
  | removed
  deriving DecidableEq

structure PatchBlock where
  lines : List (LinePrefix × Text)
  deriving DecidableEq

inductive Action
  | add
  | delete
  | update
  deriving DecidableEq

structure PatchChange where
  action : Action
  path : Text
  newPath : Option Text := none
  addLines : List Text := []
  blocks : List PatchBlock := []
  deriving DecidableEq

structure PlannedChange where
  action : Action
  sourcePath : Path
  targetPath : Path
  beforeContent : Option Text
  afterContent : Option Text
  addedLines : ℕ
  removedLines : ℕ
  deriving DecidableEq

/-- What planning and applying raise: a `PatchError`, which `execute` reports, or
an error of the operating system, which it lets through. -/
inductive Fault
  | patch (message : String)
  | os (error : OsError)
  deriving DecidableEq

/-- The parts of the context that the tool reads. Resolving a path against the
working directory follows links, which no patch creates or removes. -/
structure ToolContext where
  resolve : Text → Path
  baseDir : Path
  pathAllowlist : List Path := []
  requestedBy : String := ""
  tenantId : String := ""

section Parser

def beginPatch : Text := "*** Begin Patch".toList
def endPatch : Text := "*** End Patch".toList
def addFile : Text := "*** Add File: ".toList
def deleteFile : Text := "*** Delete File: ".toList
def updateFile : Text := "*** Update File: ".toList
def moveTo : Text := "*** Move to: ".toList
def endOfFile : Text := "*** End of File".toList
def sectionMark : Text := "*** ".toList
def hunkMark : Text := "@@".toList

def updateLineError : String := "Update File lines must start with ' ', '+', '-', or '@@'"

def linePrefix : Char → Option LinePrefix
  | ' ' => some .context
  | '+' => some .added
  | '-' => some .removed
  | _ => none

def flushBlock (blocks : List PatchBlock) (current : List (LinePrefix × Text)) : List PatchBlock :=
  if current = [] then blocks else blocks ++ [⟨current⟩]

def parseUpdateBlocks : List Text → List PatchBlock → List (LinePrefix × Text) →
    Except String (List PatchBlock)
  | [], blocks, current => .ok (flushBlock blocks current)
  | line :: rest, blocks, current =>
    if hunkMark.isPrefixOf line then parseUpdateBlocks rest (flushBlock blocks current) []
    else if line = endOfFile then parseUpdateBlocks rest blocks current
    else
      match line with
      | [] => .error updateLineError
      | c :: text =>
        match linePrefix c with
        | none => .error updateLineError
        | some kind => parseUpdateBlocks rest blocks (current ++ [(kind, text)])

def sectionLines (lines : List Text) : List Text × List Text :=
  lines.span fun line => !sectionMark.isPrefixOf line

def parseAddLines : List Text → Except String (List Text)
  | [] => .ok []
  | line :: rest =>
    match line with
    | '+' :: text => (parseAddLines rest).map (text :: ·)
    | _ => .error "Add File hunks may only contain '+' lines"

def headerPath (header line : Text) : Text := Text.strip (Text.removePrefix header line)

/-- The `Move to` line of an update, when there is one, and the rest. -/
def moveTarget : List Text → Option Text × List Text
  | line :: rest =>
    if moveTo.isPrefixOf line then (some (headerPath moveTo line), rest) else (none, line :: rest)
  | [] => (none, [])

def parseSections : ℕ → List Text → List PatchChange → Except String (List PatchChange)
  | _, [], changes => .ok changes
  | 0, _ :: _, changes => .ok changes
  | fuel + 1, header :: rest, changes =>
    if addFile.isPrefixOf header then do
      let (hunk, rest) := sectionLines rest
      let addLines ← parseAddLines hunk
      parseSections fuel rest
        (changes ++ [{ action := .add, path := headerPath addFile header, addLines := addLines }])
    else if deleteFile.isPrefixOf header then
      parseSections fuel rest
        (changes ++ [{ action := .delete, path := headerPath deleteFile header }])
    else if updateFile.isPrefixOf header then do
      let (newPath, rest) := moveTarget rest
      let (hunk, rest) := sectionLines rest
      let blocks ← parseUpdateBlocks hunk [] []
      parseSections fuel rest
        (changes ++ [{ action := .update, path := headerPath updateFile header,
                       newPath := newPath, blocks := blocks }])
    else .error ("Unsupported patch header: " ++ String.ofList header)

def parsePatch (patchText : Text) : Except String (List PatchChange) :=
  let lines := Text.splitlines patchText
  if lines.head? ≠ some beginPatch then .error "Patch must start with '*** Begin Patch'"
  else if lines.getLast? ≠ some endPatch then .error "Patch must end with '*** End Patch'"
  else do
    let changes ← parseSections lines.length lines.tail.dropLast []
    if changes = [] then .error "Patch did not contain any file changes"
    else .ok changes

end Parser

def resolvePath (context : ToolContext) (rawPath : Text) : Except Fault Path :=
  if rawPath = [] then .error (.patch "Patch file path is required")
  else if Char.ofNat 0 ∈ rawPath then
    .error (.patch "Null bytes are not allowed in patch paths")
  else
    let resolved := context.resolve rawPath
    let roots := if context.pathAllowlist = [] then [context.baseDir] else context.pathAllowlist
    if roots.any fun root => root.isSuffixOf resolved then .ok resolved
    else .error (.patch ("Patch path escapes the allowed workspace: " ++ String.ofList rawPath))

def readFile (path : Path) (t : FileTree) : Except Fault Text :=
  if !t.exists? path then .error (.patch ("Target file does not exist: " ++ path.str))
  else if t.isDir path then
    .error (.patch ("Patch target must be a file, not a directory: " ++ path.str))
  else
    match t.readText path with
    | .ok content => .ok content
    | .error e => .error (.os e)

/-- The first position from `cursor` on at which the old lines stand. -/
def findBlockStart (sourceLines oldLines : List Text) (cursor : ℕ) : Option ℕ :=
  if oldLines = [] then some cursor
  else
    let limit := sourceLines.length + 1 - oldLines.length
    (List.range' cursor (limit - cursor)).find? fun index =>
      (sourceLines.drop index).take oldLines.length == oldLines

def PatchBlock.oldLines (block : PatchBlock) : List Text :=
  (block.lines.filter fun line => line.1 != .added).map Prod.snd

def PatchBlock.newLines (block : PatchBlock) : List Text :=
  (block.lines.filter fun line => line.1 != .removed).map Prod.snd

def PatchBlock.count (block : PatchBlock) (kind : LinePrefix) : ℕ :=
  block.lines.countP fun line => line.1 == kind

/-- The loop of `_apply_blocks`: the cursor and the lines written so far. -/
def applyBlocksFrom (originalLines : List Text) :
    List PatchBlock → ℕ → List Text → Except Fault (List Text)
  | [], cursor, resultLines => .ok (resultLines ++ originalLines.drop cursor)
  | block :: rest, cursor, resultLines =>
    match findBlockStart originalLines block.oldLines cursor with
    | none => .error (.patch "Patch context did not match the current file contents")
    | some start =>
      applyBlocksFrom originalLines rest (start + block.oldLines.length)
        (resultLines ++ (originalLines.drop cursor).take (start - cursor) ++ block.newLines)

def applyBlocks (beforeContent : Text) (blocks : List PatchBlock) :
    Except Fault (Text × ℕ × ℕ) := do
  let resultLines ← applyBlocksFrom (Text.splitlines beforeContent) blocks 0 []
  let trailingNewline := beforeContent.getLast? == some '\n'
  let afterContent := Text.joinWith ['\n'] resultLines
  return (if trailingNewline && resultLines ≠ [] then afterContent ++ ['\n'] else afterContent,
    (blocks.map (·.count .added)).sum, (blocks.map (·.count .removed)).sum)

def targetPath (context : ToolContext) (change : PatchChange) (sourcePath : Path) :
    Except Fault Path :=
  match change.newPath with
  | none => .ok sourcePath
  | some [] => .ok sourcePath
  | some newPath => resolvePath context newPath

def planAt (change : PatchChange) (source target : Path) (t : FileTree) :
    Except Fault PlannedChange :=
  match change.action with
  | .add =>
    if t.exists? source then
      .error (.patch ("Cannot add file that already exists: " ++ source.str))
    else
      .ok {
        action := .add
        sourcePath := source
        targetPath := target
        beforeContent := none
        afterContent := some (Text.joinWith ['\n'] change.addLines)
        addedLines := change.addLines.length
        removedLines := 0 }
  | .delete => do
    let beforeContent ← readFile source t
    return {
      action := .delete
      sourcePath := source
      targetPath := target
      beforeContent := some beforeContent
      afterContent := none
      addedLines := 0
      removedLines := (Text.splitlines beforeContent).length }
  | .update => do
    let beforeContent ← readFile source t
    let (afterContent, addedLines, removedLines) ← applyBlocks beforeContent change.blocks
    if source ≠ target ∧ t.exists? target then
      throw (.patch ("Cannot move file onto existing path: " ++ target.str))
    return {
      action := .update
      sourcePath := source
      targetPath := target
      beforeContent := some beforeContent
      afterContent := some afterContent
      addedLines := addedLines
      removedLines := removedLines }

def planChange (context : ToolContext) (change : PatchChange) (t : FileTree) :
    Except Fault PlannedChange := do
  let source ← resolvePath context change.path
  let target ← targetPath context change source
  planAt change source target t

abbrev FsM := EStateM Fault FileTree

def liftOs (op : FileTree → Except OsError FileTree) : FsM Unit := fun t =>
  match op t with
  | .ok t => .ok () t
  | .error e => .error (.os e) t

def mkdirParents (path : Path) (t : FileTree) : Except OsError FileTree :=
  (FileTree.mkdirParents path t).map Subtype.val

def writeTarget (plan : PlannedChange) : FsM Unit := do
  liftOs (mkdirParents plan.targetPath.tail)
  liftOs (·.writeText plan.targetPath (plan.afterContent.getD []))

def applyChange (plan : PlannedChange) : FsM Unit :=
  match plan.action with
  | .add => writeTarget plan
  | .delete => liftOs (·.unlink plan.sourcePath)
  | .update => do
    writeTarget plan
    if plan.sourcePath ≠ plan.targetPath ∧ (← get).exists? plan.sourcePath then
      liftOs (·.unlink plan.sourcePath)

def planChanges (context : ToolContext) (t : FileTree) :
    List PatchChange → Except Fault (List PlannedChange)
  | [] => .ok []
  | change :: rest => do
    let plan ← planChange context change t
    let plans ← planChanges context t rest
    return plan :: plans

def applyChanges : List PlannedChange → FsM Unit
  | [] => pure ()
  | plan :: rest => do
    applyChange plan
    applyChanges rest

/-- A parsed patch: every change is planned against the tree as it stands, and the
plans are applied one after another. -/
def runPatch (context : ToolContext) (dryRun : Bool) (changes : List PatchChange) :
    FsM (List PlannedChange) := do
  match planChanges context (← get) changes with
  | .error fault => throw fault
  | .ok plans =>
    if !dryRun then applyChanges plans
    return plans

structure OperationSummary where
  action : Action
  path : String
  newPath : String
  addedLines : ℕ
  removedLines : ℕ

def buildOperationSummary (plan : PlannedChange) : OperationSummary where
  action := plan.action
  path := plan.sourcePath.str
  newPath := if plan.sourcePath = plan.targetPath then "" else plan.targetPath.str
  addedLines := plan.addedLines
  removedLines := plan.removedLines

/-- The answer of the tool, with the payload that `ToolResult.ok` serialises. -/
inductive ToolResult
  | ok (dryRun : Bool) (status : String) (operations : List OperationSummary)
  | fail (error : String)

def execute (context : ToolContext) (dryRun : Bool) (patchText : Text) : FsM ToolResult := do
  if Text.strip patchText = [] then return .fail "Patch payload is required"
  match parsePatch patchText with
  | .error message => return .fail message
  | .ok changes =>
    match (runPatch context dryRun changes).run (← get) with
    | .ok plans t =>
      set t
      return .ok dryRun (if dryRun then "preview" else "applied") (plans.map buildOperationSummary)
    | .error (.patch message) t =>
      set t
      return .fail message
    | .error (.os e) t =>
      set t
      throw (.os e)

section Composition

variable (context : ToolContext)

def runSingle (change : PatchChange) (t : FileTree) : Option FileTree :=
  match (runPatch context false [change]).run t with
  | .ok _ t => some t
  | .error _ _ => none

def runOneByOne : List PatchChange → FileTree → Option FileTree
  | [], t => some t
  | change :: rest, t => (runSingle context change t).bind (runOneByOne rest)

variable (changes : List PatchChange)

def Composes (t : FileTree) : Prop :=
  ∀ t', (∃ plans, (runPatch context false changes).run t = .ok plans t') ↔
    runOneByOne context changes t = some t'

def PlannedChange.effect (plan : PlannedChange) : Action × Path × Path × Option Text :=
  (plan.action, plan.sourcePath, plan.targetPath, plan.afterContent)

def SamePlan : Except Fault PlannedChange → Except Fault PlannedChange → Prop
  | .ok plan, .ok plan' => plan.effect = plan'.effect
  | .error _, .error _ => True
  | _, _ => False

def PlannedFresh (first : FileTree) : List PatchChange → FileTree → Prop
  | [], _ => True
  | change :: rest, t =>
    SamePlan (planChange context change t) (planChange context change first) ∧
      ∀ t', runSingle context change t = some t' → PlannedFresh first rest t'

variable {context}

variable {t t' : FileTree} {q : Path} {change : PatchChange}

theorem applyChange_congr (h : plan.effect = plan'.effect) :
    applyChange plan = applyChange plan' := by
  simp only [PlannedChange.effect, Prod.mk.injEq] at h
  obtain ⟨hact, hsource, htarget, hafter⟩ := h
  simp only [applyChange, writeTarget, hact, hsource, htarget, hafter]

theorem runPatch_ok {changes : List PatchChange} :
    (∃ plans, (runPatch context false changes).run t = .ok plans t') ↔
      ∃ plans, planChanges context t changes = .ok plans ∧
        (applyChanges plans).run t = .ok () t' := by
  simp only [runPatch, run_bind, run_get]
  cases hplans : planChanges context t changes with
  | error fault =>
    constructor
    · rintro ⟨plans, h⟩
      cases h
    · rintro ⟨plans, h, _⟩
      cases h
  | ok plans =>
    simp only [Bool.not_false, if_true, run_bind, Except.ok.injEq, exists_eq_left']
    cases happly : (applyChanges plans).run t with
    | ok _ t₁ => simp
    | error e t₁ => simp

theorem planChanges_cons {rest : List PatchChange} {plans : List PlannedChange} :
    planChanges context t (change :: rest) = .ok plans ↔
      ∃ plan plans', planChange context change t = .ok plan ∧
        planChanges context t rest = .ok plans' ∧ plans = plan :: plans' := by
  rw [planChanges]
  cases planChange context change t with
  | error fault => simp [bind, Except.bind]
  | ok plan =>
    cases planChanges context t rest with
    | error fault => simp [bind, Except.bind]
    | ok plans' => simp [bind, Except.bind, pure, Except.pure, eq_comm]

theorem applyChanges_cons {rest : List PlannedChange} :
    (applyChanges (plan :: rest)).run t = .ok () t' ↔
      ∃ t₁, (applyChange plan).run t = .ok () t₁ ∧ (applyChanges rest).run t₁ = .ok () t' := by
  rw [applyChanges, run_bind]
  cases (applyChange plan).run t <;> simp

theorem runSingle_eq_some : runSingle context change t = some t' ↔
      ∃ plan, planChange context change t = .ok plan ∧ (applyChange plan).run t = .ok () t' := by
  have hrun : runSingle context change t = some t' ↔
      ∃ plans, (runPatch context false [change]).run t = .ok plans t' := by
    rw [runSingle]
    cases (runPatch context false [change]).run t <;> simp
  rw [hrun, runPatch_ok]
  constructor
  · rintro ⟨plans, hplans, happly⟩
    obtain ⟨plan, plans', hplan, hnil, rfl⟩ := planChanges_cons.mp hplans
    obtain rfl : [] = plans' := Except.ok.inj hnil
    obtain ⟨t₁, h₁, h₂⟩ := applyChanges_cons.mp happly
    cases h₂
    exact ⟨plan, hplan, h₁⟩
  · rintro ⟨plan, hplan, happly⟩
    exact ⟨[plan], planChanges_cons.mpr ⟨plan, [], hplan, rfl, rfl⟩,
      applyChanges_cons.mpr ⟨t', happly, rfl⟩⟩

theorem SamePlan.exists_apply (h : SamePlan r r') :
    (∃ plan, r = .ok plan ∧ (applyChange plan).run t = .ok () t') ↔
      ∃ plan, r' = .ok plan ∧ (applyChange plan).run t = .ok () t' := by
  cases r with
  | error fault => cases r' <;> simp_all [SamePlan]
  | ok plan =>
    cases r' with
    | error fault => simp [SamePlan] at h
    | ok plan' => simp [applyChange_congr (show plan.effect = plan'.effect from h)]

theorem runOneByOne_of_plannedFresh (h : PlannedFresh context first changes t) (t' : FileTree) :
    (∃ plans, planChanges context first changes = .ok plans ∧
        (applyChanges plans).run t = .ok () t') ↔ runOneByOne context changes t = some t' := by
  induction changes generalizing t with
  | nil => simp [planChanges, applyChanges, runOneByOne]
  | cons change rest ih =>
    obtain ⟨hsame, hrest⟩ := h
    rw [runOneByOne, Option.bind_eq_some_iff]
    constructor
    · rintro ⟨plans, hplans, happly⟩
      obtain ⟨plan, plans', hplan, hplans', rfl⟩ := planChanges_cons.mp hplans
      obtain ⟨t₁, h₁, h₂⟩ := applyChanges_cons.mp happly
      have hsingle := runSingle_eq_some.mpr (hsame.exists_apply.mpr ⟨plan, hplan, h₁⟩)
      exact ⟨t₁, hsingle, (ih (hrest t₁ hsingle)).mp ⟨plans', hplans', h₂⟩⟩
    · rintro ⟨t₁, hsingle, hlater⟩
      obtain ⟨plan, hplan, h₁⟩ := hsame.exists_apply.mp (runSingle_eq_some.mp hsingle)
      obtain ⟨plans, hplans, h₂⟩ := (ih (hrest t₁ hsingle)).mpr hlater
      exact ⟨plan :: plans, planChanges_cons.mpr ⟨plan, plans, hplan, hplans, rfl⟩,
        applyChanges_cons.mpr ⟨t₁, h₁, h₂⟩⟩

theorem composes_of_plannedFresh (t : FileTree)
    (h : PlannedFresh context t changes t) : Composes context changes t := by
  intro t'
  rw [runPatch_ok]
  exact runOneByOne_of_plannedFresh changes h t'

theorem liftOs_ok {op : FileTree → Except OsError FileTree} :
    (liftOs op).run t = .ok () t' ↔ op t = .ok t' := by
  rw [EStateM.run, liftOs]
  cases op t <;> simp

theorem mkdirParents_node (h : mkdirParents path t = .ok t') (hq : ¬ q <:+ path) :
    t'.node q = t.node q := by
  rw [mkdirParents] at h
  cases hmk : FileTree.mkdirParents path t with
  | error e => simp [hmk, Except.map] at h
  | ok made =>
    obtain rfl : made.1 = t' := by simpa [hmk, Except.map] using h
    exact made.2.2 q (.inr hq)

theorem writeTarget_node (h : (writeTarget plan).run t = .ok () t') (hq : ¬ q <:+ plan.targetPath) :
    t'.node q = t.node q := by
  rw [writeTarget, run_bind] at h
  cases hmk : (liftOs (mkdirParents plan.targetPath.tail)).run t with
  | error e t₁ => simp [hmk] at h
  | ok _ t₁ =>
    rw [hmk] at h
    have hne : q ≠ plan.targetPath := fun heq => hq (heq ▸ suffix_rfl)
    rw [FileTree.writeText_node (liftOs_ok.mp h), if_neg hne]
    exact mkdirParents_node (liftOs_ok.mp hmk) fun hs => hq (hs.trans (tail_suffix _))

theorem applyChange_node (h : (applyChange plan).run t = .ok () t') (hsource : q ≠ plan.sourcePath)
    (htarget : ¬ q <:+ plan.targetPath) : t'.node q = t.node q := by
  rw [applyChange] at h
  cases hact : plan.action with
  | add =>
    rw [hact] at h
    exact writeTarget_node h htarget
  | delete =>
    rw [hact] at h
    rw [FileTree.unlink_node (liftOs_ok.mp h), if_neg hsource]
  | update =>
    rw [hact] at h
    simp only [run_bind, run_get] at h
    cases hwrite : (writeTarget plan).run t with
    | error e t₁ => simp [hwrite] at h
    | ok _ t₁ =>
      rw [← writeTarget_node hwrite htarget]
      simp only [hwrite] at h
      split_ifs at h
      · rw [FileTree.unlink_node (liftOs_ok.mp h), if_neg hsource]
      · cases h
        rfl

theorem readFile_congr (h : t.node path = t'.node path) : readFile path t = readFile path t' := by
  rw [readFile, readFile, FileTree.exists?_congr h, FileTree.isDir_congr h,
    FileTree.readText_congr h]

theorem planAt_congr (change : PatchChange)
    (hsource : t.node source = t'.node source) (htarget : t.node target = t'.node target) :
    planAt change source target t = planAt change source target t' := by
  rw [planAt, planAt, readFile_congr hsource, FileTree.exists?_congr hsource,
    FileTree.exists?_congr htarget]

variable (context)

def changePaths (change : PatchChange) : Except Fault (Path × Path) := do
  let source ← resolvePath context change.path
  let target ← targetPath context change source
  return (source, target)

/-- Nothing that the second change reads is the source or the target of the first
one, or a directory above its target. -/
def Separate (first second : PatchChange) : Prop :=
  ∀ source target, changePaths context first = .ok (source, target) →
    ∀ source' target', changePaths context second = .ok (source', target') →
      ∀ q, q = source' ∨ q = target' → q ≠ source ∧ ¬ q <:+ target

variable {context}

theorem planChange_eq (change : PatchChange) (t : FileTree) :
    planChange context change t =
      (changePaths context change).bind fun paths => planAt change paths.1 paths.2 t := by
  rw [planChange, changePaths]
  cases resolvePath context change.path with
  | error fault => rfl
  | ok source =>
    cases htarget : targetPath context change source <;>
      simp [bind, Except.bind, htarget, pure, Except.pure]

theorem planAt_paths (h : planAt change source target t = .ok plan) :
    plan.sourcePath = source ∧ plan.targetPath = target := by
  rw [planAt] at h
  cases hact : change.action with
  | add =>
    simp only [hact] at h
    split_ifs at h
    obtain rfl := Except.ok.inj h
    exact ⟨rfl, rfl⟩
  | delete =>
    simp only [hact] at h
    cases hread : readFile source t with
    | error fault => simp [hread, bind, Except.bind] at h
    | ok content =>
      rw [hread] at h
      obtain rfl := Except.ok.inj h
      exact ⟨rfl, rfl⟩
  | update =>
    simp only [hact] at h
    cases hread : readFile source t with
    | error fault => simp [hread, bind, Except.bind] at h
    | ok content =>
      cases hblocks : applyBlocks content change.blocks with
      | error fault => simp [hread, hblocks, bind, Except.bind] at h
      | ok after =>
        simp only [hread, hblocks, bind, Except.bind] at h
        split_ifs at h
        obtain rfl := Except.ok.inj h
        exact ⟨rfl, rfl⟩

theorem plannedFresh_of_separate (hsep : changes.Pairwise (Separate context))
    (hsame : ∀ change ∈ changes, ∀ source target,
      changePaths context change = .ok (source, target) →
        ∀ q, q = source ∨ q = target → t.node q = first.node q) :
    PlannedFresh context first changes t := by
  induction changes generalizing t with
  | nil => trivial
  | cons change rest ih =>
    rw [pairwise_cons] at hsep
    have heq : planChange context change t = planChange context change first := by
      rw [planChange_eq, planChange_eq]
      cases hpaths : changePaths context change with
      | error fault => rfl
      | ok paths =>
        have hnode := hsame change mem_cons_self paths.1 paths.2 hpaths
        exact planAt_congr change (hnode _ (.inl rfl)) (hnode _ (.inr rfl))
    refine ⟨?_, fun t' hsingle => ih hsep.2 ?_⟩
    · rw [heq]
      cases planChange context change first <;> simp [SamePlan]
    · intro later hlater source target hpaths q hq
      obtain ⟨plan, hplan, happly⟩ := runSingle_eq_some.mp hsingle
      rw [planChange_eq] at hplan
      cases hfirst : changePaths context change with
      | error fault => simp [hfirst, Except.bind] at hplan
      | ok paths =>
        rw [hfirst] at hplan
        obtain ⟨hsource, htarget⟩ := planAt_paths hplan
        obtain ⟨hne, habove⟩ :=
          hsep.1 later hlater paths.1 paths.2 hfirst source target hpaths q hq
        rw [applyChange_node happly (hsource ▸ hne) (htarget ▸ habove)]
        exact hsame later (mem_cons_of_mem _ hlater) source target hpaths q hq

def sampleTree : FileTree where
  node p :=
    if p = ["f", "work"] then some (.file "a\nb\n".toList)
    else if p = ["work"] ∨ p = [] then some .dir
    else none
  node_root := rfl
  node_parent name p h := by
    by_cases hp : p = ["work"]
    · subst hp; rfl
    · by_cases hr : p = []
      · subst hr; rfl
      · simp [hp, hr] at h

def sampleContext : ToolContext where
  resolve raw := [String.ofList raw, "work"]
  baseDir := ["work"]

def replaceLine (old new : Char) : PatchChange where
  action := .update
  path := ['f']
  blocks := [⟨[(.removed, [old]), (.added, [new])]⟩]

def addNotes : PatchChange where
  action := .add
  path := "notes".toList
  addLines := ["done".toList]

theorem separate_sample : [replaceLine 'a' 'A', addNotes].Pairwise (Separate sampleContext) := by
  refine pairwise_pair.mpr ?_
  intro source target hfirst source' target' hsecond q hq
  obtain ⟨rfl, rfl⟩ : ["f", "work"] = source ∧ ["f", "work"] = target := by
    simpa using (show (Except.ok (["f", "work"], ["f", "work"]) : Except Fault (Path × Path)) =
      .ok (source, target) from hfirst)
  obtain ⟨rfl, rfl⟩ : ["notes", "work"] = source' ∧ ["notes", "work"] = target' := by
    simpa using (show (Except.ok (["notes", "work"], ["notes", "work"]) :
      Except Fault (Path × Path)) = .ok (source', target') from hsecond)
  rw [or_self] at hq
  subst hq
  exact ⟨by decide, by decide⟩

theorem composes_of_plannedFresh_sample :
    Composes sampleContext [replaceLine 'a' 'A', addNotes] sampleTree :=
  composes_of_plannedFresh [replaceLine 'a' 'A', addNotes] sampleTree
    (plannedFresh_of_separate _ separate_sample fun _ _ _ _ _ _ _ => rfl)

def twoUpdates : Text :=
  ("*** Begin Patch\n*** Update File: f\n-a\n+A\n*** Update File: f\n-b\n+B\n" ++
    "*** End Patch").toList

/-- The second update is planned against the file as it was before the first one,
and writes it back without the first one's line. -/
theorem twoUpdates_not_composes :
    ∃ changes, parsePatch twoUpdates = .ok changes ∧
      ¬ Composes sampleContext changes sampleTree := by
  refine ⟨[replaceLine 'a' 'A', replaceLine 'b' 'B'], by decide +kernel, fun h => ?_⟩
  have hpatch : (match (runPatch sampleContext false
      [replaceLine 'a' 'A', replaceLine 'b' 'B']).run sampleTree with
      | .ok _ t => t.node ["f", "work"]
      | .error _ _ => none) = some (.file "a\nB\n".toList) := by decide +kernel
  have hone : (runOneByOne sampleContext [replaceLine 'a' 'A', replaceLine 'b' 'B']
      sampleTree).bind (·.node ["f", "work"]) = some (.file "A\nB\n".toList) := by
    decide +kernel
  cases hrun : (runPatch sampleContext false
      [replaceLine 'a' 'A', replaceLine 'b' 'B']).run sampleTree with
  | error e t => simp [hrun] at hpatch
  | ok plans t =>
    rw [hrun] at hpatch
    rw [(h t).mp ⟨plans, hrun⟩, Option.bind_some, show t.node ["f", "work"] = _ from hpatch] at hone
    exact absurd hone (by decide +kernel)

end Composition

end Agent33.Tools.ApplyPatch
