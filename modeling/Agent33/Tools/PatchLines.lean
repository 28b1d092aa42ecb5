import Agent33.Library.Lines
import Agent33.Tools.ApplyPatch

/-!
# The lines that an update touches

The blocks of an update are placed in the file one after another, and the rest of the file is
joined again from its lines. The lines outside the blocks come back as they were when each of
them ends with a newline of its own; every other line boundary is written as a newline.
-/

namespace Agent33.Tools.ApplyPatch

open Library Segments List Text

section Blocks

def PatchBlock.hunk (block : PatchBlock) : Hunk Text := ⟨block.oldLines, block.newLines⟩

theorem findBlockStart_eq_some {sourceLines oldLines : List Text} {cursor start : ℕ} :
    findBlockStart sourceLines oldLines cursor = some start ↔
      cursor ≤ start ∧ oldLines <+: sourceLines.drop start ∧
        ∀ i, cursor ≤ i → i < start → ¬ oldLines <+: sourceLines.drop i := by
  have hstands : ∀ i, ((sourceLines.drop i).take oldLines.length == oldLines) = true ↔
      oldLines <+: sourceLines.drop i := by
    intro i
    rw [beq_iff_eq, prefix_iff_eq_take, eq_comm]
  by_cases hold : oldLines = []
  · subst hold
    rw [findBlockStart, if_pos rfl, Option.some.injEq]
    constructor
    · rintro rfl
      exact ⟨Nat.le_refl _, nil_prefix, fun i hge hlt => absurd hge (by omega)⟩
    · rintro ⟨hle, -, hfirst⟩
      by_contra hne
      exact hfirst cursor (Nat.le_refl _) (by omega) nil_prefix
  · rw [findBlockStart, if_neg hold, find?_range'_eq_some, hstands, mem_range'_1]
    have hpos : 0 < oldLines.length := length_pos_iff.mpr hold
    constructor
    · rintro ⟨hhere, hrange, hbefore⟩
      refine ⟨hrange.1, hhere, fun i hge hlt hi => ?_⟩
      simpa [(hstands i).mpr hi] using hbefore i hge hlt
    · rintro ⟨hle, hhere, hfirst⟩
      have hlength := hhere.length_le
      rw [length_drop] at hlength
      refine ⟨hhere, ⟨hle, by omega⟩, fun i hge hlt => ?_⟩
      rw [Bool.not_eq_true', Bool.eq_false_iff, Ne, hstands]
      exact hfirst i hge hlt

theorem applyBlocksFrom_eq_ok {originalLines : List Text} {blocks : List PatchBlock}
    {cursor : ℕ} {resultLines result : List Text} :
    applyBlocksFrom originalLines blocks cursor resultLines = .ok result ↔
      ∃ starts, Hunk.Placed originalLines cursor (blocks.map PatchBlock.hunk) starts ∧
        result = resultLines ++
          Hunk.splice id id originalLines cursor (blocks.map PatchBlock.hunk) starts := by
  induction blocks generalizing cursor resultLines with
  | nil =>
    rw [applyBlocksFrom, Except.ok.injEq]
    constructor
    · rintro rfl
      exact ⟨[], .nil, by simp [Hunk.splice]⟩
    · rintro ⟨starts, hplaced, rfl⟩
      cases hplaced
      simp [Hunk.splice]
  | cons block rest ih =>
    rw [applyBlocksFrom]
    cases hfind : findBlockStart originalLines block.oldLines cursor with
    | none =>
      refine ⟨fun h => ?_, ?_⟩
      · cases h
      · rintro ⟨starts, hplaced, -⟩
        cases hplaced with
        | @cons _ start _ _ _ hle hstands hfirst _ =>
          have hsome : findBlockStart originalLines block.oldLines cursor = some start :=
            findBlockStart_eq_some.mpr ⟨hle, hstands, hfirst⟩
          rw [hsome] at hfind
          cases hfind
    | some start =>
      have hstart := findBlockStart_eq_some.mp hfind
      rw [ih]
      constructor
      · rintro ⟨starts, hplaced, rfl⟩
        refine ⟨start :: starts, .cons hstart.1 hstart.2.1 hstart.2.2 hplaced, ?_⟩
        simp [Hunk.splice, PatchBlock.hunk]
      · rintro ⟨starts, hplaced, rfl⟩
        cases hplaced with
        | @cons _ start' _ _ starts hle hstands hfirst hrest =>
          obtain rfl : start' = start := Option.some.inj <|
            (findBlockStart_eq_some.mpr ⟨hle, hstands, hfirst⟩).symm.trans hfind
          exact ⟨starts, hrest, by simp [Hunk.splice, PatchBlock.hunk]⟩

theorem PatchBlock.length_lines (block : PatchBlock) :
    block.oldLines.length + block.count .added =
      block.newLines.length + block.count .removed := by
  rw [oldLines, newLines, count, count]
  induction block.lines with
  | nil => rfl
  | cons line lines ih =>
    obtain ⟨kind, text⟩ := line
    cases kind <;> simp_all <;> omega

theorem length_blocks (blocks : List PatchBlock) :
    ((blocks.map PatchBlock.hunk).map (·.old.length)).sum + (blocks.map (·.count .added)).sum =
      ((blocks.map PatchBlock.hunk).map (·.new.length)).sum +
        (blocks.map (·.count .removed)).sum := by
  induction blocks with
  | nil => rfl
  | cons block blocks ih =>
    have hblock := block.length_lines
    simp only [map_cons, sum_cons, PatchBlock.hunk] at ih ⊢
    omega

end Blocks

section Parsed

def PatchBlock.Unbroken (block : PatchBlock) : Prop :=
  ∀ line ∈ block.lines, Segments.Unbroken line.2

theorem PatchBlock.Unbroken.newLines {block : PatchBlock} (h : block.Unbroken) :
    ∀ line ∈ block.newLines, Segments.Unbroken line := by
  intro line hline
  obtain ⟨marked, hmarked, rfl⟩ := mem_map.mp hline
  exact h marked (mem_of_mem_filter hmarked)

variable {changes : List PatchChange} {blocks : List PatchBlock}


theorem flushBlock_unbroken (hblocks : ∀ block ∈ blocks, block.Unbroken)
    (hcurrent : PatchBlock.Unbroken ⟨current⟩) :
    ∀ block ∈ flushBlock blocks current, block.Unbroken := by
  intro block hblock
  rw [flushBlock] at hblock
  split_ifs at hblock
  · exact hblocks block hblock
  · rcases mem_append.mp hblock with hblock | hblock
    · exact hblocks block hblock
    · rw [mem_singleton.mp hblock]
      exact hcurrent

theorem parseUpdateBlocks_unbroken
    (hlines : ∀ line ∈ lines, Segments.Unbroken line) (hblocks : ∀ block ∈ blocks, block.Unbroken)
    (hcurrent : PatchBlock.Unbroken ⟨current⟩)
    (h : parseUpdateBlocks lines blocks current = .ok result) :
    ∀ block ∈ result, block.Unbroken := by
  induction lines generalizing blocks current with
  | nil =>
    obtain rfl := Except.ok.inj h
    exact flushBlock_unbroken hblocks hcurrent
  | cons line rest ih =>
    have hrest : ∀ l ∈ rest, Segments.Unbroken l :=
      fun l hl => hlines l (mem_cons_of_mem line hl)
    rw [parseUpdateBlocks.eq_def] at h
    dsimp only at h
    split_ifs at h
    · exact ih hrest (flushBlock_unbroken hblocks hcurrent) (by simp [PatchBlock.Unbroken]) h
    · exact ih hrest hblocks hcurrent h
    · cases line with
      | nil => cases h
      | cons c text =>
        cases hkind : linePrefix c with
        | none => simp [hkind] at h
        | some kind =>
          simp only [hkind] at h
          refine ih hrest hblocks ?_ h
          intro marked hmarked
          rcases mem_append.mp hmarked with hmarked | hmarked
          · exact hcurrent marked hmarked
          · rw [mem_singleton.mp hmarked]
            exact fun d hd => hlines _ mem_cons_self d (mem_cons_of_mem c hd)

theorem sectionLines_subset : (sectionLines lines).1 ⊆ lines ∧ (sectionLines lines).2 ⊆ lines := by
  rw [sectionLines, span_eq_takeWhile_dropWhile]
  exact ⟨(takeWhile_sublist _).subset, (dropWhile_sublist _).subset⟩

theorem moveTarget_subset (lines : List Text) : (moveTarget lines).2 ⊆ lines := by
  cases lines with
  | nil => exact List.Subset.refl _
  | cons line rest =>
    rw [moveTarget]
    split_ifs
    · exact subset_cons_self line rest
    · exact List.Subset.refl _

def PatchChange.Unbroken (change : PatchChange) : Prop :=
  ∀ block ∈ change.blocks, block.Unbroken

theorem unbroken_concat (hchanges : ∀ change ∈ changes, change.Unbroken)
    (hchange : change.Unbroken) : ∀ later ∈ changes ++ [change], later.Unbroken := by
  intro later hlater
  rcases mem_append.mp hlater with hlater | hlater
  · exact hchanges later hlater
  · rw [mem_singleton.mp hlater]
    exact hchange

theorem parseSections_unbroken (fuel : ℕ) (hlines : ∀ line ∈ lines, Segments.Unbroken line)
    (hchanges : ∀ change ∈ changes, change.Unbroken)
    (h : parseSections fuel lines changes = .ok result) : ∀ change ∈ result, change.Unbroken := by
  induction fuel generalizing lines changes with
  | zero =>
    cases lines <;> (rw [← Except.ok.inj h]; exact hchanges)
  | succ fuel ih =>
    cases lines with
    | nil =>
      rw [← Except.ok.inj h]
      exact hchanges
    | cons header rest =>
      have hrest : ∀ l ∈ rest, Segments.Unbroken l :=
        fun l hl => hlines l (mem_cons_of_mem header hl)
      have hempty : ∀ (action : Action) (path : Text) (addLines : List Text),
          PatchChange.Unbroken { action := action, path := path, addLines := addLines } := by
        intro action path addLines block hblock
        cases hblock
      rw [parseSections] at h
      split_ifs at h
      · cases hadd : parseAddLines (sectionLines rest).1 with
        | error message => simp [hadd, bind, Except.bind] at h
        | ok addLines =>
          simp only [hadd, bind, Except.bind] at h
          exact ih (fun l hl => hrest l (sectionLines_subset.2 hl))
            (unbroken_concat hchanges (hempty _ _ _)) h
      · exact ih hrest (unbroken_concat hchanges (hempty _ _ _)) h
      · have hmove : ∀ l ∈ (moveTarget rest).2, Segments.Unbroken l :=
          fun l hl => hrest l (moveTarget_subset rest hl)
        cases hblocks : parseUpdateBlocks (sectionLines (moveTarget rest).2).1 [] [] with
        | error message => simp [hblocks, bind, Except.bind] at h
        | ok blocks =>
          simp only [hblocks, bind, Except.bind] at h
          refine ih (fun l hl => hmove l (sectionLines_subset.2 hl))
            (unbroken_concat hchanges ?_) h
          exact parseUpdateBlocks_unbroken (fun l hl => hmove l (sectionLines_subset.1 hl))
            (by simp) (by simp [PatchBlock.Unbroken]) hblocks

theorem parsePatch_unbroken {patchText : Text} (h : parsePatch patchText = .ok changes) :
    ∀ change ∈ changes, change.Unbroken := by
  rw [parsePatch] at h
  split_ifs at h
  cases hsections : parseSections (splitlines patchText).length
      (splitlines patchText).tail.dropLast [] with
  | error message => simp [hsections, bind, Except.bind] at h
  | ok parsed =>
    simp only [hsections, bind, Except.bind] at h
    split_ifs at h
    rw [← Except.ok.inj h]
    refine parseSections_unbroken _ (fun line hline => ?_) (by simp) hsections
    exact splitlines_unbroken (mem_of_mem_tail (mem_of_mem_dropLast hline))

end Parsed

section Updates

variable (file : Text) (blocks : List PatchBlock)

def MatchedAt (starts : List ℕ) : Prop :=
  Hunk.Placed (Text.splitlines file) 0 (blocks.map PatchBlock.hunk) starts

/-- The lines of a file outside the matched blocks, as they are, and the new lines of the blocks
in place of the old ones. -/
def pieces (starts : List ℕ) : List Piece :=
  Hunk.splice Segment.kept written (segments file) 0 (blocks.map PatchBlock.hunk) starts

def finalEnding (content : Text) : Text :=
  if content.getLast? = some '\n' then ['\n'] else []

/-- The planned content is the content of the file with each matched block replaced by its new
lines and every other character as it was, and the lines are counted right. -/
def TouchesOnlyBlocks (plan : PlannedChange) : Prop :=
  ∃ starts, MatchedAt file blocks starts ∧
    plan.afterContent =
      some (render (finalEnding (Text.universalNewlines file)) (pieces file blocks starts)) ∧
    (Text.splitlines (plan.afterContent.getD [])).length + plan.removedLines =
      (Text.splitlines file).length + plan.addedLines

/-- Every line outside the matched blocks ends with a newline, the last line of the new content
as the file does, and without a newline at the end the last line is not empty. -/
def KeepsEndings : Prop :=
  ∃ starts, MatchedAt file blocks starts ∧
    Segments.Plain (finalEnding (Text.universalNewlines file)) (pieces file blocks starts) ∧
    (finalEnding (Text.universalNewlines file) = [] →
      ((pieces file blocks starts).map Piece.line).getLast? ≠ some [])

variable {file : Text} {blocks : List PatchBlock}

theorem length_segments (file : Text) : (segments file).length = (splitlines file).length := by
  rw [← segments_line, length_map]

theorem pieces_line (starts : List ℕ) :
    (pieces file blocks starts).map Piece.line =
      Hunk.splice id id (splitlines file) 0 (blocks.map PatchBlock.hunk) starts := by
  rw [pieces, Hunk.map_splice, ← segments_line, Hunk.splice_map]
  rfl

theorem pieces_ended (h : MatchedAt file blocks starts) : Ended (pieces file blocks starts) where
  closed p hp := by
    rcases Hunk.mem_dropLast_splice (length_segments file) h (Nat.zero_le _) hp with
      ⟨s, hs, rfl⟩ | ⟨line, rfl⟩
    · intro hending
      exact segmentsFrom_closed [] file s hs (Option.some.inj hending)
    · intro hending
      cases hending
  newline p hp ending hending hhead := by
    rcases Hunk.mem_splice hp with ⟨s, hs, rfl⟩ | ⟨_, _, line, _, rfl⟩
    · obtain rfl : s.ending = ending := Option.some.inj hending
      exact segmentsFrom_newline [] file s hs hhead
    · cases hending

theorem pieces_unbroken (file : Text) (starts : List ℕ)
    (hblocks : ∀ block ∈ blocks, block.Unbroken) :
    ∀ line ∈ (pieces file blocks starts).map Piece.line, Segments.Unbroken line := by
  intro line hline
  obtain ⟨p, hp, rfl⟩ := mem_map.mp hline
  rcases Hunk.mem_splice hp with ⟨s, hs, rfl⟩ | ⟨hunk, hhunk, line, hline, rfl⟩
  · have hmem : s.line ∈ splitlines file := by
      rw [← segments_line]
      exact mem_map_of_mem hs
    exact splitlines_unbroken hmem
  · obtain ⟨block, hblock, rfl⟩ := mem_map.mp hhunk
    exact (hblocks block hblock).newLines line hline

theorem length_pieces (h : MatchedAt file blocks starts) :
    (pieces file blocks starts).length + (blocks.map (·.count .removed)).sum =
      (splitlines file).length + (blocks.map (·.count .added)).sum := by
  have hsplice := Hunk.length_splice Segment.kept written (length_segments file) h (Nat.zero_le _)
  have hcount := length_blocks blocks
  rw [pieces]
  omega

theorem applyBlocks_eq_ok {after : Text}
    (h : applyBlocks (universalNewlines file) blocks = .ok (after, added, removed)) :
    ∃ starts, MatchedAt file blocks starts ∧
      after = render (finalEnding (universalNewlines file))
        ((pieces file blocks starts).map fun p => written p.line) ∧
      added = (blocks.map (·.count .added)).sum ∧
      removed = (blocks.map (·.count .removed)).sum := by
  rw [applyBlocks, splitlines_universalNewlines] at h
  cases hlines : applyBlocksFrom (splitlines file) blocks 0 [] with
  | error fault => simp [hlines, bind, Except.bind] at h
  | ok resultLines =>
    obtain ⟨starts, hmatched, hresult⟩ := applyBlocksFrom_eq_ok.mp hlines
    rw [nil_append, ← pieces_line] at hresult
    simp only [hlines, bind, Except.bind, pure, Except.pure, Except.ok.injEq,
      Prod.mk.injEq] at h
    obtain ⟨rfl, rfl, rfl⟩ := h
    refine ⟨starts, hmatched, ?_, rfl, rfl⟩
    have hrender := render_written (finalEnding (universalNewlines file)) resultLines
    rw [hresult, map_map] at hrender
    refine Eq.trans ?_ hrender.symm
    rw [← hresult, finalEnding]
    by_cases hnil : resultLines = []
    · simp [hnil]
    · by_cases hnewline : (universalNewlines file).getLast? = some '\n' <;>
        simp [hnil, hnewline]

theorem planChange_update (hplan : planChange context change t = .ok plan)
    (hupdate : change.action = .update) (hfile : t.node plan.sourcePath = some (.file file)) :
    ∃ after, plan.afterContent = some after ∧
      applyBlocks (universalNewlines file) change.blocks =
        .ok (after, plan.addedLines, plan.removedLines) := by
  rw [planChange_eq] at hplan
  cases hpaths : changePaths context change with
  | error fault => simp [hpaths, Except.bind] at hplan
  | ok paths =>
    rw [hpaths] at hplan
    have hsource := (planAt_paths hplan).1
    rw [hsource] at hfile
    have hread : readFile paths.1 t = .ok (universalNewlines file) := by
      simp [readFile, FileTree.exists?, FileTree.isDir, FileTree.readText, hfile]
    simp only [Except.bind, planAt, hupdate, hread, bind] at hplan
    cases hblocks : applyBlocks (universalNewlines file) change.blocks with
    | error fault => simp [hblocks] at hplan
    | ok result =>
      simp only [hblocks] at hplan
      split_ifs at hplan
      obtain rfl := Except.ok.inj hplan
      exact ⟨result.1, rfl, rfl⟩

theorem written_iff (hmatched : MatchedAt file blocks starts)
    (hblocks : ∀ block ∈ blocks, block.Unbroken) {after : Text}
    (hafter : after = render (finalEnding (universalNewlines file))
      ((pieces file blocks starts).map fun p => written p.line)) :
    (after = render (finalEnding (universalNewlines file)) (pieces file blocks starts) ∧
        (splitlines after).length + (blocks.map (·.count .removed)).sum =
          (splitlines file).length + (blocks.map (·.count .added)).sum) ↔
      Segments.Plain (finalEnding (universalNewlines file)) (pieces file blocks starts) ∧
        (finalEnding (universalNewlines file) = [] →
          ((pieces file blocks starts).map Piece.line).getLast? ≠ some []) := by
  have hfinal : finalEnding (universalNewlines file) = [] ∨
      finalEnding (universalNewlines file) = ['\n'] := by
    rw [finalEnding]
    split_ifs <;> simp
  have hlines := length_splitlines_render hfinal (pieces_unbroken file starts hblocks)
  rw [map_map, length_map] at hlines
  have hlength := length_pieces hmatched
  rw [← render_eq_iff _ (pieces_ended hmatched), ← hlines, hafter, ← hlength,
    Nat.add_right_cancel_iff]
  exact and_congr_left' eq_comm

/-- An update touches nothing but its blocks exactly when the lines outside them end as lines
that are written anew. -/
theorem touchesOnlyBlocks_iff {context : ToolContext} {t : FileTree} {patchText : Text}
    {changes : List PatchChange} {change : PatchChange} {plan : PlannedChange}
    (hparse : parsePatch patchText = .ok changes) (hchange : change ∈ changes)
    (hupdate : change.action = .update) (hplan : planChange context change t = .ok plan)
    (hfile : t.node plan.sourcePath = some (.file file)) :
    TouchesOnlyBlocks file change.blocks plan ↔ KeepsEndings file change.blocks := by
  obtain ⟨after, hcontent, happly⟩ := planChange_update hplan hupdate hfile
  obtain ⟨starts, hmatched, hafter, hadded, hremoved⟩ := applyBlocks_eq_ok happly
  have hiff := written_iff hmatched (parsePatch_unbroken hparse change hchange) hafter
  rw [TouchesOnlyBlocks, KeepsEndings, hcontent, hadded, hremoved]
  constructor
  · rintro ⟨starts', hmatched', hbytes, hcount⟩
    obtain rfl := hmatched.unique hmatched'
    exact ⟨starts, hmatched, hiff.mp ⟨Option.some.inj hbytes, hcount⟩⟩
  · rintro ⟨starts', hmatched', hplain⟩
    obtain rfl := hmatched.unique hmatched'
    obtain ⟨hbytes, hcount⟩ := hiff.mpr hplain
    exact ⟨starts, hmatched, congrArg some hbytes, hcount⟩

/-- The patch that replaces the line `c` of a file. -/
def replaceC : Text := "*** Begin Patch\n*** Update File: f\n-c\n+d\n*** End Patch".toList

def treeWith (content : Text) : FileTree where
  node p :=
    if p = ["f", "work"] then some (.file content)
    else if p = ["work"] ∨ p = [] then some .dir
    else none
  node_root := rfl
  node_parent name p h := by
    by_cases hp : p = ["work"]
    · subst hp; rfl
    · by_cases hr : p = []
      · subst hr; rfl
      · simp [hp, hr] at h

def replacedWith (before after : Text) : PlannedChange where
  action := .update
  sourcePath := ["f", "work"]
  targetPath := ["f", "work"]
  beforeContent := some before
  afterContent := some after
  addedLines := 1
  removedLines := 1

theorem matchedAt_single (h : findBlockStart (splitlines file) block.oldLines 0 = some start) :
    MatchedAt file [block] [start] := by
  obtain ⟨hle, hstands, hfirst⟩ := findBlockStart_eq_some.mp h
  exact .cons hle hstands hfirst .nil

theorem touchesOnlyBlocks_plain :
    TouchesOnlyBlocks "a\nb\nc".toList (replaceLine 'c' 'd').blocks
      (replacedWith "a\nb\nc".toList "a\nb\nd".toList) := by
  have hparse : parsePatch replaceC = .ok [replaceLine 'c' 'd'] := by decide +kernel
  have hplan : planChange sampleContext (replaceLine 'c' 'd') (treeWith "a\nb\nc".toList) =
      .ok (replacedWith "a\nb\nc".toList "a\nb\nd".toList) := by decide +kernel
  refine (touchesOnlyBlocks_iff hparse mem_cons_self rfl hplan rfl).mpr ?_
  exact ⟨[2], matchedAt_single (by decide), by decide, by decide⟩

/-- The form feed outside the block becomes a newline. -/
theorem not_touchesOnlyBlocks_formFeed :
    parsePatch replaceC = .ok [replaceLine 'c' 'd'] ∧
      planChange sampleContext (replaceLine 'c' 'd') (treeWith "a\x0cb\nc\n".toList) =
        .ok (replacedWith "a\x0cb\nc\n".toList "a\nb\nd\n".toList) ∧
      ¬ TouchesOnlyBlocks "a\x0cb\nc\n".toList (replaceLine 'c' 'd').blocks
        (replacedWith "a\x0cb\nc\n".toList "a\nb\nd\n".toList) := by
  refine ⟨by decide +kernel, by decide +kernel, ?_⟩
  rintro ⟨starts, hmatched, hbytes, -⟩
  have hplace : MatchedAt "a\x0cb\nc\n".toList (replaceLine 'c' 'd').blocks [2] :=
    matchedAt_single (by decide)
  obtain rfl := hmatched.unique hplace
  exact absurd hbytes (by decide)

end Updates

end Agent33.Tools.ApplyPatch
