import Agent33.Library.Lines
import Agent33.Tools.ApplyPatch
import Mathlib.Data.List.Forall2

/-!
# The grammar of patch texts

The parser accepts exactly the texts whose lines are those of the sections of the changes, between
the first and the last line of a patch. A printed patch is read back unless it has a line that
marks the end of a file.
-/

namespace Agent33.Tools.ApplyPatch

open Library List Option
open Segments (Unbroken)

section Grammar

def LinePrefix.char : LinePrefix → Char
  | .context => ' '
  | .added => '+'
  | .removed => '-'

def printLine (line : LinePrefix × Text) : Text := line.1.char :: line.2

inductive Groups : List Text → List (List (LinePrefix × Text)) → Prop
  | last (group : List (LinePrefix × Text)) : Groups (group.map printLine) [group]
  | heading (group : List (LinePrefix × Text)) {heading : Text}
      (hheading : hunkMark.isPrefixOf heading = true) {rest : List Text}
      {groups : List (List (LinePrefix × Text))} (hrest : Groups rest groups) :
      Groups (group.map printLine ++ heading :: rest) (group :: groups)

def blocksOf (groups : List (List (LinePrefix × Text))) : List PatchBlock :=
  (groups.filter (· ≠ [])).map PatchBlock.mk

inductive Derives : List Text → PatchChange → Prop
  | add {header : Text} (hheader : addFile.isPrefixOf header = true) (lines : List Text) :
      Derives (header :: lines.map ('+' :: ·))
        { action := .add, path := headerPath addFile header, addLines := lines }
  | delete {header : Text} (hheader : deleteFile.isPrefixOf header = true) :
      Derives [header] { action := .delete, path := headerPath deleteFile header }
  | update {header : Text} (hheader : updateFile.isPrefixOf header = true) {move : Option Text}
      (hmove : ∀ line ∈ move, moveTo.isPrefixOf line = true) {lines : List Text}
      {groups : List (List (LinePrefix × Text))} (hlines : Groups lines groups) :
      Derives (header :: (move.toList ++ lines))
        { action := .update, path := headerPath updateFile header,
          newPath := move.map (headerPath moveTo), blocks := blocksOf groups }

def Accounted (patchText : Text) (changes : List PatchChange) : Prop :=
  changes ≠ [] ∧ ∃ sections : List (List Text), List.Forall₂ Derives sections changes ∧
    Text.splitlines patchText = beginPatch :: (sections.flatten ++ [endPatch])

theorem linePrefix_eq_some {c : Char} {kind : LinePrefix} :
    linePrefix c = some kind ↔ c = kind.char := by
  constructor
  · intro h
    rw [linePrefix.eq_def] at h
    split at h <;> cases h <;> rfl
  · rintro rfl
    cases kind <;> rfl

def Marked (line : Text) : Prop := sectionMark.isPrefixOf line = true

theorem not_marked_printLine (line : LinePrefix × Text) : ¬ Marked (printLine line) := by
  obtain ⟨kind, text⟩ := line
  cases kind <;> simp [Marked, printLine, sectionMark, LinePrefix.char]

theorem not_marked_heading (h : hunkMark.isPrefixOf heading = true) : ¬ Marked heading := by
  obtain ⟨text, rfl⟩ := isPrefixOf_iff_prefix.mp h
  simp [Marked, hunkMark, sectionMark]

theorem Groups.not_marked (h : Groups lines groups) : ∀ line ∈ lines, ¬ Marked line := by
  have hgroup : ∀ group : List (LinePrefix × Text), ∀ line ∈ group.map printLine,
      ¬ Marked line := by
    intro group line hline
    obtain ⟨line, -, rfl⟩ := List.mem_map.mp hline
    exact not_marked_printLine line
  induction h with
  | last group => exact hgroup group
  | heading group hheading _ ih =>
    intro line hline
    rcases mem_append.mp hline with hline | hline
    · exact hgroup group line hline
    · rcases mem_cons.mp hline with rfl | hline
      · exact not_marked_heading hheading
      · exact ih line hline

theorem LinePrefix.char_injective : Function.Injective LinePrefix.char := by
  intro kind kind' h
  cases kind <;> cases kind' <;> first | rfl | exact absurd h (by decide)

theorem printLine_injective : Function.Injective printLine := by
  rintro ⟨kind, text⟩ ⟨kind', text'⟩ h
  obtain ⟨hkind, rfl⟩ := cons.inj h
  obtain rfl : kind = kind' := LinePrefix.char_injective hkind
  rfl

theorem not_heading_printLine (line : LinePrefix × Text) :
    hunkMark.isPrefixOf (printLine line) = false := by
  obtain ⟨kind, text⟩ := line
  cases kind <;> rfl

theorem groups_nil : Groups [] groups ↔ groups = [[]] := by
  constructor
  · intro h
    generalize hlines : ([] : List Text) = lines at h
    cases h with
    | last group => rw [map_eq_nil_iff.mp hlines.symm]
    | heading group hheading hrest => simp at hlines
  · rintro rfl
    exact .last []

theorem groups_heading (hheading : hunkMark.isPrefixOf heading = true) :
    Groups (heading :: rest) groups ↔ ∃ later, groups = [] :: later ∧ Groups rest later := by
  constructor
  · intro h
    have hline : ∀ line : LinePrefix × Text, heading ≠ printLine line := by
      rintro line rfl
      rw [not_heading_printLine] at hheading
      exact Bool.false_ne_true hheading
    generalize hlines : heading :: rest = lines at h
    cases h with
    | last group =>
      cases group with
      | nil => simp at hlines
      | cons line group => exact absurd (cons.inj hlines).1 (hline line)
    | heading group hheading' hrest =>
      cases group with
      | nil =>
        obtain ⟨rfl, rfl⟩ := cons.inj hlines
        exact ⟨_, rfl, hrest⟩
      | cons line group => exact absurd (cons.inj hlines).1 (hline line)
  · rintro ⟨later, rfl, hrest⟩
    exact .heading [] hheading hrest

theorem groups_line {line : LinePrefix × Text} : Groups (printLine line :: rest) groups ↔
      ∃ group later, groups = (line :: group) :: later ∧ Groups rest (group :: later) := by
  constructor
  · intro h
    generalize hlines : printLine line :: rest = lines at h
    cases h with
    | last group =>
      cases group with
      | nil => simp at hlines
      | cons first group =>
        obtain ⟨hfirst, rfl⟩ := cons.inj hlines
        exact ⟨group, [], by rw [printLine_injective hfirst], .last group⟩
    | heading group hheading hrest =>
      cases group with
      | nil =>
        rw [← (cons.inj hlines).1, not_heading_printLine] at hheading
        exact absurd hheading Bool.false_ne_true
      | cons first group =>
        obtain ⟨hfirst, rfl⟩ := cons.inj hlines
        exact ⟨group, _, by rw [printLine_injective hfirst], .heading group hheading hrest⟩
  · rintro ⟨group, later, rfl, hrest⟩
    generalize hgroups : group :: later = groups at hrest
    cases hrest with
    | last group' =>
      obtain ⟨rfl, rfl⟩ := cons.inj hgroups
      exact .last (line :: group)
    | heading group' hheading hrest =>
      obtain ⟨rfl, rfl⟩ := cons.inj hgroups
      exact .heading (line :: group) hheading hrest

theorem Groups.exists_cons (h : Groups lines groups) : ∃ group later, groups = group :: later := by
  cases h with
  | last group => exact ⟨_, _, rfl⟩
  | heading group hheading hrest => exact ⟨_, _, rfl⟩

theorem Groups.line_cases (h : Groups (line :: rest) groups) :
    hunkMark.isPrefixOf line = true ∨ ∃ printed, line = printLine printed := by
  generalize hlines : line :: rest = lines at h
  cases h with
  | last group =>
    cases group with
    | nil => simp at hlines
    | cons first group => exact .inr ⟨first, (cons.inj hlines).1⟩
  | heading group hheading hrest =>
    cases group with
    | nil => exact .inl ((cons.inj hlines).1 ▸ hheading)
    | cons first group => exact .inr ⟨first, (cons.inj hlines).1⟩

theorem flushBlock_eq (blocks : List PatchBlock) (current : List (LinePrefix × Text)) :
    flushBlock blocks current = blocks ++ blocksOf [current] := by
  rw [flushBlock]
  split_ifs with h <;> simp [blocksOf, h]

theorem blocksOf_cons (group : List (LinePrefix × Text))
    (groups : List (List (LinePrefix × Text))) :
    blocksOf (group :: groups) = blocksOf [group] ++ blocksOf groups := by
  by_cases h : group = [] <;> simp [blocksOf, h]

theorem parseUpdateBlocks_iff (hlines : ∀ line ∈ lines, ¬ Marked line) :
    parseUpdateBlocks lines blocks current = .ok result ↔ ∃ group groups,
      Groups lines (group :: groups) ∧
        result = blocks ++ blocksOf ((current ++ group) :: groups) := by
  induction lines generalizing blocks current with
  | nil =>
    simp only [parseUpdateBlocks, Except.ok.injEq, flushBlock_eq, groups_nil]
    grind
  | cons line rest ih =>
    have hrest : ∀ l ∈ rest, ¬ Marked l := fun l hl => hlines l (mem_cons_of_mem line hl)
    rw [parseUpdateBlocks.eq_def]
    dsimp only
    split_ifs with hheading hend
    · rw [ih hrest, flushBlock_eq]
      simp only [groups_heading hheading]
      constructor
      · rintro ⟨group, groups, hgroups, rfl⟩
        refine ⟨[], group :: groups, ⟨_, rfl, hgroups⟩, ?_⟩
        rw [append_nil, blocksOf_cons current (group :: groups), nil_append,
          append_assoc]
      · rintro ⟨group, groups, ⟨later, heq, hgroups⟩, rfl⟩
        obtain ⟨rfl, rfl⟩ := cons.inj heq
        obtain ⟨first, later, rfl⟩ := hgroups.exists_cons
        refine ⟨first, later, hgroups, ?_⟩
        rw [append_nil, blocksOf_cons current (first :: later), nil_append,
          append_assoc]
    · rw [hend] at hlines
      exact absurd (show sectionMark.isPrefixOf endOfFile = true by decide)
        (hlines endOfFile mem_cons_self)
    · have hnone : ∀ line, hunkMark.isPrefixOf line = false →
          (∀ printed, line ≠ printLine printed) → ¬ ∃ group groups,
            Groups (line :: rest) (group :: groups) ∧
              result = blocks ++ blocksOf ((current ++ group) :: groups) := by
        rintro line hline hprinted ⟨group, groups, hgroups, -⟩
        rcases hgroups.line_cases with hheading | ⟨printed, rfl⟩
        · exact Bool.false_ne_true (hline.symm.trans hheading)
        · exact hprinted printed rfl
      cases line with
      | nil =>
        exact iff_of_false (by simp) (hnone [] (Bool.eq_false_iff.mpr hheading)
          (by simp [printLine]))
      | cons c text =>
        cases hkind : linePrefix c with
        | none =>
          refine iff_of_false (by simp [hkind]) (hnone _ (Bool.eq_false_iff.mpr hheading) ?_)
          rintro printed heq
          rw [(cons.inj heq).1, linePrefix_eq_some.mpr rfl] at hkind
          exact some_ne_none _ hkind
        | some kind =>
          obtain rfl := linePrefix_eq_some.mp hkind
          have hline : kind.char :: text = printLine (kind, text) := rfl
          simp only [hkind, ih hrest, hline, groups_line]
          constructor
          · rintro ⟨group, groups, hgroups, rfl⟩
            exact ⟨_, _, ⟨group, groups, rfl, hgroups⟩, by simp⟩
          · rintro ⟨group', groups', ⟨group, groups, heq, hgroups⟩, rfl⟩
            obtain ⟨rfl, rfl⟩ := cons.inj heq
            exact ⟨group, groups', hgroups, by simp⟩

end Grammar

section Sections

theorem parseAddLines_iff {added : List Text} :
    parseAddLines lines = .ok added ↔ lines = added.map ('+' :: ·) := by
  induction lines generalizing added with
  | nil => simp [parseAddLines, eq_comm]
  | cons line rest ih =>
    by_cases hline : ∃ text, line = '+' :: text
    · obtain ⟨text, rfl⟩ := hline
      have hparse : parseAddLines (('+' :: text) :: rest) =
          (parseAddLines rest).map (text :: ·) := rfl
      have hinj : Function.Injective fun text : Text => '+' :: text :=
        fun _ _ h => (cons.inj h).2
      rw [hparse]
      cases hrest : parseAddLines rest with
      | error message =>
        refine iff_of_false (by simp [Except.map]) fun heq => ?_
        cases added with
        | nil => simp at heq
        | cons first added =>
          rw [ih.mpr (cons.inj heq).2] at hrest
          cases hrest
      | ok texts =>
        obtain rfl := ih.mp hrest
        cases added with
        | nil => simp [Except.map]
        | cons first added => simp [Except.map, (map_injective_iff.mpr hinj).eq_iff]
    · have hparse : ∃ message, parseAddLines (line :: rest) = .error message := by
        rw [parseAddLines.eq_def]
        dsimp only
        split
        · exact absurd ⟨_, rfl⟩ hline
        · exact ⟨_, rfl⟩
      obtain ⟨message, hparse⟩ := hparse
      rw [hparse]
      refine iff_of_false (by simp) fun heq => ?_
      cases added with
      | nil => simp at heq
      | cons text added => exact hline ⟨text, (cons.inj heq).1⟩

theorem sectionLines_append (hlines : ∀ line ∈ lines, ¬ Marked line)
    (hrest : ∀ line ∈ rest.head?, Marked line) : sectionLines (lines ++ rest) = (lines, rest) := by
  rw [sectionLines, span_eq_takeWhile_dropWhile]
  have hpos : ∀ line ∈ lines, (!sectionMark.isPrefixOf line) = true := by
    intro line hline
    rw [Bool.not_eq_true']
    exact Bool.eq_false_iff.mpr (hlines line hline)
  rw [takeWhile_append_of_pos hpos, dropWhile_append_of_pos hpos]
  cases rest with
  | nil => simp
  | cons line rest =>
    have hmarked : sectionMark.isPrefixOf line = true := hrest line rfl
    simp [hmarked]

theorem sectionLines_spec (lines : List Text) :
    (sectionLines lines).1 ++ (sectionLines lines).2 = lines ∧
      (∀ line ∈ (sectionLines lines).1, ¬ Marked line) := by
  rw [sectionLines, span_eq_takeWhile_dropWhile]
  refine ⟨takeWhile_append_dropWhile, fun line hline => ?_⟩
  have hplain := mem_takeWhile_imp hline
  rw [Bool.not_eq_true'] at hplain
  exact Bool.eq_false_iff.mp hplain

theorem moveTarget_spec (lines : List Text) : ∃ move : Option Text,
    (∀ line ∈ move, moveTo.isPrefixOf line = true) ∧
      moveTarget lines = (move.map (headerPath moveTo), (moveTarget lines).2) ∧
        move.toList ++ (moveTarget lines).2 = lines := by
  cases lines with
  | nil => exact ⟨none, by simp, rfl, rfl⟩
  | cons line rest =>
    rw [moveTarget]
    split_ifs with hmove
    · exact ⟨some line, by simpa using hmove, rfl, rfl⟩
    · exact ⟨none, by simp, rfl, rfl⟩

def Header (line : Text) : Prop :=
  addFile.isPrefixOf line = true ∨ deleteFile.isPrefixOf line = true ∨
    updateFile.isPrefixOf line = true

variable {sections : List (List Text)}

theorem Header.cases (h : Header line) :
    ∃ text, line = addFile ++ text ∨ line = deleteFile ++ text ∨ line = updateFile ++ text := by
  rcases h with h | h | h
  · obtain ⟨text, rfl⟩ := isPrefixOf_iff_prefix.mp h
    exact ⟨text, .inl rfl⟩
  · obtain ⟨text, rfl⟩ := isPrefixOf_iff_prefix.mp h
    exact ⟨text, .inr (.inl rfl)⟩
  · obtain ⟨text, rfl⟩ := isPrefixOf_iff_prefix.mp h
    exact ⟨text, .inr (.inr rfl)⟩

theorem Header.marked (h : Header line) : Marked line := by
  obtain ⟨text, rfl | rfl | rfl⟩ := h.cases <;> rfl

theorem Header.not_move (h : Header line) : moveTo.isPrefixOf line = false := by
  obtain ⟨text, rfl | rfl | rfl⟩ := h.cases <;> rfl

theorem Derives.head (h : Derives lines change) :
    ∃ header body, lines = header :: body ∧ Header header := by
  cases h with
  | add hheader lines => exact ⟨_, _, rfl, .inl hheader⟩
  | delete hheader => exact ⟨_, _, rfl, .inr (.inl hheader)⟩
  | update hheader hmove hlines => exact ⟨_, _, rfl, .inr (.inr hheader)⟩

theorem exists_derives (h : List.Forall₂ Derives sections changes) (hlines : lines ∈ sections) :
    ∃ change, Derives lines change := by
  induction h with
  | nil => exact absurd hlines not_mem_nil
  | cons hfirst hrest ih =>
    rcases mem_cons.mp hlines with rfl | hlines
    · exact ⟨_, hfirst⟩
    · exact ih hlines

theorem head_flatten (h : List.Forall₂ Derives sections changes) :
    ∀ line ∈ sections.flatten.head?, Header line := by
  cases h with
  | nil => simp
  | cons hfirst hrest =>
    obtain ⟨header, body, rfl, hheader⟩ := hfirst.head
    simpa using hheader

theorem moveTarget_append {move : Option Text}
    (hmove : ∀ line ∈ move, moveTo.isPrefixOf line = true) (hlines : ∀ line ∈ lines, ¬ Marked line)
    (hrest : ∀ line ∈ rest.head?, Header line) :
    moveTarget (move.toList ++ lines ++ rest) = (move.map (headerPath moveTo), lines ++ rest) := by
  cases move with
  | some line =>
    rw [toList_some, append_assoc, singleton_append, moveTarget,
      if_pos (hmove line rfl)]
    rfl
  | none =>
    have hnot : ∀ line ∈ (lines ++ rest).head?, moveTo.isPrefixOf line = false := by
      intro line hline
      cases lines with
      | nil => exact (hrest line hline).not_move
      | cons first lines =>
        obtain rfl := some.inj hline
        rw [Bool.eq_false_iff]
        intro hmove
        obtain ⟨text, rfl⟩ := isPrefixOf_iff_prefix.mp hmove
        exact hlines _ mem_cons_self rfl
    rw [toList_none, nil_append]
    cases hall : lines ++ rest with
    | nil => rfl
    | cons line later =>
      rw [hall] at hnot
      rw [moveTarget, hnot line rfl]
      rfl

theorem parseSections_derives (h : Derives lines change) (hrest : ∀ line ∈ rest.head?, Header line)
    (fuel : ℕ) (changes : List PatchChange) :
    parseSections (fuel + 1) (lines ++ rest) changes =
      parseSections fuel rest (changes ++ [change]) := by
  have hmarked : ∀ line ∈ rest.head?, Marked line := fun line hline => (hrest line hline).marked
  cases h with
  | add hheader lines =>
    have hplain : ∀ line ∈ lines.map ('+' :: ·), ¬ Marked line := by
      intro line hline
      obtain ⟨text, -, rfl⟩ := List.mem_map.mp hline
      exact not_marked_printLine (.added, text)
    rw [cons_append, parseSections, if_pos hheader, sectionLines_append hplain hmarked]
    simp only [parseAddLines_iff.mpr rfl, bind, Except.bind]
  | delete hheader =>
    obtain ⟨text, rfl⟩ := isPrefixOf_iff_prefix.mp hheader
    rfl
  | @update header hheader move hmove lines groups hlines =>
    obtain ⟨group, later, rfl⟩ := hlines.exists_cons
    have hadd : addFile.isPrefixOf header = false := by
      obtain ⟨text, rfl⟩ := isPrefixOf_iff_prefix.mp hheader
      rfl
    have hdelete : deleteFile.isPrefixOf header = false := by
      obtain ⟨text, rfl⟩ := isPrefixOf_iff_prefix.mp hheader
      rfl
    have hblocks : parseUpdateBlocks lines [] [] = .ok (blocksOf (group :: later)) :=
      (parseUpdateBlocks_iff hlines.not_marked).mpr ⟨group, later, hlines, rfl⟩
    rw [cons_append, parseSections, hadd, hdelete, if_neg Bool.false_ne_true,
      if_neg Bool.false_ne_true, if_pos hheader,
      moveTarget_append hmove hlines.not_marked hrest]
    simp only [sectionLines_append hlines.not_marked hmarked, hblocks, bind, Except.bind]

theorem exists_sections (fuel : ℕ) (hfuel : lines.length ≤ fuel)
    (h : parseSections fuel lines changes = .ok result) :
    ∃ sections later, lines = sections.flatten ∧ List.Forall₂ Derives sections later ∧
      result = changes ++ later := by
  induction fuel generalizing lines changes with
  | zero =>
    obtain rfl := length_eq_zero_iff.mp (Nat.le_zero.mp hfuel)
    exact ⟨[], [], rfl, .nil, by simpa [parseSections] using (Except.ok.inj h).symm⟩
  | succ fuel ih =>
    cases lines with
    | nil => exact ⟨[], [], rfl, .nil, by simpa [parseSections] using (Except.ok.inj h).symm⟩
    | cons header rest =>
      have hstep : ∀ {section' rest' : List Text} {change : PatchChange},
          header :: rest = section' ++ rest' → Derives section' change →
          parseSections fuel rest' (changes ++ [change]) = .ok result →
          ∃ sections later, header :: rest = sections.flatten ∧
            List.Forall₂ Derives sections later ∧ result = changes ++ later := by
        intro section' rest' change hlines hderives hrest
        obtain ⟨first, body, hfirst, -⟩ := hderives.head
        have hlength : rest'.length ≤ fuel := by
          have hle := congrArg List.length hlines
          rw [hfirst, length_append, length_cons, length_cons] at hle
          rw [length_cons] at hfuel
          omega
        obtain ⟨sections, later, rfl, hsections, rfl⟩ := ih hlength hrest
        exact ⟨section' :: sections, change :: later, hlines, .cons hderives hsections, by simp⟩
      rw [parseSections] at h
      split_ifs at h with hadd hdelete hupdate
      · cases hlines : parseAddLines (sectionLines rest).1 with
        | error message => simp [hlines, bind, Except.bind] at h
        | ok added =>
          simp only [hlines, bind, Except.bind] at h
          refine hstep ?_ (.add hadd added) h
          rw [cons_append, ← parseAddLines_iff.mp hlines, (sectionLines_spec rest).1]
      · exact hstep rfl (.delete hdelete) h
      · obtain ⟨move, hmove, htarget, hrest⟩ := moveTarget_spec rest
        obtain ⟨hlines, hplain⟩ := sectionLines_spec (moveTarget rest).2
        cases hblocks : parseUpdateBlocks (sectionLines (moveTarget rest).2).1 [] [] with
        | error message => simp [hblocks, bind, Except.bind] at h
        | ok blocks =>
          simp only [hblocks, bind, Except.bind] at h
          obtain ⟨group, groups, hgroups, rfl⟩ := (parseUpdateBlocks_iff hplain).mp hblocks
          rw [htarget] at h
          refine hstep ?_ (.update hupdate hmove hgroups) h
          rw [cons_append, append_assoc, hlines, hrest]

theorem parseSections_fuel (hfuel : lines.length ≤ fuel)
    (hfuel' : lines.length ≤ fuel') (changes : List PatchChange) :
    parseSections fuel lines changes = parseSections fuel' lines changes := by
  induction fuel generalizing fuel' lines changes with
  | zero =>
    obtain rfl := length_eq_zero_iff.mp (Nat.le_zero.mp hfuel)
    cases fuel' <;> rfl
  | succ fuel ih =>
    cases lines with
    | nil => cases fuel' <;> rfl
    | cons header rest =>
      cases fuel' with
      | zero => simp at hfuel'
      | succ fuel' =>
        simp only [length_cons, Nat.add_le_add_iff_right] at hfuel hfuel'
        have hsection : ∀ lines : List Text, (sectionLines lines).2.length ≤ lines.length := by
          intro lines
          have hlength := congrArg List.length (sectionLines_spec lines).1
          rw [length_append] at hlength
          omega
        have hmove : (moveTarget rest).2.length ≤ rest.length := by
          obtain ⟨move, -, -, hrest⟩ := moveTarget_spec rest
          have hlength := congrArg List.length hrest
          rw [length_append] at hlength
          omega
        rw [parseSections, parseSections]
        split_ifs
        · have hlater := hsection rest
          generalize sectionLines rest = parts at hlater ⊢
          obtain ⟨hunk, later⟩ := parts
          dsimp only at hlater ⊢
          cases parseAddLines hunk with
          | error message => rfl
          | ok added => exact ih (by omega) (by omega) _
        · exact ih hfuel hfuel' _
        · generalize moveTarget rest = target at hmove ⊢
          obtain ⟨newPath, body⟩ := target
          have hlater := hsection body
          dsimp only at hmove ⊢
          generalize sectionLines body = parts at hlater ⊢
          obtain ⟨hunk, later⟩ := parts
          dsimp only at hlater ⊢
          cases parseUpdateBlocks hunk [] [] with
          | error message => rfl
          | ok blocks => exact ih (by omega) (by omega) _
        · rfl

theorem parseSections_flatten (h : List.Forall₂ Derives sections later) (fuel : ℕ)
    (hfuel : sections.length ≤ fuel) (changes : List PatchChange) :
    parseSections fuel sections.flatten changes = .ok (changes ++ later) := by
  induction h generalizing fuel changes with
  | nil => cases fuel <;> simp [parseSections]
  | cons hfirst hrest ih =>
    cases fuel with
    | zero => simp at hfuel
    | succ fuel =>
      rw [flatten_cons, parseSections_derives hfirst (head_flatten hrest),
        ih fuel (by simpa using hfuel), append_assoc, singleton_append]

theorem length_sections_le (h : List.Forall₂ Derives sections later) :
    sections.length ≤ sections.flatten.length := by
  induction h with
  | nil => rfl
  | cons hfirst hrest ih =>
    obtain ⟨header, body, rfl, -⟩ := hfirst.head
    rw [flatten_cons, length_append, length_cons, length_cons]
    omega

theorem framed_iff (lines : List Text) :
    lines.head? = some beginPatch ∧ lines.getLast? = some endPatch ↔
      lines = beginPatch :: (lines.tail.dropLast ++ [endPatch]) := by
  constructor
  · rintro ⟨hhead, hlast⟩
    cases lines with
    | nil => simp at hhead
    | cons first rest =>
      obtain rfl := some.inj hhead
      cases rest with
      | nil => exact absurd (some.inj hlast) (by decide)
      | cons second rest =>
        rw [getLast?_cons_cons] at hlast
        rw [tail_cons]
        congr 1
        exact (dropLast_append_getLast? endPatch hlast).symm
  · intro h
    rw [h, ← cons_append, getLast?_concat]
    exact ⟨rfl, rfl⟩

theorem parsePatch_iff {patchText : Text} :
    parsePatch patchText = .ok changes ↔ Accounted patchText changes := by
  rw [parsePatch, Accounted]
  constructor
  · intro h
    split_ifs at h with hhead hlast
    have hframe := (framed_iff _).mp ⟨not_not.mp hhead, not_not.mp hlast⟩
    cases hsections : parseSections (Text.splitlines patchText).length
        (Text.splitlines patchText).tail.dropLast [] with
    | error message => simp [hsections, bind, Except.bind] at h
    | ok parsed =>
      simp only [hsections, bind, Except.bind] at h
      split_ifs at h with hnone
      obtain rfl := Except.ok.inj h
      obtain ⟨sections, later, hflatten, hderives, rfl⟩ :=
        exists_sections _ (by simp; omega) hsections
      exact ⟨hnone, sections, hderives, by rw [← hflatten]; exact hframe⟩
  · rintro ⟨hnone, sections, hderives, hlines⟩
    obtain ⟨hhead, hlast⟩ := (framed_iff (Text.splitlines patchText)).mpr (by simp [hlines])
    rw [if_neg (not_not.mpr hhead), if_neg (not_not.mpr hlast), hlines]
    have hmiddle : (beginPatch :: (sections.flatten ++ [endPatch])).tail.dropLast =
        sections.flatten := by simp
    have hfuel : sections.length ≤ (beginPatch :: (sections.flatten ++ [endPatch])).length := by
      have := length_sections_le hderives
      simp only [length_cons, length_append]
      omega
    rw [hmiddle, parseSections_flatten hderives _ hfuel, nil_append]
    simp only [bind, Except.bind, if_neg hnone]

end Sections

section Printing

/-- A hunk as it is printed: its heading after the mark, its block, and whether a line marks the
end of the file after it. -/
structure PrintedHunk where
  heading : Text := []
  lines : List (LinePrefix × Text)
  endOfFile : Bool := false
  lines_ne_nil : lines ≠ []
  heading_unbroken : Unbroken heading
  lines_unbroken : ∀ line ∈ lines, Unbroken line.2

structure Plain (path : Text) : Prop where
  strip_eq : Text.strip path = path
  unbroken : Unbroken path

inductive PrintedChange
  | add (path : Text) (hpath : Plain path) (lines : List Text)
      (hlines : ∀ line ∈ lines, Unbroken line)
  | delete (path : Text) (hpath : Plain path)
  | update (path : Text) (hpath : Plain path) (newPath : Option Text)
      (hnewPath : ∀ path ∈ newPath, Plain path) (hunks : List PrintedHunk)

def PrintedHunk.print (hunk : PrintedHunk) : List Text :=
  (hunkMark ++ hunk.heading) ::
    (hunk.lines.map printLine ++ if hunk.endOfFile then [ApplyPatch.endOfFile] else [])

namespace PrintedChange

def change : PrintedChange → PatchChange
  | add path _ lines _ => { action := .add, path := path, addLines := lines }
  | delete path _ => { action := .delete, path := path }
  | update path _ newPath _ hunks =>
    { action := .update, path := path, newPath := newPath,
      blocks := hunks.map fun hunk => ⟨hunk.lines⟩ }

def print : PrintedChange → List Text
  | add path _ lines _ => (addFile ++ path) :: lines.map ('+' :: ·)
  | delete path _ => [deleteFile ++ path]
  | update path _ newPath _ hunks =>
    (updateFile ++ path) ::
      ((newPath.map (moveTo ++ ·)).toList ++ hunks.flatMap PrintedHunk.print)

def hunks : PrintedChange → List PrintedHunk
  | update _ _ _ _ hunks => hunks
  | _ => []

end PrintedChange

structure PrintedPatch where
  changes : List PrintedChange
  changes_ne_nil : changes ≠ []

namespace PrintedPatch

def lines (patch : PrintedPatch) : List Text :=
  beginPatch :: (patch.changes.flatMap PrintedChange.print ++ [endPatch])

def render (patch : PrintedPatch) : Text := patch.lines.flatMap (· ++ ['\n'])

def NoEndOfFile (patch : PrintedPatch) : Prop :=
  ∀ change ∈ patch.changes, ∀ hunk ∈ change.hunks, hunk.endOfFile = false

end PrintedPatch

theorem unbroken_append (h : Unbroken text) (h' : Unbroken text') : Unbroken (text ++ text') := by
  intro c hc
  rcases mem_append.mp hc with hc | hc
  · exact h c hc
  · exact h' c hc

theorem unbroken_mark (h : (mark.all fun c => !Text.isLineBoundary c) = true) : Unbroken mark := by
  intro c hc
  simpa using List.all_eq_true.mp h c hc

theorem unbroken_printLine (kind : LinePrefix) (h : Unbroken text) :
    Unbroken (printLine (kind, text)) := by
  have hchar : Unbroken [kind.char] := by
    apply unbroken_mark
    cases kind <;> decide
  exact unbroken_append hchar h

theorem PrintedHunk.unbroken (hunk : PrintedHunk) : ∀ line ∈ hunk.print, Unbroken line := by
  intro line hline
  rcases mem_cons.mp hline with rfl | hline
  · exact unbroken_append (unbroken_mark (by decide)) hunk.heading_unbroken
  · rcases mem_append.mp hline with hline | hline
    · obtain ⟨printed, hprinted, rfl⟩ := List.mem_map.mp hline
      exact unbroken_printLine printed.1 (hunk.lines_unbroken printed hprinted)
    · split_ifs at hline
      · rw [mem_singleton.mp hline]
        exact unbroken_mark (by decide)
      · exact absurd hline not_mem_nil

theorem PrintedChange.unbroken (change : PrintedChange) : ∀ line ∈ change.print, Unbroken line := by
  intro line hline
  cases change with
  | add path hpath lines hlines =>
    rcases mem_cons.mp hline with rfl | hline
    · exact unbroken_append (unbroken_mark (by decide)) hpath.unbroken
    · obtain ⟨text, htext, rfl⟩ := List.mem_map.mp hline
      exact unbroken_printLine .added (hlines text htext)
  | delete path hpath =>
    rw [mem_singleton.mp hline]
    exact unbroken_append (unbroken_mark (by decide)) hpath.unbroken
  | update path hpath newPath hnewPath hunks =>
    rcases mem_cons.mp hline with rfl | hline
    · exact unbroken_append (unbroken_mark (by decide)) hpath.unbroken
    · rcases mem_append.mp hline with hline | hline
      · obtain ⟨path, hpath, rfl⟩ := map_eq_some_iff.mp (Option.mem_toList.mp hline)
        exact unbroken_append (unbroken_mark (by decide)) (hnewPath path hpath).unbroken
      · obtain ⟨hunk, -, hline⟩ := mem_flatMap.mp hline
        exact hunk.unbroken line hline

theorem PrintedPatch.splitlines_render (patch : PrintedPatch) :
    Text.splitlines patch.render = patch.lines := by
  apply Segments.splitlines_flatMap
  intro line hline
  rcases mem_cons.mp hline with rfl | hline
  · exact unbroken_mark (by decide)
  · rcases mem_append.mp hline with hline | hline
    · obtain ⟨change, -, hline⟩ := mem_flatMap.mp hline
      exact change.unbroken line hline
    · rw [mem_singleton.mp hline]
      exact unbroken_mark (by decide)

theorem headerPath_append (header : Text) (hpath : Plain path) :
    headerPath header (header ++ path) = path := by
  rw [headerPath, Text.removePrefix, if_pos (List.isPrefixOf_iff_prefix.mpr ⟨path, rfl⟩),
    drop_left, hpath.strip_eq]

theorem groups_print {hunks : List PrintedHunk} (h : ∀ hunk ∈ hunks, hunk.endOfFile = false)
    (group : List (LinePrefix × Text)) :
    Groups (group.map printLine ++ hunks.flatMap PrintedHunk.print)
      (group :: hunks.map PrintedHunk.lines) := by
  induction hunks generalizing group with
  | nil => simpa using Groups.last group
  | cons hunk hunks ih =>
    have hrest := ih (fun later hlater => h later (mem_cons_of_mem hunk hlater)) hunk.lines
    rw [flatMap_cons, PrintedHunk.print, h hunk mem_cons_self]
    simp only [Bool.false_eq_true, if_false, append_nil, cons_append]
    exact .heading group (List.isPrefixOf_iff_prefix.mpr ⟨hunk.heading, rfl⟩) hrest

theorem blocksOf_print (hunks : List PrintedHunk) :
    blocksOf ([] :: hunks.map PrintedHunk.lines) = hunks.map fun hunk => ⟨hunk.lines⟩ := by
  induction hunks with
  | nil => rfl
  | cons hunk hunks ih =>
    have hne : hunk.lines ≠ [] := hunk.lines_ne_nil
    simp only [blocksOf, map_cons] at ih ⊢
    simp [hne] at ih ⊢
    exact ih

theorem PrintedChange.derives {change : PrintedChange}
    (h : ∀ hunk ∈ change.hunks, hunk.endOfFile = false) : Derives change.print change.change := by
  have hheader : ∀ header path : Text, header.isPrefixOf (header ++ path) = true :=
    fun header path => isPrefixOf_iff_prefix.mpr ⟨path, rfl⟩
  cases change with
  | add path hpath lines hlines =>
    have hderives := Derives.add (hheader addFile path) lines
    rwa [headerPath_append addFile hpath] at hderives
  | delete path hpath =>
    have hderives := Derives.delete (hheader deleteFile path)
    rwa [headerPath_append deleteFile hpath] at hderives
  | update path hpath newPath hnewPath hunks =>
    have hmove : ∀ line ∈ newPath.map (moveTo ++ ·), moveTo.isPrefixOf line = true := by
      intro line hline
      obtain ⟨target, -, rfl⟩ := map_eq_some_iff.mp hline
      exact hheader moveTo target
    have hderives := Derives.update (hheader updateFile path) hmove (groups_print h [])
    have htarget : (newPath.map (moveTo ++ ·)).map (headerPath moveTo) = newPath := by
      cases newPath with
      | none => rfl
      | some target => exact congrArg some (headerPath_append moveTo (hnewPath target rfl))
    rwa [headerPath_append updateFile hpath, htarget, blocksOf_print] at hderives

theorem Derives.endOfFile_notMem (h : Derives lines change) : endOfFile ∉ lines := by
  have hmarked : Marked endOfFile := rfl
  intro hmem
  cases h with
  | add hheader lines =>
    rcases mem_cons.mp hmem with rfl | hmem
    · exact absurd hheader (by decide)
    · obtain ⟨text, -, htext⟩ := List.mem_map.mp hmem
      exact not_marked_printLine (.added, text)
        (show Marked ('+' :: text) from htext.symm ▸ hmarked)
  | delete hheader =>
    rw [← mem_singleton.mp hmem] at hheader
    exact absurd hheader (by decide)
  | update hheader hmove hlines =>
    rcases mem_cons.mp hmem with rfl | hmem
    · exact absurd hheader (by decide)
    · rcases mem_append.mp hmem with hmem | hmem
      · exact absurd (hmove endOfFile (Option.mem_toList.mp hmem)) (by decide)
      · exact hlines.not_marked endOfFile hmem hmarked

theorem PrintedPatch.accounted_iff (patch : PrintedPatch) :
    Accounted patch.render (patch.changes.map PrintedChange.change) ↔ patch.NoEndOfFile := by
  rw [Accounted, patch.splitlines_render, PrintedPatch.lines]
  constructor
  · rintro ⟨-, sections, hderives, hlines⟩ change hchange hunk hhunk
    have hflatten := append_cancel_right (cons.inj hlines).2
    by_contra hmark
    have hprinted : endOfFile ∈ patch.changes.flatMap PrintedChange.print := by
      refine mem_flatMap.mpr ⟨change, hchange, ?_⟩
      cases change with
      | update path hpath newPath hnewPath hunks =>
        have hlast : endOfFile ∈ hunk.print := by
          simp [PrintedHunk.print, (Bool.not_eq_false _).mp hmark]
        exact mem_cons_of_mem _ (mem_append_right _
          (mem_flatMap.mpr ⟨hunk, hhunk, hlast⟩))
      | add path hpath lines hlines => exact absurd hhunk not_mem_nil
      | delete path hpath => exact absurd hhunk not_mem_nil
    rw [hflatten] at hprinted
    obtain ⟨lines, hmem, hin⟩ := List.mem_flatten.mp hprinted
    obtain ⟨derived, hderived⟩ := exists_derives hderives hmem
    exact hderived.endOfFile_notMem hin
  · intro h
    refine ⟨by simpa using patch.changes_ne_nil, patch.changes.map PrintedChange.print, ?_, ?_⟩
    · rw [List.forall₂_map_left_iff, List.forall₂_map_right_iff, List.forall₂_same]
      exact fun change hchange => PrintedChange.derives (h change hchange)
    · rw [flatMap_def]

/-- Every accepted text is made of the lines of its changes, and a printed patch is read back
exactly when no line of it marks the end of a file. -/
theorem parsePatch_grammar (patch : PrintedPatch) :
    ((∀ patchText changes, parsePatch patchText = .ok changes ↔ Accounted patchText changes) ∧
      (∀ fuel lines changes, lines.length ≤ fuel →
        parseSections fuel lines changes = parseSections lines.length lines changes) ∧
      parsePatch patch.render = .ok (patch.changes.map PrintedChange.change)) ↔
      patch.NoEndOfFile := by
  rw [parsePatch_iff, patch.accounted_iff]
  constructor
  · exact fun h => h.2.2
  · exact fun h => ⟨fun _ _ => parsePatch_iff,
      fun fuel lines changes hfuel => parseSections_fuel hfuel le_rfl changes, h⟩

def markedPatch : PrintedPatch where
  changes := [.update "a.txt".toList ⟨by decide, unbroken_mark (by decide)⟩ none (by simp)
    [{ lines := [(.removed, "old".toList), (.added, "new".toList)], endOfFile := true,
       lines_ne_nil := by decide, heading_unbroken := unbroken_mark (by decide),
       lines_unbroken := by
         intro line hline
         simp only [mem_cons, not_mem_nil, or_false] at hline
         rcases hline with rfl | rfl <;> exact unbroken_mark (by decide) }]]
  changes_ne_nil := by simp

theorem not_parses_markedPatch :
    ¬ parsePatch markedPatch.render = .ok (markedPatch.changes.map PrintedChange.change) := by
  decide +kernel

end Printing

end Agent33.Tools.ApplyPatch
