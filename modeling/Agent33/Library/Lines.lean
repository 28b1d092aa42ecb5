import Agent33.Library.Text
import Mathlib.Data.List.Infix

/-!
# Lines with their endings

The lines of a text, each with the characters that end it. A text that is put together from
lines of another one and from lines of its own keeps the endings of the first ones.
-/

namespace Agent33.Library.Segments

open Text List Option

structure Segment where
  line : Text
  ending : Text

/-- The lines of a text with their endings, the first of which begins with the characters of
`line`, last one first. -/
def segmentsFrom (line : Text) : Text → List Segment
  | [] => if line = [] then [] else [⟨line.reverse, []⟩]
  | '\r' :: '\n' :: rest => ⟨line.reverse, ['\r', '\n']⟩ :: segmentsFrom [] rest
  | c :: rest =>
    if isLineBoundary c then ⟨line.reverse, [c]⟩ :: segmentsFrom [] rest
    else segmentsFrom (c :: line) rest

def segments (text : Text) : List Segment := segmentsFrom [] text

def Unbroken (line : Text) : Prop := ∀ c ∈ line, isLineBoundary c = false

theorem segmentsFrom_line (line text : Text) :
    (segmentsFrom line text).map Segment.line = splitlinesFrom line text := by
  fun_induction segmentsFrom line text with
  | case1 => simp [splitlinesFrom]
  | case2 line hline => simp [splitlinesFrom, hline]
  | case3 line rest ih => simpa [splitlinesFrom] using ih
  | case4 line c rest hcr hc ih =>
    rw [splitlinesFrom, if_pos hc]
    · simpa using ih
    · exact hcr
  | case5 line c rest hcr hc ih =>
    rw [splitlinesFrom, if_neg hc]
    · exact ih
    · exact hcr

theorem segments_line (text : Text) : (segments text).map Segment.line = splitlines text :=
  segmentsFrom_line [] text

theorem segmentsFrom_unbroken (text : Text) (h : Unbroken line) :
    ∀ s ∈ segmentsFrom line text, Unbroken s.line := by
  fun_induction segmentsFrom line text with
  | case1 => simp
  | case2 line hline =>
    intro s hs c hc
    rw [mem_singleton.mp hs] at hc
    exact h c (mem_reverse.mp hc)
  | case3 line rest ih =>
    intro s hs
    rcases mem_cons.mp hs with rfl | hs
    · exact fun c hc => h c (mem_reverse.mp hc)
    · exact ih (by simp [Unbroken]) s hs
  | case4 line c rest _ hc ih =>
    intro s hs
    rcases mem_cons.mp hs with rfl | hs
    · exact fun c hc => h c (mem_reverse.mp hc)
    · exact ih (by simp [Unbroken]) s hs
  | case5 line c rest _ hc ih =>
    refine ih ?_
    intro d hd
    rcases mem_cons.mp hd with rfl | hd
    · simpa using hc
    · exact h d hd

theorem splitlines_unbroken (h : line ∈ splitlines text) : Unbroken line := by
  rw [← segments_line] at h
  obtain ⟨s, hs, rfl⟩ := List.mem_map.mp h
  exact segmentsFrom_unbroken text (by simp [Unbroken]) s hs

theorem segmentsFrom_newline (line text : Text) :
    ∀ s ∈ segmentsFrom line text, s.ending.head? = some '\n' → s.ending = ['\n'] := by
  fun_induction segmentsFrom line text with
  | case1 => simp
  | case2 line hline => simp
  | case3 line rest ih => simpa using ih
  | case4 line c rest _ hc ih => simpa using ih
  | case5 line c rest _ hc ih => exact ih

theorem segmentsFrom_closed (line text : Text) :
    ∀ s ∈ (segmentsFrom line text).dropLast, s.ending ≠ [] := by
  have hcons : ∀ (s : Segment) (rest : List Segment), s.ending ≠ [] →
      (∀ r ∈ rest.dropLast, r.ending ≠ []) → ∀ r ∈ (s :: rest).dropLast, r.ending ≠ [] := by
    intro s rest hs hrest r hr
    cases rest with
    | nil => simp at hr
    | cons next rest =>
      rcases mem_cons.mp hr with rfl | hr
      · exact hs
      · exact hrest r hr
  fun_induction segmentsFrom line text with
  | case1 => simp
  | case2 line hline => simp
  | case3 line rest ih => exact hcons _ _ (by simp) ih
  | case4 line c rest _ hc ih => exact hcons _ _ (by simp) ih
  | case5 line c rest _ hc ih => exact ih

theorem universalNewlines_cons (h : ∀ rest', c = '\r' → rest = '\n' :: rest' → False) :
    universalNewlines (c :: rest) = (if c = '\r' then '\n' else c) :: universalNewlines rest := by
  rw [universalNewlines]
  exact h

theorem splitlinesFrom_cons (line : Text) (hc : c ≠ '\r') (rest : Text) :
    splitlinesFrom line (c :: rest) =
      if isLineBoundary c then line.reverse :: splitlinesFrom [] rest
      else splitlinesFrom (c :: line) rest := by
  rw [splitlinesFrom]
  intro _ heq
  exact absurd heq hc

theorem splitlinesFrom_universalNewlines (line text : Text) :
    splitlinesFrom line (universalNewlines text) = splitlinesFrom line text := by
  fun_induction splitlinesFrom line text with
  | case1 => simp [universalNewlines, splitlinesFrom]
  | case2 line hline => simp [universalNewlines, splitlinesFrom, hline]
  | case3 line rest ih =>
    rw [universalNewlines, splitlinesFrom_cons line (by decide), if_pos (by decide), ih]
  | case4 line c rest hcr hc ih =>
    rw [universalNewlines_cons hcr]
    by_cases heq : c = '\r'
    · rw [if_pos heq, splitlinesFrom_cons line (by decide), if_pos (by decide), ih]
    · rw [if_neg heq, splitlinesFrom_cons line heq, if_pos hc, ih]
  | case5 line c rest hcr hc ih =>
    have heq : c ≠ '\r' := by
      rintro rfl
      exact hc (by decide)
    rw [universalNewlines_cons hcr, if_neg heq, splitlinesFrom_cons line heq, if_neg hc, ih]

theorem splitlines_universalNewlines (text : Text) :
    splitlines (universalNewlines text) = splitlines text :=
  splitlinesFrom_universalNewlines [] text

section Pieces

/-- A line of a new text, with the ending that it had if it was a line of the old one. -/
structure Piece where
  line : Text
  ending : Option Text

def Segment.kept (s : Segment) : Piece := ⟨s.line, some s.ending⟩

def written (line : Text) : Piece := ⟨line, none⟩

/-- The text of the pieces: a written line ends with a newline, the last one of the text with
`final`. -/
def render (final : Text) : List Piece → Text
  | [] => []
  | [p] => p.line ++ p.ending.getD final
  | p :: next :: rest => p.line ++ (p.ending.getD ['\n'] ++ render final (next :: rest))

def Plain (final : Text) : List Piece → Prop
  | [] => True
  | [p] => p.ending.getD final = final
  | p :: next :: rest => p.ending.getD ['\n'] = ['\n'] ∧ Plain final (next :: rest)

instance decidablePlain (final : Text) : ∀ pieces, Decidable (Plain final pieces)
  | [] => .isTrue trivial
  | [_] => decEq _ _
  | p :: next :: rest =>
    have := decidablePlain final (next :: rest)
    inferInstanceAs (Decidable (p.ending.getD ['\n'] = ['\n'] ∧ Plain final (next :: rest)))

structure Ended (pieces : List Piece) : Prop where
  closed : ∀ p ∈ pieces.dropLast, p.ending ≠ some []
  newline : ∀ p ∈ pieces, ∀ ending, p.ending = some ending → ending.head? = some '\n' →
    ending = ['\n']

theorem render_written (final : Text) (lines : List Text) :
    render final (lines.map written) =
      joinWith ['\n'] lines ++ (if lines = [] then [] else final) := by
  fun_induction joinWith ['\n'] lines with
  | case1 => simp [render]
  | case2 line => simp [render, written]
  | case3 line rest hrest ih =>
    cases rest with
    | nil => exact absurd rfl hrest
    | cons next rest => simpa [render, written] using ih

variable {lines : List Text}

theorem Ended.tail (h : Ended (p :: pieces)) : Ended pieces where
  closed q hq := by
    cases pieces with
    | nil => simp at hq
    | cons next rest => exact h.closed q (mem_cons_of_mem p hq)
  newline q hq := h.newline q (mem_cons_of_mem p hq)

theorem Ended.ending_eq {p next : Piece} (h : Ended (p :: next :: rest))
    (heq : p.ending.getD ['\n'] ++ later = '\n' :: later') :
    p.ending.getD ['\n'] = ['\n'] := by
  cases hending : p.ending with
  | none => rfl
  | some ending =>
    have hne : ending ≠ [] := fun hnil =>
      h.closed p mem_cons_self (by rw [hending, hnil])
    obtain ⟨c, rest', rfl⟩ := exists_cons_of_ne_nil hne
    simp only [hending, getD_some, cons_append, cons.injEq] at heq
    exact h.newline p mem_cons_self _ hending (by rw [heq.1]; rfl)

theorem render_eq_iff (final : Text) (h : Ended pieces) :
    render final pieces = render final (pieces.map fun p => written p.line) ↔
      Plain final pieces := by
  induction pieces with
  | nil => simp [render, Plain]
  | cons p pieces ih =>
    cases pieces with
    | nil => simp [render, Plain, written]
    | cons next rest =>
      rw [Plain, ← ih h.tail]
      simp only [map_cons, render, written, getD_none, append_cancel_left_eq,
        cons_append, nil_append]
      constructor
      · intro heq
        have hending := h.ending_eq heq
        rw [hending] at heq
        exact ⟨hending, by simpa using heq⟩
      · rintro ⟨hending, heq⟩
        rw [hending, heq]
        rfl

theorem splitlinesFrom_append (line : Text) (h : Unbroken text) (rest : Text) :
    splitlinesFrom line (text ++ rest) = splitlinesFrom (text.reverse ++ line) rest := by
  induction text generalizing line with
  | nil => rfl
  | cons c text ih =>
    have hc : isLineBoundary c = false := h c mem_cons_self
    have hcr : c ≠ '\r' := by
      rintro rfl
      exact absurd hc (by decide)
    rw [cons_append, splitlinesFrom_cons line hcr, if_neg (by simp [hc]),
      ih (c :: line) fun d hd => h d (mem_cons_of_mem c hd)]
    simp

theorem splitlines_newline (h : Unbroken text) (rest : Text) :
    splitlines (text ++ '\n' :: rest) = text :: splitlines rest := by
  rw [splitlines, splitlinesFrom_append [] h, splitlinesFrom_cons _ (by decide),
    if_pos (by decide)]
  simp [splitlines]

theorem splitlines_of_unbroken (h : Unbroken text) :
    splitlines text = if text = [] then [] else [text] := by
  have happend := splitlinesFrom_append [] h []
  rw [append_nil] at happend
  rw [splitlines, happend]
  simp [splitlinesFrom]

theorem splitlines_flatMap (h : ∀ line ∈ lines, Unbroken line) :
    splitlines (lines.flatMap (· ++ ['\n'])) = lines := by
  induction lines with
  | nil => rfl
  | cons line lines ih =>
    rw [flatMap_cons, append_assoc, singleton_append,
      splitlines_newline (h line mem_cons_self),
      ih fun l hl => h l (mem_cons_of_mem line hl)]

theorem length_splitlines_render (hfinal : final = [] ∨ final = ['\n'])
    (h : ∀ line ∈ lines, Unbroken line) :
    (splitlines (render final (lines.map written))).length = lines.length ↔
      (final = [] → lines.getLast? ≠ some []) := by
  induction lines with
  | nil => simp [render, splitlines, splitlinesFrom]
  | cons line lines ih =>
    have hline := h line mem_cons_self
    cases lines with
    | nil =>
      rcases hfinal with rfl | rfl
      · simp only [map_cons, map_nil, render, written, getD_none,
          append_nil, splitlines_of_unbroken hline]
        split_ifs with hnil <;> simp [hnil]
      · simp only [map_cons, map_nil, render, written, getD_none,
          splitlines_newline hline]
        simp [splitlines, splitlinesFrom]
    | cons next rest =>
      have hrest := ih fun l hl => h l (mem_cons_of_mem line hl)
      simp only [map_cons, render, written, getD_none, singleton_append,
        splitlines_newline hline, length_cons, Nat.add_right_cancel_iff,
        getLast?_cons_cons] at hrest ⊢
      exact hrest

end Pieces

end Agent33.Library.Segments

/-!
## Hunks

A hunk replaces a run of elements of a list by another one. Hunks are placed one after another:
each stands where its old elements first are, from the end of the hunk before it on.
-/

namespace Agent33.Library

structure Hunk (α : Type*) where
  old : List α
  new : List α

namespace Hunk

variable {α β γ δ : Type*}

/-- The positions of the hunks, from `cursor` on. -/
inductive Placed (lines : List α) : ℕ → List (Hunk α) → List ℕ → Prop
  | nil {cursor : ℕ} : Placed lines cursor [] []
  | cons {cursor start : ℕ} {hunk : Hunk α} {hunks : List (Hunk α)} {starts : List ℕ}
      (hle : cursor ≤ start) (hstands : hunk.old <+: lines.drop start)
      (hfirst : ∀ i, cursor ≤ i → i < start → ¬ hunk.old <+: lines.drop i)
      (hrest : Placed lines (start + hunk.old.length) hunks starts) :
      Placed lines cursor (hunk :: hunks) (start :: starts)

/-- The elements outside the hunks, and the new elements of the hunks in place of the old
ones. -/
def splice (kept : β → γ) (written : α → γ) (xs : List β) :
    ℕ → List (Hunk α) → List ℕ → List γ
  | cursor, hunk :: hunks, start :: starts =>
    ((xs.drop cursor).take (start - cursor)).map kept ++ hunk.new.map written ++
      splice kept written xs (start + hunk.old.length) hunks starts
  | cursor, _, _ => (xs.drop cursor).map kept

variable {lines : List α}

theorem Placed.unique (h : Placed lines cursor hunks starts)
    (h' : Placed lines cursor hunks starts') : starts = starts' := by
  induction h generalizing starts' with
  | nil =>
    cases h'
    rfl
  | @cons cursor start hunk hunks starts hle hstands hfirst hrest ih =>
    cases h' with
    | @cons _ start' _ _ starts' hle' hstands' hfirst' hrest' =>
      have hge : start' ≤ start := by
        by_contra hlt
        exact hfirst' start hle (by omega) hstands
      have hle : start ≤ start' := by
        by_contra hlt
        exact hfirst start' hle' (by omega) hstands'
      obtain rfl := Nat.le_antisymm hle hge
      rw [ih hrest']

theorem start_bounds {hunk : Hunk α} {start : ℕ} (hcursor : cursor ≤ lines.length)
    (hle : cursor ≤ start) (hstands : hunk.old <+: lines.drop start)
    (hfirst : ∀ i, cursor ≤ i → i < start → ¬ hunk.old <+: lines.drop i) :
    start + hunk.old.length ≤ lines.length ∧ (cursor < start → start < lines.length) := by
  have hlength := hstands.length_le
  rw [List.length_drop] at hlength
  cases hold : hunk.old with
  | nil =>
    have hstart : ¬ cursor < start := fun hlt =>
      hfirst cursor (Nat.le_refl _) hlt (by rw [hold]; exact List.nil_prefix)
    simp only [List.length_nil]
    omega
  | cons x old =>
    rw [hold, List.length_cons] at hlength
    simp only [List.length_cons]
    omega

theorem map_splice (f : γ → δ) (kept : β → γ) (written : α → γ) (xs : List β) :
    (splice kept written xs cursor hunks starts).map f =
      splice (fun x => f (kept x)) (fun y => f (written y)) xs cursor hunks starts := by
  fun_induction splice kept written xs cursor hunks starts with
  | case1 cursor hunk hunks start starts ih =>
    simp only [List.map_append, List.map_map, ih, splice]
    rfl
  | case2 cursor hunks starts hne =>
    rw [splice, List.map_map]
    · rfl
    · exact hne

theorem splice_map (f : δ → β) (kept : β → γ) (written : α → γ) (xs : List δ) :
    splice kept written (xs.map f) cursor hunks starts =
      splice (fun x => kept (f x)) written xs cursor hunks starts := by
  fun_induction splice kept written (xs.map f) cursor hunks starts with
  | case1 cursor hunk hunks start starts ih =>
    simp only [← List.map_drop, ← List.map_take, List.map_map, ih, splice]
    rfl
  | case2 cursor hunks starts hne =>
    rw [splice, ← List.map_drop, List.map_map]
    · rfl
    · exact hne

theorem length_splice (kept : β → γ) (written : α → γ) (hlength : xs.length = lines.length)
    (h : Placed lines cursor hunks starts) (hcursor : cursor ≤ lines.length) :
    (splice kept written xs cursor hunks starts).length + (hunks.map (·.old.length)).sum +
      cursor = lines.length + (hunks.map (·.new.length)).sum := by
  induction h with
  | nil =>
    simp only [splice, List.length_map, List.length_drop, List.map_nil, List.sum_nil, hlength]
    omega
  | @cons cursor start hunk hunks starts hle hstands hfirst hrest ih =>
    have hbounds := start_bounds hcursor hle hstands hfirst
    have hrest := ih hbounds.1
    simp only [splice, List.length_append, List.length_map, List.length_take, List.length_drop,
      List.map_cons, List.sum_cons, hlength]
    omega

theorem mem_splice (h : p ∈ splice kept written xs cursor hunks starts) :
    (∃ x ∈ xs, p = kept x) ∨ ∃ hunk ∈ hunks, ∃ y ∈ hunk.new, p = written y := by
  fun_induction splice kept written xs cursor hunks starts with
  | case1 cursor hunk hunks start starts ih =>
    rcases List.mem_append.mp h with h | h
    · rcases List.mem_append.mp h with h | h
      · obtain ⟨x, hx, rfl⟩ := List.mem_map.mp h
        exact .inl ⟨x, List.mem_of_mem_drop (List.mem_of_mem_take hx), rfl⟩
      · obtain ⟨y, hy, rfl⟩ := List.mem_map.mp h
        exact .inr ⟨hunk, List.mem_cons_self, y, hy, rfl⟩
    · rcases ih h with hkept | ⟨later, hlater, y, hy, heq⟩
      · exact .inl hkept
      · exact .inr ⟨later, List.mem_cons_of_mem hunk hlater, y, hy, heq⟩
  | case2 cursor hunks starts hne =>
    obtain ⟨x, hx, rfl⟩ := List.mem_map.mp h
    exact .inl ⟨x, List.mem_of_mem_drop hx, rfl⟩

theorem mem_dropLast_append {xs ys : List γ} (h : p ∈ (xs ++ ys).dropLast) :
    p ∈ xs ∨ p ∈ ys.dropLast := by
  cases ys with
  | nil =>
    rw [List.append_nil] at h
    exact .inl (List.mem_of_mem_dropLast h)
  | cons y ys =>
    rw [List.dropLast_append_of_ne_nil (by simp)] at h
    exact List.mem_append.mp h

open List in
theorem mem_dropLast_splice (hlength : xs.length = lines.length)
    (h : Placed lines cursor hunks starts) (hcursor : cursor ≤ lines.length)
    (hp : p ∈ (splice kept written xs cursor hunks starts).dropLast) :
    (∃ x ∈ xs.dropLast, p = kept x) ∨ ∃ y, p = written y := by
  induction h with
  | nil =>
    simp only [splice] at hp
    rw [← map_dropLast, dropLast_drop_eq_drop_dropLast] at hp
    obtain ⟨x, hx, rfl⟩ := mem_map.mp hp
    exact .inl ⟨x, mem_of_mem_drop hx, rfl⟩
  | @cons cursor start hunk hunks starts hle hstands hfirst hrest ih =>
    have hbounds := start_bounds hcursor hle hstands hfirst
    rw [splice] at hp
    rcases mem_dropLast_append hp with hp | hp
    · rcases mem_append.mp hp with hp | hp
      · obtain ⟨x, hx, rfl⟩ := mem_map.mp hp
        refine .inl ⟨x, ?_, rfl⟩
        rw [← drop_take] at hx
        have hne : cursor < start := by
          by_contra hge
          have hlen := length_pos_of_mem hx
          simp only [length_drop, length_take] at hlen
          omega
        have hstart := hbounds.2 hne
        rw [dropLast_eq_take]
        exact take_subset_take_left xs (by omega) (mem_of_mem_drop hx)
      · obtain ⟨y, _, rfl⟩ := mem_map.mp hp
        exact .inr ⟨y, rfl⟩
    · exact ih hbounds.1 hp

end Hunk

end Agent33.Library

/-!
## Logs of lines

A log is a text file to which whole lines are appended. Reading it gives the lines back, and a
page of a list is a window of it; pages of one size, one after another, give the list back.
-/

namespace Agent33.Library.LineLog

/-- The lines of a text without their ends, the first of which begins with the characters of
`line`, last one first. -/
def linesFrom (line : Text) : Text → List Text
  | [] => if line = [] then [] else [line.reverse]
  | c :: rest =>
    if c = '\n' then line.reverse :: linesFrom [] rest else linesFrom (c :: line) rest

def lines (text : Text) : List Text := linesFrom [] (Text.universalNewlines text)

def OneLine (line : Text) : Prop := ∀ c ∈ line, c ≠ '\n' ∧ c ≠ '\r'

def terminated (ls : List Text) : Text := ls.flatMap fun line => line ++ ['\n']

theorem terminated_concat (ls : List Text) (line : Text) :
    terminated (ls ++ [line]) = terminated ls ++ (line ++ ['\n']) := by
  simp [terminated]

theorem universalNewlines_eq (h : ∀ c ∈ text, c ≠ '\r') : Text.universalNewlines text = text := by
  induction text with
  | nil => rfl
  | cons c rest ih =>
    have hc : c ≠ '\r' := h c List.mem_cons_self
    have hrest := ih fun d hd => h d (List.mem_cons_of_mem c hd)
    rw [Text.universalNewlines.eq_def]
    split
    · rename_i heq
      cases heq
    · rename_i heq
      cases heq
      exact absurd rfl hc
    · rename_i heq
      cases heq
      rw [if_neg hc, hrest]

theorem linesFrom_append (line : Text) (h : OneLine text) (rest : Text) :
    linesFrom line (text ++ '\n' :: rest) = (line.reverse ++ text) :: linesFrom [] rest := by
  induction text generalizing line with
  | nil => simp [linesFrom]
  | cons c text ih =>
    have hc : c ≠ '\n' := (h c List.mem_cons_self).1
    rw [List.cons_append, linesFrom, if_neg hc,
      ih (c :: line) fun d hd => h d (List.mem_cons_of_mem c hd)]
    simp

theorem lines_terminated (h : ∀ line ∈ ls, OneLine line) : lines (terminated ls) = ls := by
  have hplain : ∀ c ∈ terminated ls, c ≠ '\r' := by
    intro c hc
    obtain ⟨line, hline, hc⟩ := List.mem_flatMap.mp hc
    rcases List.mem_append.mp hc with hc | hc
    · exact (h line hline c hc).2
    · rw [List.mem_singleton.mp hc]
      decide
  rw [lines, universalNewlines_eq hplain]
  clear hplain
  induction ls with
  | nil => rfl
  | cons line ls ih =>
    rw [terminated, List.flatMap_cons, List.append_assoc, List.singleton_append,
      linesFrom_append [] (h line List.mem_cons_self)]
    exact congrArg (line :: ·) (ih fun l hl => h l (List.mem_cons_of_mem line hl))

section Windows

variable {α : Type*} {xs : List α}

open List in
/-- A window that begins too early is the right one when both are empty, or when the elements
repeat themselves. -/
theorem window_eq_iff (hk : k ≤ offset) (hlen : k ≤ xs.length)
    (hlimit : 0 < limit) :
    (xs.drop k).take limit = (xs.drop offset).take limit ↔
      k = offset ∨ k = xs.length ∨
        (offset + limit ≤ xs.length ∧ ∀ i < limit, xs[k + i]? = xs[offset + i]?) := by
  constructor
  · intro h
    by_cases hends : k = offset ∨ k = xs.length
    · rcases hends with heq | heq
      · exact .inl heq
      · exact .inr (.inl heq)
    · push Not at hends
      have hlength := congrArg length h
      simp only [length_take, length_drop] at hlength
      have hfits : offset + limit ≤ xs.length := by omega
      refine .inr (.inr ⟨hfits, ?_⟩)
      intro i hi
      have hget := congrArg (fun ys : List α => ys[i]?) h
      simpa [getElem?_take, hi, getElem?_drop] using hget
  · rintro (rfl | heq | ⟨hfits, hsame⟩)
    · rfl
    · rw [drop_eq_nil_of_le (Nat.le_of_eq heq.symm),
        drop_eq_nil_of_le (heq ▸ hk)]
    · refine ext_getElem? ?_
      intro i
      rw [getElem?_take, getElem?_take]
      split_ifs with hi
      · rw [getElem?_drop, getElem?_drop, hsame i hi]
      · rfl

theorem flatMap_windows (limit n : ℕ) :
    (List.range n).flatMap (fun i => (xs.drop (i * limit)).take limit) = xs.take (n * limit) := by
  induction n with
  | zero => simp
  | succ n ih =>
    rw [List.range_succ, List.flatMap_append, ih, List.flatMap_singleton, Nat.succ_mul,
      List.take_add]

end Windows

end Agent33.Library.LineLog
