import Mathlib.Algebra.GroupWithZero.Nat
import Mathlib.Data.Char
import Mathlib.Data.Int.Basic
import Mathlib.Data.List.DropRight
import Mathlib.Data.List.Lex

/-!
# Text

A text is a list of characters. Lines end at every line boundary that Unicode
text splitting knows, white space is what Unicode counts as such, and reading a
file translates every line ending to a newline.
-/

namespace Agent33.Library

abbrev Text := List Char

instance lawfulBEq_text : LawfulBEq Text := List.instLawfulBEq

namespace Text

def ofString (s : String) : Text := s.toList

def isLineBoundary (c : Char) : Bool :=
  decide (c.toNat ∈ [0x0a, 0x0b, 0x0c, 0x0d, 0x1c, 0x1d, 0x1e, 0x85, 0x2028, 0x2029])

def isSpace (c : Char) : Bool :=
  decide (0x09 ≤ c.toNat ∧ c.toNat ≤ 0x0d ∨ 0x1c ≤ c.toNat ∧ c.toNat ≤ 0x20 ∨
    0x2000 ≤ c.toNat ∧ c.toNat ≤ 0x200a ∨
    c.toNat ∈ [0x85, 0xa0, 0x1680, 0x2028, 0x2029, 0x202f, 0x205f, 0x3000])

/-- The lines of a text, the first of which begins with the characters of
`line`, last one first. -/
def splitlinesFrom (line : Text) : Text → List Text
  | [] => if line = [] then [] else [line.reverse]
  | '\r' :: '\n' :: rest => line.reverse :: splitlinesFrom [] rest
  | c :: rest =>
    if isLineBoundary c then line.reverse :: splitlinesFrom [] rest
    else splitlinesFrom (c :: line) rest

def splitlines (text : Text) : List Text := splitlinesFrom [] text

def lstrip (text : Text) : Text := text.dropWhile isSpace

def strip (text : Text) : Text := (lstrip (lstrip text).reverse).reverse

def words (text : Text) : List Text := (text.splitOnP isSpace).filter (fun word => word ≠ [])

def includes (text sub : Text) : Bool := text.tails.any fun rest => sub.isPrefixOf rest

def removePrefix (pre text : Text) : Text :=
  if pre.isPrefixOf text then text.drop pre.length else text

def joinWith (separator : Text) : List Text → Text
  | [] => []
  | [text] => text
  | text :: rest => text ++ separator ++ joinWith separator rest

def oneLine (text : Text) : Text := text.map fun c => if c = '\n' then ' ' else c

/-- Reading in text mode: `\r\n` and `\r` become `\n`. -/
def universalNewlines : Text → Text
  | [] => []
  | '\r' :: '\n' :: rest => '\n' :: universalNewlines rest
  | c :: rest => (if c = '\r' then '\n' else c) :: universalNewlines rest

def digitZeros : List ℕ :=
  [0x30, 0x660, 0x6f0, 0x7c0, 0x966, 0x9e6, 0xa66, 0xae6, 0xb66, 0xbe6, 0xc66, 0xce6, 0xd66,
    0xde6, 0xe50, 0xed0, 0xf20, 0x1040, 0x1090, 0x17e0, 0x1810, 0x1946, 0x19d0, 0x1a80, 0x1a90,
    0x1b50, 0x1bb0, 0x1c40, 0x1c50, 0xa620, 0xa8d0, 0xa900, 0xa9d0, 0xa9f0, 0xaa50, 0xabf0,
    0xff10, 0x104a0, 0x10d30, 0x11066, 0x110f0, 0x11136, 0x111d0, 0x112f0, 0x11450, 0x114d0,
    0x11650, 0x116c0, 0x11730, 0x118e0, 0x11950, 0x11c50, 0x11d50, 0x11da0, 0x16a60, 0x16ac0,
    0x16b50, 0x1d7ce, 0x1d7d8, 0x1d7e2, 0x1d7ec, 0x1d7f6, 0x1e140, 0x1e2f0, 0x1e950, 0x1fbf0]

def digitValue (c : Char) : Option ℕ :=
  (digitZeros.find? fun z => decide (z ≤ c.toNat) && decide (c.toNat < z + 10)).map (c.toNat - ·)

/-- The digits after the first one, with single underscores between them. -/
def parseDigits : ℕ → Text → Option ℕ
  | value, [] => some value
  | value, '_' :: c :: rest =>
    match digitValue c with
    | some d => parseDigits (10 * value + d) rest
    | none => none
  | value, c :: rest =>
    match digitValue c with
    | some d => parseDigits (10 * value + d) rest
    | none => none

def parseNat : Text → Option ℕ
  | [] => none
  | c :: rest =>
    match digitValue c with
    | some d => parseDigits d rest
    | none => none

/-- The integer that a text denotes, with white space around it and a sign. -/
def parseInt (text : Text) : Option Int :=
  match strip text with
  | '-' :: rest => (parseNat rest).map fun n => -(n : Int)
  | '+' :: rest => (parseNat rest).map fun n => (n : Int)
  | rest => (parseNat rest).map fun n => (n : Int)

def ofNat (n : ℕ) : Text := Nat.toDigits 10 n

variable {c : Char}

theorem isDigit_bounds (h : c.isDigit = true) : 48 ≤ c.toNat ∧ c.toNat < 58 := by
  rw [Char.isDigit_iff_toNat] at h
  have h0 : '0'.toNat = 48 := rfl
  have h9 : '9'.toNat = 57 := rfl
  omega

theorem digitValue_of_isDigit (h : c.isDigit = true) :
    digitValue c = some (c.toNat - '0'.toNat) := by
  obtain ⟨hlo, hhi⟩ := isDigit_bounds h
  have hfind : digitZeros.find? (fun z => decide (z ≤ c.toNat) && decide (c.toNat < z + 10)) =
      some 48 := by
    rw [digitZeros, List.find?_cons_of_pos]
    simp [hlo, hhi]
  rw [digitValue, hfind]
  rfl

theorem parseDigits_of_isDigit (h : ∀ c ∈ text, c.isDigit = true) (value : ℕ) :
    parseDigits value text = some (Nat.ofDigitChars 10 text value) := by
  induction text generalizing value with
  | nil => rfl
  | cons c rest ih =>
    have hc := h c List.mem_cons_self
    have hne : c ≠ '_' := by
      rintro rfl
      exact absurd hc (by decide)
    have hstep : parseDigits value (c :: rest) =
        match digitValue c with
        | some d => parseDigits (10 * value + d) rest
        | none => none := by
      rw [parseDigits]
      intro _ _ heq
      exact absurd heq hne
    rw [hstep, digitValue_of_isDigit hc, Nat.ofDigitChars_cons]
    exact ih (fun d hd => h d (List.mem_cons_of_mem c hd)) _

theorem isSpace_of_isDigit (h : c.isDigit = true) : isSpace c = false := by
  obtain ⟨hlo, hhi⟩ := isDigit_bounds h
  simp only [isSpace, decide_eq_false_iff_not, List.mem_cons, List.not_mem_nil, or_false]
  omega

theorem lstrip_of_noSpace (h : ∀ c ∈ text, isSpace c = false) : lstrip text = text := by
  cases text with
  | nil => rfl
  | cons c rest =>
    rw [lstrip, List.dropWhile_cons_of_neg (by simp [h c List.mem_cons_self])]

theorem strip_of_noSpace (h : ∀ c ∈ text, isSpace c = false) : strip text = text := by
  rw [strip, lstrip_of_noSpace h, lstrip_of_noSpace, List.reverse_reverse]
  exact fun c hc => h c (List.mem_reverse.mp hc)

open List in
theorem strip_strip (text : Text) : strip (strip text) = strip text := by
  have hstrip : ∀ text : Text, strip text =
      rdropWhile isSpace (dropWhile isSpace text) := fun text => rfl
  have hleft : dropWhile isSpace (strip text) = strip text := by
    obtain ⟨rest, hrest⟩ := rdropWhile_prefix isSpace (lstrip text)
    have hidem := dropWhile_idempotent isSpace text
    change strip text ++ rest = dropWhile isSpace text at hrest
    rw [← hrest] at hidem
    cases htext : strip text with
    | nil => rfl
    | cons c t =>
      rw [htext, cons_append] at hidem
      by_cases hc : isSpace c = true
      · rw [dropWhile_cons_of_pos hc] at hidem
        have hlength := congrArg length hidem
        have hle := (dropWhile_sublist isSpace (l := t ++ rest)).length_le
        rw [length_cons] at hlength
        omega
      · rw [dropWhile_cons_of_neg hc]
  rw [hstrip (strip text), hleft, hstrip text, rdropWhile_idempotent]

theorem isDigit_of_mem_ofNat (hc : c ∈ ofNat n) : c.isDigit = true :=
  Nat.isDigit_of_mem_toDigits (by decide) (by decide) hc

theorem ofNat_ne_nil (n : ℕ) : ofNat n ≠ [] := Nat.toDigits_ne_nil

theorem parseInt_ofNat (n : ℕ) : parseInt (ofNat n) = some (n : Int) := by
  have hdigits : ∀ c ∈ ofNat n, c.isDigit = true := fun c => isDigit_of_mem_ofNat
  have hvalue : Nat.ofDigitChars 10 (ofNat n) 0 = n := Nat.ofDigitChars_ten_toDigits
  rw [parseInt, strip_of_noSpace fun c hc => isSpace_of_isDigit (hdigits c hc)]
  cases htext : ofNat n with
  | nil => exact absurd htext (ofNat_ne_nil n)
  | cons c rest =>
    rw [htext] at hdigits hvalue
    have hc := hdigits c List.mem_cons_self
    have hplus : c ≠ '+' := by
      rintro rfl
      exact absurd hc (by decide)
    have hminus : c ≠ '-' := by
      rintro rfl
      exact absurd hc (by decide)
    have hnat : parseNat (c :: rest) = some n := by
      rw [Nat.ofDigitChars_cons, Nat.mul_zero, Nat.zero_add] at hvalue
      rw [parseNat, digitValue_of_isDigit hc]
      dsimp only
      rw [parseDigits_of_isDigit fun d hd => hdigits d (List.mem_cons_of_mem c hd), hvalue]
    split
    · rename_i h
      exact absurd (List.cons.inj h).1 hminus
    · rename_i h
      exact absurd (List.cons.inj h).1 hplus
    · rw [hnat]
      rfl

end Text

end Agent33.Library

/-!
## Slices

The part of a list between two positions. A negative position counts from the end of the list,
and a position outside the list is moved to its border.
-/

namespace Agent33.Library

variable {α : Type*}

def slicePosition (length : ℕ) (i : ℤ) : ℕ :=
  if i < 0 then (i + length).toNat else i.toNat

/-- `xs[i:j]`. -/
def slice (xs : List α) (i j : ℤ) : List α :=
  (xs.take (slicePosition xs.length j)).drop (slicePosition xs.length i)

theorem slicePosition_natCast (length i : ℕ) : slicePosition length i = i := by
  rw [slicePosition, if_neg (by omega), Int.toNat_natCast]

theorem slice_natCast (xs : List α) (i j : ℕ) : slice xs i j = (xs.take j).drop i := by
  rw [slice, slicePosition_natCast, slicePosition_natCast]

theorem slice_zero (xs : List α) (j : ℤ) : slice xs 0 j = xs.take (slicePosition xs.length j) := by
  rw [slice, show (0 : ℤ) = ((0 : ℕ) : ℤ) from rfl, slicePosition_natCast, List.drop_zero]

end Agent33.Library
