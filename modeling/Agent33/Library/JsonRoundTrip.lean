import Agent33.Library.JsonText
import Mathlib.Tactic.IntervalCases

/-!
# Round trips of JSON texts

A printed value is parsed as its normal form, in every layout.
-/

namespace Agent33.Library.JsonText

open List Option

def explode (c : CodePoint) : Str :=
  if c.val < 0x10000 then [c]
  else [Fin.ofNat _ (0xd800 + (c.val - 0x10000) / 0x400),
    Fin.ofNat _ (0xdc00 + (c.val - 0x10000) % 0x400)]

theorem hexValue_hexDigit (n : ℕ) : hexValue (hexDigit n) = some (n % 16) := by
  have h : ∀ m : Fin 16, hexValue (Nat.digitChar m) = some m.val := by decide
  exact h ⟨n % 16, Nat.mod_lt _ (by omega)⟩

variable {c d : CodePoint}

theorem decodeHex_hexDigit (hn : n < 0x10000) :
    decodeHex (hexDigit (n / 4096)) (hexDigit (n / 256)) (hexDigit (n / 16)) (hexDigit n) =
      some (Fin.ofNat _ n) := by
  simp only [decodeHex, hexValue_hexDigit, bind_eq_bind, bind_some, Option.pure_def,
    some.injEq]
  congr 1
  omega

theorem scanUnits_unicodeEscape (hn : n < 0x10000) (rest : Text) :
    scanUnits (unicodeEscape n ++ rest) =
      (scanUnits rest).map fun p => (Fin.ofNat _ n :: p.1, p.2) := by
  simp only [unicodeEscape, cons_append, nil_append, scanUnits, decodeHex_hexDigit hn]
  cases scanUnits rest <;> rfl

theorem scanUnits_shortEscape (he : e ∈ shortEscapes) (rest : Text) :
    scanUnits ('\\' :: e.2 :: rest) =
      (scanUnits rest).map fun p => (Fin.ofNat _ e.1 :: p.1, p.2) := by
  simp only [shortEscapes, mem_cons, not_mem_nil, or_false] at he
  rcases he with rfl | rfl | rfl | rfl | rfl | rfl | rfl <;>
    · rw [scanUnits]
      · cases scanUnits rest <;> rfl
      · nofun

theorem ofNat_val (c : CodePoint) : Fin.ofNat 0x110000 c.val = c :=
  Fin.ext (Nat.mod_eq_of_lt c.isLt)

theorem toNat_ofNat (hn : n < 0x7f) : (Char.ofNat n).toNat = n := by
  have hvalid : n.isValidChar := .inl (by omega)
  rw [Char.ofNat, dif_pos hvalid]
  rfl

theorem scanUnits_plain {c : Char} (hquote : c ≠ '"') (hslash : c ≠ '\\') (hc : 0x20 ≤ c.toNat)
    (rest : Text) :
    scanUnits (c :: rest) = (scanUnits rest).map fun p => (codePoint c :: p.1, p.2) := by
  have hnot : ¬(c = '\\' ∨ c.toNat < 0x20) := not_or.mpr ⟨hslash, by omega⟩
  rw [scanUnits]
  · rw [if_neg hquote, if_neg hnot]
    cases scanUnits rest <;> rfl
  · exact fun _ _ _ _ _ h => absurd h hslash
  · exact fun _ _ h => absurd h hslash

theorem scanUnits_escape (c : CodePoint) (rest : Text) :
    scanUnits (escape c ++ rest) = (scanUnits rest).map fun p => (explode c ++ p.1, p.2) := by
  have hc := c.isLt
  rw [escape]
  cases hfind : shortEscapes.find? fun e => decide (e.1 = c.val) with
  | some e =>
    have hval : e.1 = c.val := by simpa using find?_some hfind
    have hmem := mem_of_find?_eq_some hfind
    have hlt : c.val < 0x10000 := by
      simp only [shortEscapes, mem_cons, not_mem_nil, or_false] at hmem
      rw [← hval]
      rcases hmem with rfl | rfl | rfl | rfl | rfl | rfl | rfl <;> decide
    have hscan := scanUnits_shortEscape hmem rest
    rw [hval, ofNat_val] at hscan
    dsimp only
    rw [explode, if_pos hlt]
    exact hscan
  | none =>
    have hother : ∀ e ∈ shortEscapes, e.1 ≠ c.val := by simpa using find?_eq_none.mp hfind
    dsimp only
    split_ifs with hprintable hshort
    · have hn := toNat_ofNat hprintable.2
      have hquote : Char.ofNat c.val ≠ '"' := fun h => by
        refine hother (0x22, '"') (by decide) ?_
        rw [← hn, h]
        rfl
      have hslash : Char.ofNat c.val ≠ '\\' := fun h => by
        refine hother (0x5c, '\\') (by decide) ?_
        rw [← hn, h]
        rfl
      have hplain := scanUnits_plain hquote hslash (by omega) rest
      have hcode : codePoint (Char.ofNat c.val) = c := Fin.ext hn
      rw [hcode] at hplain
      rw [explode, if_pos (by omega)]
      exact hplain
    · have hscan := scanUnits_unicodeEscape hshort rest
      rw [ofNat_val] at hscan
      rw [explode, if_pos hshort]
      exact hscan
    · rw [explode, if_neg hshort, append_assoc, scanUnits_unicodeEscape (by omega),
        scanUnits_unicodeEscape (by omega)]
      cases scanUnits rest <;> rfl

theorem scanUnits_escaped (s : Str) (rest : Text) :
    scanUnits (s.flatMap escape ++ '"' :: rest) = some (s.flatMap explode, rest) := by
  induction s with
  | nil =>
    rw [flatMap_nil, nil_append, scanUnits]
    · rfl
    · nofun
    · nofun
  | cons c s ih =>
    rw [flatMap_cons, append_assoc, scanUnits_escape, ih]
    rfl

theorem merge_cons (h : (isHigh c && isLow d) = false) (s : Str) :
    merge (c :: d :: s) = c :: merge (d :: s) := by
  rw [merge, h]
  rfl

theorem merge_pair (h : (isHigh c && isLow d) = true) (s : Str) :
    merge (c :: d :: s) = combine c d :: merge s := by
  rw [merge, if_pos h]

theorem isLow_combine (c d : CodePoint) (h : (isHigh c && isLow d) = true) :
    isHigh (combine c d) = false ∧ isLow (combine c d) = false := by
  simp only [isHigh, isLow, Bool.and_eq_true, decide_eq_true_eq] at h
  have hval : (combine c d).val = 0x10000 + (c.val - 0xd800) * 0x400 + (d.val - 0xdc00) :=
    Nat.mod_eq_of_lt (by omega)
  simp only [isHigh, isLow, hval, decide_eq_false_iff_not]
  omega

theorem merge_head (c : CodePoint) (s : Str) :
    ∃ d t, merge (c :: s) = d :: t ∧ (isLow d = true → isLow c = true) := by
  cases s with
  | nil => exact ⟨c, [], rfl, id⟩
  | cons d s =>
    cases h : isHigh c && isLow d with
    | true =>
      refine ⟨combine c d, merge s, merge_pair h s, fun hlow => ?_⟩
      rw [(isLow_combine c d h).2] at hlow
      cases hlow
    | false => exact ⟨c, merge (d :: s), merge_cons h s, id⟩

theorem merge_cons_merge (hs : merge s = s)
    (h : ∀ d t, s = d :: t → (isHigh c && isLow d) = false) : merge (c :: s) = c :: s := by
  cases s with
  | nil => rfl
  | cons d t => rw [merge_cons (h d t rfl), hs]

theorem merge_merge (s : Str) : merge (merge s) = merge s := by
  fun_induction merge s with
  | case1 c d s h ih =>
    refine merge_cons_merge ih fun e t _ => ?_
    rw [(isLow_combine c d h).1, Bool.false_and]
  | case2 c d s h ih =>
    obtain ⟨e, t, hmerge, hlow⟩ := merge_head d s
    refine merge_cons_merge ih fun e' t' he => ?_
    rw [hmerge] at he
    cases he
    cases hc : isHigh c with
    | false => rfl
    | true =>
      cases hd : isLow e with
      | false => rfl
      | true => simp [hc, hlow hd] at h
  | case3 s h =>
    cases s with
    | nil => rfl
    | cons c s =>
      cases s with
      | nil => rfl
      | cons d s => exact absurd rfl (h c d s)

theorem merge_explode_append (c : CodePoint) (hc : ¬c.val < 0x10000) (s : Str) :
    merge (explode c ++ s) = c :: merge s := by
  have hlt := c.isLt
  have hhigh : (Fin.ofNat 0x110000 (0xd800 + (c.val - 0x10000) / 0x400)).val =
      0xd800 + (c.val - 0x10000) / 0x400 := Nat.mod_eq_of_lt (by omega)
  have hlow : (Fin.ofNat 0x110000 (0xdc00 + (c.val - 0x10000) % 0x400)).val =
      0xdc00 + (c.val - 0x10000) % 0x400 := Nat.mod_eq_of_lt (by omega)
  rw [explode, if_neg hc, cons_append, cons_append, nil_append, merge_pair]
  · refine congrArg (· :: merge s) (Fin.ext ?_)
    rw [combine, hhigh, hlow, Fin.val_ofNat, Nat.mod_eq_of_lt (by omega)]
    omega
  · simp only [isHigh, isLow, hhigh, hlow, Bool.and_eq_true, decide_eq_true_eq]
    omega

theorem explode_head (d : CodePoint) (s : Str) :
    ∃ e t, explode d ++ s = e :: t ∧ (isLow e = true → isLow d = true) := by
  have hlt := d.isLt
  rw [explode]
  split_ifs with hd
  · exact ⟨d, s, rfl, id⟩
  · refine ⟨_, _, rfl, fun hlow => ?_⟩
    simp only [isLow, Fin.val_ofNat, decide_eq_true_eq] at hlow
    omega

theorem lt_of_isHigh (h : isHigh c = true) : c.val < 0x10000 := by
  simp only [isHigh, decide_eq_true_eq] at h
  omega

theorem lt_of_isLow (h : isLow c = true) : c.val < 0x10000 := by
  simp only [isLow, decide_eq_true_eq] at h
  omega

theorem merge_explode (s : Str) : merge (s.flatMap explode) = merge s := by
  fun_induction merge s with
  | case1 c d s h ih =>
    have hpair := h
    rw [Bool.and_eq_true] at hpair
    rw [flatMap_cons, flatMap_cons, explode, if_pos (lt_of_isHigh hpair.1), explode,
      if_pos (lt_of_isLow hpair.2), singleton_append, singleton_append, merge_pair h, ih]
  | case2 c d s h ih =>
    rw [flatMap_cons]
    by_cases hc : c.val < 0x10000
    · obtain ⟨e, t, he, hlow⟩ := explode_head d (s.flatMap explode)
      rw [flatMap_cons, he] at ih ⊢
      rw [explode, if_pos hc, singleton_append, merge_cons, ih]
      cases hhigh : isHigh c with
      | false => rfl
      | true =>
        cases hlow' : isLow e with
        | false => rfl
        | true => simp [hhigh, hlow hlow'] at h
    · rw [merge_explode_append c hc, ih]
  | case3 s h =>
    cases s with
    | nil => rfl
    | cons c s =>
      cases s with
      | nil =>
        rw [flatMap_cons, flatMap_nil]
        by_cases hc : c.val < 0x10000
        · rw [explode, if_pos hc]
          rfl
        · rw [merge_explode_append c hc]
          rfl
      | cons d s => exact absurd rfl (h c d s)

theorem scanString_escaped (s : Str) (rest : Text) :
    scanString (s.flatMap escape ++ '"' :: rest) = .ok (merge s, rest) := by
  rw [scanString, scanUnits_escaped]
  dsimp only
  rw [merge_explode]

def Ends (rest : Text) : Prop :=
  ∀ c t, rest = c :: t → c.isDigit = false ∧ c ≠ '.' ∧ c ≠ 'e' ∧ c ≠ 'E'

def AllDigits (digits : Text) : Prop := ∀ c ∈ digits, c.isDigit = true

theorem takeWhile_digits (hdigits : AllDigits digits)
    (hrest : ∀ (c : Char) t, rest = c :: t → c.isDigit = false) :
    (digits ++ rest).takeWhile Char.isDigit = digits ∧
      (digits ++ rest).dropWhile Char.isDigit = rest := by
  rw [takeWhile_append_of_pos hdigits, dropWhile_append_of_pos hdigits]
  cases rest with
  | nil => simp
  | cons c t => simp [hrest c t rfl]

def IsWhole (whole : Text) : Prop :=
  whole = ['0'] ∨ ∃ c digits, whole = c :: digits ∧ c ≠ '0' ∧ AllDigits whole

theorem scanWhole_of_isWhole (h : IsWhole whole)
    (hrest : ∀ (c : Char) t, rest = c :: t → c.isDigit = false) :
    scanWhole (whole ++ rest) = some (whole, rest) := by
  rcases h with rfl | ⟨c, digits, rfl, hc, hdigits⟩
  · rfl
  · obtain ⟨htake, hdrop⟩ := takeWhile_digits hdigits hrest
    rw [cons_append] at htake hdrop ⊢
    rw [scanWhole]
    · rw [htake, hdrop]
    · exact fun _ h => absurd (cons.inj h).1 hc

def IsFraction (fraction : Text) : Prop :=
  fraction = [] ∨ ∃ digits, fraction = '.' :: digits ∧ digits ≠ [] ∧ AllDigits digits

theorem scanFraction_of_isFraction (h : IsFraction fraction)
    (hrest : ∀ (c : Char) t, rest = c :: t → c.isDigit = false ∧ c ≠ '.') :
    scanFraction (fraction ++ rest) = (fraction, rest) := by
  rcases h with rfl | ⟨digits, rfl, hne, hdigits⟩
  · cases rest with
    | nil => rfl
    | cons c t =>
      rw [nil_append, scanFraction]
      exact fun _ h => absurd (cons.inj h).1 (hrest c t rfl).2
  · obtain ⟨htake, hdrop⟩ := takeWhile_digits hdigits fun c t h => (hrest c t h).1
    rw [cons_append, scanFraction, htake, hdrop]
    cases digits with
    | nil => exact absurd rfl hne
    | cons d digits => rfl

def IsExponent (exponent : Text) : Prop :=
  exponent = [] ∨ ∃ mark sign digits, exponent = mark :: sign ++ digits ∧
    (mark = 'e' ∨ mark = 'E') ∧ (sign = [] ∨ sign = ['+'] ∨ sign = ['-']) ∧ digits ≠ [] ∧
      AllDigits digits

theorem scanSign_digits (hsign : sign = [] ∨ sign = ['+'] ∨ sign = ['-'])
    (hne : digits ≠ []) (hdigits : AllDigits digits) (rest : Text) :
    scanSign (sign ++ (digits ++ rest)) = (sign, digits ++ rest) := by
  rcases hsign with rfl | rfl | rfl
  · obtain ⟨c, digits, rfl⟩ := exists_cons_of_ne_nil hne
    have hc := hdigits c mem_cons_self
    rw [nil_append, cons_append, scanSign]
    · intro rest h
      rw [(cons.inj h).1] at hc
      cases hc
    · intro rest h
      rw [(cons.inj h).1] at hc
      cases hc
  · rfl
  · rfl

theorem scanExponent_of_isExponent (h : IsExponent exponent)
    (hrest : ∀ (c : Char) t, rest = c :: t → c.isDigit = false ∧ c ≠ 'e' ∧ c ≠ 'E') :
    scanExponent (exponent ++ rest) = (exponent, rest) := by
  rcases h with rfl | ⟨mark, sign, digits, rfl, hmark, hsign, hne, hdigits⟩
  · cases rest with
    | nil => rfl
    | cons c t =>
      rw [nil_append, scanExponent, if_neg]
      exact not_or.mpr (hrest c t rfl).2
  · obtain ⟨htake, hdrop⟩ := takeWhile_digits hdigits fun c t h => (hrest c t h).1
    rw [append_assoc, cons_append, scanExponent, if_pos hmark,
      scanSign_digits hsign hne hdigits]
    dsimp only
    rw [htake, hdrop]
    cases digits with
    | nil => exact absurd rfl hne
    | cons d digits => rfl

theorem toDigits_head (hn : 0 < n) : ∃ c digits, Nat.toDigits 10 n = c :: digits ∧ c ≠ '0' := by
  induction n using Nat.strong_induction_on with
  | _ n ih =>
    by_cases hlt : n < 10
    · rw [Nat.toDigits_of_lt_base hlt]
      refine ⟨_, [], rfl, ?_⟩
      interval_cases n <;> decide
    · obtain ⟨c, digits, hdigits, hc⟩ := ih (n / 10) (by omega) (by omega)
      rw [Nat.toDigits_of_base_le (by decide) (by omega), hdigits]
      exact ⟨c, _, rfl, hc⟩

theorem allDigits_toDigits (n : ℕ) : AllDigits (Nat.toDigits 10 n) :=
  fun _ hc => Nat.isDigit_of_mem_toDigits (by decide) (by decide) hc

theorem isWhole_toDigits (n : ℕ) : IsWhole (Nat.toDigits 10 n) := by
  rcases Nat.eq_zero_or_pos n with rfl | hn
  · exact .inl (Nat.toDigits_zero 10)
  · obtain ⟨c, digits, hdigits, hc⟩ := toDigits_head hn
    exact .inr ⟨c, digits, hdigits, hc, allDigits_toDigits n⟩

theorem IsWhole.head (h : IsWhole whole) : ∃ c digits, whole = c :: digits ∧ c.isDigit = true := by
  rcases h with rfl | ⟨c, digits, rfl, -, hdigits⟩
  · exact ⟨'0', [], rfl, rfl⟩
  · exact ⟨c, digits, rfl, hdigits c mem_cons_self⟩

structure IsNumber (minus whole fraction exponent : Text) : Prop where
  minus : minus = [] ∨ minus = ['-']
  whole : IsWhole whole
  fraction : IsFraction fraction
  exponent : IsExponent exponent

section Number

theorem scanMinus_append (h : minus = [] ∨ minus = ['-']) (hwhole : IsWhole whole) (rest : Text) :
    scanMinus (minus ++ (whole ++ rest)) = (minus, whole ++ rest) := by
  rcases h with rfl | rfl
  · obtain ⟨c, digits, rfl, hc⟩ := hwhole.head
    rw [nil_append, cons_append, scanMinus]
    intro rest h
    rw [(cons.inj h).1] at hc
    cases hc
  · rfl

theorem parseNumber_number (h : IsNumber minus whole fraction exponent) (hrest : Ends rest) :
    parseNumber floats (minus ++ (whole ++ (fraction ++ (exponent ++ rest)))) =
      if fraction = [] ∧ exponent = [] then
        match boundedInt? (if minus = [] then (Nat.ofDigitChars 10 whole 0 : ℤ)
          else -(Nat.ofDigitChars 10 whole 0 : ℤ)) with
        | some n => .ok (.int n, rest)
        | none => .error .tooManyDigits
      else .ok (.float (floats.parse (minus ++ whole ++ fraction ++ exponent)), rest) := by
  have hexponent : ∀ c t, exponent ++ rest = c :: t → c.isDigit = false ∧ c ≠ '.' := by
    intro c t hct
    rcases h.exponent with rfl | ⟨mark, sign, digits, rfl, hmark, -⟩
    · exact ⟨(hrest c t hct).1, (hrest c t hct).2.1⟩
    · cases hct
      rcases hmark with rfl | rfl <;> exact ⟨rfl, by decide⟩
  have hfraction : ∀ c t, fraction ++ (exponent ++ rest) = c :: t → c.isDigit = false := by
    intro c t hct
    rcases h.fraction with rfl | ⟨digits, rfl, -⟩
    · exact (hexponent c t hct).1
    · cases hct
      rfl
  rw [parseNumber, scanMinus_append h.minus h.whole]
  dsimp only
  rw [scanWhole_of_isWhole h.whole hfraction]
  dsimp only
  rw [scanFraction_of_isFraction h.fraction hexponent]
  dsimp only
  have hscan := scanExponent_of_isExponent h.exponent fun c t hct =>
    ⟨(hrest c t hct).1, (hrest c t hct).2.2⟩
  generalize scanExponent (exponent ++ rest) = scanned at hscan ⊢
  subst hscan
  rfl

theorem scanLiteral_digit {c : Char} (hc : c.isDigit = true) (hminus : minus = [] ∨ minus = ['-'])
    (rest : Text) : scanLiteral (minus ++ c :: rest) = none := by
  have hne : ∀ d : Char, d.isDigit = false → (d == c) = false := fun d hd => by
    refine beq_eq_false_iff_ne.mpr fun h => ?_
    rw [h, hc] at hd
    cases hd
  rw [scanLiteral, map_eq_none_iff, find?_eq_none]
  intro entry hentry
  simp only [literals, mem_cons, not_mem_nil, or_false] at hentry
  rcases hminus with rfl | rfl <;> rcases hentry with rfl | rfl | rfl | rfl | rfl | rfl <;>
    simp [List.isPrefixOf, hne]

theorem parseAtom_number (h : IsNumber minus whole fraction exponent) (rest : Text) :
    parseAtom floats (minus ++ (whole ++ (fraction ++ (exponent ++ rest)))) =
      parseNumber floats (minus ++ (whole ++ (fraction ++ (exponent ++ rest)))) := by
  obtain ⟨c, digits, hwhole, hc⟩ := h.whole.head
  rw [parseAtom, hwhole, cons_append, scanLiteral_digit hc h.minus]

end Number

/-- A text that `float.__repr__` gives: a number that is none of an integer. -/
def FloatToken (text : Text) : Prop :=
  ∃ minus whole fraction exponent, text = minus ++ whole ++ fraction ++ exponent ∧
    IsNumber minus whole fraction exponent ∧ ¬(fraction = [] ∧ exponent = [])

/-- What is documented of `float` and its `repr`. -/
structure Floats.Lawful (floats : Floats) : Prop where
  token : ∀ bits, isFinite bits = true → FloatToken (floats.repr bits)
  parse_repr : ∀ bits, isFinite bits = true → floats.parse (floats.repr bits) = bits
  parse_number : ∀ text, isNaN (floats.parse text) = false

theorem boundedInt?_value (n : BoundedInt) : boundedInt? n.value = some n := by
  rw [boundedInt?, dif_pos n.length_le]

theorem parseAtom_intText (floats : Floats) (n : BoundedInt) (hrest : Ends rest) :
    parseAtom floats (intText n.value ++ rest) = .ok (.int n, rest) := by
  have hnumber : IsNumber (if n.value < 0 then ['-'] else []) (Nat.toDigits 10 n.value.natAbs)
      [] [] := by
    refine ⟨?_, isWhole_toDigits _, .inl rfl, .inl rfl⟩
    split_ifs
    · exact .inr rfl
    · exact .inl rfl
  have htext : intText n.value ++ rest = (if n.value < 0 then ['-'] else []) ++
      (Nat.toDigits 10 n.value.natAbs ++ ([] ++ ([] ++ rest))) := by
    rw [intText]
    split_ifs <;> simp
  have hvalue : (if (if n.value < 0 then ['-'] else []) = [] then (n.value.natAbs : ℤ)
      else -(n.value.natAbs : ℤ)) = n.value := by
    by_cases hneg : n.value < 0
    · rw [if_pos hneg, if_neg (cons_ne_nil _ _)]
      omega
    · rw [if_neg hneg, if_pos rfl]
      omega
  rw [htext, parseAtom_number hnumber, parseNumber_number hnumber hrest, if_pos ⟨rfl, rfl⟩,
    Nat.ofDigitChars_ten_toDigits, hvalue, boundedInt?_value]

theorem parseAtom_floatText (hfloats : floats.Lawful) (bits : BitVec 64)
    (hrest : Ends rest) :
    parseAtom floats (floatText floats bits ++ rest) = .ok (.float (canonical bits), rest) := by
  rw [floatText, canonical]
  split_ifs with hnan hinf hneg
  · rfl
  · rw [hinf]
    rfl
  · rw [hneg]
    rfl
  · have hfinite : isFinite bits = true := by simp [isFinite, hnan, hinf, hneg]
    obtain ⟨minus, whole, fraction, exponent, htext, hnumber, hfloat⟩ := hfloats.token bits hfinite
    have hparse := hfloats.parse_repr bits hfinite
    rw [htext] at hparse ⊢
    simp only [append_assoc] at hparse ⊢
    rw [parseAtom_number hnumber, parseNumber_number hnumber hrest, if_neg hfloat]
    simp only [append_assoc, hparse]

theorem skip_append (hblank : ∀ c ∈ blank, isWhitespace c = true) (text : Text) :
    skip (blank ++ text) = skip text := dropWhile_append_of_pos hblank

theorem skip_cons {c : Char} (hc : isWhitespace c = false) (text : Text) :
    skip (c :: text) = c :: text := by
  rw [skip, dropWhile_cons_of_neg (by simp [hc])]

theorem isDigit_of_isWhitespace {c : Char} (hc : isWhitespace c = true) : c.isDigit = false := by
  simp only [isWhitespace, Bool.or_eq_true, beq_iff_eq] at hc
  rcases hc with ((rfl | rfl) | rfl) | rfl <;> rfl

theorem ends_cons {c : Char} (hdigit : c.isDigit = false) (hdot : c ≠ '.') (he : c ≠ 'e')
    (hE : c ≠ 'E') (text : Text) : Ends (c :: text) := by
  intro d t h
  cases h
  exact ⟨hdigit, hdot, he, hE⟩

theorem ends_blank (hblank : ∀ c ∈ blank, isWhitespace c = true)
    (htext : Ends text) : Ends (blank ++ text) := by
  cases blank with
  | nil => exact htext
  | cons c blank =>
    have hc := hblank c mem_cons_self
    simp only [isWhitespace, Bool.or_eq_true, beq_iff_eq] at hc
    rcases hc with ((rfl | rfl) | rfl) | rfl <;>
      exact ends_cons (by decide) (by decide) (by decide) (by decide) _

def Starts (text : Text) : Prop :=
  ∃ c rest, text = c :: rest ∧ isWhitespace c = false ∧ c ≠ ']'

theorem isWhitespace_of_isDigit {c : Char} (hc : c.isDigit = true) :
    isWhitespace c = false ∧ c ≠ ']' := by
  constructor
  · by_contra h
    rw [isDigit_of_isWhitespace (by simpa using h)] at hc
    cases hc
  · rintro rfl
    cases hc

theorem IsNumber.starts {minus whole fraction exponent : Text}
    (h : IsNumber minus whole fraction exponent) (rest : Text) :
    Starts (minus ++ (whole ++ rest)) := by
  rcases h.minus with rfl | rfl
  · obtain ⟨c, digits, rfl, hc⟩ := h.whole.head
    exact ⟨c, _, rfl, isWhitespace_of_isDigit hc⟩
  · exact ⟨'-', _, rfl, rfl, by decide⟩

section Values

theorem print_starts (hfloats : floats.Lawful) (level : ℕ) (v : JsonValue) :
    Starts (print floats layout level v) := by
  cases v with
  | null => exact ⟨'n', _, rfl, rfl, by decide⟩
  | bool b => cases b <;> exact ⟨_, _, rfl, rfl, by decide⟩
  | int n =>
    rw [print, intText]
    split_ifs
    · exact ⟨'-', _, rfl, rfl, by decide⟩
    · obtain ⟨c, digits, hdigits, hc⟩ := (isWhole_toDigits n.value.natAbs).head
      exact ⟨c, digits, hdigits, isWhitespace_of_isDigit hc⟩
  | float bits =>
    rw [print, floatText]
    split_ifs with hnan hinf hneg
    · exact ⟨'N', _, rfl, rfl, by decide⟩
    · exact ⟨'I', _, rfl, rfl, by decide⟩
    · exact ⟨'-', _, rfl, rfl, by decide⟩
    · obtain ⟨minus, whole, fraction, exponent, htext, hnumber, -⟩ :=
        hfloats.token bits (by simp [isFinite, hnan, hinf, hneg])
      rw [htext]
      simpa only [append_assoc] using hnumber.starts (fraction ++ exponent)
  | str s => exact ⟨'"', _, rfl, rfl, by decide⟩
  | arr items =>
    rw [print]
    split_ifs <;> exact ⟨'[', _, rfl, rfl, by decide⟩
  | obj fields =>
    rw [print]
    split_ifs <;> exact ⟨'\x7b', _, rfl, rfl, by decide⟩

theorem skip_starts (h : Starts text) : skip text = text := by
  obtain ⟨c, rest, rfl, hc, -⟩ := h
  exact skip_cons hc rest

theorem ends_printItems (floats : Floats) (layout : Layout) (level : ℕ) (items : List JsonValue)
    (rest : Text) :
    Ends (printItems floats layout level (',' :: layout.comma level) items ++ rest) := by
  cases items with
  | nil =>
    rw [printItems, append_assoc]
    exact ends_blank (layout.whitespace_close level) (ends_cons rfl (by decide) (by decide)
      (by decide) _)
  | cons v items => exact ends_cons rfl (by decide) (by decide) (by decide) _

theorem ends_printFields (floats : Floats) (layout : Layout) (level : ℕ)
    (fields : List (Str × JsonValue)) (rest : Text) :
    Ends (printFields floats layout level (',' :: layout.comma level) fields ++ rest) := by
  cases fields with
  | nil =>
    rw [printFields, append_assoc]
    exact ends_blank (layout.whitespace_close level) (ends_cons rfl (by decide) (by decide)
      (by decide) _)
  | cons field fields => exact ends_cons rfl (by decide) (by decide) (by decide) _

theorem parseValue_atom (h : parseAtom floats text = .ok r) :
    parseValue floats (fuel + 1) text = .ok r := by
  cases text with
  | nil => cases h
  | cons c text =>
    rw [parseValue]
    split_ifs with hquote hopen hbrace
    · subst hquote
      cases h
    · subst hopen
      cases h
    · subst hbrace
      cases h
    · exact h

theorem parseValue_str (s : Str) (fuel : ℕ) (rest : Text) :
    parseValue floats (fuel + 1) (printStr s ++ rest) = .ok (.str (merge s), rest) := by
  rw [printStr, cons_append, cons_append, append_assoc, parseValue, if_pos rfl,
    singleton_append, scanString_escaped]
  rfl

theorem parseValue_arr (hstarts : Starts (skip text))
    (h : parseItems floats fuel (skip text) = .ok (items, rest)) :
    parseValue floats (fuel + 1) ('[' :: text) = .ok (.arr items, rest) := by
  obtain ⟨c, t, htext, -, hc⟩ := hstarts
  rw [parseValue, if_neg (by decide), if_pos rfl]
  split
  · rename_i hskip
    rw [htext] at hskip
    cases hskip
    exact absurd rfl hc
  · rw [h]
    rfl

theorem parseValue_obj (hstarts : ∃ t, skip text = '"' :: t)
    (h : parseFields floats fuel (skip text) = .ok (fields, rest)) :
    parseValue floats (fuel + 1) ('\x7b' :: text) =
      .ok (.obj (Dict.ofList fields).entries, rest) := by
  obtain ⟨t, hstarts⟩ := hstarts
  rw [parseValue, if_neg (by decide), if_neg (by decide), if_pos rfl]
  split
  · rename_i hskip
    rw [hstarts] at hskip
    cases hskip
  · rw [h]
    rfl

section Steps

variable {text after t rest : Text}

theorem parseItems_last (hv : parseValue floats fuel text = .ok (v, after))
    (hskip : skip after = ']' :: rest) : parseItems floats (fuel + 1) text = .ok ([v], rest) := by
  rw [parseItems, hv]
  simp only [bind, Except.bind, hskip]
  rfl

theorem parseItems_more (hv : parseValue floats fuel text = .ok (v, after))
    (hskip : skip after = ',' :: t) (hmore : parseItems floats fuel (skip t) = .ok (items, rest)) :
    parseItems floats (fuel + 1) text = .ok (v :: items, rest) := by
  rw [parseItems, hv]
  simp only [bind, Except.bind, hskip]
  change Except.bind (parseItems floats fuel (skip t)) _ = _
  rw [hmore]
  rfl

section

variable (hkey : scanString text = .ok (key, ':' :: t))
  (hv : parseValue floats fuel (skip t) = .ok (v, after))
include hkey hv

theorem parseFields_value :
    parseFields floats (fuel + 1) ('"' :: text) =
      match skip after with
      | '\x7d' :: rest => .ok ([(key, v)], rest)
      | ',' :: rest => do
        let (fields, rest) ← parseFields floats fuel (skip rest)
        return ((key, v) :: fields, rest)
      | _ => .error .decode := by
  rw [parseFields, hkey]
  change Except.bind (parseValue floats fuel (skip t)) _ = _
  rw [hv]
  rfl

theorem parseFields_last (hskip : skip after = '\x7d' :: rest) :
    parseFields floats (fuel + 1) ('"' :: text) = .ok ([(key, v)], rest) := by
  rw [parseFields_value hkey hv, hskip]
  rfl

theorem parseFields_more (hskip : skip after = ',' :: u)
    (hmore : parseFields floats fuel (skip u) = .ok (fields, rest)) :
    parseFields floats (fuel + 1) ('"' :: text) = .ok ((key, v) :: fields, rest) := by
  rw [parseFields_value hkey hv, hskip]
  change Except.bind (parseFields floats fuel (skip u)) _ = _
  rw [hmore]
  rfl

end

end Steps

variable (layout)

theorem Starts.append (h : Starts text) (rest : Text) : Starts (text ++ rest) := by
  obtain ⟨c, t, rfl, hc⟩ := h
  exact ⟨c, t ++ rest, rfl, hc⟩

theorem printItems_separator (level : ℕ) (separator : Text) (v : JsonValue)
    (items : List JsonValue) :
    printItems floats layout level separator (v :: items) =
      separator ++ printItems floats layout level [] (v :: items) := by
  simp only [printItems, append_assoc, nil_append]

theorem printFields_separator (level : ℕ) (separator : Text) (field : Str × JsonValue)
    (fields : List (Str × JsonValue)) :
    printFields floats layout level separator (field :: fields) =
      separator ++ printFields floats layout level [] (field :: fields) := by
  simp only [printFields, append_assoc, nil_append]

theorem starts_printItems (hfloats : floats.Lawful) (level : ℕ) (v : JsonValue)
    (items : List JsonValue) (rest : Text) :
    Starts (printItems floats layout level [] (v :: items) ++ rest) := by
  rw [printItems, nil_append]
  exact ((print_starts hfloats (level + 1) v).append _).append _

theorem skip_printItems (hfloats : floats.Lawful)
    (hblank : ∀ c ∈ separator, isWhitespace c = true) (level : ℕ) (v : JsonValue)
    (items : List JsonValue) (rest : Text) :
    skip (printItems floats layout level separator (v :: items) ++ rest) =
      printItems floats layout level [] (v :: items) ++ rest := by
  rw [printItems_separator, append_assoc, skip_append hblank,
    skip_starts (starts_printItems layout hfloats level v items rest)]

theorem skip_printFields (hblank : ∀ c ∈ separator, isWhitespace c = true)
    (level : ℕ) (field : Str × JsonValue) (fields : List (Str × JsonValue)) (rest : Text) :
    skip (printFields floats layout level separator (field :: fields) ++ rest) =
      printFields floats layout level [] (field :: fields) ++ rest := by
  rw [printFields_separator, append_assoc, skip_append hblank]
  exact skip_cons rfl _

theorem length_printItems_pos (floats : Floats) (level : ℕ) (items : List JsonValue) :
    0 < (printItems floats layout level (',' :: layout.comma level) items).length := by
  cases items <;> simp [printItems]

theorem length_printFields_pos (floats : Floats) (level : ℕ) (fields : List (Str × JsonValue)) :
    0 < (printFields floats layout level (',' :: layout.comma level) fields).length := by
  cases fields <;> simp [printFields]

mutual
theorem parseValue_print (hfloats : floats.Lawful) (v : JsonValue) (level fuel : ℕ)
    (hfuel : (print floats layout level v).length < fuel) (hrest : Ends rest) :
    parseValue floats fuel (print floats layout level v ++ rest) = .ok (normalise v, rest) := by
  obtain ⟨fuel, rfl⟩ : ∃ n, fuel = n + 1 := ⟨fuel - 1, by omega⟩
  cases v with
  | null => exact parseValue_atom rfl
  | bool b => cases b <;> exact parseValue_atom rfl
  | int n =>
    rw [print, normalise]
    exact parseValue_atom (parseAtom_intText floats n hrest)
  | float bits =>
    rw [print, normalise]
    exact parseValue_atom (parseAtom_floatText hfloats bits hrest)
  | str s =>
    rw [print, normalise]
    exact parseValue_str s fuel rest
  | arr items =>
    rw [print] at hfuel ⊢
    rw [normalise]
    cases items with
    | nil => rfl
    | cons v items =>
      rw [isEmpty_cons, if_neg Bool.false_ne_true] at hfuel ⊢
      rw [printItems_separator, length_cons, length_append] at hfuel
      have hskip := skip_printItems layout hfloats (layout.whitespace_gap level) level v items rest
      rw [cons_append]
      refine parseValue_arr ?_ ?_
      · rw [hskip]
        exact starts_printItems layout hfloats level v items rest
      · rw [hskip]
        exact parseItems_print hfloats (v :: items) (cons_ne_nil _ _) level fuel rest
          (by omega)
  | obj fields =>
    rw [print] at hfuel ⊢
    rw [normalise]
    cases fields with
    | nil => rfl
    | cons field fields =>
      rw [isEmpty_cons, if_neg Bool.false_ne_true] at hfuel ⊢
      rw [printFields_separator, length_cons, length_append] at hfuel
      have hskip : skip (printFields floats layout level (layout.gap level) (field :: fields) ++
          rest) = _ := skip_printFields layout (layout.whitespace_gap level) level field fields rest
      rw [cons_append]
      refine parseValue_obj ?_ ?_
      · exact ⟨_, hskip⟩
      · rw [hskip]
        exact parseFields_print hfloats (field :: fields) (cons_ne_nil _ _) level fuel rest
          (by omega)

theorem parseItems_print (hfloats : floats.Lawful) (items : List JsonValue) (hne : items ≠ [])
    (level fuel : ℕ) (rest : Text)
    (hfuel : (printItems floats layout level [] items).length < fuel) :
    parseItems floats fuel (printItems floats layout level [] items ++ rest) =
      .ok (normaliseItems items, rest) := by
  obtain ⟨fuel, rfl⟩ : ∃ n, fuel = n + 1 := ⟨fuel - 1, by omega⟩
  cases items with
  | nil => exact absurd rfl hne
  | cons v items =>
    rw [printItems, nil_append] at hfuel ⊢
    rw [length_append] at hfuel
    rw [append_assoc, normaliseItems]
    have hpos := length_printItems_pos layout floats level items
    have hv := parseValue_print hfloats v (level + 1) fuel (by omega)
      (ends_printItems floats layout level items rest)
    cases items with
    | nil =>
      refine parseItems_last hv ?_
      rw [printItems, append_assoc, skip_append (layout.whitespace_close level)]
      rfl
    | cons w items =>
      have hmore := parseItems_print hfloats (w :: items) (cons_ne_nil _ _) level fuel rest ?_
      · refine parseItems_more hv (t := layout.comma level ++
          (printItems floats layout level [] (w :: items) ++ rest)) ?_ ?_
        · rw [printItems_separator, append_assoc, cons_append]
          exact skip_cons rfl _
        · rw [skip_append (layout.whitespace_comma level),
            skip_starts (starts_printItems layout hfloats level w items rest)]
          exact hmore
      · rw [printItems_separator, length_append, length_cons] at hfuel
        omega

theorem parseFields_print (hfloats : floats.Lawful) (fields : List (Str × JsonValue))
    (hne : fields ≠ []) (level fuel : ℕ) (rest : Text)
    (hfuel : (printFields floats layout level [] fields).length < fuel) :
    parseFields floats fuel (printFields floats layout level [] fields ++ rest) =
      .ok (normaliseFields fields, rest) := by
  obtain ⟨fuel, rfl⟩ : ∃ n, fuel = n + 1 := ⟨fuel - 1, by omega⟩
  cases fields with
  | nil => exact absurd rfl hne
  | cons field fields =>
    obtain ⟨key, v⟩ := field
    have hpos := length_printFields_pos layout floats level fields
    rw [printFields, nil_append] at hfuel ⊢
    simp only [length_append] at hfuel
    have hv := parseValue_print hfloats v (level + 1) fuel (by omega)
      (ends_printFields floats layout level fields rest)
    have hkey := scanString_escaped key (':' :: ' ' :: (print floats layout (level + 1) v ++
      (printFields floats layout level (',' :: layout.comma level) fields ++ rest)))
    have htext : printStr key ++ ": ".toList ++ print floats layout (level + 1) v ++
        printFields floats layout level (',' :: layout.comma level) fields ++ rest =
        '"' :: (key.flatMap escape ++ '"' :: ':' :: ' ' :: (print floats layout (level + 1) v ++
          (printFields floats layout level (',' :: layout.comma level) fields ++ rest))) := by
      simp [printStr]
    have hspace : skip (' ' :: (print floats layout (level + 1) v ++
        (printFields floats layout level (',' :: layout.comma level) fields ++ rest))) =
        print floats layout (level + 1) v ++
          (printFields floats layout level (',' :: layout.comma level) fields ++ rest) :=
      skip_starts ((print_starts hfloats (level + 1) v).append _)
    rw [htext, normaliseFields]
    rw [← hspace] at hv
    cases fields with
    | nil =>
      refine parseFields_last hkey hv ?_
      rw [printFields, append_assoc, skip_append (layout.whitespace_close level)]
      rfl
    | cons next fields =>
      have hmore := parseFields_print hfloats (next :: fields) (cons_ne_nil _ _) level fuel
        rest ?_
      · refine parseFields_more hkey hv (u := layout.comma level ++
          (printFields floats layout level [] (next :: fields) ++ rest)) ?_ ?_
        · rw [printFields_separator, append_assoc, cons_append]
          exact skip_cons rfl _
        · rw [skip_append (layout.whitespace_comma level)]
          exact hmore
      · rw [printFields_separator, length_append, length_cons] at hfuel
        omega
end

theorem loads_print (hfloats : floats.Lawful) (v : JsonValue) :
    loads floats (print floats layout 0 v) = .ok (normalise v) := by
  have hparse : parseValue floats _ (print floats layout 0 v ++ []) = .ok (normalise v, []) :=
    parseValue_print layout hfloats v 0 _ (Nat.lt_succ_self _) nofun
  rw [append_nil] at hparse
  rw [loads, skip_starts (print_starts hfloats 0 v), hparse]
  rfl

end Values

/-- The bits with a fraction of zero; three halves have their own text. -/
def plainFloats : Floats where
  repr bits :=
    if bits = 0x3ff8000000000000#64 then "1.5".toList else Nat.toDigits 10 bits.toNat ++ ".0".toList
  parse text :=
    if text = "1.5".toList then 0x3ff8000000000000#64
    else
      let bits := BitVec.ofNat 64 (Nat.ofDigitChars 10 (text.takeWhile Char.isDigit) 0)
      if isNaN bits then 0 else bits

theorem plainFloats_lawful : plainFloats.Lawful where
  token bits _ := by
    simp only [plainFloats]
    split_ifs
    · exact ⟨[], ['1'], ['.', '5'], [], rfl,
        ⟨.inl rfl, .inr ⟨'1', [], rfl, by decide, by simp [AllDigits]⟩,
          .inr ⟨['5'], rfl, by decide, by simp [AllDigits]⟩, .inl rfl⟩, nofun⟩
    · exact ⟨[], Nat.toDigits 10 bits.toNat, ['.', '0'], [], by simp,
        ⟨.inl rfl, isWhole_toDigits _, .inr ⟨['0'], rfl, by decide, by simp [AllDigits]⟩,
          .inl rfl⟩, nofun⟩
  parse_repr bits hfinite := by
    have hnan : isNaN bits = false := by
      simp only [isFinite, Bool.and_eq_true, Bool.not_eq_true'] at hfinite
      exact hfinite.1.1
    have hdigits : (Nat.toDigits 10 bits.toNat ++ ".0".toList).takeWhile Char.isDigit =
        Nat.toDigits 10 bits.toNat :=
      (takeWhile_digits (allDigits_toDigits _) fun c t h => by
        cases h
        rfl).1
    have hother : Nat.toDigits 10 bits.toNat ++ ".0".toList ≠ "1.5".toList := fun h => by
      simpa using congrArg List.getLast? h
    by_cases hhalves : bits = 0x3ff8000000000000#64
    · simp only [plainFloats, if_pos hhalves]
      exact hhalves.symm
    · simp only [plainFloats, if_neg hhalves, if_neg hother, hdigits,
        Nat.ofDigitChars_ten_toDigits, BitVec.ofNat_toNat, BitVec.setWidth_eq, hnan]
      rfl
  parse_number text := by
    simp only [plainFloats]
    split_ifs with htext hnan
    · decide
    · decide
    · simpa using hnan

end Agent33.Library.JsonText
