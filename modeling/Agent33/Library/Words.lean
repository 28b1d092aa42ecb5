import Agent33.Library.Packing
import Agent33.Library.Text

/-!
# Words

The words of a text that is put together from others, and texts that are joined by spaces.
-/

namespace Agent33.Library.Text

def NoSpace (text : Text) : Prop := ∀ c ∈ text, isSpace c = false

structure IsWord (word : Text) : Prop where
  ne_nil : word ≠ []
  noSpace : NoSpace word

section Words

theorem none_or_split (p : Char → Bool) (text : Text) : (∀ c ∈ text, p c = false) ∨
    ∃ a x b, text = a ++ x :: b ∧ (∀ c ∈ a, p c = false) ∧ p x = true := by
  induction text with
  | nil => exact .inl fun c hc => absurd hc List.not_mem_nil
  | cons c text ih =>
    cases hc : p c with
    | true => exact .inr ⟨[], c, text, rfl, fun d hd => absurd hd List.not_mem_nil, hc⟩
    | false =>
      rcases ih with h | ⟨a, x, b, rfl, ha, hx⟩
      · exact .inl (List.forall_mem_cons.mpr ⟨hc, h⟩)
      · exact .inr ⟨c :: a, x, b, rfl, List.forall_mem_cons.mpr ⟨hc, ha⟩, hx⟩

theorem none_of_mem_splitOnP {p : Char → Bool} {text piece : Text} (h : piece ∈ text.splitOnP p) :
    ∀ c ∈ piece, p c = false := by
  induction hlength : text.length using Nat.strong_induction_on generalizing text with
  | _ n ih =>
    subst hlength
    rcases none_or_split p text with hnone | ⟨a, x, b, rfl, ha, hx⟩
    · rw [List.splitOnP_eq_singleton hnone] at h
      rwa [List.mem_singleton.mp h]
    · rw [List.splitOnP_append_cons_of_forall_mem ha x hx] at h
      rcases List.mem_cons.mp h with rfl | h
      · exact ha
      · exact ih b.length (by simp; omega) h rfl

theorem isWord_of_mem_words (h : word ∈ words text) : IsWord word := by
  obtain ⟨hpiece, hne⟩ := List.mem_filter.mp h
  exact ⟨by simpa using hne, none_of_mem_splitOnP hpiece⟩

theorem words_append_cons (text rest : Text) (hc : isSpace c = true) :
    words (text ++ c :: rest) = words text ++ words rest := by
  rw [words, List.splitOnP_append_cons text rest hc, List.filter_append]
  rfl

theorem words_cons_space (rest : Text) (hc : isSpace c = true) : words (c :: rest) = words rest :=
  words_append_cons [] rest hc

theorem words_of_noSpace (h : NoSpace text) : words text = if text = [] then [] else [text] := by
  rw [words, List.splitOnP_eq_singleton h]
  split <;> simp [*]

theorem IsWord.words_eq (h : IsWord word) : words word = [word] := by
  rw [words_of_noSpace h.noSpace, if_neg h.ne_nil]

theorem words_append_eq_cons (hword : IsWord word)
    (h : words (word ++ rest) = word :: ws) :
    words rest = ws ∧ (rest = [] ∨ ∃ x t, rest = x :: t ∧ isSpace x = true) := by
  cases rest with
  | nil =>
    rw [List.append_nil, hword.words_eq] at h
    exact ⟨(List.cons.inj h).2, .inl rfl⟩
  | cons x t =>
    cases hx : isSpace x with
    | true =>
      rw [words_append_cons word t hx, hword.words_eq] at h
      exact ⟨(words_cons_space t hx).trans (List.cons.inj h).2, .inr ⟨x, t, rfl, hx⟩⟩
    | false =>
      have hlong : ∀ a, NoSpace a → NoSpace (word ++ x :: a) := by
        intro a ha c hc
        rcases List.mem_append.mp hc with hc | hc
        · exact hword.noSpace c hc
        · rcases List.mem_cons.mp hc with rfl | hc
          · exact hx
          · exact ha c hc
      have hne : ∀ a : Text, word ++ x :: a ≠ word := by
        intro a ha
        simpa using congrArg List.length ha
      rcases none_or_split isSpace t with ht | ⟨a, y, b, rfl, ha, hy⟩
      · rw [words_of_noSpace (hlong t ht), if_neg (by simp)] at h
        exact absurd (List.cons.inj h).1 (hne t)
      · rw [← List.cons_append, ← List.append_assoc, words_append_cons _ _ hy,
          words_of_noSpace (hlong a ha), if_neg (by simp)] at h
        exact absurd (List.cons.inj h).1 (hne a)

theorem length_le_of_mem_words (h : word ∈ words text) : word.length ≤ text.length := by
  induction hlength : text.length using Nat.strong_induction_on generalizing text with
  | _ n ih =>
    subst hlength
    rcases none_or_split isSpace text with hnone | ⟨a, x, b, rfl, ha, hx⟩
    · rw [words_of_noSpace hnone] at h
      split at h
      · cases h
      · rw [List.mem_singleton.mp h]
    · rw [words_append_cons a b hx, words_of_noSpace ha] at h
      rw [List.length_append, List.length_cons]
      rcases List.mem_append.mp h with h | h
      · split at h
        · cases h
        · rw [List.mem_singleton.mp h]
          omega
      · have := ih b.length (by simp; omega) h rfl
        omega

end Words

section Join

theorem joinWith_cons (separator text : Text) (h : texts ≠ []) :
    joinWith separator (text :: texts) = text ++ separator ++ joinWith separator texts := by
  cases texts with
  | nil => exact absurd rfl h
  | cons next texts => rfl

theorem joinWith_append (separator : Text) (h : texts ≠ [])
    (h' : texts' ≠ []) :
    joinWith separator (texts ++ texts') =
      joinWith separator texts ++ separator ++ joinWith separator texts' := by
  induction texts with
  | nil => exact absurd rfl h
  | cons text texts ih =>
    rw [List.cons_append, joinWith_cons separator text (by simp [h'])]
    by_cases hnone : texts = []
    · simp [hnone, joinWith]
    · rw [ih hnone, joinWith_cons separator text hnone]
      simp

theorem words_joinWith (texts : List Text) :
    words (joinWith [' '] texts) = texts.flatMap words := by
  induction texts with
  | nil => rfl
  | cons text texts ih =>
    rw [List.flatMap_cons, ← ih]
    by_cases hnone : texts = []
    · rw [hnone]
      exact (List.append_nil _).symm
    · rw [joinWith_cons [' '] text hnone, List.append_assoc, List.singleton_append,
        words_append_cons text _ (by decide)]

/-- Where a text begins that has others before it, each with one more character after it. -/
def extent (texts : List Text) : ℕ := weight (fun text => text.length + 1) texts

@[simp]
theorem extent_nil : extent [] = 0 := rfl

@[simp]
theorem extent_cons (text : Text) (texts : List Text) :
    extent (text :: texts) = text.length + 1 + extent texts :=
  weight_cons _ text texts

@[simp]
theorem extent_append (texts texts' : List Text) :
    extent (texts ++ texts') = extent texts + extent texts' :=
  weight_append _ texts texts'

theorem length_joinWith (h : texts ≠ []) : (joinWith [' '] texts).length + 1 = extent texts := by
  induction texts with
  | nil => exact absurd rfl h
  | cons text texts ih =>
    by_cases hnone : texts = []
    · simp [hnone, joinWith]
    · rw [joinWith_cons [' '] text hnone, extent_cons, ← ih hnone]
      simp only [List.length_append, List.length_singleton]
      omega

theorem drop_joinWith (front : List Text) (h : back ≠ []) :
    (joinWith [' '] (front ++ back)).drop (extent front) = joinWith [' '] back := by
  by_cases hnone : front = []
  · simp [hnone]
  · rw [joinWith_append [' '] hnone h, ← length_joinWith hnone]
    exact List.drop_left' (by simp)

end Join

end Agent33.Library.Text

/-!
## Words laid out in groups

Groups of a number of words, each joined by spaces, stand one after another in the text that the
words come from when the text begins with a word and has single white-space characters between its
words, all of them spaces but those between two groups.
-/

namespace Agent33.Library.Text

/-- The parts stand at the beginning of the text, with one character between two of them. -/
def Stands : List Text → Text → Prop
  | [], _ => True
  | part :: parts, text => part <+: text ∧ Stands parts (text.drop (part.length + 1))

/-- The words of a text stand one white-space character apart from its beginning on, which is a
space except after every `k` words. -/
structure WellSpaced (k : ℕ) (text : Text) : Prop where
  apart : words text <+: text.splitOnP isSpace
  spaces : ∀ i x, (text.filter isSpace)[i]? = some x → i + 1 < (words text).length →
    ¬ k ∣ i + 1 → x = ' '

/-- What follows `n` words of a text are the words, one character apart, which is a space except
after every `k` words. -/
def Spaces (k : ℕ) : ℕ → List Text → Text → Prop
  | _, [], _ => True
  | n, w :: ws, text =>
    ∃ x rest, text = x :: (w ++ rest) ∧ (¬ k ∣ n → x = ' ') ∧ Spaces k (n + 1) ws rest

section Groups

theorem prefix_fill (current ws : List Text) :
    ∃ more groups, fill k current ws = (current ++ more) :: groups := by
  induction ws generalizing current with
  | nil => exact ⟨[], [], by rw [List.append_nil]; rfl⟩
  | cons w ws ih =>
    rw [fill]
    split
    · obtain ⟨more, groups, hfill⟩ := ih (current ++ [w])
      exact ⟨w :: more, groups, by rw [hfill, List.append_assoc, List.singleton_append]⟩
    · exact ⟨[], fill k [w] ws, by rw [List.append_nil]⟩

theorem joinWith_starts (h : texts ≠ []) (more : List Text) :
    joinWith [' '] texts <+: joinWith [' '] (texts ++ more) := by
  by_cases hmore : more = []
  · rw [hmore, List.append_nil]
  · rw [joinWith_append [' '] h hmore, List.append_assoc]
    exact List.prefix_append _ _

theorem Stands.prefix_fill (hne : current ≠ [])
    (h : Stands ((fill k current ws).map (joinWith [' '])) text) :
    joinWith [' '] current <+: text := by
  obtain ⟨more, groups, hfill⟩ := Text.prefix_fill (k := k) current ws
  rw [hfill] at h
  exact (joinWith_starts hne more).trans h.1

theorem prefix_of_word (hwords : words text = word :: ws)
    (h : word <+: text ++ rest) : ∃ after, text = word ++ after := by
  have hle : word.length ≤ text.length := length_le_of_mem_words (by rw [hwords]; simp)
  obtain ⟨after, hafter⟩ := List.prefix_of_prefix_length_le h (List.prefix_append text rest) hle
  exact ⟨after, hafter.symm⟩

theorem stands_fill_iff (hne : current ≠ [])
    (hle : current.length ≤ k) (hn : k ∣ n - current.length) (hcurrent : current.length ≤ n)
    (hwords : words after = ws) (hspace : after = [] ∨ ∃ x t, after = x :: t ∧ isSpace x = true)
    (rest : Text) :
    Stands ((fill k current ws).map (joinWith [' '])) (joinWith [' '] current ++ after ++ rest) ↔
      Spaces k n ws after := by
  induction ws generalizing current n after with
  | nil => simp [fill, Stands, Spaces, List.append_assoc]
  | cons w ws ih =>
    have hword : IsWord w := isWord_of_mem_words (by rw [hwords]; simp)
    have hpos : 0 < current.length := List.length_pos_iff.mpr hne
    obtain ⟨x, t, rfl, hx⟩ := hspace.resolve_left fun h => by simp [h, words] at hwords
    rw [words_cons_space t hx] at hwords
    have hfull : current.length < k ↔ ¬ k ∣ n := by
      rw [← Nat.sub_add_cancel hcurrent, Nat.dvd_add_right hn]
      constructor
      · exact fun hlt hdvd => absurd (Nat.le_of_dvd hpos hdvd) (Nat.not_le.mpr hlt)
      · intro hdvd
        rcases Nat.lt_or_eq_of_le hle with hlt | heq
        · exact hlt
        · exact absurd (heq ▸ dvd_rfl) hdvd
    have hrest : ∀ {after}, t = w ++ after → words after = ws ∧
        (after = [] ∨ ∃ x t, after = x :: t ∧ isSpace x = true) := by
      rintro after rfl
      exact words_append_eq_cons hword hwords
    rw [fill, Spaces]
    by_cases hroom : current.length < k
    · rw [if_pos hroom]
      have hjoin : joinWith [' '] (current ++ [w]) = joinWith [' '] current ++ ' ' :: w := by
        rw [joinWith_append [' '] hne (List.cons_ne_nil w [])]
        simp [joinWith]
      have hgo : ∀ {after}, t = w ++ after →
          (Stands ((fill k (current ++ [w]) ws).map (joinWith [' ']))
            (joinWith [' '] current ++ ' ' :: t ++ rest) ↔ Spaces k (n + 1) ws after) := by
        rintro after rfl
        obtain ⟨hws, hafter⟩ := hrest rfl
        have hnext := ih (List.append_ne_nil_of_right_ne_nil current (List.cons_ne_nil w []))
          (by simp; omega) (n := n + 1) (by simpa [Nat.add_sub_add_right] using hn)
          (by simp; omega) hws hafter
        rw [← hnext, hjoin]
        simp
      constructor
      · intro h
        have hbegin := h.prefix_fill (by simp)
        rw [hjoin, List.append_assoc, List.prefix_append_right_inj, List.cons_append,
          List.cons_prefix_cons] at hbegin
        obtain ⟨rfl, hbegin⟩ := hbegin
        obtain ⟨after, hafter⟩ := prefix_of_word hwords hbegin
        exact ⟨' ', after, by rw [hafter], fun _ => rfl, (hgo hafter).mp h⟩
      · rintro ⟨y, after, heq, hy, hspaces⟩
        obtain ⟨rfl, ht⟩ := List.cons.inj heq
        rw [hy (hfull.mp hroom)]
        exact (hgo ht).mpr hspaces
    · rw [if_neg hroom, List.map_cons, Stands]
      have hdrop : (joinWith [' '] current ++ x :: t ++ rest).drop
          ((joinWith [' '] current).length + 1) = t ++ rest := by
        rw [List.append_assoc, ← List.drop_drop, List.drop_left]
        rfl
      rw [hdrop]
      have hk : k ∣ n + 1 - 1 := by
        rw [Nat.add_sub_cancel]
        exact Classical.not_not.mp fun h => hroom (hfull.mpr h)
      have hgo : ∀ {after}, t = w ++ after →
          (Stands ((fill k [w] ws).map (joinWith [' '])) (t ++ rest) ↔
            Spaces k (n + 1) ws after) := by
        rintro after rfl
        obtain ⟨hws, hafter⟩ := hrest rfl
        exact ih (List.cons_ne_nil w []) (by simp; omega) hk (by simp) hws hafter
      constructor
      · rintro ⟨-, h⟩
        obtain ⟨after, hafter⟩ := prefix_of_word hwords (h.prefix_fill (by simp))
        exact ⟨x, after, by rw [hafter], fun h => absurd h (by simpa using hk), (hgo hafter).mp h⟩
      · rintro ⟨y, after, heq, -, hspaces⟩
        obtain ⟨rfl, ht⟩ := List.cons.inj heq
        exact ⟨by rw [List.append_assoc]; exact List.prefix_append _ _, (hgo ht).mpr hspaces⟩

end Groups

section WellSpaced

variable {k : ℕ}

/-- The words of a text that has `n` words before it stand one white-space character apart. -/
structure SpacedAfter (k n : ℕ) (ws : List Text) (text : Text) : Prop where
  apart : ws <+: text.splitOnP isSpace
  spaces : ∀ i x, (text.filter isSpace)[i]? = some x → i + 1 < ws.length →
    ¬ k ∣ n + (i + 1) → x = ' '

theorem filter_word (hword : NoSpace word) : word.filter isSpace = [] :=
  List.filter_eq_nil_iff.mpr fun c hc => by rw [hword c hc]; exact Bool.false_ne_true

theorem begins_of_apart (h : w :: ws <+: text.splitOnP isSpace) : (text = w ∧ ws = []) ∨
      ∃ x rest, text = w ++ x :: rest ∧ isSpace x = true ∧ ws <+: rest.splitOnP isSpace := by
  rcases none_or_split isSpace text with hnone | ⟨a, x, rest, rfl, ha, hx⟩
  · rw [List.splitOnP_eq_singleton hnone, List.cons_prefix_cons, List.prefix_nil] at h
    exact .inl ⟨h.1.symm, h.2⟩
  · rw [List.splitOnP_append_cons_of_forall_mem ha x hx, List.cons_prefix_cons] at h
    exact .inr ⟨x, rest, by rw [h.1], hx, h.2⟩

theorem SpacedAfter.of_single (hword : IsWord word)
    (h : after = [] ∨ ∃ x t, after = x :: t ∧ isSpace x = true) :
    SpacedAfter k n [word] (word ++ after) where
  apart := by
    rcases h with rfl | ⟨x, t, rfl, hx⟩
    · rw [List.append_nil, List.splitOnP_eq_singleton hword.noSpace]
    · rw [List.splitOnP_append_cons_of_forall_mem hword.noSpace x hx, List.cons_prefix_cons]
      exact ⟨rfl, List.nil_prefix⟩
  spaces i x _ hi := absurd hi (by simp)

theorem spacedAfter_cons_iff {w' : Text} (hword : IsWord w) (hx : isSpace x = true)
    (rest : Text) : SpacedAfter k n (w :: w' :: ws) (w ++ x :: rest) ↔
      (¬ k ∣ n + 1 → x = ' ') ∧ SpacedAfter k (n + 1) (w' :: ws) rest := by
  have hpieces := List.splitOnP_append_cons_of_forall_mem hword.noSpace x hx rest
  have hfilter : (w ++ x :: rest).filter isSpace = x :: rest.filter isSpace := by
    rw [List.filter_append, filter_word hword.noSpace, List.filter_cons_of_pos hx]
    rfl
  constructor
  · rintro ⟨hapart, hspaces⟩
    rw [hpieces, List.cons_prefix_cons] at hapart
    rw [hfilter] at hspaces
    refine ⟨hspaces 0 x rfl (by simp), hapart.2, fun i y hy hi => ?_⟩
    rw [Nat.add_right_comm]
    exact hspaces (i + 1) y hy (by simpa using hi)
  · rintro ⟨hx, hapart, hspaces⟩
    refine ⟨?_, fun i y hy hi => ?_⟩
    · rw [hpieces, List.cons_prefix_cons]
      exact ⟨rfl, hapart⟩
    · rw [hfilter] at hy
      cases i with
      | zero =>
        rw [← Option.some.inj hy]
        exact hx
      | succ i =>
        rw [← Nat.add_assoc, Nat.add_right_comm]
        exact hspaces i y hy (by simpa using hi)

theorem spacedAfter_iff (hwords : words text = w :: ws) :
    SpacedAfter k n (w :: ws) text ↔ ∃ after, text = w ++ after ∧ Spaces k (n + 1) ws after := by
  have hword : IsWord w := isWord_of_mem_words (by rw [hwords]; simp)
  induction ws generalizing n w text with
  | nil =>
    constructor
    · intro h
      rcases begins_of_apart h.apart with ⟨rfl, -⟩ | ⟨x, rest, rfl, -, -⟩
      · exact ⟨[], (List.append_nil text).symm, trivial⟩
      · exact ⟨x :: rest, rfl, trivial⟩
    · rintro ⟨after, rfl, -⟩
      exact .of_single hword (words_append_eq_cons hword hwords).2
  | cons w' ws ih =>
    have hgo : ∀ {x rest}, text = w ++ x :: rest → isSpace x = true →
        (SpacedAfter k (n + 1) (w' :: ws) rest ↔
          ∃ after, rest = w' ++ after ∧ Spaces k (n + 1 + 1) ws after) := by
      rintro x rest rfl hx
      have hrest : words rest = w' :: ws := by
        rw [← words_cons_space rest hx]
        exact (words_append_eq_cons hword hwords).1
      exact ih hrest (isWord_of_mem_words (by rw [hrest]; simp))
    constructor
    · intro h
      rcases begins_of_apart h.apart with ⟨-, hnone⟩ | ⟨x, rest, htext, hx, -⟩
      · exact absurd hnone (List.cons_ne_nil w' ws)
      · have hspaced := h
        rw [htext, spacedAfter_cons_iff hword hx, hgo htext hx] at hspaced
        obtain ⟨hspace, after, rfl, hspaces⟩ := hspaced
        exact ⟨x :: (w' ++ after), htext, x, after, rfl, hspace, hspaces⟩
    · rintro ⟨_, htext, x, after, rfl, hspace, hspaces⟩
      have hx : isSpace x = true := by
        rw [htext] at hwords
        obtain ⟨y, t, heq, hy⟩ := (words_append_eq_cons hword hwords).2.resolve_left
          (List.cons_ne_nil x _)
        rw [(List.cons.inj heq).1]
        exact hy
      rw [htext, spacedAfter_cons_iff hword hx, hgo htext hx]
      exact ⟨hspace, after, rfl, hspaces⟩

theorem wellSpaced_iff (hwords : words text = w :: ws) :
    WellSpaced k text ↔ ∃ after, text = w ++ after ∧ Spaces k 1 ws after := by
  rw [← Nat.zero_add 1, ← spacedAfter_iff hwords, ← hwords]
  constructor
  · rintro ⟨hapart, hspaces⟩
    exact ⟨hapart, by simpa using hspaces⟩
  · rintro ⟨hapart, hspaces⟩
    exact ⟨hapart, by simpa using hspaces⟩

/-- The words of a text, in groups of `k`, stand in it just when it is well spaced, whatever comes
after it. -/
theorem stands_words_iff (hk : 0 < k) (hwords : words text = w :: ws) (rest : Text) :
    Stands ((fill k [w] ws).map (joinWith [' '])) (text ++ rest) ↔ WellSpaced k text := by
  have hword : IsWord w := isWord_of_mem_words (by rw [hwords]; simp)
  have hgo : ∀ after, text = w ++ after →
      (Stands ((fill k [w] ws).map (joinWith [' '])) (text ++ rest) ↔ Spaces k 1 ws after) := by
    rintro after rfl
    obtain ⟨hws, hafter⟩ := words_append_eq_cons hword hwords
    exact stands_fill_iff (by simp) hk (by simp) (by simp) hws hafter rest
  rw [wellSpaced_iff hwords]
  constructor
  · intro h
    obtain ⟨after, hafter⟩ := prefix_of_word hwords (h.prefix_fill (by simp))
    exact ⟨after, hafter, (hgo after hafter).mp h⟩
  · rintro ⟨after, hafter, hspaces⟩
    exact (hgo after hafter).mpr hspaces

end WellSpaced

end Agent33.Library.Text

/-!
## Splitting a command line

The words of a command line in the syntax of a POSIX shell, without comments. A
word may be quoted in parts, and a backslash takes the next character as it is,
inside double quotes only before the quote or another backslash.
-/

namespace Agent33.Library.Shlex

def isBlank (c : Char) : Bool := c ∈ [' ', '\t', '\r', '\n']

def isQuote (c : Char) : Bool := c ∈ ['"', '\'']

inductive Mode
  | blank
  | word
  | quoted (quote : Char)
  /-- After a backslash, in a word or inside the quote. -/
  | escaped (quote : Option Char)

/-- What is read of a word: its characters, last one first, and whether it had quotes. -/
structure Word where
  chars : Text := []
  quoted : Bool := false

def Word.push (w : Word) (c : Char) : Word := { w with chars := c :: w.chars }

def Word.emit (w : Word) : List Text :=
  if w.chars = [] ∧ w.quoted = false then [] else [w.chars.reverse]

def splitFrom : Mode → Word → Text → Option (List Text)
  | .blank, w, [] | .word, w, [] => some w.emit
  | .quoted _, _, [] | .escaped _, _, [] => none
  | .blank, w, c :: rest =>
    if isBlank c then splitFrom .blank w rest
    else if c = '\\' then splitFrom (.escaped none) w rest
    else if isQuote c then splitFrom (.quoted c) w rest
    else splitFrom .word (w.push c) rest
  | .word, w, c :: rest =>
    if isBlank c then (splitFrom .blank {} rest).map (w.emit ++ ·)
    else if isQuote c then splitFrom (.quoted c) w rest
    else if c = '\\' then splitFrom (.escaped none) w rest
    else splitFrom .word (w.push c) rest
  | .quoted quote, w, c :: rest =>
    let w := { w with quoted := true }
    if c = quote then splitFrom .word w rest
    else if c = '\\' ∧ quote = '"' then splitFrom (.escaped (some quote)) w rest
    else splitFrom (.quoted quote) (w.push c) rest
  | .escaped none, w, c :: rest => splitFrom .word (w.push c) rest
  | .escaped (some quote), w, c :: rest =>
    let w := if c = '\\' ∨ c = quote then w else w.push '\\'
    splitFrom (.quoted quote) (w.push c) rest

/-- The words of the command line, none when a quote or an escape is left open. -/
def split (line : Text) : Option (List Text) := splitFrom .blank {} line

example : split "a 'b c' \"d\\\"\" e\\ f".toList =
    some ["a".toList, "b c".toList, "d\"".toList, "e f".toList] := by decide +kernel

end Agent33.Library.Shlex
