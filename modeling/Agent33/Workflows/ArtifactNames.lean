import Agent33.Library.Text
import Mathlib.Data.List.Perm.Subperm
import Mathlib.Data.List.Nodup

/-!
# The file names of archived artifacts

The name that an artifact asks for is reduced to its last component and to plain characters, and
numbered until no artifact of the run has it.
-/

namespace Agent33.Workflows.ArtifactNames

open Library List

/-- `mimetypes.guess_extension`, whose extensions include the dot. -/
structure MimeTypes where
  guessExtension : Text → Option Text
  dotted : ∀ {mimeType suffix}, guessExtension mimeType = some suffix → ∃ rest, suffix = '.' :: rest

/-- What `_SAFE_FILENAME_CHARS` leaves alone. -/
def isSafe (c : Char) : Bool := c.isAlphanum || c == '.' || c == '_' || c == '-'

/-- Each run of other characters gives way to one dash. -/
def dashed : Bool → Text → Text
  | _, [] => []
  | inRun, c :: rest =>
    if isSafe c then c :: dashed false rest
    else if inRun then dashed true rest
    else '-' :: dashed true rest

/-- `PurePath.name`. -/
def pathName (path : Text) : Text :=
  ((path.splitOn '/').filter fun part => part ≠ [] ∧ part ≠ ['.']).getLast?.getD []

def isTrimmed (c : Char) : Bool := c == '-' || c == '.'

def trimmed (stem : Text) : Text :=
  ((stem.dropWhile isTrimmed).reverse.dropWhile isTrimmed).reverse

def orElse (text default : Text) : Text := if text = [] then default else text

def guessSuffix (types : MimeTypes) (mimeType : Text) : Text :=
  if mimeType = Text.ofString "text/plain" then Text.ofString ".txt"
  else if mimeType = Text.ofString "text/markdown" then Text.ofString ".md"
  else if mimeType = Text.ofString "text/html" then Text.ofString ".html"
  else if mimeType = Text.ofString "image/svg+xml" then Text.ofString ".svg"
  else orElse ((types.guessExtension mimeType).getD []) (Text.ofString ".txt")

structure Artifact where
  nameHint : Text
  mimeType : Option Text

namespace Artifact

variable (types : MimeTypes) (artifact : Artifact)

def rawName : Text := pathName (orElse (Text.strip artifact.nameHint) (Text.ofString "artifact"))

/-- `raw_name.rsplit(".", 1)[0]`. -/
def stem : Text :=
  if '.' ∈ artifact.rawName then
    (artifact.rawName.reverse.dropWhile fun c => c ≠ '.').tail.reverse
  else artifact.rawName

def guessed : Text := guessSuffix types
    (orElse (artifact.mimeType.getD []) (Text.ofString "text/plain"))

def suffix : Text :=
  if '.' ∈ artifact.rawName then
    '.' :: (artifact.rawName.reverse.takeWhile fun c => c ≠ '.').reverse
  else artifact.guessed types

def safeStem : Text := orElse (trimmed (dashed false artifact.stem)) (Text.ofString "artifact")

def safeSuffix : Text := orElse ((artifact.suffix types).filter isSafe) (artifact.guessed types)

def numbered (counter : ℕ) : Text :=
  artifact.safeStem ++ '-' :: Text.ofNat counter ++ artifact.safeSuffix types

end Artifact

/-- The loop, as long as there is fuel. -/
def firstFree (used : List Text) (numbered : ℕ → Text) : ℕ → ℕ → Text → Option Text
  | 0, _, candidate => if candidate ∈ used then none else some candidate
  | fuel + 1, counter, candidate =>
    if candidate ∈ used then firstFree used numbered fuel (counter + 1) (numbered counter)
    else some candidate

def makeUniqueFilename (types : MimeTypes) (fuel : ℕ) (artifact : Artifact) (used : List Text) :
    Option Text :=
  firstFree used (artifact.numbered types) fuel 2 (artifact.safeStem ++ artifact.safeSuffix types)

/-- The names of the artifacts that are added to a run. -/
def addAll (types : MimeTypes) (fuel : ℕ) : List Artifact → List Text → Option (List Text)
  | [], _ => some []
  | artifact :: rest, used => do
    let name ← makeUniqueFilename types fuel artifact used
    let names ← addAll types fuel rest (name :: used)
    return name :: names

/-- A file in the directory, wherever the separator is a slash or a backslash. -/
def Plain (name : Text) : Prop :=
  name ≠ [] ∧ '/' ∉ name ∧ '\\' ∉ name ∧ name ≠ ['.'] ∧ name ≠ ['.', '.']

variable {types : MimeTypes} {artifact : Artifact} {used : List Text}

theorem isSafe_of_mem_dashed (inRun : Bool) (hc : c ∈ dashed inRun t) :
    isSafe c = true := by
  induction t generalizing inRun with
  | nil => exact absurd hc not_mem_nil
  | cons d rest ih =>
    rw [dashed] at hc
    split_ifs at hc with hd hrun
    · rcases mem_cons.mp hc with rfl | hc
      · exact hd
      · exact ih false hc
    · exact ih true hc
    · rcases mem_cons.mp hc with rfl | hc
      · rfl
      · exact ih true hc

theorem mem_of_mem_trimmed (hc : c ∈ trimmed t) : c ∈ t := by
  rw [trimmed, mem_reverse] at hc
  have hrest := (dropWhile_sublist isTrimmed).subset hc
  exact (dropWhile_sublist isTrimmed).subset (mem_reverse.mp hrest)

theorem head_trimmed (h : trimmed t = c :: rest) :
    isTrimmed c = false := by
  have hstart : (t.dropWhile isTrimmed).reverse.dropWhile isTrimmed <:+
      (t.dropWhile isTrimmed).reverse := dropWhile_suffix _
  rw [← reverse_prefix, reverse_reverse] at hstart
  obtain ⟨after, hafter⟩ := hstart
  have hhead := head?_dropWhile_not isTrimmed t
  rw [← hafter, ← trimmed, h] at hhead
  exact hhead

theorem firstFree_spec (hfree : numbered (counter + i) ∉ used)
    (candidate : Text) : ∃ name, name ∉ used ∧ (name = candidate ∨ ∃ n, name = numbered n) ∧
      ∀ fuel, i < fuel → firstFree used numbered fuel counter candidate = some name := by
  induction i generalizing counter candidate with
  | zero =>
    by_cases hmem : candidate ∈ used
    · refine ⟨numbered counter, hfree, .inr ⟨counter, rfl⟩, fun fuel hfuel => ?_⟩
      obtain ⟨fuel, rfl⟩ := Nat.exists_eq_succ_of_ne_zero (Nat.ne_of_gt hfuel)
      rw [firstFree, if_pos hmem]
      cases fuel <;> exact if_neg hfree
    · exact ⟨candidate, hmem, .inl rfl, fun fuel _ => by cases fuel <;> exact if_neg hmem⟩
  | succ i ih =>
    by_cases hmem : candidate ∈ used
    · have hnext : numbered (counter + 1 + i) ∉ used := by rwa [Nat.add_right_comm]
      obtain ⟨name, hname, hform, hrun⟩ := ih hnext (numbered counter)
      refine ⟨name, hname, .inr (hform.elim (fun h => ⟨counter, h⟩) id), fun fuel hfuel => ?_⟩
      obtain ⟨fuel, rfl⟩ := Nat.exists_eq_succ_of_ne_zero (Nat.ne_of_gt (Nat.zero_lt_of_lt hfuel))
      rw [firstFree, if_pos hmem]
      exact hrun fuel (by omega)
    · exact ⟨candidate, hmem, .inl rfl, fun fuel _ => by cases fuel <;> exact if_neg hmem⟩

theorem orElse_cases {P : Text → Prop} {default : Text} (ht : t ≠ [] → P t) (hd : P default) :
    P (orElse t default) := by
  rw [orElse]
  split_ifs with h
  · exact hd
  · exact ht h

theorem safeStem_spec (artifact : Artifact) : ∃ c rest, artifact.safeStem = c :: rest ∧ c ≠ '.' ∧
    ∀ d ∈ artifact.safeStem, isSafe d = true := by
  refine orElse_cases (P := fun s => ∃ c rest, s = c :: rest ∧ c ≠ '.' ∧ ∀ d ∈ s, isSafe d = true)
    (fun hne => ?_) ⟨'a', _, rfl, by decide, List.all_eq_true.mp rfl⟩
  obtain ⟨c, rest, hstem⟩ := exists_cons_of_ne_nil hne
  refine ⟨c, rest, hstem, ?_, fun d hd => isSafe_of_mem_dashed false (mem_of_mem_trimmed hd)⟩
  rintro rfl
  exact nomatch head_trimmed hstem

theorem guessed_dotted : ∃ rest, artifact.guessed types = '.' :: rest := by
  rw [Artifact.guessed, guessSuffix]
  split_ifs
  · exact ⟨_, rfl⟩
  · exact ⟨_, rfl⟩
  · exact ⟨_, rfl⟩
  · exact ⟨_, rfl⟩
  · refine orElse_cases (P := fun s => ∃ rest, s = '.' :: rest) (fun hne => ?_) ⟨_, rfl⟩
    cases h : types.guessExtension _ with
    | none => exact absurd (by rw [h]; rfl) hne
    | some suffix => exact types.dotted h

theorem isSafe_of_mem_safeSuffix (hc : c ∈ artifact.safeSuffix types) :
    isSafe c = true := by
  have hdot : ∃ rest, artifact.suffix types = '.' :: rest := by
    rw [Artifact.suffix]
    split_ifs
    · exact ⟨_, rfl⟩
    · exact guessed_dotted
  obtain ⟨rest, hrest⟩ := hdot
  rw [Artifact.safeSuffix, orElse, hrest, filter_cons_of_pos rfl, if_neg (cons_ne_nil _ _)] at hc
  rw [← filter_cons_of_pos (p := isSafe) (a := '.') rfl] at hc
  exact (mem_filter.mp hc).2

/-- What is put between the stem and the suffix are plain characters. -/
theorem plain_of_middle (types : MimeTypes) (artifact : Artifact)
    (hmiddle : ∀ c ∈ middle, isSafe c = true) :
    Plain (artifact.safeStem ++ middle ++ artifact.safeSuffix types) := by
  obtain ⟨c, rest, hstem, hc, hsafe⟩ := safeStem_spec artifact
  have hall : ∀ d ∈ artifact.safeStem ++ middle ++ artifact.safeSuffix types, isSafe d = true := by
    intro d hd
    rcases mem_append.mp hd with hd | hd
    · exact (mem_append.mp hd).elim (hsafe d) (hmiddle d)
    · exact isSafe_of_mem_safeSuffix hd
  refine ⟨?_, fun h => absurd (hall _ h) (by decide), fun h => absurd (hall _ h) (by decide), ?_,
    ?_⟩
  · rw [hstem]
    exact cons_ne_nil _ _
  · rw [hstem]
    exact fun h => hc (cons.inj h).1
  · rw [hstem]
    exact fun h => hc (cons.inj h).1

theorem numbered_injective : Function.Injective (artifact.numbered types) := by
  intro m n h
  have hnumber := (cons.inj (append_cancel_left (append_cancel_right h))).2
  have hparsed := congrArg Text.parseInt hnumber
  rw [Text.parseInt_ofNat, Text.parseInt_ofNat] at hparsed
  exact Int.ofNat.inj (Option.some_inj.mp hparsed)

/-- One of the first numbered names is not used, since there are more of them than used names. -/
theorem exists_numbered_notMem (types : MimeTypes) (artifact : Artifact) (used : List Text) :
    ∃ i ≤ used.length, artifact.numbered types (2 + i) ∉ used := by
  by_contra hnone
  have hall : ∀ i ≤ used.length, artifact.numbered types (2 + i) ∈ used :=
    fun i hi => not_not.mp fun h => hnone ⟨i, hi, h⟩
  have hsub : (range (used.length + 1)).map (fun i => artifact.numbered types (2 + i)) ⊆ used := by
    intro name hname
    obtain ⟨i, hi, rfl⟩ := mem_map.mp hname
    exact hall i (Nat.le_of_lt_succ (mem_range.mp hi))
  have hnodup : ((range (used.length + 1)).map fun i => artifact.numbered types (2 + i)).Nodup :=
    List.Nodup.map (fun i j h => Nat.add_left_cancel (numbered_injective h)) nodup_range
  have hlength := (hnodup.subperm hsub).length_le
  rw [length_map, length_range] at hlength
  exact absurd hlength (Nat.not_succ_le_self _)

theorem makeUniqueFilename_spec (types : MimeTypes) (artifact : Artifact) (used : List Text) :
    ∃ name, name ∉ used ∧ Plain name ∧ ∀ fuel, used.length < fuel →
      makeUniqueFilename types fuel artifact used = some name := by
  obtain ⟨i, hi, hfree⟩ := exists_numbered_notMem types artifact used
  obtain ⟨name, hname, hform, hrun⟩ :=
    firstFree_spec hfree (artifact.safeStem ++ artifact.safeSuffix types)
  refine ⟨name, hname, ?_, fun fuel hfuel => hrun fuel (hi.trans_lt hfuel)⟩
  rcases hform with rfl | ⟨n, rfl⟩
  · have hplain := plain_of_middle types artifact fun c (hc : c ∈ []) => absurd hc not_mem_nil
    rwa [append_nil] at hplain
  · refine plain_of_middle types artifact fun c hc => ?_
    rcases mem_cons.mp hc with rfl | hc
    · rfl
    · have hdigit := Text.isDigit_of_mem_ofNat hc
      simp [isSafe, Char.isAlphanum, hdigit]

/-- The loops end, and the names that are given are plain, new, and different from each other. -/
theorem addAll_spec (types : MimeTypes) (artifacts : List Artifact) (used : List Text) :
    ∃ names, names.length = artifacts.length ∧ names.Nodup ∧
      (∀ name ∈ names, name ∉ used ∧ Plain name) ∧
      ∀ fuel, used.length + artifacts.length ≤ fuel →
        addAll types fuel artifacts used = some names := by
  induction artifacts generalizing used with
  | nil => exact ⟨[], rfl, nodup_nil, nofun, fun _ _ => rfl⟩
  | cons artifact rest ih =>
    obtain ⟨name, hname, hplain, hmake⟩ := makeUniqueFilename_spec types artifact used
    obtain ⟨names, hlength, hnodup, hnames, hrun⟩ := ih (name :: used)
    refine ⟨name :: names, congrArg (· + 1) hlength,
      nodup_cons.mpr ⟨fun h => (hnames name h).1 mem_cons_self, hnodup⟩, ?_, fun fuel hfuel => ?_⟩
    · refine forall_mem_cons.mpr ⟨⟨hname, hplain⟩, fun n hn => ?_⟩
      exact ⟨fun h => (hnames n hn).1 (mem_cons_of_mem _ h), (hnames n hn).2⟩
    · rw [length_cons] at hfuel
      rw [addAll, hmake fuel (by omega)]
      change (addAll types fuel rest (name :: used) >>= _) = _
      rw [hrun fuel (by rw [length_cons]; omega)]
      rfl

end Agent33.Workflows.ArtifactNames
