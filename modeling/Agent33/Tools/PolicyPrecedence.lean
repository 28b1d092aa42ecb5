import Agent33.Library.Ranking
import Agent33.Tools.Governance

/-!
# The precedence of tool policies

The policy of a tool call is the one of the most specific class of keys with a matching key, and
in this class the one of the longest matching key. Of several longest keys it is the one that was
inserted first.
-/

namespace Agent33.Tools.Governance

open Library List Option

section Classes

inductive KeyClass
  | exactOperation
  | toolOperations
  | exactTool
  | operationPattern
  | toolPattern
  | anyTool
  deriving DecidableEq

def KeyClass.rank : KeyClass → ℕ
  | .exactOperation => 0
  | .toolOperations => 1
  | .exactTool => 2
  | .operationPattern => 3
  | .toolPattern => 4
  | .anyTool => 5

def KeyClass.matches (toolName operation : Text) : KeyClass → Text → Bool
  | .exactOperation, key => operation ≠ [] ∧ key = toolName ++ ':' :: operation
  | .toolOperations, key => operation ≠ [] ∧ key = toolName ++ ":*".toList
  | .exactTool, key => key = toolName
  | .operationPattern, key =>
    operation ≠ [] ∧ (':' ∈ key ∧ hasWildcard key = true) ∧
      Glob.fnmatch toolName (key.takeWhile (· != ':')) = true ∧
      ((key.dropWhile (· != ':')).tail = "*".toList ∨
        Glob.fnmatch operation (key.dropWhile (· != ':')).tail = true)
  | .toolPattern, key =>
    (':' ∉ key ∧ hasWildcard key = true ∧ key ≠ "*".toList) ∧ Glob.fnmatch toolName key = true
  | .anyTool, key => key = "*".toList

variable {policies policies' : Dict Text Text} {toolName operation : Text}
  {c : KeyClass} {key : Text}

structure Decides (policies : Dict Text Text) (toolName operation : Text) (c : KeyClass)
    (key : Text) : Prop where
  mem : key ∈ policies.keys
  fits : c.matches toolName operation key = true
  specific : ∀ c' : KeyClass, c'.rank < c.rank → ∀ key' ∈ policies.keys,
    c'.matches toolName operation key' = false
  longest : ∀ key' ∈ policies.keys, c.matches toolName operation key' = true →
    key'.length ≤ key.length

def First (policies : Dict Text Text) (toolName operation : Text) (c : KeyClass) (key : Text) :
    Prop :=
  policies.keys.find? (fun key' => c.matches toolName operation key' &&
    decide (key'.length = key.length)) = some key

structure Chosen (policies : Dict Text Text) (toolName operation : Text) (c : KeyClass)
    (choice : Option Text) : Prop where
  none_iff : choice = none ↔ ∀ key ∈ policies.keys, c.matches toolName operation key = false
  some_spec : ∀ key, choice = some key → key ∈ policies.keys ∧
    c.matches toolName operation key = true ∧
    (∀ key' ∈ policies.keys, c.matches toolName operation key' = true →
      key'.length ≤ key.length) ∧ First policies toolName operation c key

theorem chosen_exact {b : Prop} [Decidable b]
    (hmatches : ∀ key, c.matches toolName operation key = true ↔ b ∧ key = exact) :
    Chosen policies toolName operation c (if b ∧ exact ∈ policies.keys then some exact else none)
    where
  none_iff := by
    simp only [← Bool.not_eq_true, hmatches]
    grind
  some_spec key h := by
    obtain ⟨hb, hmem⟩ : b ∧ exact ∈ policies.keys := by
      by_contra hnot
      rw [if_neg hnot] at h
      exact some_ne_none _ h.symm
    rw [if_pos ⟨hb, hmem⟩] at h
    obtain rfl := some.inj h
    have hfits : ∀ key, c.matches toolName operation key = true ↔ key = exact := fun key =>
      (hmatches key).trans (and_iff_right hb)
    refine ⟨hmem, (hfits exact).mpr rfl, fun key hkey hkeyMatches => ?_, ?_⟩
    · rw [(hfits key).mp hkeyMatches]
    · rw [First]
      have hpred : (fun key => c.matches toolName operation key &&
          decide (key.length = exact.length)) = fun key => decide (key = exact) := by
        funext key
        rw [Bool.eq_iff_iff]
        simp only [Bool.and_eq_true, hfits, decide_eq_true_eq]
        exact ⟨fun h => h.1, fun h => ⟨h, h ▸ rfl⟩⟩
      rw [hpred]
      cases hfind : policies.keys.find? fun key => decide (key = exact) with
      | none => exact absurd (decide_eq_true rfl) (find?_eq_none.mp hfind exact hmem)
      | some found =>
        have hfound : found = exact := by simpa using find?_some hfind
        rw [hfound]

theorem chosen_pattern {b : Prop} [Decidable b]
    (hmatches : ∀ key, c.matches toolName operation key = (decide b && (f key && g key))) :
    Chosen policies toolName operation c
      (if b then (longestFirst (policies.keys.filter f)).find? g else none) where
  none_iff := by
    by_cases hb : b
    · rw [if_pos hb, longestFirst, ← Ranking.ranked, find?_eq_none]
      simp only [Ranking.mem_ranked, List.mem_filter]
      grind
    · simp [hb, hmatches]
  some_spec key h := by
    by_cases hb : b
    · rw [if_pos hb, longestFirst, ← Ranking.ranked] at h
      obtain ⟨hfirst, hlongest⟩ := Ranking.find?_ranked _ _ h
      obtain ⟨hmem, hf⟩ := List.mem_filter.mp
        ((Ranking.mem_ranked _ _).mp (mem_of_find?_eq_some h))
      have hg := find?_some h
      refine ⟨hmem, by simp [hmatches, hb, hf, hg], fun key' hkey' hmatch => ?_, ?_⟩
      · simp only [hmatches, hb, decide_true, Bool.true_and, Bool.and_eq_true] at hmatch
        exact hlongest key' (List.mem_filter.mpr ⟨hkey', hmatch.1⟩) hmatch.2
      · rw [find?_filter] at hfirst
        rw [First, ← hfirst]
        congr 1
        funext key'
        simp [hmatches, hb, Bool.and_assoc]
    · rw [if_neg hb] at h
      exact absurd h.symm (some_ne_none _)

def choice (policies : Dict Text Text) (toolName operation : Text) : KeyClass → Option Text
  | .exactOperation =>
    if operation ≠ [] ∧ toolName ++ ':' :: operation ∈ policies.keys then
      some (toolName ++ ':' :: operation)
    else none
  | .toolOperations =>
    if operation ≠ [] ∧ toolName ++ ":*".toList ∈ policies.keys then
      some (toolName ++ ":*".toList)
    else none
  | .exactTool => if True ∧ toolName ∈ policies.keys then some toolName else none
  | .operationPattern =>
    if operation ≠ [] then
      (longestFirst (policies.keys.filter fun key =>
        List.elem ':' key && hasWildcard key)).find? fun key =>
          Glob.fnmatch toolName (key.takeWhile (· != ':')) &&
            (decide ((key.dropWhile (· != ':')).tail = "*".toList) ||
              Glob.fnmatch operation (key.dropWhile (· != ':')).tail)
    else none
  | .toolPattern =>
    if True then
      (longestFirst (policies.keys.filter fun key =>
        !List.elem ':' key && hasWildcard key && decide (key ≠ "*".toList))).find? fun key =>
          Glob.fnmatch toolName key
    else none
  | .anyTool => if True ∧ "*".toList ∈ policies.keys then some "*".toList else none

theorem chosen_choice (policies : Dict Text Text) (toolName operation : Text) (c : KeyClass) :
    Chosen policies toolName operation c (choice policies toolName operation c) := by
  cases c with
  | exactOperation => exact chosen_exact fun key => by simp [KeyClass.matches]
  | toolOperations => exact chosen_exact fun key => by simp [KeyClass.matches]
  | exactTool => exact chosen_exact fun key => by simp [KeyClass.matches]
  | operationPattern => exact chosen_pattern fun key => by simp [KeyClass.matches, Bool.and_assoc]
  | toolPattern =>
    refine chosen_pattern (b := True) (f := fun key =>
      !List.elem ':' key && hasWildcard key && decide (key ≠ "*".toList)) fun key => ?_
    simp [KeyClass.matches, Bool.and_assoc]
  | anyTool => exact chosen_exact fun key => by simp [KeyClass.matches]

theorem bind_exact (policies : Dict Text Text) (b : Prop) [Decidable b] (exact : Text) :
    (if b ∧ exact ∈ policies.keys then some exact else none).bind policies.get? =
      if b then policies.get? exact else none := by
  by_cases hmem : exact ∈ policies.keys
  · by_cases hb : b <;> simp [hb, hmem]
  · have hnone := (Dict.get?_eq_none policies exact).mpr hmem
    by_cases hb : b <;> simp [hb, hmem, hnone]

theorem get?_of_choice (h : choice policies toolName operation c = some key) :
    ∃ policy, policies.get? key = some policy := by
  have hmem := ((chosen_choice policies toolName operation c).some_spec key h).1
  by_contra hnone
  push Not at hnone
  exact (Dict.get?_eq_none policies key).mp (eq_none_iff_forall_ne_some.mpr hnone) hmem

theorem findSome?_bind (policies : Dict Text Text) (toolName operation : Text)
    (classes : List KeyClass) :
    (classes.findSome? (choice policies toolName operation)).bind policies.get? =
      classes.foldr (fun c rest =>
        ((choice policies toolName operation c).bind policies.get?).or rest) none := by
  induction classes with
  | nil => rfl
  | cons c classes ih =>
    rw [findSome?_cons, foldr_cons, ← ih]
    cases hchoice : choice policies toolName operation c with
    | none => rfl
    | some key =>
      obtain ⟨policy, hpolicy⟩ := get?_of_choice hchoice
      simp [hpolicy]

def classes : List KeyClass :=
  [.exactOperation, .toolOperations, .exactTool, .operationPattern, .toolPattern, .anyTool]

theorem checkToolPolicy_eq (python : Python) (policies : Dict Text Text)
    (toolName operation : Text) :
    checkToolPolicy python policies toolName operation =
      ((classes.findSome? (choice policies toolName operation)).bind policies.get?).map
        python.lower := by
  rw [findSome?_bind, checkToolPolicy]
  simp only [classes, foldr_cons, foldr_nil, choice, bind_exact, or_none, if_true]
  by_cases hoperation : operation = []
  · simp [hoperation]
  · simp [hoperation, Option.or_assoc]

theorem findSome?_spec (policies : Dict Text Text) (toolName operation : Text) :
    (classes.findSome? (choice policies toolName operation) = none ∧
      ∀ c : KeyClass, ∀ key ∈ policies.keys, c.matches toolName operation key = false) ∨
    ∃ c key, classes.findSome? (choice policies toolName operation) = some key ∧
      Decides policies toolName operation c key ∧ First policies toolName operation c key := by
  have hall : ∀ c, c ∈ classes := by
    intro c
    cases c <;> decide
  cases hfind : classes.findSome? (choice policies toolName operation) with
  | none =>
    rw [findSome?_eq_none_iff] at hfind
    exact .inl ⟨rfl, fun c =>
      (chosen_choice policies toolName operation c).none_iff.mp (hfind c (hall c))⟩
  | some key =>
    obtain ⟨before, c, after, hclasses, hchoice, hbefore⟩ :=
      findSome?_eq_some_iff.mp hfind
    obtain ⟨hmem, hfits, hlongest, hfirst⟩ :=
      (chosen_choice policies toolName operation c).some_spec key hchoice
    refine .inr ⟨c, key, rfl, ⟨hmem, hfits, fun c' hrank => ?_, hlongest⟩, hfirst⟩
    apply (chosen_choice policies toolName operation c').none_iff.mp
    apply hbefore
    have hsorted : classes.Pairwise fun c c' => c.rank < c'.rank := by decide
    have hin := hall c'
    rw [hclasses, mem_append, mem_cons] at hin
    rw [hclasses, pairwise_append, pairwise_cons] at hsorted
    rcases hin with hin | rfl | hin
    · exact hin
    · exact absurd hrank (lt_irrefl _)
    · exact absurd (hsorted.2.1.1 c' hin) (by omega)

end Classes

section Precedence

variable {python : Python} {policies policies' : Dict Text Text}
  {toolName operation key key' : Text} {c c' : KeyClass}

theorem Decides.class_eq (h : Decides policies toolName operation c key)
    (h' : Decides policies toolName operation c' key') : c = c' := by
  have hrank : c.rank = c'.rank := by
    rcases lt_trichotomy c.rank c'.rank with hlt | heq | hlt
    · exact absurd h.fits (by rw [h'.specific c hlt key h.mem]; exact Bool.false_ne_true)
    · exact heq
    · exact absurd h'.fits (by rw [h.specific c' hlt key' h'.mem]; exact Bool.false_ne_true)
  cases c <;> cases c' <;> first | rfl | exact absurd hrank (by decide)

theorem Decides.congr (h : Decides policies toolName operation c key)
    (hsame : ∀ key, policies'.get? key = policies.get? key) :
    Decides policies' toolName operation c key := by
  have hkeys : ∀ key, key ∈ policies'.keys ↔ key ∈ policies.keys := by
    intro key
    rw [← not_iff_not, ← Dict.get?_eq_none, ← Dict.get?_eq_none, hsame]
  exact ⟨(hkeys key).mpr h.mem, h.fits, fun c' hrank key' hkey' =>
    h.specific c' hrank key' ((hkeys key').mp hkey'), fun key' hkey' =>
    h.longest key' ((hkeys key').mp hkey')⟩

theorem checkToolPolicy_cases (python : Python) (policies : Dict Text Text)
    (toolName operation : Text) :
    (checkToolPolicy python policies toolName operation = none ∧
        ∀ c : KeyClass, ∀ key ∈ policies.keys, c.matches toolName operation key = false) ∨
      ∃ c key policy, Decides policies toolName operation c key ∧
        First policies toolName operation c key ∧ policies.get? key = some policy ∧
          checkToolPolicy python policies toolName operation = some (python.lower policy) := by
  rw [checkToolPolicy_eq]
  rcases findSome?_spec policies toolName operation with
    ⟨hnone, hall⟩ | ⟨c, key, hsome, hdecides, hfirst⟩
  · exact .inl ⟨by rw [hnone]; rfl, hall⟩
  · cases hpolicy : policies.get? key with
    | none => exact absurd hdecides.mem ((Dict.get?_eq_none policies key).mp hpolicy)
    | some policy =>
      refine .inr ⟨c, key, policy, hdecides, hfirst, hpolicy, ?_⟩
      rw [hsome, bind_some, hpolicy, map_some]

def moveFirst (policies : Dict Text Text) (key policy : Text) : Dict Text Text :=
  (Dict.empty.set key policy).update policies

theorem get?_moveFirst (h : policies.get? key = some policy) (key' : Text) :
    (moveFirst policies key policy).get? key' = policies.get? key' := by
  rw [moveFirst, Dict.get?_update, Dict.get?_set]
  by_cases heq : key' = key
  · subst heq
    simp [h]
  · cases policies.get? key' <;> simp [heq]

theorem head?_moveFirst (policies : Dict Text Text) (key policy : Text) :
    (moveFirst policies key policy).keys.head? = some key := by
  obtain ⟨rest, hrest⟩ := Dict.keys_prefix_update (Dict.empty.set key policy) policies
  rw [moveFirst, ← hrest]
  rfl

theorem checkToolPolicy_moveFirst (h : Decides policies toolName operation c key)
    (hpolicy : policies.get? key = some policy) :
    checkToolPolicy python (moveFirst policies key policy) toolName operation =
      some (python.lower policy) := by
  have hdecides := h.congr (get?_moveFirst hpolicy)
  rcases checkToolPolicy_cases python (moveFirst policies key policy) toolName operation with
    ⟨-, hnone⟩ | ⟨c', key', policy', hdecides', hfirst', hpolicy', hresult⟩
  · exact absurd hdecides.fits (by rw [hnone c key hdecides.mem]; exact Bool.false_ne_true)
  · obtain rfl := hdecides.class_eq hdecides'
    have hlength : key.length = key'.length :=
      le_antisymm (hdecides'.longest key hdecides.mem hdecides.fits)
        (hdecides.longest key' hdecides'.mem hdecides'.fits)
    obtain ⟨rest, hkeys⟩ : ∃ rest, (moveFirst policies key policy).keys = key :: rest := by
      have hhead := head?_moveFirst policies key policy
      cases hall : (moveFirst policies key policy).keys with
      | nil => simp [hall] at hhead
      | cons first rest =>
        rw [hall] at hhead
        exact ⟨rest, by rw [some.inj hhead]⟩
    rw [First, hkeys, find?_cons_of_pos (by simp [hdecides.fits, hlength])] at hfirst'
    obtain rfl := some.inj hfirst'
    rw [get?_moveFirst hpolicy, hpolicy] at hpolicy'
    rw [hresult, some.inj hpolicy']

/-- The policy is that of the first inserted one of the longest matching keys of the most specific
class, and depends on the table as a map alone exactly when all these keys have one policy. -/
theorem checkToolPolicy_precedence (python : Python) (policies : Dict Text Text)
    (toolName operation : Text) :
    ((checkToolPolicy python policies toolName operation = none ∧
        ∀ c : KeyClass, ∀ key ∈ policies.keys, c.matches toolName operation key = false) ∨
      ∃ c key policy, Decides policies toolName operation c key ∧
        First policies toolName operation c key ∧ policies.get? key = some policy ∧
          checkToolPolicy python policies toolName operation = some (python.lower policy)) ∧
    ((∀ policies' : Dict Text Text, (∀ key, policies'.get? key = policies.get? key) →
        checkToolPolicy python policies' toolName operation =
          checkToolPolicy python policies toolName operation) ↔
      ∀ c key key', Decides policies toolName operation c key →
        Decides policies toolName operation c key' →
          (policies.get? key).map python.lower = (policies.get? key').map python.lower) := by
  refine ⟨checkToolPolicy_cases python policies toolName operation, ?_, ?_⟩
  · intro hsame c key key' hdecides hdecides'
    have hmoved : ∀ key, Decides policies toolName operation c key →
        (policies.get? key).map python.lower =
          checkToolPolicy python policies toolName operation := by
      intro key hdecides
      cases hpolicy : policies.get? key with
      | none => exact absurd hdecides.mem ((Dict.get?_eq_none policies key).mp hpolicy)
      | some policy =>
        rw [← hsame _ (get?_moveFirst hpolicy), checkToolPolicy_moveFirst hdecides hpolicy]
        rfl
    rw [hmoved key hdecides, hmoved key' hdecides']
  · intro hone policies' hsame
    rcases checkToolPolicy_cases python policies toolName operation with
      ⟨hresult, hnone⟩ | ⟨c, key, policy, hdecides, -, hpolicy, hresult⟩
    · rcases checkToolPolicy_cases python policies' toolName operation with
        ⟨hresult', -⟩ | ⟨c', key', policy', hdecides', -, -, -⟩
      · rw [hresult, hresult']
      · have hin := hdecides'.congr fun key => (hsame key).symm
        exact absurd hin.fits (by rw [hnone c' key' hin.mem]; exact Bool.false_ne_true)
    · rcases checkToolPolicy_cases python policies' toolName operation with
        ⟨-, hnone'⟩ | ⟨c', key', policy', hdecides', -, hpolicy', hresult'⟩
      · have hin := hdecides.congr hsame
        exact absurd hin.fits (by rw [hnone' c key hin.mem]; exact Bool.false_ne_true)
      · have hin := hdecides'.congr fun key => (hsame key).symm
        obtain rfl := hdecides.class_eq hin
        have heq := hone c key key' hdecides hin
        rw [← hsame key', hpolicy, hpolicy'] at heq
        rw [hresult, hresult']
        exact heq.symm

def overlapping : Dict Text Text :=
  Dict.ofList [("sh*".toList, "allow".toList), ("*ll".toList, "deny".toList)]

theorem checkToolPolicy_overlapping :
    ¬ ∀ policies : Dict Text Text, (∀ key, policies.get? key = overlapping.get? key) →
      checkToolPolicy (asciiPython []) policies "shell".toList [] =
        checkToolPolicy (asciiPython []) overlapping "shell".toList [] := by
  intro h
  have heq := h (Dict.ofList [("*ll".toList, "deny".toList), ("sh*".toList, "allow".toList)])
    fun key => by
      simp only [overlapping, Dict.ofList, foldl_cons, foldl_nil, Dict.get?_set]
      by_cases hkey : key = "sh*".toList
      · rw [hkey]
        rfl
      · simp only [if_neg hkey]
  exact absurd heq (by decide +kernel)

end Precedence

end Agent33.Tools.Governance
