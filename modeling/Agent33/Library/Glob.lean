import Agent33.Library.Text
import Mathlib.Data.List.Infix

/-!
# Shell patterns

Matching of a whole text against a pattern with `*`, `?` and character classes.
A class that is not closed stands for its bracket, `!` at its front negates it,
and a range whose ends are in the wrong order is dropped from it.
-/

namespace Agent33.Library.Glob

inductive Token
  | star
  | any
  | lit (c : Char)
  | class (negated : Bool) (singles : Text) (ranges : List (Char × Char))

/-- The text of a class after its opening bracket, and what follows the class. -/
def takeClass (rest : Text) : Option (Text × Text) :=
  let (bang, t) := match rest with
    | '!' :: t => (['!'], t)
    | t => ([], t)
  let (bracket, t) := match t with
    | ']' :: t => ([']'], t)
    | t => ([], t)
  match t.span (· != ']') with
  | (inner, _ :: after) => some (bang ++ bracket ++ inner, after)
  | (_, []) => none

/-- The pieces of a class between the hyphens that make ranges: the first `skip`
characters of a piece are never such a hyphen. -/
def chunks : ℕ → ℕ → Text → List Text
  | 0, _, stuff => [stuff]
  | fuel + 1, skip, stuff =>
    match (stuff.drop skip).idxOf? '-' with
    | none => [stuff]
    | some i => stuff.take (skip + i) :: chunks fuel 2 (stuff.drop (skip + i + 1))

def closeChunks : List Text → List Text
  | [] => []
  | [last] => [last]
  | [chunk, []] => [chunk ++ ['-']]
  | chunk :: rest => chunk :: closeChunks rest

def dropEmptyRange (chunk : Text) : List Text → List Text
  | [] => [chunk]
  | next :: rest =>
    match chunk.getLast?, next.head? with
    | some lo, some hi =>
      if hi < lo then (chunk.dropLast ++ next.tail) :: rest else chunk :: next :: rest
    | _, _ => chunk :: next :: rest

def ranges : List Text → List (Char × Char)
  | chunk :: next :: rest =>
    match chunk.getLast?, next.head? with
    | some lo, some hi => (lo, hi) :: ranges (next :: rest)
    | _, _ => ranges (next :: rest)
  | _ => []

def classToken (stuff : Text) : Token :=
  let pieces :=
    if '-' ∈ stuff then
      (closeChunks (chunks stuff.length (if stuff.head? = some '!' then 2 else 1) stuff)).foldr
        dropEmptyRange []
    else [stuff]
  match pieces with
  | ('!' :: first) :: rest => .class true (first ++ rest.flatten) (ranges (first :: rest))
  | pieces => .class false pieces.flatten (ranges pieces)

def tokens : ℕ → Text → List Token
  | _, [] => []
  | 0, _ :: _ => []
  | fuel + 1, c :: rest =>
    match c with
    | '*' => .star :: tokens fuel rest
    | '?' => .any :: tokens fuel rest
    | '[' =>
      match takeClass rest with
      | some (stuff, after) => classToken stuff :: tokens fuel after
      | none => .lit '[' :: tokens fuel rest
    | c => .lit c :: tokens fuel rest

def Token.matchesChar (c : Char) : Token → Bool
  | .star => false
  | .any => true
  | .lit d => c == d
  | .class negated singles ranges =>
    (singles.elem c || ranges.any fun r => r.1 ≤ c && c ≤ r.2) != negated

def matchTokens : List Token → Text → Bool
  | [], text => text.isEmpty
  | .star :: rest, text => text.tails.any (matchTokens rest)
  | token :: rest, text =>
    match text with
    | [] => false
    | c :: text => token.matchesChar c && matchTokens rest text

/-- `fnmatch` on a case-sensitive system. -/
def fnmatch (name pattern : Text) : Bool := matchTokens (tokens pattern.length pattern) name

end Agent33.Library.Glob

/-!
## Patterns of a key-value server

The patterns of `SCAN`: `*`, `?`, classes with `^` and ranges, and a backslash before a
character that stands for itself. A class that is not closed ends with the pattern.
-/

namespace Agent33.Library.KeyPattern

open Glob

/-- The single characters and the ranges of a class, and what follows it. -/
def classItems : Text → List Char × List (Char × Char) × Text
  | [] => ([], [], [])
  | ']' :: rest => ([], [], rest)
  | '\\' :: c :: rest =>
    let (singles, ranges, after) := classItems rest
    (c :: singles, ranges, after)
  | a :: '-' :: b :: rest =>
    let (singles, ranges, after) := classItems rest
    (singles, (if a ≤ b then (a, b) else (b, a)) :: ranges, after)
  | c :: rest =>
    let (singles, ranges, after) := classItems rest
    (c :: singles, ranges, after)

def takeClass (rest : Text) : Token × Text :=
  let (negated, body) := match rest with
    | '^' :: body => (true, body)
    | body => (false, body)
  let (singles, ranges, after) := classItems body
  (.class negated singles ranges, after)

def tokens : ℕ → Text → List Token
  | _, [] => []
  | 0, _ :: _ => []
  | fuel + 1, c :: rest =>
    match c with
    | '*' => .star :: tokens fuel rest
    | '?' => .any :: tokens fuel rest
    | '[' => (takeClass rest).1 :: tokens fuel (takeClass rest).2
    | '\\' =>
      match rest with
      | [] => [.lit '\\']
      | escaped :: rest => .lit escaped :: tokens fuel rest
    | c => .lit c :: tokens fuel rest

def isMatch (pattern key : Text) : Bool := matchTokens (tokens pattern.length pattern) key

/-- The text has none of the characters that a pattern gives a meaning. -/
def Literal (text : Text) : Prop := ∀ c ∈ text, c ∉ ['*', '?', '[', '\\']

instance (text : Text) : Decidable (Literal text) :=
  List.decidableBAll (fun c => c ∉ ['*', '?', '[', '\\']) text

theorem tokens_literal (h : Literal text) (rest : Text) {fuel : ℕ} :
    tokens (text.length + fuel) (text ++ rest) = text.map Token.lit ++ tokens fuel rest := by
  induction text with
  | nil => rw [List.length_nil, Nat.zero_add, List.nil_append, List.map_nil, List.nil_append]
  | cons c text ih =>
    rw [Literal, List.forall_mem_cons] at h
    obtain ⟨hc, htext⟩ := h
    simp only [List.mem_cons, List.not_mem_nil, or_false, not_or] at hc
    rw [List.length_cons, Nat.add_right_comm, List.cons_append, List.map_cons, List.cons_append,
      ← ih htext, tokens]
    · exact hc.1
    · exact hc.2.1
    · exact hc.2.2.1
    · exact hc.2.2.2

theorem matchTokens_literal (text : Text) (rest : List Token) (key : Text) :
    matchTokens (text.map Token.lit ++ rest) key = true ↔
      ∃ tail, key = text ++ tail ∧ matchTokens rest tail = true := by
  induction text generalizing key with
  | nil => simp
  | cons c text ih =>
    rw [List.map_cons, List.cons_append]
    cases key with
    | nil => simp [matchTokens]
    | cons d key =>
      simp only [matchTokens, Token.matchesChar, Bool.and_eq_true, beq_iff_eq, ih,
        List.cons_append, List.cons.injEq]
      constructor
      · rintro ⟨rfl, tail, rfl, h⟩
        exact ⟨tail, ⟨rfl, rfl⟩, h⟩
      · rintro ⟨tail, ⟨rfl, rfl⟩, h⟩
        exact ⟨rfl, tail, rfl, h⟩

theorem matchTokens_star (key : Text) : matchTokens [.star] key = true := by
  rw [matchTokens, List.any_eq_true]
  exact ⟨[], (List.mem_tails _ _).mpr key.nil_suffix, rfl⟩

theorem isMatch_literal_star (h : Literal text) (key : Text) :
    isMatch (text ++ ['*']) key = true ↔ text <+: key := by
  rw [isMatch, List.length_append, tokens_literal h, matchTokens_literal]
  constructor
  · rintro ⟨tail, rfl, -⟩
    exact ⟨tail, rfl⟩
  · rintro ⟨tail, rfl⟩
    exact ⟨tail, rfl, matchTokens_star tail⟩

end Agent33.Library.KeyPattern
