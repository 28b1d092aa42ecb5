import Agent33.Library.Dict
import Agent33.Library.Text
import Mathlib.Data.List.Lex
import Mathlib.Data.List.Sort

/-!
# JSON texts

Values are printed with a layout and parsed again, as the standard library does it:
strings are escaped to ASCII, other keys and sequences lose their type, integers have
a bounded number of digits. The texts of floats are a parameter.
-/

namespace Agent33.Library.JsonText

abbrev CodePoint := Fin 0x110000

instance neZero_codePoints : NeZero 0x110000 := ⟨by decide⟩

abbrev Str := List CodePoint

def codePoint (c : Char) : CodePoint :=
  ⟨c.toNat, by
    have h := c.valid
    have hn : c.toNat = c.val.toNat := rfl
    rcases h with h | h <;> omega⟩

def strOf (text : Text) : Str := text.map codePoint

def isHigh (c : CodePoint) : Bool := decide (0xd800 ≤ c.val ∧ c.val < 0xdc00)

def isLow (c : CodePoint) : Bool := decide (0xdc00 ≤ c.val ∧ c.val < 0xe000)

def combine (high low : CodePoint) : CodePoint :=
  Fin.ofNat _ (0x10000 + (high.val - 0xd800) * 0x400 + (low.val - 0xdc00))

/-- Every pair of surrogates becomes the one code point that it stands for. -/
def merge : Str → Str
  | high :: low :: rest =>
    if isHigh high && isLow low then combine high low :: merge rest
    else high :: merge (low :: rest)
  | s => s

def maxDigits : ℕ := 4300

structure BoundedInt where
  value : ℤ
  length_le : (Nat.toDigits 10 value.natAbs).length ≤ maxDigits

inductive JsonValue
  | null
  | bool (b : Bool)
  | int (n : BoundedInt)
  | float (bits : BitVec 64)
  | str (s : Str)
  | arr (items : List JsonValue)
  | obj (fields : List (Str × JsonValue))
  deriving Inhabited

def nan : BitVec 64 := 0x7ff8000000000000#64

def infinity : BitVec 64 := 0x7ff0000000000000#64

def negInfinity : BitVec 64 := 0xfff0000000000000#64

def isNaN (bits : BitVec 64) : Bool :=
  decide (0x7ff0000000000000#64 < bits &&& 0x7fffffffffffffff#64)

def isFinite (bits : BitVec 64) : Bool :=
  !isNaN bits && decide (bits ≠ infinity) && decide (bits ≠ negInfinity)

def canonical (bits : BitVec 64) : BitVec 64 := if isNaN bits then nan else bits

mutual
/-- What is left of a value after a round trip: the last of equal keys counts. -/
def normalise : JsonValue → JsonValue
  | .float bits => .float (canonical bits)
  | .str s => .str (merge s)
  | .arr items => .arr (normaliseItems items)
  | .obj fields => .obj (Dict.ofList (normaliseFields fields)).entries
  | .null => .null
  | .bool b => .bool b
  | .int n => .int n

def normaliseItems : List JsonValue → List JsonValue
  | [] => []
  | value :: rest => normalise value :: normaliseItems rest

def normaliseFields : List (Str × JsonValue) → List (Str × JsonValue)
  | [] => []
  | (key, value) :: rest => (merge key, normalise value) :: normaliseFields rest
end

mutual
def sortKeys : JsonValue → JsonValue
  | .arr items => .arr (sortKeysItems items)
  | .obj fields => .obj ((sortKeysFields fields).insertionSort fun a b => a.1 ≤ b.1)
  | .null => .null
  | .bool b => .bool b
  | .int n => .int n
  | .float bits => .float bits
  | .str s => .str s

def sortKeysItems : List JsonValue → List JsonValue
  | [] => []
  | value :: rest => sortKeys value :: sortKeysItems rest

def sortKeysFields : List (Str × JsonValue) → List (Str × JsonValue)
  | [] => []
  | (key, value) :: rest => (key, sortKeys value) :: sortKeysFields rest
end

/-- Equal values of the language: the order of keys does not count. -/
def Same (v w : JsonValue) : Prop := sortKeys v = sortKeys w

/-- `float.__repr__` and `float`. -/
structure Floats where
  repr : BitVec 64 → Text
  parse : Text → BitVec 64

def hexDigit (n : ℕ) : Char := Nat.digitChar (n % 16)

/-- `\uXXXX` -/
def unicodeEscape (n : ℕ) : Text :=
  ['\\', 'u', hexDigit (n / 4096), hexDigit (n / 256), hexDigit (n / 16), hexDigit n]

def shortEscapes : List (ℕ × Char) :=
  [(0x22, '"'), (0x5c, '\\'), (0x0a, 'n'), (0x0d, 'r'), (0x09, 't'), (0x0c, 'f'), (0x08, 'b')]

def escape (c : CodePoint) : Text :=
  match shortEscapes.find? fun e => decide (e.1 = c.val) with
  | some e => ['\\', e.2]
  | none =>
    if 0x20 ≤ c.val ∧ c.val < 0x7f then [Char.ofNat c.val]
    else if c.val < 0x10000 then unicodeEscape c.val
    else unicodeEscape (0xd800 + (c.val - 0x10000) / 0x400) ++
      unicodeEscape (0xdc00 + (c.val - 0x10000) % 0x400)

def printStr (s : Str) : Text := '"' :: s.flatMap escape ++ ['"']

def intText (n : ℤ) : Text :=
  if n < 0 then '-' :: Nat.toDigits 10 n.natAbs else Nat.toDigits 10 n.natAbs

def floatText (floats : Floats) (bits : BitVec 64) : Text :=
  if isNaN bits then "NaN".toList
  else if bits = infinity then "Infinity".toList
  else if bits = negInfinity then "-Infinity".toList
  else floats.repr bits

def isWhitespace (c : Char) : Bool := c == ' ' || c == '\t' || c == '\n' || c == '\r'

structure Layout where
  gap : ℕ → Text
  comma : ℕ → Text
  close : ℕ → Text
  whitespace_gap : ∀ level, ∀ c ∈ gap level, isWhitespace c = true
  whitespace_comma : ∀ level, ∀ c ∈ comma level, isWhitespace c = true
  whitespace_close : ∀ level, ∀ c ∈ close level, isWhitespace c = true

/-- The layout without `indent`. -/
def compact : Layout where
  gap _ := []
  comma _ := [' ']
  close _ := []
  whitespace_gap _ := nofun
  whitespace_comma _ c hc := by rw [List.mem_singleton.mp hc]; rfl
  whitespace_close _ := nofun

def newline (width : ℕ) : Text := '\n' :: List.replicate width ' '

theorem whitespace_newline (width : ℕ) : ∀ c ∈ newline width, isWhitespace c = true := by
  intro c hc
  rcases List.mem_cons.mp hc with rfl | hc
  · rfl
  · rw [List.eq_of_mem_replicate hc]
    rfl

def indented (width : ℕ) : Layout where
  gap level := newline (width * (level + 1))
  comma level := newline (width * (level + 1))
  close level := newline (width * level)
  whitespace_gap _ := whitespace_newline _
  whitespace_comma _ := whitespace_newline _
  whitespace_close _ := whitespace_newline _

section Print

variable (floats : Floats) (layout : Layout)

mutual
def print (level : ℕ) : JsonValue → Text
  | .null => "null".toList
  | .bool b => (if b then "true" else "false").toList
  | .int n => intText n.value
  | .float bits => floatText floats bits
  | .str s => printStr s
  | .arr items =>
    if items.isEmpty then "[]".toList else '[' :: printItems level (layout.gap level) items
  | .obj fields =>
    if fields.isEmpty then "\x7b\x7d".toList
    else '\x7b' :: printFields level (layout.gap level) fields

def printItems (level : ℕ) (separator : Text) : List JsonValue → Text
  | [] => layout.close level ++ [']']
  | value :: rest =>
    separator ++ print (level + 1) value ++ printItems level (',' :: layout.comma level) rest

def printFields (level : ℕ) (separator : Text) : List (Str × JsonValue) → Text
  | [] => layout.close level ++ ['\x7d']
  | (key, value) :: rest =>
    separator ++ printStr key ++ ": ".toList ++ print (level + 1) value ++
      printFields level (',' :: layout.comma level) rest
end

end Print

inductive PyKey
  | str (s : Str)
  | int (n : ℤ)
  | float (bits : BitVec 64)
  | bool (b : Bool)
  | none
  | other

/-- `other` is what cannot be encoded. -/
inductive PyValue
  | none
  | bool (b : Bool)
  | int (n : ℤ)
  | float (bits : BitVec 64)
  | str (s : Str)
  | list (items : List PyValue)
  | tuple (items : List PyValue)
  | dict (entries : List (PyKey × PyValue))
  | other

def boundedInt? (n : ℤ) : Option BoundedInt :=
  if h : (Nat.toDigits 10 n.natAbs).length ≤ maxDigits then some ⟨n, h⟩ else none

section Encode

variable (floats : Floats)

def encodeKey : PyKey → Option Str
  | .str s => some s
  | .int n => (boundedInt? n).map fun m => strOf (intText m.value)
  | .float bits => some (strOf (floatText floats bits))
  | .bool b => some (strOf (if b then "true" else "false").toList)
  | .none => some (strOf "null".toList)
  | .other => none

mutual
def encode : PyValue → Option JsonValue
  | .none => some .null
  | .bool b => some (.bool b)
  | .int n => (boundedInt? n).map .int
  | .float bits => some (.float bits)
  | .str s => some (.str s)
  | .list items => (encodeItems items).map .arr
  | .tuple items => (encodeItems items).map .arr
  | .dict entries => (encodeEntries entries).map .obj
  | .other => none

def encodeItems : List PyValue → Option (List JsonValue)
  | [] => some []
  | value :: rest => do
    let value ← encode value
    let rest ← encodeItems rest
    return value :: rest

def encodeEntries : List (PyKey × PyValue) → Option (List (Str × JsonValue))
  | [] => some []
  | (key, value) :: rest => do
    let key ← encodeKey floats key
    let value ← encode value
    let rest ← encodeEntries rest
    return (key, value) :: rest
end

end Encode

/-- `JSONDecodeError`, or another `ValueError`. -/
inductive ParseError
  | decode
  | tooManyDigits

def skip (text : Text) : Text := text.dropWhile isWhitespace

def hexValue (c : Char) : Option ℕ :=
  if '0' ≤ c ∧ c ≤ '9' then some (c.toNat - 48)
  else if 'a' ≤ c ∧ c ≤ 'f' then some (c.toNat - 87)
  else if 'A' ≤ c ∧ c ≤ 'F' then some (c.toNat - 55)
  else none

def decodeHex (a b c d : Char) : Option CodePoint := do
  let a ← hexValue a
  let b ← hexValue b
  let c ← hexValue c
  let d ← hexValue d
  return Fin.ofNat _ (a * 4096 + b * 256 + c * 16 + d)

def unescape (c : Char) : Option CodePoint :=
  if c = '/' then some 0x2f
  else (shortEscapes.find? fun e => decide (e.2 = c)).map fun e => Fin.ofNat _ e.1

/-- The code units of a string after its opening quote, and what is left of the text. -/
def scanUnits : Text → Option (Str × Text)
  | [] => none
  | '\\' :: 'u' :: a :: b :: c :: d :: rest => do
    let unit ← decodeHex a b c d
    let (units, rest) ← scanUnits rest
    return (unit :: units, rest)
  | '\\' :: c :: rest => do
    let unit ← unescape c
    let (units, rest) ← scanUnits rest
    return (unit :: units, rest)
  | c :: rest =>
    if c = '"' then some ([], rest)
    else if c = '\\' ∨ c.toNat < 0x20 then none
    else do
      let (units, rest) ← scanUnits rest
      return (codePoint c :: units, rest)

def scanString (text : Text) : Except ParseError (Str × Text) :=
  match scanUnits text with
  | some (units, rest) => .ok (merge units, rest)
  | none => .error .decode

def scanWhole : Text → Option (Text × Text)
  | '0' :: rest => some (['0'], rest)
  | text =>
    match text.takeWhile Char.isDigit with
    | [] => none
    | digits => some (digits, text.dropWhile Char.isDigit)

def scanFraction : Text → Text × Text
  | '.' :: rest =>
    match rest.takeWhile Char.isDigit with
    | [] => ([], '.' :: rest)
    | digits => ('.' :: digits, rest.dropWhile Char.isDigit)
  | text => ([], text)

def scanSign : Text → Text × Text
  | '+' :: rest => (['+'], rest)
  | '-' :: rest => (['-'], rest)
  | text => ([], text)

def scanExponent : Text → Text × Text
  | [] => ([], [])
  | c :: rest =>
    if c = 'e' ∨ c = 'E' then
      let (sign, digits) := scanSign rest
      match digits.takeWhile Char.isDigit with
      | [] => ([], c :: rest)
      | exponent => (c :: sign ++ exponent, digits.dropWhile Char.isDigit)
    else ([], c :: rest)

def scanMinus : Text → Text × Text
  | '-' :: rest => (['-'], rest)
  | text => ([], text)

def parseNumber (floats : Floats) (text : Text) : Except ParseError (JsonValue × Text) :=
  let (minus, rest) := scanMinus text
  match scanWhole rest with
  | none => .error .decode
  | some (whole, rest) =>
    let (fraction, rest) := scanFraction rest
    let (exponent, rest) := scanExponent rest
    if fraction = [] ∧ exponent = [] then
      let n : ℤ := Nat.ofDigitChars 10 whole 0
      match boundedInt? (if minus = [] then n else -n) with
      | some n => .ok (.int n, rest)
      | none => .error .tooManyDigits
    else .ok (.float (floats.parse (minus ++ whole ++ fraction ++ exponent)), rest)

def literals : List (Text × JsonValue) :=
  [("null".toList, .null), ("true".toList, .bool true), ("false".toList, .bool false),
    ("NaN".toList, .float nan), ("Infinity".toList, .float infinity),
    ("-Infinity".toList, .float negInfinity)]

def scanLiteral (text : Text) : Option (JsonValue × Text) :=
  (literals.find? fun entry => entry.1.isPrefixOf text).map fun entry =>
    (entry.2, text.drop entry.1.length)

def parseAtom (floats : Floats) (text : Text) : Except ParseError (JsonValue × Text) :=
  match scanLiteral text with
  | some result => .ok result
  | none => parseNumber floats text

section Parse

variable (floats : Floats)

mutual
def parseValue : ℕ → Text → Except ParseError (JsonValue × Text)
  | 0, _ => .error .decode
  | _ + 1, [] => .error .decode
  | fuel + 1, c :: rest =>
    if c = '"' then do
      let (s, rest) ← scanString rest
      return (.str s, rest)
    else if c = '[' then
      match skip rest with
      | ']' :: rest => .ok (.arr [], rest)
      | rest => do
        let (items, rest) ← parseItems fuel rest
        return (.arr items, rest)
    else if c = '\x7b' then
      match skip rest with
      | '\x7d' :: rest => .ok (.obj [], rest)
      | rest => do
        let (fields, rest) ← parseFields fuel rest
        return (.obj (Dict.ofList fields).entries, rest)
    else parseAtom floats (c :: rest)

def parseItems : ℕ → Text → Except ParseError (List JsonValue × Text)
  | 0, _ => .error .decode
  | fuel + 1, text => do
    let (value, rest) ← parseValue fuel text
    match skip rest with
    | ']' :: rest => return ([value], rest)
    | ',' :: rest =>
      let (items, rest) ← parseItems fuel (skip rest)
      return (value :: items, rest)
    | _ => throw .decode

def parseFields : ℕ → Text → Except ParseError (List (Str × JsonValue) × Text)
  | fuel + 1, '"' :: text => do
    let (key, rest) ← scanString text
    match skip rest with
    | ':' :: rest =>
      let (value, rest) ← parseValue fuel (skip rest)
      match skip rest with
      | '\x7d' :: rest => return ([(key, value)], rest)
      | ',' :: rest =>
        let (fields, rest) ← parseFields fuel (skip rest)
        return ((key, value) :: fields, rest)
      | _ => throw .decode
    | _ => throw .decode
  | _, _ => .error .decode
end

/-- `json.loads`. -/
def loads (text : Text) : Except ParseError JsonValue := do
  let (value, rest) ← parseValue floats (text.length + 1) (skip text)
  if skip rest = [] then return value else throw .decode

-- The equations of these matches take long to make; they are made here, for all the proofs.
attribute [local simp] scanUnits print printItems printFields parseValue parseItems parseFields

end Parse

end Agent33.Library.JsonText
