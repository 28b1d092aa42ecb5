import Agent33.Library.Json
import Agent33.Library.Text

/-!
# The language runtime

The exceptions that the modelled code raises itself, and the functions of the
standard library that are too large to embed. What is proved holds for every
choice of these functions.
-/

namespace Agent33.Library

inductive Exn
  | typeError
  | attributeError
  | indexError
  | valueError
  | raised (message : Text)
  deriving DecidableEq

structure Python where
  /-- `str.upper` and `str.lower`. -/
  upper : Text → Text
  lower : Text → Text
  /-- Whether the regular expression `\w` matches the character. -/
  isWord : Char → Bool
  /-- `re.match(pattern, text)` finds a match. -/
  reMatch : Text → Text → Bool
  /-- `json.loads`; none when it raises `JSONDecodeError`. -/
  jsonLoads : Text → Option Json
  /-- `json.dumps(value, sort_keys=True)`. -/
  jsonDumpsSorted : Json → Text
  /-- `str(value)`. -/
  str : Json → Text
  /-- `urlparse(url).hostname`, an exception for an address it cannot parse. -/
  urlHostname : Text → Except Exn (Option Text)

def urlHost (url : Text) : Option Text :=
  match url.dropWhile (· ≠ ':') with
  | ':' :: '/' :: '/' :: rest => some (rest.takeWhile fun c => c ≠ '/' && c ≠ ':')
  | _ => none

def asciiPython (table : List (Text × Json)) : Python where
  upper := List.map Char.toUpper
  lower := List.map Char.toLower
  isWord c := c.isAlphanum || c == '_'
  reMatch _ _ := true
  jsonLoads text := (table.find? fun entry => entry.1 = text).map Prod.snd
  jsonDumpsSorted _ := []
  str _ := []
  urlHostname url := .ok (urlHost url)

namespace Json

/-- `value.get(key, default)`. -/
def getKey (value : Json) (key : String) (default : Json) : Except Exn Json :=
  match value with
  | obj fields => .ok (((obj fields).field? key).getD default)
  | _ => .error .attributeError

theorem getKey_of_isObj {value : Json} (h : value.isObj = true) (key : String) (default : Json) :
    value.getKey key default = .ok ((value.field? key).getD default) := by
  cases value with
  | obj fields => rfl
  | _ => exact absurd h Bool.false_ne_true

theorem getKey_of_not_isObj {value : Json} (h : value.isObj = false) (key : String)
    (default : Json) : value.getKey key default = .error .attributeError := by
  cases value with
  | obj fields => exact absurd h.symm Bool.false_ne_true
  | _ => rfl

def asText : Json → Except Exn Text
  | str s => .ok s.toList
  | _ => .error .attributeError

/-- `key in value`. -/
def containsKey (key : String) : Json → Except Exn Bool
  | obj fields => .ok ((obj fields).field? key).isSome
  | arr items => .ok (decide (str key ∈ items))
  | str s => .ok (Text.includes s.toList key.toList)
  | _ => .error .typeError

theorem containsKey_of_isObj {value : Json} (h : value.isObj = true) (key : String) :
    value.containsKey key = .ok (value.field? key).isSome := by
  cases value with
  | obj fields => rfl
  | _ => exact absurd h Bool.false_ne_true

theorem field?_of_not_isObj {value : Json} (h : value.isObj = false) (key : String) :
    value.field? key = none := by
  cases value with
  | obj fields => exact absurd h.symm Bool.false_ne_true
  | _ => rfl

end Json

end Agent33.Library
