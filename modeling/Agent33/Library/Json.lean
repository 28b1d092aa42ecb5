
/-!
# JSON values

The values that survive a JSON round trip: numbers are integers or floats given
by their bits, objects keep the order of their fields.
-/

namespace Agent33.Library

inductive Json
  | null
  | bool (b : Bool)
  | int (n : Int)
  | float (bits : BitVec 64)
  | str (s : String)
  | arr (items : List Json)
  | obj (fields : List (String × Json))
  deriving Inhabited

namespace Json

mutual
def beq : Json → Json → Bool
  | null, null => true
  | bool a, bool b => decide (a = b)
  | int a, int b => decide (a = b)
  | float a, float b => decide (a = b)
  | str a, str b => decide (a = b)
  | arr a, arr b => beqItems a b
  | obj a, obj b => beqFields a b
  | _, _ => false

def beqItems : List Json → List Json → Bool
  | [], [] => true
  | a :: as, b :: bs => beq a b && beqItems as bs
  | _, _ => false

def beqFields : List (String × Json) → List (String × Json) → Bool
  | [], [] => true
  | (k, a) :: as, (l, b) :: bs => decide (k = l) && beq a b && beqFields as bs
  | _, _ => false
end

mutual
theorem beq_iff : ∀ a b : Json, beq a b = true ↔ a = b
  | null, b => by cases b <;> simp [beq]
  | bool _, b => by cases b <;> simp [beq]
  | int _, b => by cases b <;> simp [beq]
  | float _, b => by cases b <;> simp [beq]
  | str _, b => by cases b <;> simp [beq]
  | arr as, b => by
    cases b with
    | arr bs => simp [beq, beqItems_iff as bs]
    | _ => simp [beq]
  | obj as, b => by
    cases b with
    | obj bs => simp [beq, beqFields_iff as bs]
    | _ => simp [beq]

theorem beqItems_iff : ∀ as bs : List Json, beqItems as bs = true ↔ as = bs
  | [], bs => by cases bs <;> simp [beqItems]
  | a :: as, bs => by
    cases bs with
    | nil => simp [beqItems]
    | cons b bs => simp [beqItems, beq_iff a b, beqItems_iff as bs]

theorem beqFields_iff : ∀ as bs : List (String × Json), beqFields as bs = true ↔ as = bs
  | [], bs => by cases bs <;> simp [beqFields]
  | (k, a) :: as, bs => by
    cases bs with
    | nil => simp [beqFields]
    | cons b bs =>
      obtain ⟨l, b⟩ := b
      simp [beqFields, beq_iff a b, beqFields_iff as bs, Prod.ext_iff]
end

instance : DecidableEq Json := fun a b => decidable_of_iff _ (beq_iff a b)

def field? (key : String) : Json → Option Json
  | obj fields => (fields.find? (fun f => decide (f.1 = key))).map Prod.snd
  | _ => none

def isObj : Json → Bool
  | obj _ => true
  | _ => false

def isStr : Json → Bool
  | str _ => true
  | _ => false

def truthy : Json → Bool
  | null => false
  | bool b => b
  | int n => decide (n ≠ 0)
  | float bits => decide (bits ≠ 0#64 ∧ bits ≠ 0x8000000000000000#64)
  | str s => decide (s ≠ "")
  | arr items => !items.isEmpty
  | obj fields => !fields.isEmpty

example : (obj [("a", int 1), ("b", arr [str "x"])]).field? "b" = some (arr [str "x"]) := by decide

end Json

end Agent33.Library
