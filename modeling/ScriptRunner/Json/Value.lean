import ScriptRunner.Dict
import ScriptRunner.Number.Binary64

/-!
# JSON values

Whole numbers that fit 64 bits, signed or unsigned, are kept apart from other numbers, which are binary64. An object
keeps its members in the order given; `Json.ofMembers` is the form in which an opaque value is stored, with its keys in
ascending order and each key once.
-/

namespace ScriptRunner

inductive Json where
  | null
  | bool (value : Bool)
  | int (value : Int)
  | float (value : Binary64)
  | string (value : String)
  | array (items : List Json)
  | object (members : List (String × Json))
  deriving Inhabited, Repr

namespace Json

mutual

/-- Two values are the same. -/
def same : Json → Json → Bool
  | .null, .null => true
  | .bool a, .bool b => a == b
  | .int a, .int b => a == b
  | .float a, .float b => a == b
  | .string a, .string b => a == b
  | .array a, .array b => sameItems a b
  | .object a, .object b => sameMembers a b
  | _, _ => false

def sameItems : List Json → List Json → Bool
  | [], [] => true
  | a :: as, b :: bs => same a b && sameItems as bs
  | _, _ => false

def sameMembers : List (String × Json) → List (String × Json) → Bool
  | [], [] => true
  | (k, a) :: as, (l, b) :: bs => k == l && same a b && sameMembers as bs
  | _, _ => false

end

instance : BEq Json := ⟨same⟩

/-- The value of a member; of two with one key the first counts. -/
def member? (key : String) : Json → Option Json
  | .object ms => (ms.find? fun m => m.1 == key).map Prod.snd
  | _ => none

/-- An object with its keys in ascending order; of two members with one key the later one counts. -/
def ofMembers (ms : List (String × Json)) : Json :=
  .object (Dict.ofList ms).entries

mutual

/-- The number of arrays and objects that lie within each other. -/
def depth : Json → Nat
  | .array items => depthItems items + 1
  | .object members => depthMembers members + 1
  | _ => 0

def depthItems : List Json → Nat
  | [] => 0
  | a :: as => max (depth a) (depthItems as)

def depthMembers : List (String × Json) → Nat
  | [] => 0
  | (_, a) :: as => max (depth a) (depthMembers as)

end

end Json

end ScriptRunner
