/-!
# Whole numbers of fixed width in text

A number is written as an optional sign and digits of one radix. A plus sign is always accepted, a minus sign only where
the range holds negative numbers. The first character that cannot be read, or whose digit leads out of the range, names
the fault.
-/

namespace ScriptRunner

/-- The range of a whole number type. -/
structure IntRange where
  name : String
  least : Int
  greatest : Int

namespace IntRange

def uint16 : IntRange := ⟨"u16", 0, 65535⟩
def uint32 : IntRange := ⟨"u32", 0, 4294967295⟩
def uint64 : IntRange := ⟨"u64", 0, 18446744073709551615⟩
def usize : IntRange := ⟨"usize", 0, 18446744073709551615⟩
def int32 : IntRange := ⟨"i32", -2147483648, 2147483647⟩
def int64 : IntRange := ⟨"i64", -9223372036854775808, 9223372036854775807⟩
def uint128 : IntRange := ⟨"u128", 0, 0xFFFFFFFFFFFFFFFFFFFFFFFFFFFFFFFF⟩
def int128 : IntRange := ⟨"i128", -0x80000000000000000000000000000000, 0x7FFFFFFFFFFFFFFFFFFFFFFFFFFFFFFF⟩

def contains (r : IntRange) (n : Int) : Bool :=
  r.least ≤ n && n ≤ r.greatest

def isSigned (r : IntRange) : Bool :=
  r.least < 0

end IntRange

/-- Why a text is no number of a range. -/
inductive IntegerFault where
  | empty
  | invalidDigit
  | tooLarge
  | tooSmall
  deriving DecidableEq, Repr

def IntegerFault.message : IntegerFault → String
  | .empty => "cannot parse integer from empty string"
  | .invalidDigit => "invalid digit found in string"
  | .tooLarge => "number too large to fit in target type"
  | .tooSmall => "number too small to fit in target type"

/-- The value of a digit in a radix of at most 36. -/
def digitValue? (radix : Nat) (c : Char) : Option Nat :=
  let value? :=
    if '0' ≤ c ∧ c ≤ '9' then some (c.toNat - '0'.toNat)
    else if 'a' ≤ c ∧ c ≤ 'z' then some (c.toNat - 'a'.toNat + 10)
    else if 'A' ≤ c ∧ c ≤ 'Z' then some (c.toNat - 'A'.toNat + 10)
    else none
  value?.filter (· < radix)

/-- Reads digits after a value read so far; a value over the limit is refused with the given fault. -/
def foldDigits (radix limit : Nat) (overflow : IntegerFault) : Nat → List Char → Except IntegerFault Nat
  | value, [] => .ok value
  | value, c :: r =>
    match digitValue? radix c with
    | none => .error .invalidDigit
    | some d => if radix * value + d ≤ limit then foldDigits radix limit overflow (radix * value + d) r else .error overflow

namespace IntRange

/-- The number of the range that a text denotes. -/
def parse (range : IntRange) (radix : Nat) : List Char → Except IntegerFault Int
  | [] => .error .empty
  | ['+'] => .error .invalidDigit
  | ['-'] => .error .invalidDigit
  | '+' :: digits => (foldDigits radix range.greatest.toNat .tooLarge 0 digits).map Int.ofNat
  | '-' :: digits =>
    if range.isSigned then (foldDigits radix (-range.least).toNat .tooSmall 0 digits).map fun n => -Int.ofNat n
    else .error .invalidDigit
  | digits => (foldDigits radix range.greatest.toNat .tooLarge 0 digits).map Int.ofNat

def parseDecimal (range : IntRange) (s : String) : Except IntegerFault Int :=
  range.parse 10 s.toList

end IntRange

end ScriptRunner
