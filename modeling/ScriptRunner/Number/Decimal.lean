/-!
# Decimal numbers

A decimal number is a sign, digits with at most one point and at least one digit, and an optional power of ten. It is
finite when its magnitude lies below `binary64Limit`, from which on a binary64 number would round to infinity.
-/

namespace ScriptRunner

/-- The number `(-1)^negative · digits · 10^exponent`, with the count of digits that were written. -/
structure Decimal where
  negative : Bool
  digits : Nat
  exponent : Int
  deriving DecidableEq, Repr

namespace Decimal

def digitsValue (ds : List Char) : Nat :=
  ds.foldl (fun n d => 10 * n + (d.toNat - '0'.toNat)) 0

/-- A sign, or none for plus. -/
def splitSign : List Char → Bool × List Char
  | '+' :: r => (false, r)
  | '-' :: r => (true, r)
  | r => (false, r)

/-- The power of ten after the digits: nothing, or a letter `e`, an optional sign and digits. -/
def parseExponent? : List Char → Option Int
  | [] => some 0
  | c :: r =>
    if c = 'e' ∨ c = 'E' then
      let (negative, ds) := splitSign r
      if ds ≠ [] ∧ ds.all Char.isDigit then
        some (if negative then -Int.ofNat (digitsValue ds) else Int.ofNat (digitsValue ds))
      else none
    else none

/-- Reads a decimal number that takes up the whole text. -/
def parse? (cs : List Char) : Option Decimal :=
  let (negative, r) := splitSign cs
  let whole := r.takeWhile Char.isDigit
  let r := r.dropWhile Char.isDigit
  let (fraction, r) :=
    match r with
    | '.' :: r => (r.takeWhile Char.isDigit, r.dropWhile Char.isDigit)
    | r => ([], r)
  if whole = [] ∧ fraction = [] then none
  else (parseExponent? r).map fun e => ⟨negative, digitsValue (whole ++ fraction), e - fraction.length⟩

/-- The least magnitude that rounds to infinity in binary64. -/
def binary64Limit : Nat :=
  Nat.pow 2 1024 - Nat.pow 2 970

/-- The magnitude lies below `binary64Limit`; a power of ten is only worked out where it can matter. -/
def isFinite (d : Decimal) : Bool :=
  if d.digits = 0 then true
  else if 0 ≤ d.exponent then
    d.exponent < 309 && d.digits * Nat.pow 10 d.exponent.toNat < binary64Limit
  else
    let shift := (-d.exponent).toNat
    d.digits.log2 + 1 ≤ 3 * shift || d.digits < binary64Limit * Nat.pow 10 shift

end Decimal

end ScriptRunner
