import ScriptRunner.Json.Value

/-!
# Numbers as JSON text writes them

A numeral without a point and a power of ten denotes a whole number when it fits 64 bits, signed or unsigned; minus zero
and every other numeral denote a binary64 number. The digits are gathered in 64 bits: once they are full, further whole
digits only raise the power of ten and further decimal places are dropped. The gathered number is then scaled by a power
of ten, each step rounding to the nearest binary64 number. A numeral beyond the range has no value.
-/

namespace ScriptRunner.Json

/-- A numeral by its parts: digits before and after the point, and the power of ten. -/
structure Numeral where
  negative : Bool
  whole : List Char
  fraction : Option (List Char)
  exponent : Option (Bool × List Char)
  deriving DecidableEq, Repr, Inhabited

namespace Numeral

/-- The greatest number that the digits are gathered in. -/
def gatherLimit : Nat := Nat.pow 2 64 - 1

def digit (c : Char) : Nat := c.toNat - '0'.toNat

/-- The digits gathered so far with the count of the whole digits that did not fit. -/
def gatherWhole : Nat × Nat → List Char → Nat × Nat
  | (n, extra), [] => (n, extra)
  | (n, extra), d :: ds =>
    if extra = 0 ∧ 10 * n + digit d ≤ gatherLimit then gatherWhole (10 * n + digit d, 0) ds
    else (n, extra + (ds.length + 1))

/-- Adds the decimal places that fit, with their count. -/
def gatherFraction : Nat → Nat → List Char → Nat × Nat
  | n, places, [] => (n, places)
  | n, places, d :: ds =>
    if 10 * n + digit d ≤ gatherLimit then gatherFraction (10 * n + digit d) (places + 1) ds else (n, places)

/-- A gathered number times a power of ten. -/
def scale? (x : Binary64) (e : Int) : Option Binary64 :=
  if x.significand = 0 then some x
  else if 0 ≤ e then if e ≤ 308 then x.mulPowerOfTen? e.toNat else none
  else if -308 ≤ e then x.divPowerOfTen? (-e).toNat
  else if -616 ≤ e then (x.divPowerOfTen? 308).bind fun y => y.divPowerOfTen? (-e - 308).toNat
  else some (.zero x.negative)

def exponentValue : Option (Bool × List Char) → Int
  | none => 0
  | some (true, ds) => -Int.ofNat (Decimal.digitsValue ds)
  | some (false, ds) => Int.ofNat (Decimal.digitsValue ds)

/-- The value of a numeral, unless it is out of range. -/
def value? (x : Numeral) : Option Json :=
  let (n, extra) := gatherWhole (0, 0) x.whole
  if extra = 0 ∧ x.fraction = none ∧ x.exponent = none then
    if !x.negative then some (.int n)
    else if 0 < n ∧ n ≤ Nat.pow 2 63 then some (.int (-n))
    else (Binary64.ofRatio? true n 1).map .float
  else
    let (n, places) := gatherFraction n 0 (x.fraction.getD [])
    (Binary64.ofRatio? x.negative n 1).bind fun m =>
      (scale? m (extra - places + exponentValue x.exponent)).map .float

end Numeral

end ScriptRunner.Json
