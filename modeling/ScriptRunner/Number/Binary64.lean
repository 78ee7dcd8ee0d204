import ScriptRunner.Number.Decimal

/-!
# Finite binary64 numbers

A number is a sign and `significand · 2^exponent`. A ratio of natural numbers is rounded to the nearest such number, a
half going to the even neighbour (`ofRatio?`). The shortest decimal digits that round back to a number are found by
trying the two neighbours of the number on the grids of one digit, two digits and so on (`shortest`).
-/

namespace ScriptRunner

/-- `(-1)^negative · significand · 2^exponent`, in the one form that binary64 stores: the significand has 53 bits, or
fewer when the exponent is the least one. -/
structure Binary64 where
  negative : Bool
  significand : Nat
  exponent : Int
  deriving DecidableEq, Repr

namespace Binary64

def leastExponent : Int := -1074

def greatestExponent : Int := 971

def zero (negative : Bool) : Binary64 := ⟨negative, 0, leastExponent⟩

/-- `num / den` as a quotient of natural numbers after division by `2^e`. -/
def scaled (num den : Nat) (e : Int) : Nat × Nat :=
  if 0 ≤ e then (num, den * Nat.pow 2 e.toNat) else (num * Nat.pow 2 (-e).toNat, den)

/-- The nearest whole number, a half going to the even neighbour. -/
def roundHalfEven (num den : Nat) : Nat :=
  let q := num / den
  let r := num % den
  if den < 2 * r ∨ (2 * r = den ∧ q % 2 = 1) then q + 1 else q

/-- The exponent at which `num / den` has 53 bits before the point, or the least exponent. -/
def exponentFor (num den : Nat) : Int :=
  let guess : Int := num.log2 - den.log2 - 52
  let (n, d) := scaled num den guess
  let e := if n / d < Nat.pow 2 52 then guess - 1 else guess
  max e leastExponent

/-- The binary64 number nearest to `num / den`, if it is finite. -/
def ofRatio? (negative : Bool) (num den : Nat) : Option Binary64 :=
  if num = 0 then some (zero negative)
  else
    let e := exponentFor num den
    let (n, d) := scaled num den e
    let m := roundHalfEven n d
    let (m, e) := if m = Nat.pow 2 53 then (Nat.pow 2 52, e + 1) else (m, e)
    if e ≤ greatestExponent then some ⟨negative, m, e⟩ else none

/-- The magnitude as a quotient of natural numbers. -/
def magnitude (x : Binary64) : Nat × Nat :=
  scaled x.significand 1 (-x.exponent)

/-- The product with a power of ten that is itself rounded. -/
def mulPowerOfTen? (x : Binary64) (k : Nat) : Option Binary64 := do
  let p ← ofRatio? false (Nat.pow 10 k) 1
  let (a, b) := x.magnitude
  let (c, d) := p.magnitude
  ofRatio? x.negative (a * c) (b * d)

/-- The quotient by a power of ten that is itself rounded. -/
def divPowerOfTen? (x : Binary64) (k : Nat) : Option Binary64 := do
  let p ← ofRatio? false (Nat.pow 10 k) 1
  let (a, b) := x.magnitude
  let (c, d) := p.magnitude
  ofRatio? x.negative (a * d) (b * c)

/-- The binary64 number nearest to a decimal number, if it is finite. -/
def ofDecimal? (d : Decimal) : Option Binary64 :=
  if d.digits = 0 then some (zero d.negative)
  else if !d.isFinite then none
  else if 0 ≤ d.exponent then ofRatio? d.negative (d.digits * Nat.pow 10 d.exponent.toNat) 1
  else
    let shift := (-d.exponent).toNat
    if d.digits.log2 / 3 + 400 ≤ shift then some (zero d.negative)
    else ofRatio? d.negative d.digits (Nat.pow 10 shift)

/-! ## Shortest digits -/

/-- The greatest `p` with `10^p ≤ num / den`. -/
def decimalOrder (num den : Nat) : Int :=
  if den ≤ num then ((Nat.toDigits 10 (num / den)).length : Int) - 1
  else
    let k := (Nat.toDigits 10 (den / num)).length
    if den ≤ num * Nat.pow 10 (k - 1) then -((k : Int) - 1) else -(k : Int)

/-- The numbers that round to a positive number: the ends, and whether they belong to it. -/
structure Interval where
  lowest : Nat × Nat
  highest : Nat × Nat
  closed : Bool

def roundingInterval (x : Binary64) : Interval :=
  let m := x.significand
  let below := if m = Nat.pow 2 52 ∧ leastExponent < x.exponent then 4 * m - 1 else 4 * m - 2
  { lowest := scaled below 1 (2 - x.exponent)
    highest := scaled (4 * m + 2) 1 (2 - x.exponent)
    closed := m % 2 = 0 }

/-- The number `n · 10^k` lies in the interval. -/
def Interval.contains (i : Interval) (n : Nat) (k : Int) : Bool :=
  let (a, b) := if 0 ≤ k then (n * Nat.pow 10 k.toNat, 1) else (n, Nat.pow 10 (-k).toNat)
  let low := i.lowest.1 * b
  let high := i.highest.1 * b
  if i.closed then low ≤ a * i.lowest.2 && a * i.highest.2 ≤ high
  else low < a * i.lowest.2 && a * i.highest.2 < high

/-- On the grid of the given count of digits, the point nearest to the number among those that round to it. -/
def onGrid? (x : Binary64) (order : Int) (count : Nat) : Option (Nat × Int) :=
  let k := order - count + 1
  let (num, den) := x.magnitude
  let (a, b) := if 0 ≤ k then (num, den * Nat.pow 10 k.toNat) else (num * Nat.pow 10 (-k).toNat, den)
  let low := a / b
  let i := x.roundingInterval
  match i.contains low k, i.contains (low + 1) k with
  | true, true =>
    let r := 2 * (a % b)
    some (if r < b ∨ (r = b ∧ low % 2 = 0) then low else low + 1, k)
  | true, false => some (low, k)
  | false, true => some (low + 1, k)
  | false, false => none

/-- The shortest digits that round back to a positive number and the power of ten of the last digit. -/
def shortest (x : Binary64) : Nat × Int :=
  let (num, den) := x.magnitude
  let order := decimalOrder num den
  ((List.range' 1 17).findSome? (onGrid? x order)).getD (0, 0)

/-- The digits without the zeros at their end, and the power of ten of the first digit. -/
def shortestDigits (x : Binary64) : List Char × Int :=
  let (n, k) := x.shortest
  let ds := Nat.toDigits 10 n
  let trimmed := (ds.reverse.dropWhile (· = '0')).reverse
  (trimmed, k + ds.length - 1)

/-! ## Text -/

/-- Puts the point after the given count of digits, with zeros where there are none. -/
def positional (ds : List Char) (point : Int) : List Char :=
  if point ≤ 0 then '0' :: '.' :: (List.replicate (-point).toNat '0' ++ ds)
  else
    let n := point.toNat
    if ds.length ≤ n then ds ++ List.replicate (n - ds.length) '0' ++ ['.', '0']
    else ds.take n ++ '.' :: ds.drop n

/-- One digit, a point before further digits, and a power of ten with its sign. -/
def scientific (ds : List Char) (order : Int) : List Char :=
  let head := ds.take 1 ++ (if ds.length ≤ 1 then [] else '.' :: ds.drop 1)
  head ++ 'e' :: (if order < 0 then '-' else '+') :: (toString order.natAbs).toList

/-- The shortest digits with a point or a power of ten: positional from `10^-5` to below `10^16`. -/
def text (x : Binary64) : String :=
  let sign := if x.negative then ['-'] else []
  let body :=
    if x.significand = 0 then ['0', '.', '0']
    else
      let (ds, order) := x.shortestDigits
      if -5 ≤ order ∧ order < 16 then positional ds (order + 1) else scientific ds order
  String.ofList (sign ++ body)

/-- The shortest digits with a point, and no power of ten at any magnitude. -/
def positionalText (x : Binary64) : String :=
  let sign := if x.negative then ['-'] else []
  let body :=
    if x.significand = 0 then ['0', '.', '0']
    else
      let (ds, order) := x.shortestDigits
      positional ds (order + 1)
  String.ofList (sign ++ body)

end Binary64

end ScriptRunner
