import ScriptRunner.Text.Blank
import ScriptRunner.Document.Decoder

/-!
# Instants

An instant is a date and a time of day in UTC. Its text has the form of RFC 3339 with a `Z` at the end and as many
groups of three decimals as it needs. Reading is more lenient: the parts may be one digit long and have blanks between
them, a blank may stand for the `T`, and an offset is taken off.
-/

namespace ScriptRunner

/-- A second of 60 is a leap second. -/
structure Instant where
  year : Int
  month : Nat
  day : Nat
  hour : Nat
  minute : Nat
  second : Nat
  nanosecond : Nat
  deriving DecidableEq, Repr, Inhabited

namespace Instant

def isLeapYear (y : Int) : Bool :=
  y % 4 = 0 && (y % 100 != 0 || y % 400 = 0)

def daysIn (y : Int) (month : Nat) : Nat :=
  if month = 2 then if isLeapYear y then 29 else 28
  else if month = 4 ∨ month = 6 ∨ month = 9 ∨ month = 11 then 30
  else 31

/-- The date and the time of day exist. -/
def isValid (t : Instant) : Bool :=
  -262143 ≤ t.year && t.year ≤ 262142 && 1 ≤ t.month && t.month ≤ 12 && 1 ≤ t.day && t.day ≤ daysIn t.year t.month
    && t.hour < 24 && t.minute < 60 && t.second ≤ 60 && t.nanosecond < 1000000000

def nextDay (t : Instant) : Instant :=
  if t.day < daysIn t.year t.month then { t with day := t.day + 1 }
  else if t.month < 12 then { t with month := t.month + 1, day := 1 }
  else { t with year := t.year + 1, month := 1, day := 1 }

def previousDay (t : Instant) : Instant :=
  if 1 < t.day then { t with day := t.day - 1 }
  else if 1 < t.month then { t with month := t.month - 1, day := daysIn t.year (t.month - 1) }
  else { t with year := t.year - 1, month := 12, day := 31 }

/-- The instant so many minutes earlier, or later for a negative number, less than a day away. -/
def minusMinutes (t : Instant) (minutes : Int) : Instant :=
  let total : Int := t.hour * 60 + t.minute - minutes
  let t' := if total < 0 then t.previousDay else if 1440 ≤ total then t.nextDay else t
  let ofDay := (total % 1440).toNat
  { t' with hour := ofDay / 60, minute := ofDay % 60 }

/-! ## Text -/

/-- The decimal digits of a number, with zeros in front up to a width. -/
def padded (width n : Nat) : List Char :=
  let ds := Nat.toDigits 10 n
  List.replicate (width - ds.length) '0' ++ ds

/-- Four digits, with a sign and as many digits as needed outside of the years 0 to 9999. -/
def yearText (y : Int) : List Char :=
  if 0 ≤ y ∧ y ≤ 9999 then padded 4 y.toNat
  else (if y < 0 then '-' else '+') :: padded 4 y.natAbs

def fractionText (nanosecond : Nat) : List Char :=
  if nanosecond = 0 then []
  else if nanosecond % 1000000 = 0 then '.' :: padded 3 (nanosecond / 1000000)
  else if nanosecond % 1000 = 0 then '.' :: padded 6 (nanosecond / 1000)
  else '.' :: padded 9 nanosecond

def text (t : Instant) : String :=
  String.ofList (yearText t.year ++ '-' :: padded 2 t.month ++ '-' :: padded 2 t.day ++ 'T' :: padded 2 t.hour
    ++ ':' :: padded 2 t.minute ++ ':' :: padded 2 t.second ++ fractionText t.nanosecond ++ ['Z'])

/-! ## Reading -/

def skipBlanks (cs : List Char) : List Char := cs.dropWhile Text.isBlank

/-- A number of at least one and at most `most` digits after blanks, with the text after it. -/
def number? (most : Nat) (cs : List Char) : Option (Nat × List Char) :=
  let cs := skipBlanks cs
  let ds := (cs.take most).takeWhile Char.isDigit
  if ds.isEmpty then none else some (Decimal.digitsValue ds, cs.drop ds.length)

/-- A year of up to four digits, or of any length after a sign. -/
def year? (cs : List Char) : Option (Int × List Char) :=
  match skipBlanks cs with
  | '-' :: r => (signed r).map fun (n, r) => (-Int.ofNat n, r)
  | '+' :: r => (signed r).map fun (n, r) => (Int.ofNat n, r)
  | r => (number? 4 r).map fun (n, r) => (Int.ofNat n, r)
where
  signed (r : List Char) : Option (Nat × List Char) :=
    match r with
    | c :: _ => if c.isDigit then number? r.length r else none
    | [] => none

/-- A separator after blanks. -/
def separator? (c : Char) (cs : List Char) : Option (List Char) :=
  match skipBlanks cs with
  | d :: r => if d = c then some r else none
  | [] => none

/-- The nanoseconds of a decimal fraction, of which nine digits count. -/
def fraction? (cs : List Char) : Option (Nat × List Char) :=
  match cs with
  | '.' :: r =>
    let ds := r.takeWhile Char.isDigit
    if ds.isEmpty then none
    else
      let counted := ds.take 9
      some (Decimal.digitsValue counted * Nat.pow 10 (9 - counted.length), r.drop ds.length)
  | cs => some (0, cs)

/-- Two digits. -/
def twoDigits? : List Char → Option (Nat × List Char)
  | a :: b :: r => if a.isDigit ∧ b.isDigit then some (Decimal.digitsValue [a, b], r) else none
  | _ => none

/-- An offset from UTC in minutes, less than a day. -/
def offset? (cs : List Char) : Option (Int × List Char) :=
  let after (negative : Bool) (r : List Char) : Option (Int × List Char) := do
    let (hours, r) ← twoDigits? r
    let (minutes, r) ← twoDigits? (r.dropWhile fun c => c = ':' || Text.isBlank c)
    let total : Int := hours * 60 + minutes
    if minutes < 60 ∧ total < 1440 then some (if negative then -total else total, r) else none
  match cs with
  | 'Z' :: r => some (0, r)
  | 'z' :: r => some (0, r)
  | u :: t :: c :: r =>
    if u.toLower = 'u' ∧ t.toLower = 't' ∧ c.toLower = 'c' then some (0, r)
    else if u = '+' then after false (t :: c :: r)
    else if u = '-' ∨ u = '\u2212' then after true (t :: c :: r)
    else none
  | _ => none

/-- The instant that a text denotes. -/
def parse? (s : String) : Option Instant := do
  let (year, r) ← year? s.toList
  let r ← separator? '-' r
  let (month, r) ← number? 2 r
  let r ← separator? '-' r
  let (day, r) ← number? 2 r
  let r ← match r with
    | c :: r => if c = 't' ∨ c = 'T' ∨ c = ' ' then some r else none
    | [] => none
  let (hour, r) ← number? 2 r
  let r ← separator? ':' r
  let (minute, r) ← number? 2 r
  let r ← separator? ':' r
  let (second, r) ← number? 2 r
  let (nanosecond, r) ← fraction? r
  let (offset, r) ← offset? (skipBlanks r)
  let t : Instant := { year, month, day, hour, minute, second, nanosecond }
  if t.isValid ∧ (skipBlanks r).isEmpty then some (t.minusMinutes offset) else none

variable {σ : Type} [Format σ]

def decoder : Decoder σ Instant :=
  Decoder.derived (Decoder.ofScalar "an RFC 3339 formatted date and time string" timestampText) fun s =>
    match parse? s with
    | some t => .ok t
    | none => .error .malformed
where
  /-- The text of a scalar that has one. -/
  timestampText (s : σ) : Except Cause String :=
    match (Format.string s : Except Cause String) with
    | .error (.invalidType got _) => .error (.invalidType got "an RFC 3339 formatted date and time string")
    | r => r

end Instant

end ScriptRunner
