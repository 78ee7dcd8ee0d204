import ScriptRunner.Text.Utf8

/-!
# Base64

Three bytes are four characters of the standard alphabet, with `=` where bytes are missing at the end. Reading accepts
only what writing produces: the length is a multiple of four, and the bits that stand for no byte are zero.
-/

namespace ScriptRunner.Text

/-- The character for six bits. -/
def base64Char (n : Nat) : Char :=
  if n < 26 then Char.ofNat ('A'.toNat + n)
  else if n < 52 then Char.ofNat ('a'.toNat + (n - 26))
  else if n < 62 then Char.ofNat ('0'.toNat + (n - 52))
  else if n = 62 then '+'
  else '/'

/-- The six bits that a character stands for. -/
def base64Value? (c : Char) : Option Nat :=
  if 'A' ≤ c ∧ c ≤ 'Z' then some (c.toNat - 'A'.toNat)
  else if 'a' ≤ c ∧ c ≤ 'z' then some (c.toNat - 'a'.toNat + 26)
  else if '0' ≤ c ∧ c ≤ '9' then some (c.toNat - '0'.toNat + 52)
  else if c = '+' then some 62
  else if c = '/' then some 63
  else none

def encodeBase64Chars : Bytes → List Char
  | [] => []
  | [a] => [base64Char (a.toNat / 4), base64Char (a.toNat % 4 * 16), '=', '=']
  | [a, b] =>
    [base64Char (a.toNat / 4), base64Char (a.toNat % 4 * 16 + b.toNat / 16), base64Char (b.toNat % 16 * 4), '=']
  | a :: b :: c :: r =>
    base64Char (a.toNat / 4) :: base64Char (a.toNat % 4 * 16 + b.toNat / 16)
      :: base64Char (b.toNat % 16 * 4 + c.toNat / 64) :: base64Char (c.toNat % 64) :: encodeBase64Chars r

def encodeBase64 (bytes : Bytes) : String := String.ofList (encodeBase64Chars bytes)

def decodeBase64Chars? : List Char → Option Bytes
  | [] => some []
  | [w, x, '=', '='] => do
    let w ← base64Value? w
    let x ← base64Value? x
    if x % 16 = 0 then some [UInt8.ofNat (w * 4 + x / 16)] else none
  | [w, x, y, '='] => do
    let w ← base64Value? w
    let x ← base64Value? x
    let y ← base64Value? y
    if y % 4 = 0 then some [UInt8.ofNat (w * 4 + x / 16), UInt8.ofNat (x % 16 * 16 + y / 4)] else none
  | w :: x :: y :: z :: r => do
    let w ← base64Value? w
    let x ← base64Value? x
    let y ← base64Value? y
    let z ← base64Value? z
    let rest ← decodeBase64Chars? r
    some (UInt8.ofNat (w * 4 + x / 16) :: UInt8.ofNat (x % 16 * 16 + y / 4) :: UInt8.ofNat (y % 4 * 64 + z) :: rest)
  | _ => none

def decodeBase64? (s : String) : Option Bytes := decodeBase64Chars? s.toList

end ScriptRunner.Text
