/-!
# UTF-8

Reading bytes as text fails at the first byte that no character starts with or continues; the fault says how many bytes
are wrong there, or that the bytes end inside of a character.
-/

namespace ScriptRunner.Text

abbrev Bytes := List UInt8

/-- Where bytes are no text: the index and the count of wrong bytes, which is not known when they break off. -/
structure Utf8Fault where
  index : Nat
  length : Option Nat
  deriving DecidableEq, Repr

def Utf8Fault.message (f : Utf8Fault) : String :=
  match f.length with
  | some n => s!"invalid utf-8 sequence of {n} bytes from index {f.index}"
  | none => s!"incomplete utf-8 byte sequence from index {f.index}"

def isContinuation (b : UInt8) : Bool := 0x80 ≤ b && b < 0xC0

/-- The second byte may follow the first one of a character of three or four bytes. -/
def canFollow (first second : UInt8) : Bool :=
  if first = 0xE0 then 0xA0 ≤ second && second < 0xC0
  else if first = 0xED then 0x80 ≤ second && second < 0xA0
  else if first = 0xF0 then 0x90 ≤ second && second < 0xC0
  else if first = 0xF4 then 0x80 ≤ second && second < 0x90
  else isContinuation second

def lowBits (b : UInt8) (count : Nat) : Nat := b.toNat % Nat.pow 2 count

/-- The character of the given bits. -/
def charOfBits (a b c d : Nat) : Char := Char.ofNat (((a * 64 + b) * 64 + c) * 64 + d)

/-- The characters of bytes that start at an index. -/
def decodeUtf8From (i : Nat) : Bytes → Except Utf8Fault (List Char)
  | [] => .ok []
  | a :: r =>
    if a < 0x80 then (decodeUtf8From (i + 1) r).map (charOfBits 0 0 0 a.toNat :: ·)
    else if 0xC2 ≤ a ∧ a < 0xE0 then
      match r with
      | [] => .error ⟨i, none⟩
      | b :: r =>
        if isContinuation b then (decodeUtf8From (i + 2) r).map (charOfBits 0 0 (lowBits a 5) (lowBits b 6) :: ·)
        else .error ⟨i, some 1⟩
    else if 0xE0 ≤ a ∧ a < 0xF0 then
      match r with
      | [] => .error ⟨i, none⟩
      | [b] => .error ⟨i, if canFollow a b then none else some 1⟩
      | b :: c :: r =>
        if !canFollow a b then .error ⟨i, some 1⟩
        else if !isContinuation c then .error ⟨i, some 2⟩
        else (decodeUtf8From (i + 3) r).map (charOfBits 0 (lowBits a 4) (lowBits b 6) (lowBits c 6) :: ·)
    else if 0xF0 ≤ a ∧ a < 0xF5 then
      match r with
      | [] => .error ⟨i, none⟩
      | [b] => .error ⟨i, if canFollow a b then none else some 1⟩
      | [b, c] => .error ⟨i, if !canFollow a b then some 1 else if isContinuation c then none else some 2⟩
      | b :: c :: d :: r =>
        if !canFollow a b then .error ⟨i, some 1⟩
        else if !isContinuation c then .error ⟨i, some 2⟩
        else if !isContinuation d then .error ⟨i, some 3⟩
        else
          (decodeUtf8From (i + 4) r).map (charOfBits (lowBits a 3) (lowBits b 6) (lowBits c 6) (lowBits d 6) :: ·)
    else .error ⟨i, some 1⟩

def decodeUtf8 (bytes : Bytes) : Except Utf8Fault String :=
  (decodeUtf8From 0 bytes).map String.ofList

/-- The characters of bytes, at most `fuel` of them, with a mark in place of every run of wrong bytes. -/
def decodeMarkedWithin (mark : List Char) : Nat → Bytes → List Char
  | 0, _ => []
  | fuel + 1, bytes =>
    match decodeUtf8From 0 bytes with
    | .ok cs => cs
    | .error f =>
      let good := (decodeUtf8From 0 (bytes.take f.index)).toOption.getD []
      match f.length with
      | some n => good ++ mark ++ decodeMarkedWithin mark fuel (bytes.drop (f.index + n))
      | none => good ++ mark

/-- The characters of bytes with a mark in place of every run of wrong bytes. -/
def decodeMarked (mark : List Char) (bytes : Bytes) : List Char :=
  decodeMarkedWithin mark (bytes.length + 1) bytes

/-- The text of bytes with the replacement character in place of every run of wrong bytes. -/
def decodeLenient (bytes : Bytes) : String :=
  String.ofList (decodeMarked ['\uFFFD'] bytes)

def encodeUtf8 (s : String) : Bytes :=
  s.toList.flatMap String.utf8EncodeChar

end ScriptRunner.Text
