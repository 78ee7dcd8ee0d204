import ScriptRunner.Proofs.Text.Lines
import ScriptRunner.Text.Base64
import ScriptRunner.Text.Utf8

/-!
# What is written as bytes and characters reads back

Text written in UTF-8 reads back (`decodeUtf8_encodeUtf8`), also where wrong bytes are only marked
(`decodeMarked_encodeUtf8`), and so do bytes written in base64 (`decodeBase64?_encodeBase64`). Lines that hold no end of
a line are the lines of the text that ends each of them (`lines_ended`).
-/

namespace ScriptRunner.Text

/-! ## UTF-8 -/

section Utf8

variable {a b c d v : Nat}

theorem charOfBits_of_eq {x : Char} (h : ((a * 64 + b) * 64 + c) * 64 + d = x.toNat) : charOfBits a b c d = x := by
  rw [charOfBits, h, Char.ofNat_toNat]

theorem toNat_lt_of_char (x : Char) : x.toNat < 0x110000 := by
  rcases x.valid with h | ⟨-, h⟩
  · exact Nat.lt_trans h (by decide)
  · exact h

/-- No character stands for half of a surrogate pair. -/
theorem not_surrogate (x : Char) : x.toNat < 0xD800 ∨ 0xDFFF < x.toNat := by
  rcases x.valid with h | ⟨h, -⟩
  · exact .inl h
  · exact .inr h

theorem toNat_ofNat_of_lt (h : v < 256) : (UInt8.ofNat v).toNat = v := by
  simp only [UInt8.toNat_ofNat']
  omega

theorem isContinuation_ofNat (h : v < 64) : isContinuation (UInt8.ofNat (v + 0x80)) = true := by
  have hv := toNat_ofNat_of_lt (v := v + 0x80) (by omega)
  simp only [isContinuation, Bool.and_eq_true, decide_eq_true_eq, UInt8.le_iff_toNat_le, UInt8.lt_iff_toNat_lt, hv]
  exact ⟨Nat.le_add_left .., by show v + 0x80 < 0xC0; omega⟩

theorem lowBits_continuation (h : v < 64) : lowBits (UInt8.ofNat (v + 0x80)) 6 = v := by
  rw [lowBits, toNat_ofNat_of_lt (by omega)]
  show (v + 0x80) % 64 = v
  omega

/-- The second byte of a character of three bytes, of which the first is `a + 0xE0`. -/
theorem canFollow_three (ha : a < 16) (hb : b < 64) (hlow : a = 0 → 32 ≤ b) (hsur : a = 13 → b < 32) :
    canFollow (UInt8.ofNat (a + 0xE0)) (UInt8.ofNat (b + 0x80)) = true := by
  have hna := toNat_ofNat_of_lt (v := a + 0xE0) (by omega)
  have hnb := toNat_ofNat_of_lt (v := b + 0x80) (by omega)
  unfold canFollow
  simp only [← UInt8.toNat_inj, UInt8.le_iff_toNat_le, UInt8.lt_iff_toNat_lt, hna, hnb, UInt8.reduceToNat]
  split
  · simp only [Bool.and_eq_true, decide_eq_true_eq]
    omega
  · split
    · simp only [Bool.and_eq_true, decide_eq_true_eq]
      omega
    · rw [if_neg (by omega), if_neg (by omega)]
      exact isContinuation_ofNat hb

/-- The second byte of a character of four bytes, of which the first is `a + 0xF0`. -/
theorem canFollow_four (ha : a < 5) (hb : b < 64) (hlow : a = 0 → 16 ≤ b) (hhigh : a = 4 → b < 16) :
    canFollow (UInt8.ofNat (a + 0xF0)) (UInt8.ofNat (b + 0x80)) = true := by
  have hna := toNat_ofNat_of_lt (v := a + 0xF0) (by omega)
  have hnb := toNat_ofNat_of_lt (v := b + 0x80) (by omega)
  unfold canFollow
  simp only [← UInt8.toNat_inj, UInt8.le_iff_toNat_le, UInt8.lt_iff_toNat_lt, hna, hnb, UInt8.reduceToNat]
  rw [if_neg (by omega), if_neg (by omega)]
  split
  · simp only [Bool.and_eq_true, decide_eq_true_eq]
    omega
  · split
    · simp only [Bool.and_eq_true, decide_eq_true_eq]
      omega
    · exact isContinuation_ofNat hb

/-- The bytes of a character read back, whatever follows. -/
theorem decodeUtf8From_utf8EncodeChar (i : Nat) (x : Char) (r : Bytes) :
    ∃ j, decodeUtf8From i (String.utf8EncodeChar x ++ r) = (decodeUtf8From j r).map (x :: ·) := by
  have hlt := toNat_lt_of_char x
  have hsur := not_surrogate x
  have hval : x.val.toNat = x.toNat := rfl
  unfold String.utf8EncodeChar
  simp only [hval]
  split
  · rename_i h1
    have hn := toNat_ofNat_of_lt (v := x.toNat) (by omega)
    have hbits : charOfBits 0 0 0 (UInt8.ofNat x.toNat).toNat = x := charOfBits_of_eq (by rw [hn]; omega)
    refine ⟨i + 1, ?_⟩
    have hascii : UInt8.ofNat x.toNat < 0x80 := by
      rw [UInt8.lt_iff_toNat_lt, hn]
      exact Nat.lt_succ_of_le h1
    rw [List.singleton_append, decodeUtf8From.eq_def]
    simp only [hascii, ↓reduceIte, hbits]
  · rename_i h1
    split
    · rename_i h2
      have hn := toNat_ofNat_of_lt (v := x.toNat / 64 % 32 + 192) (by omega)
      have hlow : lowBits (UInt8.ofNat (x.toNat / 64 % 32 + 192)) 5 = x.toNat / 64 % 32 := by
        rw [lowBits, hn]
        show (x.toNat / 64 % 32 + 192) % 32 = _
        omega
      refine ⟨i + 2, ?_⟩
      simp only [List.cons_append, List.nil_append, decodeUtf8From, UInt8.le_iff_toNat_le, UInt8.lt_iff_toNat_lt, hn,
        UInt8.reduceToNat]
      rw [if_neg (by omega), if_pos (by omega), if_pos (isContinuation_ofNat (by omega)), hlow,
        lowBits_continuation (by omega), charOfBits_of_eq (x := x) (by omega)]
    · rename_i h2
      split
      · rename_i h3
        have hn := toNat_ofNat_of_lt (v := x.toNat / 4096 % 16 + 224) (by omega)
        have hlow : lowBits (UInt8.ofNat (x.toNat / 4096 % 16 + 224)) 4 = x.toNat / 4096 % 16 := by
          rw [lowBits, hn]
          show (x.toNat / 4096 % 16 + 224) % 16 = _
          omega
        have hfollow := canFollow_three (a := x.toNat / 4096 % 16) (b := x.toNat / 64 % 64) (by omega) (by omega)
          (by omega) (by omega)
        have hcont : isContinuation (UInt8.ofNat (x.toNat % 64 + 128)) = true := isContinuation_ofNat (by omega)
        refine ⟨i + 3, ?_⟩
        simp only [List.cons_append, List.nil_append, decodeUtf8From, UInt8.le_iff_toNat_le, UInt8.lt_iff_toNat_lt, hn,
          UInt8.reduceToNat, hfollow, hcont, Bool.not_true, Bool.false_eq_true, ↓reduceIte]
        rw [if_neg (by omega), if_neg (by omega), if_pos (by omega), hlow, lowBits_continuation (by omega),
          lowBits_continuation (by omega), charOfBits_of_eq (x := x) (by omega)]
      · rename_i h3
        have hn := toNat_ofNat_of_lt (v := x.toNat / 262144 % 8 + 240) (by omega)
        have hlow : lowBits (UInt8.ofNat (x.toNat / 262144 % 8 + 240)) 3 = x.toNat / 262144 % 8 := by
          rw [lowBits, hn]
          show (x.toNat / 262144 % 8 + 240) % 8 = _
          omega
        have hfollow := canFollow_four (a := x.toNat / 262144 % 8) (b := x.toNat / 4096 % 64) (by omega) (by omega)
          (by omega) (by omega)
        have hcont : isContinuation (UInt8.ofNat (x.toNat / 64 % 64 + 128)) = true := isContinuation_ofNat (by omega)
        have hcont' : isContinuation (UInt8.ofNat (x.toNat % 64 + 128)) = true := isContinuation_ofNat (by omega)
        refine ⟨i + 4, ?_⟩
        simp only [List.cons_append, List.nil_append, decodeUtf8From, UInt8.le_iff_toNat_le, UInt8.lt_iff_toNat_lt, hn,
          UInt8.reduceToNat, hfollow, hcont, hcont', Bool.not_true, Bool.false_eq_true, ↓reduceIte]
        rw [if_neg (by omega), if_neg (by omega), if_neg (by omega), if_pos (by omega), hlow,
          lowBits_continuation (by omega), lowBits_continuation (by omega), lowBits_continuation (by omega),
          charOfBits_of_eq (x := x) (by omega)]

theorem decodeUtf8From_flatMap (i : Nat) (cs : List Char) :
    decodeUtf8From i (cs.flatMap String.utf8EncodeChar) = .ok cs := by
  induction cs generalizing i with
  | nil => rfl
  | cons x cs ih =>
    obtain ⟨j, hj⟩ := decodeUtf8From_utf8EncodeChar i x (cs.flatMap String.utf8EncodeChar)
    rw [List.flatMap_cons, hj, ih]
    rfl

theorem decodeUtf8_encodeUtf8 (s : String) : decodeUtf8 (encodeUtf8 s) = .ok s := by
  simp [decodeUtf8, encodeUtf8, decodeUtf8From_flatMap, Except.map]

theorem decodeMarked_encodeUtf8 (mark : List Char) (s : String) : decodeMarked mark (encodeUtf8 s) = s.toList := by
  simp [decodeMarked, decodeMarkedWithin, encodeUtf8, decodeUtf8From_flatMap]

end Utf8

/-! ## Base64 -/

section Base64

variable {n : Nat}

/-- Six bits stand for a character that stands for them, and no character is the one that fills up. -/
theorem base64_table : ∀ n < 64, base64Value? (base64Char n) = some n ∧ base64Char n ≠ '=' := by
  decide +kernel

theorem base64Value?_base64Char (h : n < 64) : base64Value? (base64Char n) = some n := (base64_table n h).1

theorem base64Char_ne (h : n < 64) : base64Char n ≠ '=' := (base64_table n h).2

theorem ofNat_toNat_of_eq {b : UInt8} (h : n = b.toNat) : UInt8.ofNat n = b := by
  rw [h, UInt8.ofNat_toNat]

theorem decodeBase64Chars?_encodeBase64Chars (bytes : Bytes) :
    decodeBase64Chars? (encodeBase64Chars bytes) = some bytes := by
  fun_induction encodeBase64Chars bytes with
  | case1 => rfl
  | case2 a =>
    have ha := a.toNat_lt
    have hw := base64Value?_base64Char (n := a.toNat / 4) (by omega)
    have hx := base64Value?_base64Char (n := a.toNat % 4 * 16) (by omega)
    have hbyte : UInt8.ofNat (a.toNat / 4 * 4 + a.toNat % 4 * 16 / 16) = a := ofNat_toNat_of_eq (by omega)
    have hzero : a.toNat % 4 * 16 % 16 = 0 := by omega
    simp only [decodeBase64Chars?, hw, hx, Option.bind_eq_bind, Option.bind_some, hzero, hbyte, ↓reduceIte]
  | case3 a b =>
    have ha := a.toNat_lt
    have hb := b.toNat_lt
    have hw := base64Value?_base64Char (n := a.toNat / 4) (by omega)
    have hx := base64Value?_base64Char (n := a.toNat % 4 * 16 + b.toNat / 16) (by omega)
    have hy := base64Value?_base64Char (n := b.toNat % 16 * 4) (by omega)
    have hfirst : UInt8.ofNat (a.toNat / 4 * 4 + (a.toNat % 4 * 16 + b.toNat / 16) / 16) = a :=
      ofNat_toNat_of_eq (by omega)
    have hsecond : UInt8.ofNat ((a.toNat % 4 * 16 + b.toNat / 16) % 16 * 16 + b.toNat % 16 * 4 / 4) = b :=
      ofNat_toNat_of_eq (by omega)
    have hzero : b.toNat % 16 * 4 % 4 = 0 := by omega
    rw [decodeBase64Chars?]
    · simp only [hw, hx, hy, Option.bind_eq_bind, Option.bind_some, hzero, hfirst, hsecond, ↓reduceIte]
    · exact base64Char_ne (by omega)
  | case4 a b c r ih =>
    have ha := a.toNat_lt
    have hb := b.toNat_lt
    have hc := c.toNat_lt
    have hw := base64Value?_base64Char (n := a.toNat / 4) (by omega)
    have hx := base64Value?_base64Char (n := a.toNat % 4 * 16 + b.toNat / 16) (by omega)
    have hy := base64Value?_base64Char (n := b.toNat % 16 * 4 + c.toNat / 64) (by omega)
    have hz := base64Value?_base64Char (n := c.toNat % 64) (by omega)
    have hfirst : UInt8.ofNat (a.toNat / 4 * 4 + (a.toNat % 4 * 16 + b.toNat / 16) / 16) = a :=
      ofNat_toNat_of_eq (by omega)
    have hsecond : UInt8.ofNat ((a.toNat % 4 * 16 + b.toNat / 16) % 16 * 16 +
        (b.toNat % 16 * 4 + c.toNat / 64) / 4) = b := ofNat_toNat_of_eq (by omega)
    have hthird : UInt8.ofNat ((b.toNat % 16 * 4 + c.toNat / 64) % 4 * 64 + c.toNat % 64) = c :=
      ofNat_toNat_of_eq (by omega)
    rw [decodeBase64Chars?]
    · simp only [hw, hx, hy, hz, ih, Option.bind_eq_bind, Option.bind_some, hfirst, hsecond, hthird]
    · intro _ hz' _
      exact absurd hz' (base64Char_ne (by omega))
    · intro hz' _
      exact absurd hz' (base64Char_ne (by omega))

theorem decodeBase64?_encodeBase64 (bytes : Bytes) : decodeBase64? (encodeBase64 bytes) = some bytes := by
  rw [decodeBase64?, encodeBase64, String.toList_ofList, decodeBase64Chars?_encodeBase64Chars]

end Base64

/-! ## Lines -/

theorem lines_append {l : List Char} (h : ∀ c ∈ l, c ≠ '\n' ∧ c ≠ '\r') (r : List Char) :
    lines (l ++ '\n' :: r) = l :: lines r := by
  have hfeed : '\n' ∉ l := fun hc => (h _ hc).1 rfl
  have hreturn : l.getLast? ≠ some '\r' := fun hc => (h _ (List.mem_of_getLast? hc)).2 rfl
  exact lines_ended_by_feed hfeed hreturn r

/-- Lines without an end of a line in them are the lines of the text that ends each of them. -/
theorem lines_ended {ls : List (List Char)} (h : ∀ l ∈ ls, ∀ c ∈ l, c ≠ '\n' ∧ c ≠ '\r') :
    lines (ls.flatMap fun l => l ++ ['\n']) = ls := by
  induction ls with
  | nil => rfl
  | cons l ls ih =>
    rw [List.flatMap_cons, List.append_assoc, List.singleton_append, lines_append (h l List.mem_cons_self),
      ih fun m hm => h m (List.mem_cons_of_mem l hm)]

end ScriptRunner.Text
