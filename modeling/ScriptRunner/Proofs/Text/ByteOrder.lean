import ScriptRunner.Proofs.Text.Encoding

/-!
# The order of texts and the order of their bytes

Texts are ordered by their characters. In UTF-8 this is the order of their bytes (`encodeUtf8_le_iff`): the first
character in which two texts differ also decides the order of the bytes, whatever follows it.
-/

namespace ScriptRunner.Text

variable {m n : Nat} {r s : Bytes}

theorem ofNat_cons_lt_iff (hm : m < 256) (hn : n < 256) :
    UInt8.ofNat m :: r < UInt8.ofNat n :: s ↔ m < n ∨ m = n ∧ r < s := by
  rw [List.cons_lt_cons_iff, UInt8.lt_iff_toNat_lt, ← UInt8.toNat_inj, toNat_ofNat_of_lt hm, toNat_ofNat_of_lt hn]

/-- A smaller character has smaller bytes, whatever follows both. -/
theorem utf8EncodeChar_append_lt {x y : Char} (h : x < y) (r s : Bytes) :
    String.utf8EncodeChar x ++ r < String.utf8EncodeChar y ++ s := by
  have hlt : x.toNat < y.toNat := h
  have hx := toNat_lt_of_char x
  have hy := toNat_lt_of_char y
  have hvx : x.val.toNat = x.toNat := rfl
  have hvy : y.val.toNat = y.toNat := rfl
  generalize x.toNat = m at *
  generalize y.toNat = n at *
  -- The digits to the base 64 that the bytes carry, each from the one before.
  have hm : m / 4096 = m / 64 / 64 ∧ m / 262144 % 8 = m / 4096 / 64 := by omega
  have hn : n / 4096 = n / 64 / 64 ∧ n / 262144 % 8 = n / 4096 / 64 := by omega
  unfold String.utf8EncodeChar
  simp only [hvx, hvy]
  -- A character with fewer bytes has the smaller first byte; with as many bytes the digits decide.
  split_ifs <;> simp (disch := omega) only [List.cons_append, List.nil_append, ofNat_cons_lt_iff] <;> omega

theorem flatMap_utf8EncodeChar_lt {cs ds : List Char} (h : cs < ds) :
    cs.flatMap String.utf8EncodeChar < ds.flatMap String.utf8EncodeChar := by
  induction cs generalizing ds with
  | nil =>
    cases ds with
    | nil => exact absurd h (List.lt_irrefl [])
    | cons y ds =>
      obtain ⟨b, bs, hb⟩ := List.exists_cons_of_ne_nil (String.utf8EncodeChar_ne_nil (c := y))
      rw [List.flatMap_cons, hb]
      exact List.nil_lt_cons b _
  | cons x cs ih =>
    cases ds with
    | nil => exact absurd h (List.not_lt_nil _)
    | cons y ds =>
      rw [List.flatMap_cons, List.flatMap_cons]
      rcases List.cons_lt_cons_iff.1 h with hlt | ⟨rfl, hlt⟩
      · exact utf8EncodeChar_append_lt hlt _ _
      · exact List.append_left_lt (ih hlt)

/-- **The order of texts is the order of their bytes.** -/
theorem encodeUtf8_le_iff {a b : String} : encodeUtf8 a ≤ encodeUtf8 b ↔ a ≤ b := by
  have hlt : ∀ {a b : String}, a < b → encodeUtf8 a < encodeUtf8 b := fun h =>
    flatMap_utf8EncodeChar_lt h
  constructor
  · intro hle
    exact String.not_lt.1 fun hba => hle (hlt hba)
  · intro hle hba
    have hab : encodeUtf8 a ≤ encodeUtf8 b := by
      rcases eq_or_ne a b with rfl | hne
      · exact List.le_refl _
      · exact List.le_of_lt (hlt (String.not_le.1 fun hba => hne (String.le_antisymm hle hba)))
    exact hab hba

end ScriptRunner.Text
