import CodeAtlas.Text.Utf8
import Mathlib.Tactic.SplitIfs

/-! Decoding undoes encoding. The bytes of a character lead the decoder through its pending states
and back to none, whatever follows them, so the bytes of a text are decoded as that text. -/
namespace CodeAtlas.Text

/-! The bytes of a text. -/

theorem toList_loop (bytes : ByteArray) (i : Nat) (passed : List UInt8) :
    ByteArray.toList.loop bytes i passed = passed.reverse ++ bytes.data.toList.drop i := by
  fun_induction ByteArray.toList.loop bytes i passed with
  | case1 i passed inside ih =>
    have there : i < bytes.data.toList.length := inside
    rw [ih, List.drop_eq_getElem_cons there]
    simp [ByteArray.get!, inside]
  | case2 i passed outside =>
    rw [List.drop_eq_nil_of_le (Nat.le_of_not_lt outside), List.append_nil]

theorem toList_bytes (bytes : ByteArray) : bytes.toList = bytes.data.toList :=
  toList_loop bytes 0 []

theorem utf8_bytes (text : String) :
    text.toUTF8.toList = text.toList.flatMap String.utf8EncodeChar := by
  rw [toList_bytes, String.toUTF8_eq_toByteArray]
  have encoded : text.toByteArray = text.toList.utf8Encode := by
    rw [← String.toByteArray_ofList, String.ofList_toList]
  rw [encoded]
  exact List.toList_data_toByteArray

theorem utf8_injective {text other : String}
    (h : text.toUTF8.data.toList = other.toUTF8.data.toList) : text = other :=
  String.toByteArray_inj.mp (ByteArray.ext (Array.toList_inj.mp h))

/-! Steps of the decoder, on bytes given by their numbers. -/

variable {b : Nat} {rest : List UInt8}

theorem toNat_byte (fits : b < 256) : (UInt8.ofNat b).toNat = b := by
  rw [UInt8.toNat_ofNat', Nat.mod_eq_of_lt fits]

theorem decode_single (small : b < 0x80) :
    decodeAfter none (UInt8.ofNat b :: rest) = some (Char.ofNat b) :: decodeAfter none rest := by
  simp only [decodeAfter, toNat_byte (Nat.lt_trans small (by decide : 0x80 < 256)), if_pos small]

theorem decode_lead {count low high : Nat} (large : 0x80 ≤ b) (fits : b < 256)
    (lead : leadOf b = some (count, low, high)) :
    decodeAfter none (UInt8.ofNat b :: rest) =
      decodeAfter (some ⟨count, low, high,
        if count = 1 then b % 32 else if count = 2 then b % 16 else b % 8⟩) rest := by
  simp only [decodeAfter, toNat_byte fits, if_neg (Nat.not_lt.mpr large), lead]

theorem decode_inner {left low high bits : Nat} (above : low ≤ b) (below : b ≤ high)
    (fits : b < 256) :
    decodeAfter (some ⟨left + 2, low, high, bits⟩) (UInt8.ofNat b :: rest) =
      decodeAfter (some ⟨left + 1, 0x80, 0xBF, bits * 64 + b % 64⟩) rest := by
  simp [decodeAfter, toNat_byte fits, above, below]

theorem decode_last {low high bits : Nat} (above : low ≤ b) (below : b ≤ high) (fits : b < 256) :
    decodeAfter (some ⟨1, low, high, bits⟩) (UInt8.ofNat b :: rest) =
      some (Char.ofNat (bits * 64 + b % 64)) :: decodeAfter none rest := by
  simp [decodeAfter, toNat_byte fits, above, below]

/-! Characters by the number of their bytes. -/

theorem lead_of_two {n : Nat} (low : 0x80 ≤ n) (high : n < 0x800) :
    leadOf (n / 64 % 32 + 192) = some (1, 0x80, 0xBF) := by
  unfold leadOf
  split_ifs <;> first | rfl | (simp at *; omega)

theorem lead_of_three {n : Nat} (low : 0x800 ≤ n) (high : n < 0x10000)
    (valid : n < 0xD800 ∨ 0xDFFF < n) :
    ∃ least most, leadOf (n / 4096 % 16 + 224) = some (2, least, most) ∧
      least ≤ n / 64 % 64 + 128 ∧ n / 64 % 64 + 128 ≤ most := by
  unfold leadOf
  simp only [Bool.and_eq_true, decide_eq_true_eq]
  split_ifs <;> first | exact ⟨_, _, rfl, by omega, by omega⟩ | omega

theorem lead_of_four {n : Nat} (low : 0x10000 ≤ n) (high : n < 0x110000) :
    ∃ least most, leadOf (n / 262144 % 8 + 240) = some (3, least, most) ∧
      least ≤ n / 4096 % 64 + 128 ∧ n / 4096 % 64 + 128 ≤ most := by
  unfold leadOf
  simp only [Bool.and_eq_true, decide_eq_true_eq]
  split_ifs <;> first | exact ⟨_, _, rfl, by omega, by omega⟩ | omega

theorem decode_two {n : Nat} (low : 0x80 ≤ n) (high : n < 0x800) :
    decodeAfter none (UInt8.ofNat (n / 64 % 32 + 192) :: UInt8.ofNat (n % 64 + 128) :: rest) =
      some (Char.ofNat n) :: decodeAfter none rest := by
  have bits : (n / 64 % 32 + 192) % 32 * 64 + (n % 64 + 128) % 64 = n := by omega
  rw [decode_lead (by omega) (by omega) (lead_of_two low high),
    decode_last (by omega) (by omega) (by omega), if_pos rfl, bits]

theorem decode_three {n : Nat} (low : 0x800 ≤ n) (high : n < 0x10000)
    (valid : n < 0xD800 ∨ 0xDFFF < n) :
    decodeAfter none (UInt8.ofNat (n / 4096 % 16 + 224) :: UInt8.ofNat (n / 64 % 64 + 128) ::
        UInt8.ofNat (n % 64 + 128) :: rest) =
      some (Char.ofNat n) :: decodeAfter none rest := by
  obtain ⟨least, most, lead, above, below⟩ := lead_of_three low high valid
  have bits : ((n / 4096 % 16 + 224) % 16 * 64 + (n / 64 % 64 + 128) % 64) * 64 +
      (n % 64 + 128) % 64 = n := by omega
  rw [decode_lead (by omega) (by omega) lead, decode_inner above below (by omega),
    decode_last (by omega) (by omega) (by omega), if_neg (by decide), if_pos rfl, bits]

theorem decode_four {n : Nat} (low : 0x10000 ≤ n) (high : n < 0x110000) :
    decodeAfter none (UInt8.ofNat (n / 262144 % 8 + 240) :: UInt8.ofNat (n / 4096 % 64 + 128) ::
        UInt8.ofNat (n / 64 % 64 + 128) :: UInt8.ofNat (n % 64 + 128) :: rest) =
      some (Char.ofNat n) :: decodeAfter none rest := by
  obtain ⟨least, most, lead, above, below⟩ := lead_of_four low high
  have bits : (((n / 262144 % 8 + 240) % 8 * 64 + (n / 4096 % 64 + 128) % 64) * 64 +
      (n / 64 % 64 + 128) % 64) * 64 + (n % 64 + 128) % 64 = n := by omega
  rw [decode_lead (by omega) (by omega) lead, decode_inner above below (by omega),
    decode_inner (by omega) (by omega) (by omega), decode_last (by omega) (by omega) (by omega),
    if_neg (by decide), if_neg (by decide), bits]

theorem decode_char (c : Char) (rest : List UInt8) :
    decodeAfter none (String.utf8EncodeChar c ++ rest) = some c :: decodeAfter none rest := by
  have valid : c.toNat < 0xD800 ∨ (0xDFFF < c.toNat ∧ c.toNat < 0x110000) := c.valid
  unfold String.utf8EncodeChar
  rw [show c.val.toNat = c.toNat from rfl]
  dsimp only
  split_ifs with one two three <;> simp only [List.cons_append, List.nil_append]
  · rw [decode_single (by omega), Char.ofNat_toNat]
  · rw [decode_two (by omega) (by omega), Char.ofNat_toNat]
  · rw [decode_three (by omega) (by omega) (by omega), Char.ofNat_toNat]
  · rw [decode_four (by omega) (by omega), Char.ofNat_toNat]

/-- Nothing in the bytes of a text is undecodable. -/
theorem decode_chars (chars : List Char) :
    decodeAfter none (chars.flatMap String.utf8EncodeChar) = chars.map some := by
  induction chars with
  | nil => rfl
  | cons c chars ih => rw [List.flatMap_cons, decode_char, ih, List.map_cons]

theorem decodeReplacing_utf8 (text : String) :
    decodeReplacing text.toUTF8.toList = text.toList := by
  rw [decodeReplacing, utf8_bytes, decode_chars, List.map_map]
  exact List.map_id _

end CodeAtlas.Text
