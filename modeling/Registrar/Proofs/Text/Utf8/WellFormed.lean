import Mathlib
import Registrar.Proofs.Text.Utf8

/-!
# The lossy reading of well-formed text

The lossy reading gives up what is ill-formed, and nothing else. The first byte of a character opens a
range that the second byte is in, the bytes collect the number of the character, and the last one closes
it; so a text is found again in its bytes, as the strict reading finds it.
-/

namespace Registrar.Text.Utf8

/-- The text's bytes are those of its characters. -/
theorem encode_eq (text : String) : encode text = text.toList.flatMap String.utf8EncodeChar := by
  unfold encode
  conv_lhs => rw [← String.ofList_toList (s := text)]
  rw [String.toUTF8_eq_toByteArray, String.toByteArray_ofList]
  unfold List.utf8Encode
  rw [List.toList_data_toByteArray]

theorem step_begins {b : UInt8} {p : Pending} (h : lead b = .begins p) (done : List Char) :
    step ⟨done, none⟩ b = ⟨done, some p⟩ := by
  simp only [step, startWith, h]

/-- The bytes of a character after its first one carry six bits each. -/
theorem toNat_further (n : Nat) : (UInt8.ofNat (n % 64 + 128)).toNat = n % 64 + 128 := by
  rw [UInt8.toNat_ofNat']
  omega

section

variable {bits low high n : Nat} (hlow : low ≤ n % 64 + 128) (hhigh : n % 64 + 128 ≤ high)
include hlow hhigh

/-- The last byte of a character adds its six bits and closes it. -/
theorem step_last (done : List Char) :
    step ⟨done, some ⟨bits, 0, low, high⟩⟩ (UInt8.ofNat (n % 64 + 128))
      = ⟨Char.ofNat (bits * 64 + n % 64) :: done, none⟩ := by
  simp only [step, toNat_further, if_pos (And.intro hlow hhigh), Nat.add_sub_cancel]

/-- A byte between the first and the last of a character adds its six bits. -/
theorem step_more (owed : Nat) (done : List Char) :
    step ⟨done, some ⟨bits, owed + 1, low, high⟩⟩ (UInt8.ofNat (n % 64 + 128))
      = ⟨done, some ⟨bits * 64 + n % 64, owed, 0x80, 0xBF⟩⟩ := by
  simp only [step, toNat_further, if_pos (And.intro hlow hhigh), Nat.add_sub_cancel]

end

/-- The first of two bytes opens the range of the second. -/
theorem lead_of_two {v : Nat} (hlow : 0x80 ≤ v) (hhigh : v < 0x800) :
    lead (UInt8.ofNat (v / 64 % 32 + 192)) = .begins ⟨v / 64, 0, 0x80, 0xBF⟩ := by
  have hb : (UInt8.ofNat (v / 64 % 32 + 192)).toNat = v / 64 + 192 := by
    rw [UInt8.toNat_ofNat']
    omega
  unfold lead
  simp only [hb]
  rw [if_neg (by omega), if_neg (by omega), if_pos (by omega), Nat.add_sub_cancel]

/-- The first of three bytes opens a range that the second is in, if the character is no surrogate. -/
theorem lead_of_three {v : Nat} (hlow : 0x800 ≤ v) (hhigh : v < 0x10000)
    (hscalar : v < 0xD800 ∨ 0xDFFF < v) :
    ∃ low high, lead (UInt8.ofNat (v / 4096 % 16 + 224)) = .begins ⟨v / 4096, 1, low, high⟩
      ∧ low ≤ v / 64 % 64 + 128 ∧ v / 64 % 64 + 128 ≤ high := by
  have hb : (UInt8.ofNat (v / 4096 % 16 + 224)).toNat = v / 4096 + 224 := by
    rw [UInt8.toNat_ofNat']
    omega
  unfold lead
  simp only [hb]
  rw [if_neg (by omega), if_neg (by omega), if_neg (by omega)]
  split_ifs with hfirst hsurrogates hlast
  · exact ⟨0xA0, 0xBF, by rw [show v / 4096 = 0 by omega], by omega, by omega⟩
  · exact ⟨0x80, 0x9F, by rw [show v / 4096 = 0xD by omega], by omega, by omega⟩
  · exact ⟨0x80, 0xBF, by rw [Nat.add_sub_cancel], by omega, by omega⟩
  all_goals omega

/-- The first of four bytes opens a range that the second is in. -/
theorem lead_of_four {v : Nat} (hlow : 0x10000 ≤ v) (hhigh : v < 0x110000) :
    ∃ low high, lead (UInt8.ofNat (v / 262144 % 8 + 240)) = .begins ⟨v / 262144, 2, low, high⟩
      ∧ low ≤ v / 4096 % 64 + 128 ∧ v / 4096 % 64 + 128 ≤ high := by
  have hb : (UInt8.ofNat (v / 262144 % 8 + 240)).toNat = v / 262144 + 240 := by
    rw [UInt8.toNat_ofNat']
    omega
  unfold lead
  simp only [hb]
  rw [if_neg (by omega), if_neg (by omega), if_neg (by omega), if_neg (by omega),
    if_neg (by omega), if_neg (by omega)]
  split_ifs with hfirst hmiddle hlast
  · exact ⟨0x90, 0xBF, by rw [show v / 262144 = 0 by omega], by omega, by omega⟩
  · exact ⟨0x80, 0xBF, by rw [Nat.add_sub_cancel], by omega, by omega⟩
  · exact ⟨0x80, 0x8F, by rw [show v / 262144 = 4 by omega], by omega, by omega⟩
  · omega

/-- Between characters the bytes of a character are read as the character. -/
theorem foldl_step_char (c : Char) (done : List Char) :
    (String.utf8EncodeChar c).foldl step ⟨done, none⟩ = ⟨c :: done, none⟩ := by
  have hscalar : c.toNat < 0xD800 ∨ 0xDFFF < c.toNat ∧ c.toNat < 0x110000 := c.valid
  have hc {n : Nat} (hn : n = c.toNat) : Char.ofNat n = c := by rw [hn, Char.ofNat_toNat]
  unfold String.utf8EncodeChar
  simp only [show c.val.toNat = c.toNat from rfl]
  split_ifs with hone htwo hthree
  · have hb : (UInt8.ofNat c.toNat).toNat = c.toNat := by
      rw [UInt8.toNat_ofNat']
      omega
    have hlead : lead (UInt8.ofNat c.toNat) = .whole c := by
      rw [lead_of_ascii (by omega), asciiChar, hb, Char.ofNat_toNat]
    simp only [List.foldl_cons, List.foldl_nil, step, startWith, hlead]
  · rw [List.foldl_cons, step_begins (lead_of_two (by omega) (by omega)), List.foldl_cons,
      step_last (by omega) (by omega), List.foldl_nil, hc (by omega)]
  · obtain ⟨low, high, hlead, hlow, hhigh⟩ :=
      lead_of_three (v := c.toNat) (by omega) (by omega) (by omega)
    rw [List.foldl_cons, step_begins hlead, List.foldl_cons, step_more hlow hhigh, List.foldl_cons,
      step_last (by omega) (by omega), List.foldl_nil, hc (by omega)]
  · obtain ⟨low, high, hlead, hlow, hhigh⟩ :=
      lead_of_four (v := c.toNat) (by omega) (by omega)
    rw [List.foldl_cons, step_begins hlead, List.foldl_cons, step_more hlow hhigh, List.foldl_cons,
      step_more (by omega) (by omega), List.foldl_cons, step_last (by omega) (by omega),
      List.foldl_nil, hc (by omega)]

/-- Between characters the bytes of characters are read as the characters. -/
theorem foldl_step_chars (chars done : List Char) :
    (chars.flatMap String.utf8EncodeChar).foldl step ⟨done, none⟩
      = ⟨chars.reverse ++ done, none⟩ := by
  induction chars generalizing done with
  | nil => rfl
  | cons c chars ih =>
    rw [List.flatMap_cons, List.foldl_append, foldl_step_char, ih, List.reverse_cons,
      List.append_assoc, List.singleton_append]

/-- **The lossy reading of well-formed text loses nothing.** -/
theorem decodeLossy_encode (text : String) : decodeLossy (encode text) = text := by
  unfold decodeLossy decodeLossyChars
  rw [encode_eq, foldl_step_chars, List.append_nil]
  unfold Progress.finish
  simp only [List.reverse_reverse, String.ofList_toList]

end Registrar.Text.Utf8
