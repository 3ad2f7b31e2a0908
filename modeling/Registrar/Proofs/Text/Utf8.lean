import Mathlib
import Registrar.Text.Utf8

/-!
# Text, its bytes, and what the lossy reading keeps apart

Writing a text as bytes loses nothing, and the strict reading finds the text again. The lossy reading
does lose something: many byte strings have the same text. But it never gives a byte string that is
not plain ASCII a text that is. The replacement character is outside ASCII, and a character of
several bytes is too, since the ranges of its bytes keep out the overlong forms. So two byte strings
of which one is plain ASCII have the same lossy text only if they are equal.
-/

namespace Registrar.Text.Utf8

/-! ## The strict reading -/

/-- A text is read back from its bytes. -/
@[simp] theorem decode?_encode (text : String) : decode? (encode text) = some text := by
  unfold decode? encode String.fromUTF8?
  simp only [String.toUTF8_eq_toByteArray, Array.toArray_toList]
  rw [dif_pos text.isValidUTF8]
  rfl

/-- What the strict reading finds is written as the bytes it was read from. -/
theorem encode_of_decode? {bytes : List UInt8} {text : String} (h : decode? bytes = some text) :
    encode text = bytes := by
  unfold decode? String.fromUTF8? at h
  split at h
  · cases h
    rfl
  · cases h

/-- The strict reading finds a text exactly in the text's bytes. -/
theorem decode?_eq_some_iff {bytes : List UInt8} {text : String} :
    decode? bytes = some text ↔ bytes = encode text := by
  constructor
  · intro h
    exact (encode_of_decode? h).symm
  · rintro rfl
    exact decode?_encode text

/-- Texts with the same bytes are the same. -/
theorem encode_inj {a b : String} : encode a = encode b ↔ a = b := by
  constructor
  · intro h
    have ha := decode?_encode a
    rw [h, decode?_encode] at ha
    exact (Option.some.inj ha).symm
  · rintro rfl
    rfl

/-! ## Plain ASCII -/

/-- Whether every byte is a character by itself. -/
def IsAscii (bytes : List UInt8) : Prop :=
  ∀ b ∈ bytes, b.toNat < 128

/-- The character that a byte of plain ASCII is. -/
def asciiChar (b : UInt8) : Char :=
  Char.ofNat b.toNat

theorem toNat_asciiChar {b : UInt8} (h : b.toNat < 128) : (asciiChar b).toNat = b.toNat := by
  unfold asciiChar
  rw [Char.toNat_ofNat, if_pos (Or.inl (by omega))]

theorem lead_of_ascii {b : UInt8} (h : b.toNat < 128) : lead b = .whole (asciiChar b) := by
  unfold lead asciiChar
  rw [if_pos h]

/-- Between characters plain ASCII is read byte by byte. -/
theorem foldl_step_ascii {bytes : List UInt8} (h : IsAscii bytes) (done : List Char) :
    bytes.foldl step ⟨done, none⟩ = ⟨(bytes.map asciiChar).reverse ++ done, none⟩ := by
  induction bytes generalizing done with
  | nil => rfl
  | cons b bytes ih =>
    have hb : b.toNat < 128 := h b (by simp)
    have hrest : IsAscii bytes := fun x hx => h x (by simp [hx])
    have hstep : step ⟨done, none⟩ b = ⟨asciiChar b :: done, none⟩ := by
      unfold step startWith
      rw [lead_of_ascii hb]
    rw [List.foldl_cons, hstep, ih hrest]
    simp

/-- The lossy text of plain ASCII has one character for each byte. -/
theorem decodeLossyChars_ascii {bytes : List UInt8} (h : IsAscii bytes) :
    decodeLossyChars bytes = bytes.map asciiChar := by
  unfold decodeLossyChars
  rw [foldl_step_ascii h]
  simp [Progress.finish]

/-- The bytes of a text of ASCII characters are the characters' numbers. -/
theorem encode_ofList_ascii {bytes : List UInt8} (h : IsAscii bytes) :
    encode (String.ofList (bytes.map asciiChar)) = bytes := by
  unfold encode
  rw [String.toUTF8_eq_toByteArray, String.toByteArray_ofList]
  unfold List.utf8Encode
  rw [List.toList_data_toByteArray]
  induction bytes with
  | nil => rfl
  | cons b bytes ih =>
    have hb : b.toNat < 128 := h b (by simp)
    have hchar : String.utf8EncodeChar (asciiChar b) = [b] := by
      have hv : (asciiChar b).val.toNat = b.toNat := toNat_asciiChar hb
      unfold String.utf8EncodeChar
      simp only [hv]
      rw [if_pos (by omega), UInt8.ofNat_toNat]
    rw [List.map_cons, List.flatMap_cons, hchar, ih fun x hx => h x (by simp [hx])]
    rfl

/-- The lossy text of plain ASCII loses nothing. -/
theorem encode_decodeLossy_ascii {bytes : List UInt8} (h : IsAscii bytes) :
    encode (decodeLossy bytes) = bytes := by
  unfold decodeLossy
  rw [decodeLossyChars_ascii h]
  exact encode_ofList_ascii h

/-- A byte is the number of its character, outside ASCII too. -/
theorem asciiChar_toNat (b : UInt8) : (asciiChar b).toNat = b.toNat := by
  have hlt : b.toNat < 256 := b.toNat_lt
  unfold asciiChar
  rw [Char.toNat_ofNat, if_pos (Or.inl (by omega))]

/-- A text whose bytes are plain ASCII has one character for each of them. -/
theorem map_asciiChar_encode {text : String} (h : IsAscii (encode text)) :
    (encode text).map asciiChar = text.toList := by
  have htext : String.ofList ((encode text).map asciiChar) = text :=
    encode_inj.mp (encode_ofList_ascii h)
  conv_rhs => rw [← htext, String.toList_ofList]

/-- A text of ASCII characters is plain ASCII. -/
theorem isAscii_encode {text : String} (h : ∀ c ∈ text.toList, c.toNat < 128) :
    IsAscii (encode text) := by
  have hnumber {c : Char} (hc : c.toNat < 128) : (UInt8.ofNat c.toNat).toNat = c.toNat := by
    rw [UInt8.toNat_ofNat']
    omega
  have hascii : IsAscii (text.toList.map fun c => UInt8.ofNat c.toNat) := by
    intro b hb
    obtain ⟨c, hc, rfl⟩ := List.mem_map.mp hb
    rw [hnumber (h c hc)]
    exact h c hc
  have hchars : (text.toList.map fun c => UInt8.ofNat c.toNat).map asciiChar = text.toList := by
    rw [List.map_map]
    conv_rhs => rw [← List.map_id text.toList]
    apply List.map_congr_left
    intro c hc
    show Char.ofNat (UInt8.ofNat c.toNat).toNat = c
    rw [hnumber (h c hc), Char.ofNat_toNat]
  have hbytes := encode_ofList_ascii hascii
  rw [hchars, String.ofList_toList] at hbytes
  rwa [hbytes]

/-! ## Other byte strings

The invariant is on the character that has begun: whatever byte in its range comes next and whatever
follows, the number that it ends with is a scalar value from 128 on. -/

/-- Whether `v`, with `owed` more bytes to come, can only become a scalar value outside ASCII. -/
def Outside (v owed : Nat) : Prop :=
  128 ≤ v * 64 ^ owed ∧ (v + 1) * 64 ^ owed ≤ 0x110000
    ∧ ((v + 1) * 64 ^ owed ≤ 0xD800 ∨ 0xE000 ≤ v * 64 ^ owed)

/-- Whether a character that has begun can only end outside ASCII. -/
def Pending.Wide (p : Pending) : Prop :=
  128 ≤ p.low ∧ ∀ n, p.low ≤ n → n ≤ p.high → Outside (p.bits * 64 + (n - 128)) p.owed

theorem toNat_ofNat_outside {v : Nat} (h : Outside v 0) : 128 ≤ (Char.ofNat v).toNat := by
  obtain ⟨hlow, hhigh, hgap⟩ := h
  simp only [Nat.pow_zero, Nat.mul_one] at hlow hhigh hgap
  have hvalid : v.isValidChar := by
    unfold Nat.isValidChar
    omega
  rw [Char.toNat_ofNat, if_pos hvalid]
  exact hlow

/-- One more byte narrows the range that a character can end in. -/
theorem wide_of_outside {v owed : Nat} (h : Outside v (owed + 1)) :
    Pending.Wide ⟨v, owed, 0x80, 0xBF⟩ := by
  refine ⟨Nat.le_refl _, ?_⟩
  intro n hlow hhigh
  dsimp only at hlow hhigh
  show Outside (v * 64 + (n - 128)) owed
  obtain ⟨h1, h2, h3⟩ := h
  simp only [Nat.pow_succ', ← Nat.mul_assoc] at h1 h2 h3
  have hfrom : v * 64 * 64 ^ owed ≤ (v * 64 + (n - 128)) * 64 ^ owed :=
    Nat.mul_le_mul_right _ (by omega)
  have hto : (v * 64 + (n - 128) + 1) * 64 ^ owed ≤ (v + 1) * 64 * 64 ^ owed :=
    Nat.mul_le_mul_right _ (by omega)
  refine ⟨by omega, by omega, ?_⟩
  rcases h3 with h3 | h3
  · exact Or.inl (by omega)
  · exact Or.inr (by omega)

/-- The first byte of a character fixes ranges that keep out the overlong forms, the surrogates and
what is above the last code point. -/
theorem wide_of_lead {b : UInt8} {p : Pending} (h : lead b = .begins p) : p.Wide := by
  unfold lead at h
  simp only at h
  split_ifs at h <;> simp only [Lead.begins.injEq] at h
  all_goals
    subst h
    refine ⟨by simp, ?_⟩
    intro n hlow hhigh
    simp only [Outside] at hlow hhigh ⊢
    omega

/-- What the decoder keeps: a character that has begun is wide. -/
def Progress.Sound (s : Progress) : Prop :=
  ∀ p, s.pending = some p → p.Wide

/-- Whether the text will hold a character outside ASCII whatever comes. -/
def Progress.Marked (s : Progress) : Prop :=
  (∃ c ∈ s.done, 128 ≤ c.toNat) ∨ s.pending.isSome

/-- Only a byte of plain ASCII is a character by itself. -/
theorem lt_of_lead_whole {b : UInt8} {c : Char} (h : lead b = .whole c) : b.toNat < 128 := by
  unfold lead at h
  simp only at h
  split_ifs at h with hb
  exact hb

theorem sound_startWith (done : List Char) (b : UInt8) : (startWith done b).Sound := by
  intro p hp
  unfold startWith at hp
  split at hp
  · cases hp
  · next hb =>
    cases hp
    exact wide_of_lead hb
  · cases hp

theorem marked_startWith {done : List Char} {b : UInt8}
    (h : (∃ c ∈ done, 128 ≤ c.toNat) ∨ 128 ≤ b.toNat) : (startWith done b).Marked := by
  unfold startWith
  split
  · next c hb =>
    rcases h with ⟨d, hd, hwide⟩ | hb'
    · exact Or.inl ⟨d, List.mem_cons_of_mem _ hd, hwide⟩
    · exact absurd (lt_of_lead_whole hb) (Nat.not_lt.mpr hb')
  · exact Or.inr rfl
  · exact Or.inl ⟨replacement, List.mem_cons_self, by decide⟩

/-- One byte keeps the decoder sound, and what will hold a character outside ASCII still will. -/
theorem step_spec {s : Progress} (hs : s.Sound) (b : UInt8) :
    (step s b).Sound ∧ (s.Marked ∨ 128 ≤ b.toNat → (step s b).Marked) := by
  obtain ⟨done, pending⟩ := s
  cases pending with
  | none =>
    refine ⟨sound_startWith done b, ?_⟩
    rintro ((hd | hp) | hb)
    · exact marked_startWith (Or.inl hd)
    · cases hp
    · exact marked_startWith (Or.inr hb)
  | some p =>
    have hwide : p.Wide := hs p rfl
    simp only [step]
    split
    · next hrange =>
      have hout := hwide.2 b.toNat hrange.1 hrange.2
      split
      · next howed =>
        rw [howed] at hout
        refine ⟨?_, ?_⟩
        · intro q hq
          cases hq
        · intro _
          exact Or.inl ⟨_, List.mem_cons_self, toNat_ofNat_outside hout⟩
      · next owed howed =>
        rw [howed] at hout
        refine ⟨?_, fun _ => Or.inr rfl⟩
        intro q hq
        rw [← Option.some.inj hq]
        exact wide_of_outside hout
    · refine ⟨sound_startWith _ b, ?_⟩
      intro _
      exact marked_startWith (Or.inl ⟨replacement, List.mem_cons_self, by decide⟩)

/-- A byte outside ASCII marks the text for good. -/
theorem marked_foldl_step {bytes : List UInt8} {s : Progress} (hs : s.Sound)
    (h : s.Marked ∨ ∃ b ∈ bytes, 128 ≤ b.toNat) : (bytes.foldl step s).Marked := by
  induction bytes generalizing s with
  | nil =>
    rcases h with h | ⟨b, hb, _⟩
    · exact h
    · cases hb
  | cons b bytes ih =>
    obtain ⟨hsound, hmarked⟩ := step_spec hs b
    refine ih hsound ?_
    rcases h with h | ⟨c, hc, hwide⟩
    · exact Or.inl (hmarked (Or.inl h))
    · rcases List.mem_cons.mp hc with rfl | hc
      · exact Or.inl (hmarked (Or.inr hwide))
      · exact Or.inr ⟨c, hc, hwide⟩

/-- The lossy text of a byte string that is not plain ASCII is not plain ASCII either. -/
theorem exists_outside_of_not_ascii {bytes : List UInt8} (h : ∃ b ∈ bytes, 128 ≤ b.toNat) :
    ∃ c ∈ decodeLossyChars bytes, 128 ≤ c.toNat := by
  have hstart : Progress.Sound ⟨[], none⟩ := by
    intro p hp
    cases hp
  have hm := marked_foldl_step hstart (Or.inr h)
  unfold decodeLossyChars Progress.finish
  split
  · next hnone =>
    rcases hm with ⟨c, hc, hwide⟩ | hp
    · exact ⟨c, List.mem_reverse.mpr hc, hwide⟩
    · rw [hnone] at hp
      cases hp
  · exact ⟨replacement, by simp, by decide⟩

/-- The lossy reading takes no other byte string for one of plain ASCII. -/
theorem decodeLossy_eq_ascii_iff {bytes name : List UInt8} (h : IsAscii name) :
    decodeLossy bytes = decodeLossy name ↔ bytes = name := by
  constructor
  · intro heq
    have hchars : decodeLossyChars bytes = name.map asciiChar := by
      rw [← decodeLossyChars_ascii h]
      exact String.ofList_inj.mp heq
    have hascii : IsAscii bytes := by
      intro b hb
      by_contra hwide
      obtain ⟨c, hc, hcw⟩ := exists_outside_of_not_ascii ⟨b, hb, Nat.le_of_not_lt hwide⟩
      rw [hchars] at hc
      obtain ⟨n, hn, rfl⟩ := List.mem_map.mp hc
      rw [toNat_asciiChar (h n hn)] at hcw
      exact absurd (h n hn) (Nat.not_lt.mpr hcw)
    rw [← encode_decodeLossy_ascii hascii, heq, encode_decodeLossy_ascii h]
  · rintro rfl
    rfl

end Registrar.Text.Utf8
