import Mathlib
import Registrar.Proofs.Text.Hex

/-!
# The texts that are hexadecimal

A text is read as a byte string just if it spells it: two digits for each byte, each in either case. So
the texts that are read alike are those that agree in lower case. Every other text is refused for one
reason: an odd number of bytes, and else the first byte that is no digit.
-/

namespace Registrar.Text.Hex

open Utf8 (asciiChar)

/-! ## Digits of either case -/

/-- Whether a character is the digit of this value, in either case. -/
def IsDigitOf (n : Nat) (c : Char) : Prop :=
  n < 16 ∧ c.toLower = Nat.digitChar n

/-- Whether a character is a digit, in either case. -/
def IsDigit (c : Char) : Prop :=
  ∃ n, IsDigitOf n c

theorem toNat_toLower (c : Char) :
    c.toLower.toNat = if 65 ≤ c.toNat ∧ c.toNat ≤ 90 then c.toNat + 32 else c.toNat := by
  have hcase : (c.val ≥ 'A'.val ∧ c.val ≤ 'Z'.val) ↔ 65 ≤ c.toNat ∧ c.toNat ≤ 90 := by
    rw [ge_iff_le, UInt32.le_iff_toNat_le, UInt32.le_iff_toNat_le]
    rfl
  unfold Char.toLower
  split_ifs with h hnat hnat
  · show (c.val + 32).toNat = c.toNat + 32
    rw [UInt32.toNat_add]
    show (c.toNat + 32) % 2 ^ 32 = _
    omega
  · exact absurd (hcase.mp h) hnat
  · exact absurd (hcase.mpr hnat) h
  · rfl

theorem toNat_digitChar {n : Nat} (h : n < 16) :
    (Nat.digitChar n).toNat = if n < 10 then 48 + n else 87 + n := by
  interval_cases n <;> rfl

theorem digit_eq {n : Nat} (h : n < 16) : digit n = Nat.digitChar n := by
  interval_cases n <;> rfl

/-- The characters that have a value are the digits. -/
theorem value?_eq_some_iff {c : Char} {n : Nat} : value? c.toNat = some n ↔ IsDigitOf n c := by
  have hrange : value? c.toNat = some n ↔
      n < 16 ∧ c.toLower.toNat = if n < 10 then 48 + n else 87 + n := by
    rw [toNat_toLower]
    unfold value?
    split_ifs <;> simp only [Option.some.injEq, false_iff] <;> omega
  rw [hrange]
  apply and_congr_right
  intro h
  rw [← toNat_digitChar h, Char.toNat_inj]

/-- So are the bytes that have a value. -/
theorem value?_byte_eq_some_iff {b : UInt8} {n : Nat} :
    value? b.toNat = some n ↔ IsDigitOf n (asciiChar b) := by
  rw [← value?_eq_some_iff, Utf8.asciiChar_toNat]

/-- All digits are plain ASCII. -/
theorem IsDigit.lt {c : Char} (h : IsDigit c) : c.toNat < 128 := by
  obtain ⟨n, hn⟩ := h
  have hvalue := value?_eq_some_iff.mpr hn
  unfold value? at hvalue
  split_ifs at hvalue <;> omega

theorem isDigitOf_digit {n : Nat} (h : n < 16) : IsDigitOf n (digit n) := by
  refine ⟨h, ?_⟩
  interval_cases n <;> rfl

/-- A character that has no value is not a digit. -/
theorem IsDigit.ne {c other : Char} (h : IsDigit c) (hother : value? other.toNat = none) :
    c ≠ other := by
  rintro rfl
  obtain ⟨n, hn⟩ := h
  rw [value?_eq_some_iff.mpr hn] at hother
  cases hother

/-- Numbers are written in digits. -/
theorem isDigit_of_mem_number {width n : Nat} {c : Char} (hc : c ∈ (number width n).toList) :
    IsDigit c := by
  have hdigits (n : Nat) {c : Char} (hc : c ∈ Nat.toDigits 16 n) : IsDigit c := by
    induction n using Nat.strong_induction_on with
    | _ n ih =>
      by_cases hn : n < 16
      · rw [Nat.toDigits_of_lt_base hn] at hc
        rw [List.mem_singleton.mp hc, ← digit_eq hn]
        exact ⟨n, isDigitOf_digit hn⟩
      · have hlt : n % 16 < 16 := Nat.mod_lt n (by omega)
        rw [Nat.toDigits_of_base_le (by omega) (by omega)] at hc
        rcases List.mem_append.mp hc with hc | hc
        · exact ih (n / 16) (by omega) hc
        · rw [List.mem_singleton.mp hc, ← digit_eq hlt]
          exact ⟨n % 16, isDigitOf_digit hlt⟩
  unfold number at hc
  rw [String.toList_ofList] at hc
  rcases List.mem_append.mp hc with hc | hc
  · rw [List.eq_of_mem_replicate hc]
    exact ⟨0, isDigitOf_digit (by decide)⟩
  · exact hdigits n hc

/-- There is a first digit. -/
theorem exists_number_eq_cons (width n : Nat) : ∃ c cs, (number width n).toList = c :: cs := by
  unfold number
  rw [String.toList_ofList]
  apply List.exists_cons_of_ne_nil
  intro hnil
  exact Nat.toDigits_ne_nil (List.append_eq_nil_iff.mp hnil).2

/-! ## Texts that spell byte strings -/

/-- Whether characters are the digits of bytes: two for each byte, the high half first, and each in
either case. -/
inductive Spells : List Char → List UInt8 → Prop
  | nil : Spells [] []
  | cons {hi lo : Char} {chars : List Char} {b : UInt8} {bytes : List UInt8}
      (hhigh : IsDigitOf (b.toNat / 16) hi) (hlow : IsDigitOf (b.toNat % 16) lo)
      (hrest : Spells chars bytes) :
    Spells (hi :: lo :: chars) (b :: bytes)

/-- Two digits spell the byte whose halves they are. -/
theorem Spells.pair {h l : Nat} {hi lo : Char} {chars : List Char} {bytes : List UInt8}
    (hrest : Spells chars bytes) (hhi : IsDigitOf h hi) (hlo : IsDigitOf l lo) :
    Spells (hi :: lo :: chars) (UInt8.ofNat (16 * h + l) :: bytes) := by
  have hh : h < 16 := hhi.1
  have hl : l < 16 := hlo.1
  have hb : (UInt8.ofNat (16 * h + l)).toNat = 16 * h + l := by
    rw [UInt8.toNat_ofNat']
    omega
  refine .cons ?_ ?_ hrest
  · rwa [hb, show (16 * h + l) / 16 = h by omega]
  · rwa [hb, show (16 * h + l) % 16 = l by omega]

/-- What is written for a byte string spells it. -/
theorem spells_digits (bytes : List UInt8) : Spells (digits bytes) bytes := by
  induction bytes with
  | nil => exact .nil
  | cons b bytes ih =>
    obtain ⟨hhigh, hlow⟩ := halves_lt b
    exact .cons (isDigitOf_digit hhigh) (isDigitOf_digit hlow) ih

/-- In lower case there is one way to spell a byte string, and it is how byte strings are written. -/
theorem spells_iff {chars : List Char} {bytes : List UInt8} :
    Spells chars bytes ↔ chars.map Char.toLower = digits bytes := by
  constructor
  · intro h
    induction h with
    | nil => rfl
    | @cons hi lo chars b bytes hhigh hlow _ ih =>
      rw [List.map_cons, List.map_cons, ih, hhigh.2, hlow.2, ← digit_eq hhigh.1, ← digit_eq hlow.1]
      rfl
  · intro h
    induction bytes generalizing chars with
    | nil =>
      rw [List.map_eq_nil_iff.mp h]
      exact .nil
    | cons b bytes ih =>
      obtain ⟨hhigh, hlow⟩ := halves_lt b
      obtain ⟨hi, _, rfl, hhi, hrest⟩ := List.map_eq_cons_iff.mp h
      obtain ⟨lo, chars, rfl, hlo, hrest⟩ := List.map_eq_cons_iff.mp hrest
      refine .cons ⟨hhigh, ?_⟩ ⟨hlow, ?_⟩ (ih hrest)
      · rw [hhi, digit_eq hhigh]
      · rw [hlo, digit_eq hlow]

/-- Only digits spell, two for each byte, and any do. -/
theorem exists_spells_iff {chars : List Char} {n : Nat} :
    (∃ bytes, Spells chars bytes ∧ bytes.length = n)
      ↔ (∀ c ∈ chars, IsDigit c) ∧ chars.length = 2 * n := by
  constructor
  · rintro ⟨bytes, h, rfl⟩
    induction h with
    | nil => exact ⟨List.forall_mem_nil _, rfl⟩
    | cons hhigh hlow _ ih =>
      obtain ⟨hdigits, hlength⟩ := ih
      simp only [List.forall_mem_cons, List.length_cons]
      exact ⟨⟨⟨_, hhigh⟩, ⟨_, hlow⟩, hdigits⟩, by omega⟩
  · rintro ⟨hdigits, hlength⟩
    induction n generalizing chars with
    | zero =>
      rw [List.length_eq_zero_iff.mp hlength]
      exact ⟨[], .nil, rfl⟩
    | succ n ih =>
      match chars, hlength with
      | hi :: lo :: chars, hlength =>
        simp only [List.forall_mem_cons, List.length_cons] at hdigits hlength
        obtain ⟨⟨h, hhi⟩, ⟨l, hlo⟩, hrest⟩ := hdigits
        obtain ⟨bytes, hspells, rfl⟩ := ih hrest (by omega)
        exact ⟨_, hspells.pair hhi hlo, rfl⟩

theorem isDigit_of_mem_digits {bytes : List UInt8} {c : Char} (hc : c ∈ digits bytes) :
    IsDigit c :=
  (exists_spells_iff.mp ⟨bytes, spells_digits bytes, rfl⟩).1 c hc

/-! ## What is read and what is refused -/

theorem value?_byte_eq_none_iff {b : UInt8} : value? b.toNat = none ↔ ¬ IsDigit (asciiChar b) := by
  rw [Option.eq_none_iff_forall_ne_some]
  simp only [ne_eq, value?_byte_eq_some_iff, ← not_exists]
  rfl

/-- Pairs are read as the bytes that they spell. -/
theorem decodePairs_eq_ok_iff {position : Nat} {text bytes : List UInt8} :
    decodePairs position text = .ok bytes ↔ Spells (text.map asciiChar) bytes := by
  fun_induction decodePairs position text generalizing bytes with
  | case1 position =>
    rw [Except.ok.injEq]
    constructor
    · rintro rfl
      exact .nil
    · intro h
      cases h
      rfl
  | case2 position b =>
    refine iff_of_false (fun h => nomatch h) ?_
    intro h
    cases h
  | case3 position hi lo rest h l hlo hhi ih =>
    constructor
    · intro hok
      rcases hrest : decodePairs (position + 2) rest with e | tail
      · rw [hrest] at hok
        cases hok
      · rw [hrest] at hok
        cases hok
        exact (ih.mp hrest).pair (value?_byte_eq_some_iff.mp hhi) (value?_byte_eq_some_iff.mp hlo)
    · intro hspells
      cases hspells with
      | @cons _ _ _ b tail hhigh hlow hrest =>
        have hh' : h = b.toNat / 16 :=
          Option.some.inj (hhi.symm.trans (value?_byte_eq_some_iff.mpr hhigh))
        have hl' : l = b.toNat % 16 :=
          Option.some.inj (hlo.symm.trans (value?_byte_eq_some_iff.mpr hlow))
        rw [ih.mpr hrest, hh', hl', Nat.div_add_mod, UInt8.ofNat_toNat]
        rfl
  | case4 position hi lo rest hhi =>
    refine iff_of_false (fun h => nomatch h) ?_
    intro hspells
    cases hspells with
    | cons hhigh _ _ => exact value?_byte_eq_none_iff.mp hhi ⟨_, hhigh⟩
  | case5 position hi lo rest h hlo hhi =>
    refine iff_of_false (fun h => nomatch h) ?_
    intro hspells
    cases hspells with
    | cons _ hlow _ => exact value?_byte_eq_none_iff.mp hlo ⟨_, hlow⟩

/-- Whether a text, given as its bytes, is refused, and why: the bytes do not pair up; or they do, and
the first one that is no digit is this one. -/
inductive Rejects (text : List UInt8) : Error → Prop
  | oddLength (hodd : text.length % 2 = 1) : Rejects text .oddLength
  | invalidDigit {b : UInt8} {position : Nat} (heven : text.length % 2 = 0)
      (hb : text[position]? = some b) (hbad : ¬ IsDigit (asciiChar b))
      (hfirst : ∀ d ∈ text.take position, IsDigit (asciiChar d)) :
    Rejects text (.invalidDigit b position)

/-- There is one reason only. -/
theorem Rejects.unique {text : List UInt8} {e e' : Error} (h : Rejects text e)
    (h' : Rejects text e') : e = e' := by
  cases h with
  | oddLength hodd =>
    cases h' with
    | oddLength => rfl
    | invalidDigit heven => omega
  | @invalidDigit b position heven hb hbad hfirst =>
    cases h' with
    | oddLength hodd => omega
    | @invalidDigit b' position' _ hb' hbad' hfirst' =>
      -- what stands before the first one is a digit, so neither of the two places is before the other
      have hmem {b : UInt8} {p q : Nat} (hb : text[p]? = some b) (hpq : p < q) : b ∈ text.take q := by
        rw [List.mem_iff_getElem?]
        exact ⟨p, by rw [List.getElem?_take_of_lt hpq, hb]⟩
      rcases Nat.lt_trichotomy position position' with hlt | rfl | hlt
      · exact absurd (hfirst' b (hmem hb hlt)) hbad
      · rw [Option.some.inj (hb.symm.trans hb')]
      · exact absurd (hfirst b' (hmem hb' hlt)) hbad'

/-- Pairs are refused at the first byte that is no digit. -/
theorem rejects_of_decodePairs {start : Nat} {text : List UInt8} {e : Error}
    (heven : text.length % 2 = 0) (h : decodePairs start text = .error e) :
    ∃ b position, e = .invalidDigit b (start + position)
      ∧ Rejects text (.invalidDigit b position) := by
  fun_induction decodePairs start text with
  | case1 => cases h
  | case2 => cases heven
  | case3 start hi lo rest hv lv hlo hhi ih =>
    have heven' : rest.length % 2 = 0 := by
      rw [List.length_cons, List.length_cons] at heven
      omega
    rcases hrest : decodePairs (start + 2) rest with e' | tail
    · rw [hrest] at h
      cases h
      obtain ⟨b, position, rfl, hrejects⟩ := ih heven' hrest
      cases hrejects with
      | invalidDigit _ hb hbad hfirst =>
        refine ⟨b, position + 2, by rw [Nat.add_assoc, Nat.add_comm 2], .invalidDigit heven hb hbad ?_⟩
        rw [List.take_succ_cons, List.take_succ_cons]
        simp only [List.forall_mem_cons]
        exact ⟨⟨_, value?_byte_eq_some_iff.mp hhi⟩, ⟨_, value?_byte_eq_some_iff.mp hlo⟩, hfirst⟩
    · rw [hrest] at h
      cases h
  | case4 start hi lo rest hhi =>
    cases h
    refine ⟨hi, 0, rfl, .invalidDigit heven rfl (value?_byte_eq_none_iff.mp hhi) ?_⟩
    exact List.forall_mem_nil _
  | case5 start hi lo rest hv hlo hhi =>
    cases h
    refine ⟨lo, 1, rfl, .invalidDigit heven rfl (value?_byte_eq_none_iff.mp hlo) ?_⟩
    exact List.forall_mem_singleton.mpr ⟨_, value?_byte_eq_some_iff.mp hhi⟩

theorem decodeBytes_eq_ok_iff {text bytes : List UInt8} :
    decodeBytes text = .ok bytes ↔ Spells (text.map asciiChar) bytes := by
  rw [← @decodePairs_eq_ok_iff 0]
  unfold decodeBytes
  split_ifs with hodd
  · refine iff_of_false (fun h => nomatch h) ?_
    intro hok
    obtain ⟨-, hlength⟩ := exists_spells_iff.mp ⟨bytes, decodePairs_eq_ok_iff.mp hok, rfl⟩
    rw [List.length_map] at hlength
    omega
  · rfl

/-- What spells is not refused. -/
theorem Spells.not_rejects {text bytes : List UInt8} (h : Spells (text.map asciiChar) bytes)
    (e : Error) : ¬ Rejects text e := by
  obtain ⟨hdigits, hlength⟩ := exists_spells_iff.mp ⟨bytes, h, rfl⟩
  rw [List.length_map] at hlength
  intro hrejects
  cases hrejects with
  | oddLength hodd => omega
  | invalidDigit _ hb hbad _ =>
    exact hbad (hdigits _ (List.mem_map_of_mem (List.mem_of_getElem? hb)))

theorem decodeBytes_eq_error_iff {text : List UInt8} {e : Error} :
    decodeBytes text = .error e ↔ Rejects text e := by
  have hsound {e : Error} (h : decodeBytes text = .error e) : Rejects text e := by
    unfold decodeBytes at h
    split_ifs at h with hodd
    · cases h
      exact .oddLength hodd
    · obtain ⟨b, position, rfl, hrejects⟩ := rejects_of_decodePairs (by omega) h
      rwa [Nat.zero_add]
  refine ⟨hsound, ?_⟩
  intro hrejects
  rcases hdecode : decodeBytes text with e' | bytes
  · rw [(hsound hdecode).unique hrejects]
  · exact absurd hrejects ((decodeBytes_eq_ok_iff.mp hdecode).not_rejects e)

/-- A text is read as the byte string that it spells. -/
theorem decode_eq_ok_iff {text : String} {bytes : List UInt8} :
    decode text = .ok bytes ↔ Spells text.toList bytes := by
  show decodeBytes (Utf8.encode text) = .ok bytes ↔ _
  rw [decodeBytes_eq_ok_iff]
  constructor
  · intro h
    obtain ⟨hdigits, -⟩ := exists_spells_iff.mp ⟨bytes, h, rfl⟩
    have hascii : Utf8.IsAscii (Utf8.encode text) := by
      intro b hb
      rw [← Utf8.asciiChar_toNat]
      exact (hdigits _ (List.mem_map_of_mem hb)).lt
    rwa [Utf8.map_asciiChar_encode hascii] at h
  · intro h
    obtain ⟨hdigits, -⟩ := exists_spells_iff.mp ⟨bytes, h, rfl⟩
    have hascii : Utf8.IsAscii (Utf8.encode text) :=
      Utf8.isAscii_encode fun c hc => (hdigits c hc).lt
    rwa [Utf8.map_asciiChar_encode hascii]

/-- **Why a text is refused**: its bytes do not pair up; or else for the first of them that is no
digit. -/
theorem decode_eq_error_iff {text : String} {e : Error} :
    decode text = .error e ↔ Rejects (Utf8.encode text) e :=
  decodeBytes_eq_error_iff

end Registrar.Text.Hex
