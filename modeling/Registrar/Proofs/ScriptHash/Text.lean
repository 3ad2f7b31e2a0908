import Mathlib
import Registrar.Chain.Exchange
import Registrar.Proofs.ScriptHash
import Registrar.Proofs.Text.Hex.Grammar
import Registrar.Proofs.Text.Json.Reading

/-!
# Hash text is read exactly as it is written

A hash is written as `0x` and forty digits. A text is read as this hash just if it is what is written,
in either case and with or without the `0x`. What is refused is told by what is left without the `0x`:
digits that pair up are of the wrong number, and anything else is not hexadecimal. A string of JSON is
read as its text is.
-/

namespace Registrar.ScriptHash

open Text (Json)
open Text.Hex (IsDigit Rejects Spells)

/-! ## Accepted texts -/

/-- What is left of a text without one leading `0x`. -/
def unmarked (text : String) : List Char :=
  stripMark text.toList

/-- The same in lower case. -/
def lowered (text : String) : List Char :=
  (unmarked text).map Char.toLower

/-- What is left is read as the bytes that it spells. -/
theorem decode_unmarked_eq_ok_iff {text : String} {bytes : List UInt8} :
    Text.Hex.decode (String.ofList (unmarked text)) = .ok bytes ↔ Spells (unmarked text) bytes := by
  rw [Text.Hex.decode_eq_ok_iff, String.toList_ofList]

theorem parse_eq (text : String) :
    parse text = match Text.Hex.decode (String.ofList (unmarked text)) with
      | .error cause => .error (.invalidHex cause)
      | .ok bytes => ofBytes bytes.reverse := rfl

/-- A text is read as the hash whose bytes it spells, the last one first. -/
theorem parse_eq_ok_iff {text : String} {hash : ScriptHash} :
    parse text = .ok hash ↔ Spells (unmarked text) hash.bytes.reverse := by
  rw [parse_eq, ← decode_unmarked_eq_ok_iff]
  constructor
  · intro h
    split at h
    · cases h
    · next bytes hbytes =>
      rw [← ofBytes_eq_ok_iff.mp h, List.reverse_reverse]
      exact hbytes
  · intro h
    rw [h]
    show ofBytes hash.bytes.reverse.reverse = .ok hash
    rw [List.reverse_reverse]
    exact ofBytes_eq_ok_iff.mpr rfl

/-- A text is read as the hash that is written so, but for the case and the `0x`. -/
theorem parse_eq_ok_iff_lowered {text : String} {hash : ScriptHash} :
    parse text = .ok hash ↔ lowered text = Text.Hex.digits hash.bytes.reverse := by
  rw [parse_eq_ok_iff, Text.Hex.spells_iff]
  rfl

/-- What is written for a hash is read as this hash. -/
theorem parse_text (hash : ScriptHash) : parse hash.text = .ok hash := by
  have hunmarked : unmarked hash.text = Text.Hex.digits hash.bytes.reverse := by
    unfold unmarked text Text.Hex.encode
    simp only [String.toList_append, String.toList_ofList]
    rfl
  rw [parse_eq_ok_iff, hunmarked]
  exact Text.Hex.spells_digits _

/-- What is written for a hash is `0x` and digits in lower case. -/
theorem text_eq_iff {hash : ScriptHash} {chars : List Char} :
    hash.text = "0x" ++ String.ofList chars ↔ chars = Text.Hex.digits hash.bytes.reverse := by
  unfold text Text.Hex.encode
  rw [String.append_right_inj, String.ofList_inj, eq_comm]

/-! ## Refused texts -/

/-- Whether a text is refused, and why, when this is left of it without its `0x`: there are digits for
another number of bytes than a hash has; or what is left is not hexadecimal. -/
inductive Refuses (rest : List Char) : AddressError → Prop
  | invalidLength {n : Nat} (hdigits : ∀ c ∈ rest, IsDigit c) (hlength : rest.length = 2 * n)
      (hn : n ≠ 20) : Refuses rest (.invalidLength n)
  | invalidHex {cause : Text.Hex.Error}
      (hcause : Rejects (Text.Utf8.encode (String.ofList rest)) cause) :
    Refuses rest (.invalidHex cause)

theorem parse_eq_error_iff {text : String} {e : AddressError} :
    parse text = .error e ↔ Refuses (unmarked text) e := by
  rw [parse_eq]
  constructor
  · intro h
    split at h
    · next cause hcause =>
      cases h
      exact .invalidHex (Text.Hex.decode_eq_error_iff.mp hcause)
    · next bytes hbytes =>
      unfold ofBytes at h
      split_ifs at h with hsize
      cases h
      rw [List.length_reverse] at hsize ⊢
      obtain ⟨hdigits, hlength⟩ :=
        Text.Hex.exists_spells_iff.mp ⟨bytes, decode_unmarked_eq_ok_iff.mp hbytes, rfl⟩
      exact .invalidLength hdigits hlength hsize
  · intro h
    cases h with
    | invalidLength hdigits hlength hn =>
      obtain ⟨bytes, hspells, rfl⟩ := Text.Hex.exists_spells_iff.mpr ⟨hdigits, hlength⟩
      rw [decode_unmarked_eq_ok_iff.mpr hspells]
      show ofBytes bytes.reverse = _
      unfold ofBytes
      rw [dif_neg (by rwa [List.length_reverse]), List.length_reverse]
    | invalidHex hcause => rw [Text.Hex.decode_eq_error_iff.mpr hcause]

/-! ## Strings of JSON -/

/-- A JSON text is read as a hash just if it is a string that is read as this hash. -/
theorem parse_reader_eq_ok_iff {json : String} {hash : ScriptHash} :
    reader.parse json = .ok hash
      ↔ ∃ text, Text.Json.Reader.string.parse json = .ok text ∧ parse text = .ok hash := by
  have hoption (text : String) :
      (parse text).toOption = some hash ↔ parse text = .ok hash := by
    cases parse text <;> simp [Except.toOption]
  unfold reader
  simp only [Text.Json.parse_stringAs_eq_ok_iff, hoption]

/-- **Hash text is read exactly as it is written.** A text is read as a hash just if what is left of it
without one leading `0x` is forty digits, of either case, that spell the bytes of the hash, the last one
first. So what is written for a hash is read as this hash; what is written for the hash that a text is
read as is `0x` and the digits of the text in lower case; and two texts are read as one hash just if
one is read and they agree but for the case and the `0x`. Any other text is refused: for the number of
its digits, if they pair up and are digits; else for its odd number of bytes, or the first byte that is
no digit. JSON is read as a hash just if it is a string whose text is. -/
theorem parse_exact :
    (∀ text hash, parse text = .ok hash
      ↔ (unmarked text).length = 40 ∧ Spells (unmarked text) hash.bytes.reverse) ∧
    (∀ hash : ScriptHash, parse hash.text = .ok hash) ∧
    (∀ text hash, parse text = .ok hash ↔ hash.text = "0x" ++ String.ofList (lowered text)) ∧
    (∀ a b, (∃ hash, parse a = .ok hash ∧ parse b = .ok hash)
      ↔ (∃ hash, parse a = .ok hash) ∧ lowered a = lowered b) ∧
    (∀ text e, parse text = .error e ↔ Refuses (unmarked text) e) ∧
    (∀ json hash, reader.parse json = .ok hash
      ↔ ∃ text, Text.Json.Reader.string.parse json = .ok text ∧ parse text = .ok hash) ∧
    (∀ text hash, reader.parse (Json.text text).compact = .ok hash ↔ parse text = .ok hash) := by
  refine ⟨?_, parse_text, ?_, ?_, ?_, ?_, ?_⟩
  · intro text hash
    rw [parse_eq_ok_iff]
    refine (and_iff_right_of_imp ?_).symm
    intro hspells
    have hlength := (Text.Hex.exists_spells_iff.mp ⟨_, hspells, rfl⟩).2
    rwa [List.length_reverse, hash.length_bytes] at hlength
  · intro text hash
    rw [text_eq_iff, parse_eq_ok_iff_lowered]
  · intro a b
    simp only [parse_eq_ok_iff_lowered]
    constructor
    · rintro ⟨hash, ha, hb⟩
      exact ⟨⟨hash, ha⟩, ha.trans hb.symm⟩
    · rintro ⟨⟨hash, ha⟩, hsame⟩
      exact ⟨hash, ha, hsame ▸ ha⟩
  · intro text e
    exact parse_eq_error_iff
  · intro json hash
    exact parse_reader_eq_ok_iff
  · intro text hash
    rw [parse_reader_eq_ok_iff, (Text.Json.Reads.string text).parse]
    simp only [Except.ok.injEq, exists_eq_left']

end Registrar.ScriptHash
