import Mathlib
import Registrar.Proofs.ScriptHash
import Registrar.Proofs.Text.Base58
import Registrar.ScriptHash.Address

/-!
# Each script hash has one display address

An address has nothing but parts that the hash determines: the version, the hash itself and the first
bytes of a digest of both. Reading checks each of them, so the bytes that are accepted for a hash are
those that are written for it; and Base58 has one text for each byte string. All addresses look alike:
the version is in front of the number that is written, and settles how it begins and how long it is.
-/

namespace Registrar.ScriptHash

variable {check : List UInt8 → List UInt8}

/-- What a digest of 32 bytes is cut to. -/
theorem length_checksum (hcheck : ∀ payload, (check payload).length = 32) (payload : List UInt8) :
    (checksum check payload).length = 4 := by
  unfold checksum
  rw [List.length_take, hcheck]
  rfl

/-- The bytes of an address are its version and hash, and then their checksum. -/
theorem addressBytes_split (check : List UInt8 → List UInt8) (hash : ScriptHash) :
    (addressBytes check hash).take 21 = addressVersion :: hash.bytes ∧
      (addressBytes check hash).drop 21 = checksum check (addressVersion :: hash.bytes) := by
  have hlength : (addressVersion :: hash.bytes).length = 21 := by
    rw [List.length_cons, hash.length_bytes]
  exact ⟨List.take_left' hlength, List.drop_left' hlength⟩

/-- The bytes that are written for a hash are read as this hash. -/
theorem ofAddressBytes_addressBytes (hcheck : ∀ payload, (check payload).length = 32)
    (hash : ScriptHash) : ofAddressBytes check (addressBytes check hash) = .ok hash := by
  have hlength : (addressBytes check hash).length = 25 := by
    unfold addressBytes
    rw [List.length_append, List.length_cons, hash.length_bytes, length_checksum hcheck]
  obtain ⟨htake, hdrop⟩ := addressBytes_split check hash
  have hrest : (hash.bytes ++ checksum check (addressVersion :: hash.bytes)).take 20 = hash.bytes :=
    List.take_left' hash.length_bytes
  unfold ofAddressBytes
  rw [if_neg (not_not_intro hlength), htake, hdrop]
  unfold addressBytes
  simp only [List.cons_append, hrest, ne_eq, not_true_eq_false, if_false]
  exact ofBytes_eq_ok_iff.mpr rfl

/-- Bytes that are read as a hash are those that are written for it: the length, the version and the
checksum leave no other. -/
theorem eq_addressBytes_of_ofAddressBytes {bytes : List UInt8} {hash : ScriptHash}
    (h : ofAddressBytes check bytes = .ok hash) : bytes = addressBytes check hash := by
  unfold ofAddressBytes at h
  obtain _ | ⟨version, rest⟩ := bytes
  · cases h
  · simp only at h
    split_ifs at h with hlength hversion hchecksum
    have hhash : rest.take 20 = hash.bytes := ofBytes_eq_ok_iff.mp h
    have hpayload : (version :: rest).take 21 = addressVersion :: hash.bytes := by
      rw [List.take_succ_cons, hhash, not_not.mp hversion]
    calc version :: rest
        = (version :: rest).take 21 ++ (version :: rest).drop 21 := (List.take_append_drop 21 _).symm
      _ = addressBytes check hash := by
          rw [← not_not.mp hchecksum, hpayload]
          rfl

/-- **Each script hash has one display address.** Whatever digest of 32 bytes the checksums come from,
a text is read as a hash just if it is the address of this hash: what is written is read again, and no
other text is accepted, be it in another case, with more or fewer ones in front, of another version,
length or checksum. -/
theorem ofAddressWith_eq_ok_iff (hcheck : ∀ payload, (check payload).length = 32)
    (hash : ScriptHash) (text : String) :
    ofAddressWith check text = .ok hash ↔ text = addressWith check hash := by
  unfold ofAddressWith addressWith
  constructor
  · intro h
    rcases hdecode : Text.Base58.decode text with e | bytes
    · rw [hdecode] at h
      cases h
    · rw [hdecode] at h
      rw [← eq_addressBytes_of_ofAddressBytes h]
      exact Text.Base58.decode_eq_ok_iff.mp hdecode
  · intro h
    rw [Text.Base58.decode_eq_ok_iff.mpr h]
    exact ofAddressBytes_addressBytes hcheck hash

/-- The hash of zeros has an address of its own, and so no other hash has it. -/
theorem ofAddressWith_eq_ok_iff_zero :
    (∀ payload, (Digest.doubleSha256 payload).length = 32) ∧
    ofAddress "AFmseVrdL9f9oyCzZefL9tG6UbvhPbdYzM" = .ok zero ∧
    ofAddress "1AFmseVrdL9f9oyCzZefL9tG6UbvhPbdYzM" ≠ .ok zero := by
  have haddress : addressWith Digest.doubleSha256 zero = "AFmseVrdL9f9oyCzZefL9tG6UbvhPbdYzM" := by
    decide +kernel
  refine ⟨Digest.length_doubleSha256, ?_, ?_⟩
  · exact (ofAddressWith_eq_ok_iff Digest.length_doubleSha256 zero _).mpr haddress.symm
  · intro h
    have htext := (ofAddressWith_eq_ok_iff Digest.length_doubleSha256 zero _).mp h
    rw [haddress] at htext
    revert htext
    decide

/-! ## What an address looks like -/

/-- Whether a text has the form of an address: 34 characters of the alphabet, the first of them an
`A`. -/
structure IsAddressForm (text : String) : Prop where
  length : text.length = 34
  alphabet : ∀ c ∈ text.toList, c ∈ Text.Base58.alphabet
  first : text.toList.head? = some 'A'

/-- All numbers of 25 bytes that begin with the version have 34 digits, the first of which is the one
of value nine. -/
theorem isAddressForm_encode {bytes : List UInt8} (h : bytes.length = 24) :
    IsAddressForm (Text.Base58.encode (addressVersion :: bytes)) := by
  have hlow : 9 * 58 ^ 33 ≤ addressVersion.toNat * 256 ^ bytes.length := by
    rw [h]
    decide
  have hhigh : (addressVersion.toNat + 1) * 256 ^ bytes.length ≤ (9 + 1) * 58 ^ 33 := by
    rw [h]
    decide
  obtain ⟨rest, htext, hlength⟩ :=
    Text.Base58.exists_encode_of_bounds (by decide) hlow hhigh (by decide) (by decide)
  refine ⟨?_, ?_, ?_⟩
  · rw [← String.length_toList, htext, List.length_cons, hlength]
  · intro c hc
    exact Text.Base58.mem_alphabet_of_mem_encode hc
  · rw [htext]
    rfl

/-- **Every display address looks like one.** Whatever the hash is, and whatever four bytes its checksum
turns out to be, the address has 34 characters, all of them of the alphabet, and begins with `A`. -/
theorem address_form (hash : ScriptHash) :
    IsAddressForm hash.address ∧
    ∀ check : List UInt8 → List UInt8, (∀ payload, 4 ≤ (check payload).length) →
      IsAddressForm (addressWith check hash) := by
  have hform (check : List UInt8 → List UInt8) (hcheck : ∀ payload, 4 ≤ (check payload).length) :
      IsAddressForm (addressWith check hash) := by
    show IsAddressForm (Text.Base58.encode (addressVersion
      :: (hash.bytes ++ checksum check (addressVersion :: hash.bytes))))
    apply isAddressForm_encode
    rw [List.length_append, hash.length_bytes, checksum, List.length_take_of_le (hcheck _)]
  refine ⟨?_, hform⟩
  apply hform Digest.doubleSha256
  intro payload
  rw [Digest.length_doubleSha256]
  decide

/-- The least and the greatest number that an address is written for. -/
theorem address_form_ends :
    (∀ payload, 4 ≤ (Function.const (List UInt8) (List.replicate 4 (0x00 : UInt8)) payload).length) ∧
    (∀ payload, 4 ≤ (Function.const (List UInt8) (List.replicate 4 (0xFF : UInt8)) payload).length) ∧
    IsAddressForm (addressWith (Function.const _ (List.replicate 4 0x00)) zero) ∧
    IsAddressForm
      (addressWith (Function.const _ (List.replicate 4 0xFF)) ⟨List.replicate 20 0xFF, rfl⟩) := by
  have hlength (b : UInt8) :
      ∀ payload, 4 ≤ (Function.const (List UInt8) (List.replicate 4 b) payload).length := by
    intro payload
    exact Nat.le_refl 4
  exact ⟨hlength _, hlength _, (address_form zero).2 _ (hlength _),
    (address_form ⟨List.replicate 20 0xFF, rfl⟩).2 _ (hlength _)⟩

end Registrar.ScriptHash
