import Mathlib
import Registrar.Chain.Block
import Registrar.Proofs.Text.Hex

/-!
# What the hash of a block commits to

The hash of a block is taken of four parts, written one after the other with nothing between them:
the height, the hash before, the seconds and the hashes of the transactions. So the bytes alone do
not tell where a part ends, and blocks that differ can be written alike. Where the parts are equally
long they are equal, and then blocks that differ share a hash only through a collision of SHA-256.

A collision is always the pair of messages itself. That some pair exists is no news for a digest of
32 bytes.
-/

namespace Registrar.Chain

open Digest (sha256 doubleSha256)

/-- What the hash of a block is taken of. -/
structure Parts where
  index : UInt64
  previousHash : String
  seconds : Int
  /-- The hashes of the transactions, in order. -/
  hashes : List String
  deriving DecidableEq, Repr

/-- The parts of a block. -/
def Block.parts (b : Block) : Parts :=
  ⟨b.index, b.previousHash, b.timestamp.seconds, b.transactions.map Transaction.hash⟩

namespace Parts

/-- The parts one after the other. -/
def text (c : Parts) : String :=
  Block.preimage c.index c.previousHash c.seconds c.hashes

/-- The bytes that the digest is taken of. -/
def bytes (c : Parts) : List UInt8 :=
  Text.Utf8.encode c.text

/-- The two are written with parts of the same lengths. -/
structure Aligned (c d : Parts) : Prop where
  index : (toString c.index.toNat).length = (toString d.index.toNat).length
  previousHash : c.previousHash.length = d.previousHash.length
  seconds : (toString c.seconds).length = (toString d.seconds).length
  hashes : c.hashes.map String.length = d.hashes.map String.length

/-- The two have previous hashes of one length and seconds of one length, and all their transactions
have hashes of one length: 20 characters at least, which is what the greatest height takes. -/
structure Uniform (c d : Parts) : Prop where
  previousHash : c.previousHash.length = d.previousHash.length
  seconds : (toString c.seconds).length = (toString d.seconds).length
  hashes : ∃ n ≥ 20, ∀ h ∈ c.hashes ++ d.hashes, h.length = n

/-- The two are written so that the bytes tell where each part ends. -/
def Separable (c d : Parts) : Prop :=
  Aligned c d ∨ Uniform c d

/-- All the hashes are double digests by their length, and the seconds have ten digits, as they have
from September 2001 to November 2286. -/
structure Ordinary (c : Parts) : Prop where
  previousHash : c.previousHash.length = 64
  seconds : 10 ^ 9 ≤ c.seconds ∧ c.seconds < 10 ^ 10
  hashes : ∀ h ∈ c.hashes, h.length = 64

end Parts

/-- Two messages that differ and have the same SHA-256. -/
def Collide (m m' : List UInt8) : Prop :=
  m ≠ m' ∧ sha256 m = sha256 m'

/-- The two messages collide in the first round of the double digest, or what they give in it
collides in the second. -/
def CollideInRound (m m' : List UInt8) : Prop :=
  Collide m m' ∨ Collide (sha256 m) (sha256 m')

namespace Parts

variable {c d : Parts}

/-! ## Where the parts end -/

theorem Aligned.refl (c : Parts) : Aligned c c :=
  ⟨rfl, rfl, rfl, rfl⟩

theorem toList_text (c : Parts) :
    c.text.toList = (toString c.index.toNat).toList ++ c.previousHash.toList
      ++ (toString c.seconds).toList ++ (c.hashes.map String.toList).flatten := by
  simp only [text, Block.preimage, String.toList_append, String.toList_join, List.flatMap_def]

theorem bytes_inj : c.bytes = d.bytes ↔ c.text = d.text :=
  Text.Utf8.encode_inj

/-- **Parts of the same lengths that are written alike are the same.** -/
theorem Aligned.eq_of_text (h : Aligned c d) (htext : c.text = d.text) : c = d := by
  have hchars : c.text.toList = d.text.toList := by rw [htext]
  simp only [toList_text, List.append_assoc] at hchars
  obtain ⟨hindex, hchars⟩ := List.append_inj hchars (by
    rw [String.length_toList, String.length_toList, h.index])
  obtain ⟨hprevious, hchars⟩ := List.append_inj hchars (by
    rw [String.length_toList, String.length_toList, h.previousHash])
  obtain ⟨hseconds, hjoined⟩ := List.append_inj hchars (by
    rw [String.length_toList, String.length_toList, h.seconds])
  have hhashes : c.hashes.map String.toList = d.hashes.map String.toList := by
    refine List.eq_iff_flatten_eq.mpr ⟨hjoined, ?_⟩
    simpa only [List.map_map, Function.comp_def, String.length_toList] using h.hashes
  obtain ⟨i, p, s, hs⟩ := c
  obtain ⟨i', p', s', hs'⟩ := d
  simp only [String.toList_inj, Nat.toString_eq_repr, Int.toString_eq_repr, Nat.repr_inj,
    Int.repr_inj, UInt64.toNat_inj] at hindex hprevious hseconds
  have hhashes : hs = hs' :=
    List.map_injective_iff.mpr (fun _ _ => String.toList_inj.mp) hhashes
  rw [hindex, hprevious, hseconds, hhashes]

/-! ## Hashes of one length -/

/-- A height is written with one to twenty digits. -/
theorem length_index (c : Parts) :
    1 ≤ (toString c.index.toNat).length ∧ (toString c.index.toNat).length ≤ 20 := by
  have hlt : c.index.toNat < 10 ^ 20 := c.index.toNat_lt.trans (by norm_num)
  rw [Nat.toString_eq_repr, Nat.repr_eq_ofList_toDigits, String.length_ofList]
  exact ⟨Nat.length_toDigits_pos,
    (Nat.length_toDigits_le_iff (by norm_num) (by norm_num)).mpr hlt⟩

/-- Hashes of one length take that length each. -/
theorem length_joined {hashes : List String} {n : Nat} (h : ∀ x ∈ hashes, x.length = n) :
    (String.join hashes).length = hashes.length * n := by
  have hlengths : ∀ l ∈ hashes.map String.length, l = n := by
    simpa using h
  rw [String.length_join, List.sum_eq_card_nsmul _ n hlengths, List.length_map, smul_eq_mul]

/-- A remainder below `n` and a multiple of `n` are told apart in their sum, also where the
remainders start at one. -/
theorem eq_of_add_mul {a b k l n : Nat} (ha : 1 ≤ a ∧ a ≤ n) (hb : 1 ≤ b ∧ b ≤ n)
    (h : a + k * n = b + l * n) : a = b ∧ k = l := by
  rcases lt_trichotomy k l with hlt | heq | hlt
  · have hstep : (k + 1) * n ≤ l * n := Nat.mul_le_mul_right n hlt
    rw [Nat.add_mul, Nat.one_mul] at hstep
    omega
  · subst heq
    exact ⟨Nat.add_right_cancel h, rfl⟩
  · have hstep : (l + 1) * n ≤ k * n := Nat.mul_le_mul_right n hlt
    rw [Nat.add_mul, Nat.one_mul] at hstep
    omega

/-- The length of all the characters settles how many hashes there are, and with it where the height
ends. -/
theorem Uniform.aligned (h : Uniform c d) (htext : c.text = d.text) : Aligned c d := by
  obtain ⟨n, hn, hall⟩ := h.hashes
  have hc : ∀ x ∈ c.hashes, x.length = n := fun x hx => hall x (List.mem_append_left _ hx)
  have hd : ∀ x ∈ d.hashes, x.length = n := fun x hx => hall x (List.mem_append_right _ hx)
  have hlength : c.text.length = d.text.length := by rw [htext]
  simp only [text, Block.preimage, String.length_append, length_joined hc, length_joined hd,
    h.previousHash, h.seconds] at hlength
  have hcindex := length_index c
  have hdindex := length_index d
  obtain ⟨hindex, hnumber⟩ : (toString c.index.toNat).length = (toString d.index.toNat).length
      ∧ c.hashes.length = d.hashes.length :=
    eq_of_add_mul (n := n) (by omega) (by omega) (by omega)
  refine ⟨hindex, h.previousHash, h.seconds, ?_⟩
  rw [List.map_eq_replicate_iff.mpr hc, List.map_eq_replicate_iff.mpr hd, hnumber]

theorem length_seconds {seconds : Int} (h : 10 ^ 9 ≤ seconds ∧ seconds < 10 ^ 10) :
    (toString seconds).length = 10 := by
  obtain ⟨n, rfl⟩ := Int.eq_ofNat_of_zero_le (by omega : 0 ≤ seconds)
  have hlow : ¬ (Nat.toDigits 10 n).length ≤ 9 := by
    rw [Nat.length_toDigits_le_iff (by norm_num) (by norm_num)]
    omega
  have hhigh : (Nat.toDigits 10 n).length ≤ 10 :=
    (Nat.length_toDigits_le_iff (by norm_num) (by norm_num)).mpr (by omega)
  show (toString n).length = 10
  rw [Nat.toString_eq_repr, Nat.repr_eq_ofList_toDigits, String.length_ofList]
  omega

/-- **Any two ordinary blocks are uniform.** -/
theorem Ordinary.uniform (hc : Ordinary c) (hd : Ordinary d) : Uniform c d := by
  refine ⟨hc.previousHash.trans hd.previousHash.symm, ?_, 64, by norm_num, fun h hmem => ?_⟩
  · rw [length_seconds hc.seconds, length_seconds hd.seconds]
  · rcases List.mem_append.mp hmem with hmem | hmem
    · exact hc.hashes h hmem
    · exact hd.hashes h hmem

theorem Separable.eq_of_bytes (h : Separable c d) (hbytes : c.bytes = d.bytes) : c = d := by
  have htext : c.text = d.text := bytes_inj.mp hbytes
  rcases h with haligned | huniform
  · exact haligned.eq_of_text htext
  · exact (huniform.aligned htext).eq_of_text htext

/-! ## Where the parts cannot be told apart -/

/-- A digit in front of the previous hash can as well be the last one of the height. -/
theorem text_shift {i j : UInt64} {k : Nat} (hi : 0 < i.toNat) (hk : k < 10)
    (hj : j.toNat = 10 * i.toNat + k) (rest : String) (seconds : Int) (hashes : List String) :
    (Parts.mk i (toString k ++ rest) seconds hashes).text =
      (Parts.mk j rest seconds hashes).text := by
  have hindex : toString i.toNat ++ toString k = toString j.toNat := by
    simp only [hj, Nat.toString_eq_repr, Nat.repr_eq_ofList_toDigits, ← String.ofList_append,
      Nat.toDigits_append_toDigits (by norm_num : 1 < 10) hi hk]
  simp only [text, Block.preimage, ← String.append_assoc, hindex]

-- No other end of a part can be told either: that of the previous hash, of the seconds, of a hash.
example : (Parts.mk 1 "2" 34 []).text = (Parts.mk 1 "23" 4 []).text := by decide

example : (Parts.mk 1 "2" 3 ["4"]).text = (Parts.mk 1 "2" 34 [""]).text := by decide

example : (Parts.mk 1 "2" 3 ["ab"]).text = (Parts.mk 1 "2" 3 ["a", "b"]).text := by decide

end Parts

/-! ## Hashes -/

theorem Block.hash_make (index : UInt64) (previousHash : String) (now : Time.Timestamp)
    (transactions : List Transaction) :
    (make index previousHash now transactions).hash =
      Text.Hex.encode (doubleSha256 (make index previousHash now transactions).parts.bytes) :=
  rfl

/-- The hash of a block that is made has 64 characters. -/
@[simp] theorem Block.length_hash_make (index : UInt64) (previousHash : String)
    (now : Time.Timestamp) (transactions : List Transaction) :
    (make index previousHash now transactions).hash.length = 64 := by
  rw [hash_make, Text.Hex.length_encode, Digest.length_doubleSha256]

/-- So does the hash of a transaction. -/
@[simp] theorem Transaction.length_hash_ofScript (kind : Kind) (script : List UInt8) :
    (ofScript kind script).hash.length = 64 := by
  rw [ofScript, hashOf, Text.Hex.length_encode, List.length_reverse, Digest.length_doubleSha256]

/-- Double digests that are written alike are of one message, or a collision is at hand. -/
theorem eq_or_collideInRound {m m' : List UInt8}
    (h : Text.Hex.encode (doubleSha256 m) = Text.Hex.encode (doubleSha256 m')) :
    m = m' ∨ CollideInRound m m' := by
  have hdigest : sha256 (sha256 m) = sha256 (sha256 m') := Text.Hex.encode_inj.mp h
  by_cases houter : sha256 m = sha256 m'
  · by_cases hinner : m = m'
    · exact .inl hinner
    · exact .inr (.inl ⟨hinner, houter⟩)
  · exact .inr (.inr ⟨houter, hdigest⟩)

/-- **The hash of a block commits to its parts where they can be told apart.** Two blocks that are
made are the same in all four parts just if they are written alike and separable; separable blocks
that differ in a part share a hash only through a collision of SHA-256. -/
theorem hash_commits_where_separable (i₁ i₂ : UInt64) (p₁ p₂ : String) (t₁ t₂ : Time.Timestamp)
    (txs₁ txs₂ : List Transaction) :
    let b₁ := Block.make i₁ p₁ t₁ txs₁
    let b₂ := Block.make i₂ p₂ t₂ txs₂
    (b₁.parts.bytes = b₂.parts.bytes ∧ b₁.parts.Separable b₂.parts ↔
      i₁ = i₂ ∧ p₁ = p₂ ∧ t₁.seconds = t₂.seconds ∧
        txs₁.map Transaction.hash = txs₂.map Transaction.hash) ∧
    (b₁.parts.Separable b₂.parts → b₁.hash = b₂.hash →
      (i₁ = i₂ ∧ p₁ = p₂ ∧ t₁.seconds = t₂.seconds ∧
        txs₁.map Transaction.hash = txs₂.map Transaction.hash) ∨
      CollideInRound b₁.parts.bytes b₂.parts.bytes) := by
  intro b₁ b₂
  have hparts : b₁.parts = b₂.parts ↔ i₁ = i₂ ∧ p₁ = p₂ ∧ t₁.seconds = t₂.seconds ∧
      txs₁.map Transaction.hash = txs₂.map Transaction.hash := by
    simp only [b₁, b₂, Block.parts, Block.make, Parts.mk.injEq]
  rw [← hparts]
  refine ⟨⟨fun ⟨hbytes, hseparable⟩ => hseparable.eq_of_bytes hbytes, fun heq => ?_⟩,
    fun hseparable hhash => ?_⟩
  · rw [heq]
    exact ⟨rfl, .inl (Parts.Aligned.refl _)⟩
  · rw [Block.hash_make, Block.hash_make] at hhash
    exact (eq_or_collideInRound hhash).imp_left hseparable.eq_of_bytes

/-- Two blocks on one that was made, a transaction in the first of them. -/
theorem hash_commits_where_separable_siblings :
    let before := (Block.make 8 "" ⟨1700000000, 0⟩ []).hash
    let b₁ := Block.make 9 before ⟨1700000015, 0⟩ [Transaction.ofScript .invocation [0x51]]
    let b₂ := Block.make 10 before ⟨1700000030, 0⟩ []
    b₁.parts.Separable b₂.parts ∧ b₁.parts.bytes ≠ b₂.parts.bytes ∧
      (b₁.hash = b₂.hash → CollideInRound b₁.parts.bytes b₂.parts.bytes) := by
  intro before b₁ b₂
  have hfirst : b₁.parts.Ordinary :=
    ⟨Block.length_hash_make _ _ _ _, by decide,
      List.forall_mem_singleton.mpr (Transaction.length_hash_ofScript _ _)⟩
  have hsecond : b₂.parts.Ordinary :=
    ⟨Block.length_hash_make _ _ _ _, by decide, List.forall_mem_nil _⟩
  have hseparable : b₁.parts.Separable b₂.parts := .inr (hfirst.uniform hsecond)
  have hindex : (9 : UInt64) ≠ 10 := by decide
  obtain ⟨hsame, hcollide⟩ := hash_commits_where_separable 9 10 before before ⟨1700000015, 0⟩
    ⟨1700000030, 0⟩ [Transaction.ofScript .invocation [0x51]] []
  refine ⟨hseparable, fun hbytes => ?_, fun hhash => ?_⟩
  · exact hindex (hsame.mp ⟨hbytes, hseparable⟩).1
  · exact (hcollide hseparable hhash).resolve_left fun h => hindex h.1

/-- Two blocks that differ in their heights and in the hashes before them are written alike, so they
share their hash with no collision. -/
theorem hash_shared_by_unequal_blocks :
    let b₁ := Block.make 1 "23" ⟨0, 0⟩ []
    let b₂ := Block.make 12 "3" ⟨0, 0⟩ []
    b₁.parts.bytes = b₂.parts.bytes ∧ b₁.hash = b₂.hash ∧
      b₁.index ≠ b₂.index ∧ b₁.previousHash ≠ b₂.previousHash := by
  intro b₁ b₂
  have htext : b₁.parts.text = b₂.parts.text :=
    Parts.text_shift (i := 1) (j := 12) (k := 2) (by decide) (by decide) (by decide) "3" 0 []
  have hbytes : b₁.parts.bytes = b₂.parts.bytes := Parts.bytes_inj.mpr htext
  refine ⟨hbytes, ?_, by decide, by decide⟩
  rw [Block.hash_make, Block.hash_make]
  exact congrArg (fun m => Text.Hex.encode (doubleSha256 m)) hbytes

end Registrar.Chain
