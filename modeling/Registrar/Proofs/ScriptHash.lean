import Mathlib
import Registrar.ScriptHash.Basic

/-!
# Script hashes and their bytes

A script hash is its bytes: it is made from them, and hashes are compared by them. So the order is one
in which only equal hashes compare as equal, as a map that has hashes for its keys needs it.
-/

namespace Registrar.ScriptHash

theorem ext_bytes {a b : ScriptHash} (h : a.bytes = b.bytes) : a = b := by
  cases a
  cases b
  cases h
  rfl

/-- Bytes make a hash just if they are the bytes of it. -/
theorem ofBytes_eq_ok_iff {bytes : List UInt8} {hash : ScriptHash} :
    ofBytes bytes = .ok hash ↔ bytes = hash.bytes := by
  unfold ofBytes
  constructor
  · intro h
    split_ifs at h
    cases h
    rfl
  · rintro rfl
    rw [dif_pos hash.length_bytes]

theorem compare_eq (a b : ScriptHash) : compare a b = compare a.bytes b.bytes := rfl

instance : Std.TransOrd ScriptHash where
  eq_swap {a b} := by
    rw [compare_eq, compare_eq]
    exact Std.OrientedCmp.eq_swap
  isLE_trans {a b c} hab hbc := by
    rw [compare_eq] at hab hbc ⊢
    exact Std.TransCmp.isLE_trans hab hbc

instance : Std.LawfulEqOrd ScriptHash where
  compare_self {a} := by
    rw [compare_eq]
    exact Std.ReflCmp.compare_self
  eq_of_compare {a b} h := by
    rw [compare_eq] at h
    exact ext_bytes (Std.LawfulEqCmp.eq_of_compare h)

end Registrar.ScriptHash
