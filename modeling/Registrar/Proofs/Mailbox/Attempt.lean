import Mathlib
import Registrar.Mailbox.Dispatch
import Registrar.Proofs.Text.Utf8

/-!
# Attempts to register a mailbox

Whatever is asked of a registry, it changes only by attempts: an address and a raw name. A call of
the contract is an attempt if it is of the right method and has the right arguments; a question what
an attempt would come to is none. So a registry that is used in any way whatever is one that was
given a list of attempts.
-/

namespace Registrar.Mailbox

open Contract (Call)

/-! ## Names -/

/-- Names are 5 to 18 bytes of `a` to `z`, `0` to `9` and `_`. -/
def IsName (name : List UInt8) : Prop :=
  5 ≤ name.length ∧ name.length ≤ 18 ∧ ∀ b ∈ name,
    ('a'.toNat ≤ b.toNat ∧ b.toNat ≤ 'z'.toNat) ∨ ('0'.toNat ≤ b.toNat ∧ b.toNat ≤ '9'.toNat)
      ∨ b.toNat = '_'.toNat

instance : DecidablePred IsName := fun name => by
  unfold IsName
  infer_instance

theorem isValidName_iff {name : List UInt8} : isValidName name = true ↔ IsName name := by
  have hbyte (b : UInt8) : isNameByte b = true ↔
      ('a'.toNat ≤ b.toNat ∧ b.toNat ≤ 'z'.toNat) ∨ ('0'.toNat ≤ b.toNat ∧ b.toNat ≤ '9'.toNat)
        ∨ b.toNat = '_'.toNat := by
    simp [isNameByte, or_assoc]
  have hlong : name.length < maxNameLength ↔ name.length ≤ 18 := Nat.lt_succ_iff
  unfold isValidName IsName
  simp only [Bool.and_eq_true, decide_eq_true_eq, List.all_eq_true, hbyte, hlong, and_assoc]
  rfl

theorem IsName.ascii {name : List UInt8} (h : IsName name) : Text.Utf8.IsAscii name := by
  intro b hb
  have hchars : 'z'.toNat < 128 ∧ '9'.toNat < 128 ∧ '_'.toNat < 128 := by decide
  have hbyte := h.2.2 b hb
  omega

/-- The text of a name has the name's bytes. -/
theorem IsName.encode_decodeLossy {name : List UInt8} (h : IsName name) :
    Text.Utf8.encode (Text.Utf8.decodeLossy name) = name :=
  Text.Utf8.encode_decodeLossy_ascii h.ascii

/-! ## Attempts -/

/-- An address and the raw name that is to be registered for it. -/
structure Attempt where
  address : ScriptHash
  name : List UInt8
  deriving DecidableEq, Repr

/-- The mailbox that an attempt makes if it is accepted. -/
def Attempt.box (a : Attempt) : Box :=
  ⟨Text.Utf8.decodeLossy a.name, a.address⟩

namespace Registry

/-- What comes of an attempt. -/
def outcome (r : Registry) (a : Attempt) : Outcome :=
  (r.register a.address a.name).1

/-- The registry after an attempt. -/
def enroll (r : Registry) (a : Attempt) : Registry :=
  (r.register a.address a.name).2

/-- The registry after attempts made one after the other. -/
def enrollAll (r : Registry) (as : List Attempt) : Registry :=
  as.foldl enroll r

@[simp] theorem enrollAll_nil (r : Registry) : r.enrollAll [] = r := rfl

@[simp] theorem enrollAll_cons (r : Registry) (a : Attempt) (as : List Attempt) :
    r.enrollAll (a :: as) = (r.enroll a).enrollAll as := rfl

theorem enrollAll_append (r : Registry) (as bs : List Attempt) :
    r.enrollAll (as ++ bs) = (r.enrollAll as).enrollAll bs :=
  List.foldl_append

/-- Asking what an attempt would come to gives what it comes to. -/
theorem outcome_eq_evaluate (r : Registry) (a : Attempt) :
    r.outcome a = r.evaluate a.address a.name := by
  unfold outcome register
  split
  · next h => exact h.symm
  · rfl

/-- An attempt that is not accepted changes nothing. -/
theorem enroll_of_ne {r : Registry} {a : Attempt} (h : r.outcome a ≠ .registered) :
    r.enroll a = r := by
  rw [outcome_eq_evaluate] at h
  unfold enroll register
  split
  · next hreg => exact absurd hreg h
  · rfl

/-- An attempt that is accepted adds its mailbox. -/
theorem enroll_of_eq {r : Registry} {a : Attempt} (h : r.outcome a = .registered) :
    r.enroll a = r.insert a.box := by
  rw [outcome_eq_evaluate] at h
  unfold enroll register
  rw [h]
  rfl

end Registry

/-! ## Calls of the contract -/

/-- The attempt that a call of this method with these arguments is, if it is one. -/
def attempt? (method : String) (args : List (List UInt8)) : Option Attempt :=
  if method = registerMethod then
    match args with
    | [address, name] =>
      if h : address.length = ScriptHash.size then some ⟨⟨address, h⟩, name⟩ else none
    | _ => none
  else none

/-- A call that is an attempt is reported as such, and one that is none leaves the registry alone
and is not reported. -/
theorem dispatch_spec (r : Registry) (call : Call) :
    (r.dispatch call).1.registration? =
        (attempt? call.method call.args).map
          (fun a => ⟨a.address, Text.Utf8.decodeLossy a.name, r.outcome a⟩)
      ∧ (r.dispatch call).2 = r.enrollAll (attempt? call.method call.args).toList := by
  obtain ⟨offset, method, args⟩ := call
  unfold Registry.dispatch attempt?
  by_cases hmethod : method = registerMethod
  · simp only [if_pos hmethod]
    obtain _ | ⟨address, _ | ⟨name, _ | ⟨third, rest⟩⟩⟩ := args
    · exact ⟨rfl, rfl⟩
    · exact ⟨rfl, rfl⟩
    · -- two arguments are an attempt if the first is as long as a hash
      unfold ScriptHash.ofBytes ScriptHash.size
      by_cases hlength : address.length = 20
      · simp only [hlength, ↓reduceDIte]
        exact ⟨rfl, rfl⟩
      · simp only [hlength, ↓reduceDIte]
        exact ⟨rfl, rfl⟩
    · exact ⟨rfl, rfl⟩
  · simp only [if_neg hmethod]
    exact ⟨rfl, rfl⟩

/-! ## Any use of a registry -/

/-- What may be asked of a registry. -/
inductive Action where
  | register (address : ScriptHash) (name : List UInt8)
  | evaluate (address : ScriptHash) (name : List UInt8)
  | dispatch (call : Call)
  deriving DecidableEq, Repr

/-- The attempt that an action makes, if it makes one. -/
def Action.attempt? : Action → Option Attempt
  | .register address name => some ⟨address, name⟩
  | .evaluate _ _ => none
  | .dispatch call => Mailbox.attempt? call.method call.args

namespace Registry

/-- The registry after an action. To evaluate an attempt only answers a question. -/
def act (r : Registry) : Action → Registry
  | .register address name => (r.register address name).2
  | .evaluate _ _ => r
  | .dispatch call => (r.dispatch call).2

theorem act_eq (r : Registry) (x : Action) : r.act x = r.enrollAll x.attempt?.toList := by
  cases x with
  | register address name => rfl
  | evaluate address name => rfl
  | dispatch call => exact (dispatch_spec r call).2

/-- However a registry is used, it is what its attempts make of it. -/
theorem foldl_act (r : Registry) (actions : List Action) :
    actions.foldl act r = r.enrollAll (actions.filterMap Action.attempt?) := by
  induction actions generalizing r with
  | nil => rfl
  | cons x xs ih =>
    rw [List.foldl_cons, ih, act_eq, ← enrollAll_append, List.filterMap_cons]
    cases x.attempt? <;> rfl

end Registry

end Registrar.Mailbox
