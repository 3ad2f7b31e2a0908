import Registrar.Contract.Call
import Registrar.Mailbox.Registry
import Registrar.ScriptHash.Address

/-!
# What a call does to the registry

One method of the contract registers a mailbox: it takes an address and a name. Calls of other
methods have no effect, and neither has a call whose arguments are not of that form.
-/

namespace Registrar.Mailbox

open Contract (Call)

/-- The method that registers a mailbox. -/
def registerMethod : String := "registerMailbox"

/-- An attempt to register a mailbox, and what came of it. -/
structure Registration where
  address : ScriptHash
  /-- The name as text, with ill-formed parts replaced. -/
  name : String
  outcome : Outcome
  deriving DecidableEq, Repr

/-- What a call comes to. -/
inductive Effect where
  /-- It calls another method. -/
  | ignored (method : String) (offset : Nat)
  /-- It has this many arguments, and not two. -/
  | wrongCount (offset count : Nat)
  /-- Its first argument is no address. -/
  | badAddress (offset : Nat) (cause : AddressError)
  /-- It is an attempt to register a mailbox. -/
  | registration (registration : Registration)
  deriving DecidableEq, Repr

/-- The attempt that a call was, if it was one. -/
def Effect.registration? : Effect → Option Registration
  | .registration r => some r
  | _ => none

/-- What is noted about a call. -/
def Effect.entry : Effect → Entry
  | .ignored method offset =>
    debug ("Ignoring call to " ++ method ++ " at offset " ++ toString offset)
  | .wrongCount offset count =>
    warn (registerMethod ++ " at offset " ++ toString offset ++ " has " ++ toString count
      ++ " arguments, expected 2")
  | .badAddress offset cause =>
    warn (registerMethod ++ " at offset " ++ toString offset ++ ": bad address: "
      ++ cause.message)
  | .registration r =>
    info ("(" ++ r.address.address ++ ", " ++ r.name ++ ") => " ++ r.outcome.message)

/-- Applies a call to the registry. -/
def Registry.dispatch (r : Registry) (call : Call) : Effect × Registry :=
  if call.method = registerMethod then
    match call.args with
    | [address, name] =>
      match ScriptHash.ofBytes address with
      | .error cause => (.badAddress call.offset cause, r)
      | .ok address =>
        let (outcome, r) := r.register address name
        (.registration ⟨address, Text.Utf8.decodeLossy name, outcome⟩, r)
    | args => (.wrongCount call.offset args.length, r)
  else (.ignored call.method call.offset, r)

/-! ## Exchanged data -/

/-- A call as JSON; arguments are arrays of byte values. -/
def callJson (call : Call) : Text.Json :=
  .object [("offset", .number call.offset), ("method", .text call.method),
    ("args", .array (call.args.map fun arg => .array (arg.map fun b => .number b.toNat)))]

/-- An attempt as JSON. -/
def Registration.json (r : Registration) : Text.Json :=
  .object [("address", .text r.address.text), ("name", .text r.name), ("outcome", r.outcome.json)]

end Registrar.Mailbox
