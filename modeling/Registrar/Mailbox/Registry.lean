import Std.Data.TreeMap
import Registrar.ScriptHash.Basic
import Registrar.Text.Json.Value
import Registrar.Text.Utf8

/-!
# The mailbox registry

A mailbox has a name and belongs to an address. An address has at most one mailbox and a name is
taken at most once; whoever comes first has it for good. The registry keeps two maps, one from
addresses and one from names, so that both questions are answered at once; every change goes to
both.

Names come as raw bytes. Whether a name is taken is asked of its text, with ill-formed parts
replaced; whether it is valid is asked of its bytes. Valid names are plain ASCII, so the text of a
stored name is its bytes.
-/

namespace Registrar.Mailbox

/-- A named box that belongs to an address. -/
structure Box where
  name : String
  address : ScriptHash
  deriving DecidableEq, Repr

/-- The shortest length of a name, in bytes. -/
def minNameLength : Nat := 5

/-- The length from which on a name is too long, in bytes. -/
def maxNameLength : Nat := 19

/-- Whether a byte may stand in a name: `a` to `z`, `0` to `9` and `_`. -/
def isNameByte (b : UInt8) : Bool :=
  (97 ≤ b.toNat && b.toNat ≤ 122) || (48 ≤ b.toNat && b.toNat ≤ 57) || b.toNat = 95

/-- Whether a name is of the right length and of the right bytes only. -/
def isValidName (name : List UInt8) : Bool :=
  minNameLength ≤ name.length && name.length < maxNameLength && name.all isNameByte

/-! ## Outcomes -/

/-- What comes of an attempt to register a mailbox. -/
inductive Outcome where
  | registered
  | addressTaken
  | nameTaken
  | invalidName
  deriving DecidableEq, Repr

/-- Whether the mailbox was registered. -/
def Outcome.isRegistered (o : Outcome) : Bool :=
  o = .registered

/-- The outcome in words. -/
def Outcome.message : Outcome → String
  | .registered => "OK"
  | .addressTaken => "Address already has a box"
  | .nameTaken => "Box name already exists"
  | .invalidName => "Box name is invalid"

/-- The name of the outcome in exchanged data. -/
def Outcome.name : Outcome → String
  | .registered => "Registered"
  | .addressTaken => "AddressTaken"
  | .nameTaken => "NameTaken"
  | .invalidName => "InvalidName"

/-! ## The registry -/

/-- All mailboxes, by address and by name. -/
structure Registry where
  byAddress : Std.TreeMap ScriptHash Box := {}
  byName : Std.TreeMap String Box := {}

namespace Registry

/-- The registry without mailboxes. -/
def empty : Registry := {}

/-- The mailbox of an address. -/
def ofAddress? (r : Registry) (address : ScriptHash) : Option Box :=
  r.byAddress.get? address

/-- The mailbox of a name. -/
def ofName? (r : Registry) (name : String) : Option Box :=
  r.byName.get? name

/-- What would come of registering a name for an address. The address is asked first, then the name,
and only then whether the name is valid. -/
def evaluate (r : Registry) (address : ScriptHash) (name : List UInt8) : Outcome :=
  if (r.ofAddress? address).isSome then .addressTaken
  else if (r.ofName? (Text.Utf8.decodeLossy name)).isSome then .nameTaken
  else if !isValidName name then .invalidName
  else .registered

/-- Adds a mailbox to both maps. -/
def insert (r : Registry) (box : Box) : Registry where
  byAddress := r.byAddress.insert box.address box
  byName := r.byName.insert box.name box

/-- Registers a name for an address, if that is possible. -/
def register (r : Registry) (address : ScriptHash) (name : List UInt8) : Outcome × Registry :=
  match r.evaluate address name with
  | .registered => (.registered, r.insert ⟨Text.Utf8.decodeLossy name, address⟩)
  | outcome => (outcome, r)

/-- All mailboxes in the order of their names. -/
def boxes (r : Registry) : List Box :=
  r.byName.toList.map Prod.snd

/-- How many mailboxes there are. -/
def count (r : Registry) : Nat :=
  r.byAddress.size

/-- Whether there is no mailbox. -/
def isEmpty (r : Registry) : Bool :=
  r.byAddress.isEmpty

end Registry

/-! ## Exchanged data -/

/-- A mailbox as JSON. -/
def Box.json (b : Box) : Text.Json :=
  .object [("name", .text b.name), ("address", .text b.address.text)]

/-- An outcome as JSON. -/
def Outcome.json (o : Outcome) : Text.Json :=
  .text o.name

end Registrar.Mailbox
