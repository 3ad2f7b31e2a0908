import Registrar.Digest.Sha256
import Registrar.Text.Hex

/-!
# Transactions

Of a transaction only its kind, its script and its hash matter. Only an invocation runs its script;
the other kinds are kept so that a block stays whole. The hash is the double SHA-256 of the kind's
byte and the script, shown last byte first.
-/

namespace Registrar.Chain

/-- What a transaction does. -/
inductive Kind where
  | miner
  | issue
  | claim
  | enrollment
  | register
  | contract
  | state
  | publish
  | invocation
  deriving DecidableEq, Repr

namespace Kind

/-- Every kind, in the order of the bytes. -/
def all : List Kind :=
  [miner, issue, claim, enrollment, register, contract, state, publish, invocation]

/-- The byte of a kind. -/
def byte : Kind → UInt8
  | miner => 0x00
  | issue => 0x01
  | claim => 0x02
  | enrollment => 0x20
  | register => 0x40
  | contract => 0x80
  | state => 0x90
  | publish => 0xD0
  | invocation => 0xD1

/-- The name of a kind in exchanged data. -/
def name : Kind → String
  | miner => "Miner"
  | issue => "Issue"
  | claim => "Claim"
  | enrollment => "Enrollment"
  | register => "Register"
  | contract => "Contract"
  | state => "State"
  | publish => "Publish"
  | invocation => "Invocation"

/-- The kind of a name, which may be the longer one that other programs write. -/
def ofName? (s : String) : Option Kind :=
  all.find? fun k => k.name = s || k.name ++ "Transaction" = s

end Kind

/-- A transaction of a block. -/
structure Transaction where
  hash : String
  kind : Kind
  script : List UInt8
  deriving DecidableEq, Repr

namespace Transaction

/-- The hash of a transaction of this kind with this script. -/
def hashOf (kind : Kind) (script : List UInt8) : String :=
  Text.Hex.encode (Digest.doubleSha256 (kind.byte :: script)).reverse

/-- The transaction of this kind with this script. -/
def ofScript (kind : Kind) (script : List UInt8) : Transaction :=
  ⟨hashOf kind script, kind, script⟩

/-- Whether the transaction runs its script. -/
def isInvocation (tx : Transaction) : Bool :=
  tx.kind = .invocation

end Transaction

end Registrar.Chain
