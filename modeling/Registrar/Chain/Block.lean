import Registrar.Chain.Transaction
import Registrar.Text.Utf8
import Registrar.Time.Timestamp

/-!
# Blocks

A block holds transactions in an order and stands at a height. A new block's hash covers its height,
the hash before it, its time in whole seconds and the hashes of its transactions, written one after
the other.
-/

namespace Registrar.Chain

/-- A block of the chain. -/
structure Block where
  /-- The height of the block. -/
  index : UInt64
  hash : String
  previousHash : String
  timestamp : Time.Timestamp
  transactions : List Transaction
  deriving DecidableEq, Repr

namespace Block

/-- The text that the hash of a block is taken of. -/
def preimage (index : UInt64) (previousHash : String) (seconds : Int) (hashes : List String) :
    String :=
  toString index.toNat ++ previousHash ++ toString seconds ++ String.join hashes

/-- The hash of a block. -/
def hashOf (index : UInt64) (previousHash : String) (seconds : Int) (hashes : List String) :
    String :=
  Text.Hex.encode
    (Digest.doubleSha256 (Text.Utf8.encode (preimage index previousHash seconds hashes)))

/-- The block that is made at a time. -/
def make (index : UInt64) (previousHash : String) (now : Time.Timestamp)
    (transactions : List Transaction) : Block where
  index
  hash := hashOf index previousHash now.seconds (transactions.map Transaction.hash)
  previousHash
  timestamp := now
  transactions

/-- The transactions that run their scripts, in order. -/
def invocations (b : Block) : List Transaction :=
  b.transactions.filter Transaction.isInvocation

end Block

end Registrar.Chain
