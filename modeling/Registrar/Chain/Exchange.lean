import Registrar.Chain.Block
import Registrar.Contract.Identity
import Registrar.Text.Json.Reader

/-!
# Chain data as JSON

Transactions, blocks and whole chains are exchanged as JSON. Writing puts every member, in the
declared order. Reading takes members in any order, allows those with a default to be missing,
passes over members of other names, and refuses a member that comes twice.
-/

namespace Registrar

open Text (Json)
open Text.Json (Reader)
open Text.Json.Reader (Member)

/-- Reads hexadecimal text. -/
def hexReader : Reader (List UInt8) :=
  Reader.stringAs fun s => (Text.Hex.decode s).toOption

/-- Reads the written form of a script hash. -/
def ScriptHash.reader : Reader ScriptHash :=
  Reader.stringAs fun s => (ScriptHash.parse s).toOption

/-- Reads the name of an opcode. -/
def Script.Opcode.reader : Reader Script.Opcode :=
  Reader.oneOf Script.Opcode.ofIdentifier?

namespace Contract.Identity

/-- A contract as JSON. -/
def json (c : Identity) : Json :=
  .object [("bytecode", .text (Text.Hex.encode c.bytecode)), ("hash", .text c.hash.text)]

/-- The members of a contract that have been read. -/
structure Given where
  bytecode : Option (List UInt8) := none
  hash : Option ScriptHash := none

/-- The members of a contract. -/
def members : List (Member Given) :=
  [.ofPlace "bytecode" hexReader Given.bytecode (fun g v => { g with bytecode := some v }),
   .ofPlace "hash" ScriptHash.reader Given.hash (fun g v => { g with hash := some v })]

/-- Reads a contract. Its hash is taken as it is given. -/
def reader : Reader Identity :=
  Reader.record members {} fun g => do
    return ⟨← g.bytecode, ← g.hash⟩

end Contract.Identity

namespace Chain

/-- The kind of a transaction as JSON. -/
def Kind.json (k : Kind) : Json :=
  .text k.name

/-- Reads the kind of a transaction. -/
def Kind.reader : Reader Kind :=
  Reader.oneOf Kind.ofName?

namespace Transaction

/-- A transaction as JSON. -/
def json (tx : Transaction) : Json :=
  .object [("hash", .text tx.hash), ("type", tx.kind.json),
    ("script", .text (Text.Hex.encode tx.script))]

/-- The members of a transaction that have been read. -/
structure Given where
  hash : Option String := none
  kind : Option Kind := none
  script : Option (List UInt8) := none

/-- The members of a transaction. -/
def members : List (Member Given) :=
  [.ofPlace "hash" Reader.string Given.hash (fun g v => { g with hash := some v }),
   .ofPlace "type" Kind.reader Given.kind (fun g v => { g with kind := some v }),
   .ofPlace "script" hexReader Given.script (fun g v => { g with script := some v })]

/-- Reads a transaction. Where no script is given it is empty. -/
def reader : Reader Transaction :=
  Reader.record members {} fun g => do
    return ⟨← g.hash, ← g.kind, g.script.getD []⟩

end Transaction

namespace Block

/-- A block as JSON. -/
def json (b : Block) : Json :=
  .object [("index", .number b.index.toNat), ("hash", .text b.hash),
    ("previous_hash", .text b.previousHash), ("timestamp", .text b.timestamp.text),
    ("transactions", .array (b.transactions.map Transaction.json))]

/-- The members of a block that have been read. -/
structure Given where
  index : Option UInt64 := none
  hash : Option String := none
  previousHash : Option String := none
  timestamp : Option Time.Timestamp := none
  transactions : Option (List Transaction) := none

/-- The members of a block. -/
def members : List (Member Given) :=
  [.ofPlace "index" Reader.word64 Given.index (fun g v => { g with index := some v }),
   .ofPlace "hash" Reader.string Given.hash (fun g v => { g with hash := some v }),
   .ofPlace "previous_hash" Reader.string Given.previousHash
     (fun g v => { g with previousHash := some v }),
   .ofPlace "timestamp" (Reader.stringAs Time.Timestamp.parse?) Given.timestamp
     (fun g v => { g with timestamp := some v }),
   .ofPlace "transactions" (Reader.array Transaction.reader) Given.transactions
     (fun g v => { g with transactions := some v })]

/-- Reads a block. Where they are not given the hash before it is empty and there are no
transactions. -/
def reader : Reader Block :=
  Reader.record members {} fun g => do
    return ⟨← g.index, ← g.hash, g.previousHash.getD "", ← g.timestamp, g.transactions.getD []⟩

end Block

/-- A chain as it is kept in a file: its blocks in the order of the file. -/
structure Archive where
  blocks : List Block
  deriving DecidableEq, Repr

namespace Archive

/-- A chain file as JSON. -/
def json (a : Archive) : Json :=
  .object [("blocks", .array (a.blocks.map Block.json))]

/-- The members of a chain file that have been read. -/
structure Given where
  blocks : Option (List Block) := none

/-- The members of a chain file. -/
def members : List (Member Given) :=
  [.ofPlace "blocks" (Reader.array Block.reader) Given.blocks (fun _ v => { blocks := some v })]

/-- Reads a chain file. -/
def reader : Reader Archive :=
  Reader.record members {} fun g => do
    return ⟨← g.blocks⟩

end Archive

end Chain

end Registrar
