import Std.Data.TreeMap
import Registrar.Chain.Block

/-!
# A chain held in memory

Blocks are kept by their height; a block put at a height that is taken replaces the one there. The
height of the chain is the greatest at which a block stands, and a transaction is looked for in the
order of the heights and of the blocks.
-/

namespace Registrar.Chain

/-- Blocks by their height. -/
structure Store where
  blocks : Std.TreeMap UInt64 Block := {}

namespace Store

/-- The chain without blocks. -/
def empty : Store := {}

/-- Puts a block at its height. -/
def put (s : Store) (b : Block) : Store where
  blocks := s.blocks.insert b.index b

/-- The chain of some blocks; of two at one height the later one counts. -/
def ofBlocks (bs : List Block) : Store :=
  bs.foldl put empty

/-- The greatest height at which a block stands, or 0. -/
def height (s : Store) : UInt64 :=
  s.blocks.maxKey?.getD 0

/-- The block at a height. -/
def block? (s : Store) (height : UInt64) : Option Block :=
  s.blocks.get? height

/-- All transactions, in the order of the heights and of the blocks. -/
def transactions (s : Store) : List Transaction :=
  s.blocks.toList.flatMap fun entry => entry.2.transactions

/-- The first transaction that has this hash. -/
def transaction? (s : Store) (hash : String) : Option Transaction :=
  s.transactions.find? fun tx => tx.hash = hash

end Store

end Registrar.Chain
