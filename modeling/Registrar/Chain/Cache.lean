import Std.Data.TreeMap
import Registrar.Chain.Transaction

/-!
# The transaction cache

A bounded number of transactions. A transaction is used when it is put in and when a look-up finds
it; when there is no room the one that was used longest ago goes. A transaction is known by its hash,
and putting one in replaces the one with the same hash.

The transactions are kept in a map from their hashes, so that a look-up is answered at once. The
order of use is kept apart, as a list of hashes; whatever adds a hash to one of the two or takes it
away does so with the other.
-/

namespace Registrar.Chain

/-- What has happened to a cache. The counts are taken below `2 ^ 64`: a word of that size holds each of
them, and what is proved of a count is meant of one that has not come to that number. -/
structure CacheStats where
  hits : Nat := 0
  misses : Nat := 0
  inserts : Nat := 0
  evictions : Nat := 0
  deriving DecidableEq, Repr

/-- The share of the look-ups that found something; of none it is zero. -/
def CacheStats.hitRate (s : CacheStats) : Float :=
  let total := s.hits + s.misses
  if total = 0 then 0.0 else Float.ofNat s.hits / Float.ofNat total

/-- Transactions by their hash, and the order in which they were used. -/
structure Cache where
  /-- How many transactions there is room for. -/
  capacity : Nat
  entries : Std.TreeMap String Transaction := {}
  /-- The hashes that are held, the most recently used first. -/
  recency : List String := []
  stats : CacheStats := {}

namespace Cache

/-- The capacity of a cache that is not told another one. -/
def defaultCapacity : Nat := 10000

/-- An empty cache; it has room for one transaction at least. -/
def withCapacity (capacity : Nat) : Cache where
  capacity := max capacity 1

/-- How many transactions are held. -/
def size (c : Cache) : Nat :=
  c.entries.size

/-- Whether no transaction is held. -/
def isEmpty (c : Cache) : Bool :=
  c.entries.isEmpty

/-- The transaction that is held under a hash. Asking does not count as use. -/
def held? (c : Cache) (hash : String) : Option Transaction :=
  c.entries.get? hash

/-- Whether a transaction is held under a hash. -/
def contains (c : Cache) (hash : String) : Bool :=
  c.entries.contains hash

/-- Makes a hash the most recently used. -/
def touch (c : Cache) (hash : String) : Cache :=
  { c with recency := hash :: c.recency.filter (· ≠ hash) }

/-- Looks a transaction up; one that is found becomes the most recently used. -/
def get (c : Cache) (hash : String) : Option Transaction × Cache :=
  match c.held? hash with
  | some tx => (some tx, { c.touch hash with stats := { c.stats with hits := c.stats.hits + 1 } })
  | none => (none, { c with stats := { c.stats with misses := c.stats.misses + 1 } })

/-- Takes the transaction away that was used longest ago. -/
def evict (c : Cache) : Cache :=
  match c.recency.getLast? with
  | none => c
  | some hash =>
    { c with
      entries := c.entries.erase hash
      recency := c.recency.dropLast
      stats :=
        if c.contains hash then { c.stats with evictions := c.stats.evictions + 1 } else c.stats }

/-- Makes a hash that is not held the most recently used; in a full cache another one goes. -/
def enlist (c : Cache) (hash : String) : Cache :=
  let c := if c.capacity ≤ c.size then c.evict else c
  { c with recency := hash :: c.recency }

/-- Puts a transaction in as the most recently used. -/
def insert (c : Cache) (tx : Transaction) : Cache :=
  let c := if c.contains tx.hash then c.touch tx.hash else c.enlist tx.hash
  { c with
    entries := c.entries.insert tx.hash tx
    stats := { c.stats with inserts := c.stats.inserts + 1 } }

end Cache

end Registrar.Chain
