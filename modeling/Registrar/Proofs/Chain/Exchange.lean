import Mathlib
import Registrar.Chain.Exchange
import Registrar.Proofs.Text.Json.Reading
import Registrar.Proofs.Time.Timestamp

/-!
# Chain data is read as it was written

Transactions, blocks and whole chains come back from the JSON that is written for them. So a text of
another program, which may say the same in other ways, is rewritten once and then stays as it is.
-/

namespace Registrar

open Text (Json)
open Text.Json (Fills Reader Reads)

theorem reads_hex (bytes : List UInt8) : Reads hexReader bytes (.text (Text.Hex.encode bytes)) := by
  apply Reads.stringAs
  rw [Text.Hex.decode_encode]
  rfl

namespace Chain

theorem Kind.ofName?_name (k : Kind) : Kind.ofName? k.name = some k := by
  cases k <;> decide

theorem Kind.reads (k : Kind) : Reads Kind.reader k k.json :=
  Reads.oneOf k.ofName?_name

/-! ## Records -/

namespace Transaction

theorem fills (tx : Transaction) :
    Fills members {} [("hash", .text tx.hash), ("type", tx.kind.json),
      ("script", .text (Text.Hex.encode tx.script))] ⟨tx.hash, tx.kind, tx.script⟩ := by
  refine Fills.place rfl rfl (Reads.string tx.hash) ?_
  refine Fills.place rfl rfl tx.kind.reads ?_
  refine Fills.place rfl rfl (reads_hex tx.script) ?_
  exact Fills.nil _

theorem reads (tx : Transaction) : Reads reader tx tx.json :=
  Reads.record tx.fills rfl

end Transaction

namespace Block

theorem fills {b : Block} (h : b.timestamp.Plain) :
    Fills members {} [("index", .number b.index.toNat), ("hash", .text b.hash),
      ("previous_hash", .text b.previousHash), ("timestamp", .text b.timestamp.text),
      ("transactions", .array (b.transactions.map Transaction.json))]
      ⟨b.index, b.hash, b.previousHash, b.timestamp, b.transactions⟩ := by
  refine Fills.place rfl rfl (Reads.word64 b.index) ?_
  refine Fills.place rfl rfl (Reads.string b.hash) ?_
  refine Fills.place rfl rfl (Reads.string b.previousHash) ?_
  refine Fills.place rfl rfl (Reads.stringAs (Time.Timestamp.parse?_text h)) ?_
  refine Fills.place rfl rfl (Reads.arrayOf fun tx _ => tx.reads) ?_
  exact Fills.nil _

theorem reads {b : Block} (h : b.timestamp.Plain) : Reads reader b b.json :=
  Reads.record (fills h) rfl

end Block

namespace Archive

theorem fills {a : Archive} (h : ∀ b ∈ a.blocks, b.timestamp.Plain) :
    Fills members {} [("blocks", .array (a.blocks.map Block.json))] ⟨a.blocks⟩ := by
  refine Fills.place rfl rfl (Reads.arrayOf fun b hb => Block.reads (h b hb)) ?_
  exact Fills.nil _

theorem reads {a : Archive} (h : ∀ b ∈ a.blocks, b.timestamp.Plain) : Reads reader a a.json :=
  Reads.record (fills h) rfl

end Archive

/-! ## Round trips -/

/-- What is written for the value that a text stands for. -/
def rewritten {α : Type} (reader : Reader α) (json : α → Json) (text : String) :
    Except Text.Json.Fault String :=
  (reader.parse text).map fun value => (json value).compact

/-- Whether values come back from what is written for them, and every text that stands for one of
them is rewritten to a text that stands for the same value, and that is rewritten to itself: for the
values that are `plain`. -/
def RoundTrips {α : Type} (reader : Reader α) (json : α → Json) (plain : α → Prop) : Prop :=
  (∀ value, plain value → reader.parse (json value).compact = .ok value) ∧
  ∀ text value, reader.parse text = .ok value → plain value →
    ∃ text', rewritten reader json text = .ok text' ∧ reader.parse text' = .ok value ∧
      rewritten reader json text' = .ok text'

theorem RoundTrips.of_reads {α : Type} {reader : Reader α} {json : α → Json} {plain : α → Prop}
    (h : ∀ value, plain value → Reads reader value (json value)) :
    RoundTrips reader json plain := by
  have hback : ∀ value, plain value → reader.parse (json value).compact = .ok value :=
    fun value hplain => (h value hplain).parse
  refine ⟨hback, ?_⟩
  intro text value hparse hplain
  refine ⟨(json value).compact, ?_, hback value hplain, ?_⟩
  · unfold rewritten
    rw [hparse]
    rfl
  · unfold rewritten
    rw [hback value hplain]
    rfl

/-- **Chain data comes back from its JSON.** Whatever stands in the strings, the scripts and the
index, and with however many blocks and transactions: the compact text of a chain, of a block and of
a transaction is read as what it was written for, and any text that is read as one of them is
rewritten to a text with the same meaning, which is rewritten to itself. Timestamps have to be of
the years 0 to 9999 and outside of leap seconds. -/
theorem chain_data_round_trips :
    RoundTrips Archive.reader Archive.json (fun a => ∀ b ∈ a.blocks, b.timestamp.Plain) ∧
    RoundTrips Block.reader Block.json (fun b => b.timestamp.Plain) ∧
    RoundTrips Transaction.reader Transaction.json (fun _ => True) := by
  refine ⟨RoundTrips.of_reads ?_, RoundTrips.of_reads ?_, RoundTrips.of_reads ?_⟩
  · exact fun a => Archive.reads
  · exact fun b => Block.reads
  · exact fun tx _ => tx.reads

/-! ## A foreign text

A chain as another program may write it: members stand in another order, those with a default are
left out, others are not known here, and a kind has its longer name, a script capital digits and a
time an offset. -/

/-- A transaction without a script. -/
def foreignMiner : Json :=
  .object [("type", .text "MinerTransaction"), ("size", .number 10), ("hash", .text "")]

/-- A transaction with a script in capital digits. -/
def foreignInvocation : Json :=
  .object [("script", .text "AbCD"), ("type", .text "Invocation"), ("hash", .text "\"")]

/-- A block without the hash before it. -/
def foreignBlock : Json :=
  .object [("timestamp", .text "2018-01-01T02:00:00.5+02:00"),
    ("transactions", .array [foreignMiner, foreignInvocation]),
    ("nonce", .array [.object [("high", .number 0)], .text ""]), ("hash", .text ""),
    ("index", .number 7)]

/-- The chain of that block. -/
def foreignChain : Json :=
  .object [("magic", .null), ("blocks", .array [foreignBlock])]

/-- The block that is written there. -/
def importedBlock : Block :=
  ⟨7, "", "", ⟨1514764800, 500000000⟩,
    [⟨"", .miner, []⟩, ⟨"\"", .invocation, [0xAB, 0xCD]⟩]⟩

theorem reads_foreignMiner : Reads Transaction.reader ⟨"", .miner, []⟩ foreignMiner := by
  have hkind : Kind.ofName? "MinerTransaction" = some .miner := by decide
  refine Reads.record (?_ : Fills _ _ _ (⟨"", some .miner, none⟩ : Transaction.Given)) rfl
  refine Fills.place rfl rfl (Reads.oneOf hkind) ?_
  refine Fills.other rfl ?_
  refine Fills.place rfl rfl (Reads.string "") ?_
  exact Fills.nil _

theorem reads_foreignInvocation :
    Reads Transaction.reader ⟨"\"", .invocation, [0xAB, 0xCD]⟩ foreignInvocation := by
  have hscript : (Text.Hex.decode "AbCD").toOption = some [0xAB, 0xCD] := by decide +kernel
  refine Reads.record
    (?_ : Fills _ _ _ (⟨"\"", some .invocation, some [0xAB, 0xCD]⟩ : Transaction.Given)) rfl
  refine Fills.place rfl rfl (Reads.stringAs hscript) ?_
  refine Fills.place rfl rfl (Kind.reads .invocation) ?_
  refine Fills.place rfl rfl (Reads.string "\"") ?_
  exact Fills.nil _

theorem reads_foreignBlock : Reads Block.reader importedBlock foreignBlock := by
  have htime : Time.Timestamp.parse? "2018-01-01T02:00:00.5+02:00"
      = some importedBlock.timestamp := by decide +kernel
  refine Reads.record (?_ : Fills _ _ _ (⟨some 7, "", none, importedBlock.timestamp,
    importedBlock.transactions⟩ : Block.Given)) rfl
  refine Fills.place rfl rfl (Reads.stringAs htime) ?_
  refine Fills.place rfl rfl
    (Reads.array (.cons reads_foreignMiner (.cons reads_foreignInvocation .nil))) ?_
  refine Fills.other rfl ?_
  refine Fills.place rfl rfl (Reads.string "") ?_
  refine Fills.place rfl rfl (Reads.word64 7) ?_
  exact Fills.nil _

theorem reads_foreignChain : Reads Archive.reader ⟨[importedBlock]⟩ foreignChain := by
  refine Reads.record (?_ : Fills _ _ _ (⟨some [importedBlock]⟩ : Archive.Given)) rfl
  refine Fills.other rfl ?_
  refine Fills.place rfl rfl (Reads.array (.cons reads_foreignBlock .nil)) ?_
  exact Fills.nil _

theorem plain_importedBlock : importedBlock.timestamp.Plain :=
  ⟨by decide, by decide, by decide⟩

/-- The chain as it is written here. -/
def nativeText : String :=
  "\x7b\"blocks\":[\x7b\"index\":7,\"hash\":\"\",\"previous_hash\":\"\"," ++
  "\"timestamp\":\"2018-01-01T00:00:00.500Z\",\"transactions\":[" ++
  "\x7b\"hash\":\"\",\"type\":\"Miner\",\"script\":\"\"\x7d," ++
  "\x7b\"hash\":\"\\\"\",\"type\":\"Invocation\",\"script\":\"abcd\"\x7d]\x7d]\x7d"

theorem rewritten_foreignChain :
    rewritten Archive.reader Archive.json foreignChain.compact = .ok nativeText := by
  have htext : (Archive.json ⟨[importedBlock]⟩).compact = nativeText := by decide +kernel
  unfold rewritten
  rw [reads_foreignChain.parse, ← htext]
  rfl

/-- The foreign text stands for the imported block and is rewritten as it is written here. -/
theorem chain_data_round_trips_foreign :
    Archive.reader.parse foreignChain.compact = .ok ⟨[importedBlock]⟩ ∧
    (∀ b ∈ [importedBlock], b.timestamp.Plain) ∧
    rewritten Archive.reader Archive.json foreignChain.compact = .ok nativeText ∧
    Archive.reader.parse nativeText = .ok ⟨[importedBlock]⟩ ∧
    rewritten Archive.reader Archive.json nativeText = .ok nativeText := by
  have hparse := reads_foreignChain.parse
  have hplain : ∀ b ∈ [importedBlock], b.timestamp.Plain :=
    List.forall_mem_singleton.mpr plain_importedBlock
  obtain ⟨text', hrewritten, hback, hagain⟩ := chain_data_round_trips.1.2 _ _ hparse hplain
  -- what the text is rewritten to is the text that is written for the chain
  obtain rfl : nativeText = text' :=
    Except.ok.inj (rewritten_foreignChain.symm.trans hrewritten)
  exact ⟨hparse, hplain, hrewritten, hback, hagain⟩

end Chain

end Registrar
