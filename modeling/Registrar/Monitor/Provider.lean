import Registrar.Chain.Exchange
import Registrar.Chain.Store
import Registrar.FileError
import Registrar.Monitor.Control

/-!
# Where the chain comes from

A monitor asks for three things: the height of the chain, the block at a height, and a transaction.
A provider answers from a state of its own, which each question may change; a question may also
fail. While an answer is awaited other tasks go on, and what they ask of the monitor's control
meanwhile comes with the answer.
-/

namespace Registrar.Monitor

open Chain (Block Transaction Store)

/-- Why a provider cannot answer. -/
inductive ProviderError where
  /-- The file cannot be read. -/
  | noFile (cause : FileError)
  /-- The file does not hold text. -/
  | notText
  /-- The question was refused, for this reason. -/
  | refused (reason : String)
  /-- The file does not hold a chain. -/
  | unreadable (fault : Text.Json.Fault)
  deriving DecidableEq, Repr

/-- The message of a failed question. -/
def ProviderError.message : ProviderError → String
  | .noFile cause =>
    "IO error: " ++ cause.message ++ " (os error " ++ toString cause.number ++ ")"
  | .notText => "IO error: stream did not contain valid UTF-8"
  | .refused reason => "IO error: " ++ reason
  | .unreadable .ended => "Serialization error: the text ends too early"
  | .unreadable .malformed => "Serialization error: the text is malformed"
  | .unreadable .mismatch => "Serialization error: the data has the wrong shape"

/-- An answer, and what other tasks asked of the control while it was awaited. -/
structure Reply (α : Type) where
  answer : Except ProviderError α
  requests : List Request := []

/-- Access to a chain with a state of its own. -/
structure Provider (σ : Type) where
  /-- The height of the newest block. -/
  height : σ → Reply UInt64 × σ
  /-- The block at a height, if the provider has it. -/
  block : UInt64 → σ → Reply (Option Block) × σ
  /-- The transaction with a hash, if the provider knows it. -/
  transaction : String → σ → Reply (Option Transaction) × σ

/-- A chain in memory answers at once and never fails. -/
def storeProvider : Provider Store where
  height := fun s => (⟨.ok s.height, []⟩, s)
  block := fun height s => (⟨.ok (s.block? height), []⟩, s)
  transaction := fun hash s => (⟨.ok (s.transaction? hash), []⟩, s)

/-- Reads a chain from the bytes of a file, if the file can be read. -/
def loadStore (file : Except FileError (List UInt8)) : Except ProviderError Store :=
  match file with
  | .error cause => .error (.noFile cause)
  | .ok bytes =>
    match Text.Utf8.decode? bytes with
    | none => .error .notText
    | some text =>
      match Text.Json.Reader.parse Chain.Archive.reader text with
      | .error fault => .error (.unreadable fault)
      | .ok archive => .ok (Store.ofBlocks archive.blocks)

end Registrar.Monitor
