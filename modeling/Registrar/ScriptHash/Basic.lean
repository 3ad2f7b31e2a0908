import Registrar.Digest.Ripemd160
import Registrar.Digest.Sha256
import Registrar.Text.Hex

/-!
# Script hashes

A contract is known by the hash of its bytecode: RIPEMD-160 of SHA-256, twenty bytes. The bytes are
kept in the order scripts hold them; the written form shows them in the opposite order, as `0x` and
forty digits. Reading accepts what writing produces, with digits of either case and with or without
`0x`, and tells a bad digit from a wrong length.
-/

namespace Registrar

/-- The hash that a contract or an account is known by, in script order. -/
structure ScriptHash where
  bytes : List UInt8
  length_bytes : bytes.length = 20
  deriving DecidableEq, Repr

/-- Why a text or a byte string is not a script hash. -/
inductive AddressError where
  /-- There are this many bytes where twenty were expected. -/
  | invalidLength (length : Nat)
  /-- The text is not hexadecimal. -/
  | invalidHex (cause : Text.Hex.Error)
  /-- The text is not Base58. -/
  | invalidBase58 (message : String)
  /-- The address is of another kind. -/
  | wrongVersion (version : UInt8)
  /-- The address does not end with its checksum. -/
  | checksumMismatch
  deriving DecidableEq, Repr

/-- The message of a refused hash or address. -/
def AddressError.message : AddressError → String
  | .invalidLength length => "Invalid length: expected 20 bytes, got " ++ toString length
  | .invalidHex cause => "Invalid hex: " ++ cause.message
  | .invalidBase58 message => "Invalid base58: " ++ message
  | .wrongVersion version => "Wrong address version: 0x" ++ Text.Hex.number 2 version.toNat
  | .checksumMismatch => "Checksum mismatch"

namespace ScriptHash

/-- How many bytes a script hash has. -/
def size : Nat := 20

/-- The hash that has these bytes in script order. -/
def ofBytes (bytes : List UInt8) : Except AddressError ScriptHash :=
  if h : bytes.length = 20 then .ok ⟨bytes, h⟩ else .error (.invalidLength bytes.length)

/-- The hash of a script. -/
def ofScript (script : List UInt8) : ScriptHash :=
  ⟨Digest.ripemd160 (Digest.sha256 script), Digest.length_ripemd160 _⟩

/-- The hash whose bytes are all zero. -/
def zero : ScriptHash :=
  ⟨List.replicate 20 0, List.length_replicate⟩

/-- Hashes are ordered by their bytes in script order, first byte first. -/
instance : Ord ScriptHash :=
  ⟨fun a b => compare a.bytes b.bytes⟩

/-! ## The written form -/

/-- The hash as `0x` and forty digits, last byte of the script order first. -/
def text (hash : ScriptHash) : String :=
  "0x" ++ Text.Hex.encode hash.bytes.reverse

/-- A text without one leading `0x`. -/
def stripMark : List Char → List Char
  | '0' :: 'x' :: rest => rest
  | chars => chars

/-- Reads the written form. -/
def parse (text : String) : Except AddressError ScriptHash :=
  match Text.Hex.decode (String.ofList (stripMark text.toList)) with
  | .error cause => .error (.invalidHex cause)
  | .ok bytes => ofBytes bytes.reverse

end ScriptHash

end Registrar
