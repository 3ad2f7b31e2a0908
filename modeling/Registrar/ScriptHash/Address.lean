import Registrar.ScriptHash.Basic
import Registrar.Text.Base58

/-!
# Display addresses

A display address is a script hash for people: a version byte, the hash and the first four bytes of
a double SHA-256 of both, in Base58. An address is read back only if all parts are right, and the
faults are looked for in the order of the parts: the alphabet, the length, the version, the
checksum.
-/

namespace Registrar.ScriptHash

/-- The version byte in front of every address. -/
def addressVersion : UInt8 := 0x17

/-- What `check` says of a payload, cut to the four bytes that an address holds. -/
def checksum (check : List UInt8 → List UInt8) (payload : List UInt8) : List UInt8 :=
  (check payload).take 4

/-- The bytes of an address: version, hash, checksum. -/
def addressBytes (check : List UInt8 → List UInt8) (hash : ScriptHash) : List UInt8 :=
  let payload := addressVersion :: hash.bytes
  payload ++ checksum check payload

/-- Reads the bytes of an address. -/
def ofAddressBytes (check : List UInt8 → List UInt8) (bytes : List UInt8) :
    Except AddressError ScriptHash :=
  if bytes.length ≠ 25 then .error (.invalidLength bytes.length)
  else
    match bytes with
    | [] => .error (.invalidLength 0)
    | version :: rest =>
      if version ≠ addressVersion then .error (.wrongVersion version)
      else if checksum check (bytes.take 21) ≠ bytes.drop 21 then .error .checksumMismatch
      else ofBytes (rest.take 20)

/-- The display address of a hash, with checksums from `check`. -/
def addressWith (check : List UInt8 → List UInt8) (hash : ScriptHash) : String :=
  Text.Base58.encode (addressBytes check hash)

/-- Reads a display address with checksums from `check`. -/
def ofAddressWith (check : List UInt8 → List UInt8) (address : String) :
    Except AddressError ScriptHash :=
  match Text.Base58.decode address with
  | .error e => .error (.invalidBase58 e.message)
  | .ok bytes => ofAddressBytes check bytes

/-- The display address of a hash. -/
def address (hash : ScriptHash) : String :=
  addressWith Digest.doubleSha256 hash

/-- Reads a display address. -/
def ofAddress (address : String) : Except AddressError ScriptHash :=
  ofAddressWith Digest.doubleSha256 address

end Registrar.ScriptHash
