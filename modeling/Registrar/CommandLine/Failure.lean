import Registrar.Monitor.Basic
import Registrar.Text.Quoted

/-!
# How failures are shown

The command line shows a failure by the name of its cause and, in brackets, what belongs to it.
Texts are quoted, so that a line holds exactly one failure.
-/

namespace Registrar

/-- A name with what belongs to it in round brackets. -/
def bracketed (name content : String) : String :=
  name ++ "(" ++ content ++ ")"

/-- A name with named parts in braces. -/
def braced (name : String) (parts : List (String × String)) : String :=
  name ++ " \x7b " ++ ", ".intercalate (parts.map fun part => part.1 ++ ": " ++ part.2) ++ " \x7d"

/-- How text that is not hexadecimal is shown. -/
def Text.Hex.Error.shown : Text.Hex.Error → String
  | .oddLength => "OddLength"
  | .invalidDigit byte position =>
    braced "InvalidHexCharacter" [("c", Text.Quoted.byte byte), ("index", toString position)]

/-- How a refused hash or address is shown. -/
def AddressError.shown : AddressError → String
  | .invalidLength length => bracketed "InvalidLength" (toString length)
  | .invalidHex cause => bracketed "InvalidHex" (Text.Quoted.text cause.message)
  | .invalidBase58 message => bracketed "InvalidBase58" (Text.Quoted.text message)
  | .wrongVersion version => bracketed "WrongVersion" (toString version.toNat)
  | .checksumMismatch => "ChecksumMismatch"

namespace Monitor

/-- How a failed provider is shown. -/
def ProviderError.shown : ProviderError → String
  | .noFile cause =>
    bracketed "IoError" (braced "Os" [("code", toString cause.number), ("kind", cause.kind),
      ("message", Text.Quoted.text cause.message)])
  | .notText =>
    bracketed "IoError" (braced "Error" [("kind", "InvalidData"),
      ("message", Text.Quoted.text "stream did not contain valid UTF-8")])
  | .refused reason =>
    bracketed "IoError" (braced "Custom" [("kind", "Other"), ("error", Text.Quoted.text reason)])
  | .unreadable fault =>
    bracketed "SerializationError" (Text.Quoted.text (ProviderError.unreadable fault).message)

/-- How a failed monitor is shown. -/
def MonitorError.shown (e : MonitorError) : String :=
  match e with
  | .missingBlock height => bracketed "MissingBlock" (toString height.toNat)
  | .provider cause => bracketed "Provider" cause.shown
  | _ => bracketed "InvalidInput" (Text.Quoted.text (e.invalidInput?.getD ""))

end Monitor

end Registrar
