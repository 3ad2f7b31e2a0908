import Registrar.CommandLine.Response

/-!
# The program

Asks for the file that the arguments name, and writes the answer to the output streams.
-/

namespace Registrar

/-- Why a file could not be read, by the number that comes with the system's error; some calls give
it with a minus. -/
def FileError.ofSystem (e : IO.Error) : FileError :=
  let reason (number : UInt32) : FileError :=
    (ofNumber? (min number (-number)).toNat).getD .missing
  match e with
  | .permissionDenied _ number _ => reason number
  | .inappropriateType _ number _ => reason number
  | .invalidArgument _ number _ => reason number
  | _ => .missing

/-- The bytes of the file that the arguments ask for, if they ask for one that can be read. -/
def loadNamedFile (args : List String) : IO (String → Except FileError (List UInt8)) := do
  match CommandLine.read args with
  | .ok (.watch chain _ _ _) =>
    let contents ← (IO.FS.readBinFile chain).toBaseIO
    return fun _ => match contents with
      | .ok bytes => .ok bytes.data.toList
      | .error e => .error (.ofSystem e)
  | _ => return fun _ => .error .missing

end Registrar

open Registrar in
/-- Writes the answer to the arguments and ends with its status. -/
def main (args : List String) : IO UInt32 := do
  match CommandLine.respond (← loadNamedFile args) args with
  | .ended status output diagnostics =>
    IO.print output
    IO.eprint diagnostics
    return status.toUInt32
  | .endless =>
    repeat IO.sleep 1000
    return 0
