import Registrar.CommandLine.Arguments
import Registrar.CommandLine.Failure
import Registrar.Monitor.Run

/-!
# What the program answers

The answer of the program to its arguments, as a value: the exit status and what goes to the two
output streams. Status 0 is success, 1 a failure that is shown, and 2 faulty arguments. Files are
asked for by name. The chain of a file does not change, so a watch that is not for a single poll
goes on for ever unless its first poll fails.
-/

namespace Registrar.CommandLine

open Chain (Store)
open Monitor (Stats)

/-- The answer of the program. -/
inductive Response where
  /-- The program ends with a status, an output and diagnostics. -/
  | ended (status : Nat) (output diagnostics : String)
  /-- The program goes on for ever. -/
  | endless
  deriving DecidableEq, Repr

/-- The program succeeds. -/
def success (output : String) : Response :=
  .ended 0 output ""

/-- The program fails for a reason that is shown. -/
def failure (shown : String) : Response :=
  .ended 1 "" ("Error: " ++ shown ++ "\n")

/-- The name and the version of the program. -/
def versionText : String := "mailbox-watch 0.1.0\n"

/-- How the program is used. -/
def helpText : String :=
  "\n".intercalate
    ["Watches a NEO chain for mailbox registrations",
     "",
     "Usage: mailbox-watch <COMMAND>",
     "",
     "Commands:",
     "  watch    Follow a chain and apply mailbox registrations",
     "  disasm   Disassemble a hex-encoded script",
     "  address  Show the display address of a script hash",
     "  help     Print this message or the help of the given subcommand(s)",
     "",
     "Options:",
     "  -h, --help     Print help",
     "  -V, --version  Print version",
     ""]

/-- A text without any leading `0x`, however many there are. -/
def stripMarks : List Char → List Char
  | '0' :: 'x' :: rest => stripMarks rest
  | cs => cs

/-- Lists the instructions of a script in hexadecimal. -/
def disassemble (script : String) : Response :=
  match Text.Hex.decode (String.ofList (stripMarks script.toList)) with
  | .error e => failure e.shown
  | .ok bytes => success (Script.listing bytes)

/-- Shows the address of a script hash. -/
def showAddress (hash : String) : Response :=
  match ScriptHash.parse hash with
  | .error e => failure e.shown
  | .ok hash => success (hash.address ++ "\n")

/-- The mailboxes and the counts of a monitor that is done. -/
def summary (m : Registrar.Monitor) : String :=
  "📬 Registered mailboxes (" ++ toString m.registry.count ++ "):\n"
    ++ (Text.Json.array (m.registry.boxes.map Mailbox.Box.json)).laidOut ++ "\n"
    ++ "📊 " ++ m.stats.json.compact ++ "\n"

/-- Follows the chain in a file. -/
def watch (file : Except FileError (List UInt8)) (deployment : String) (config : Monitor.Config)
    (once : Bool) : Response :=
  match Monitor.loadStore file with
  | .error e => failure e.shown
  | .ok store =>
    match Monitor.connect Monitor.storeProvider store deployment config with
    | (.error e, _) => failure e.shown
    | (.ok (m, _), store) =>
      let polled := m.poll Monitor.storeProvider store
      match polled.result with
      | .error e => failure e.shown
      | .ok _ => if once then success (summary polled.monitor) else .endless

/-- Carries out a command. -/
def carryOut (readFile : String → Except FileError (List UInt8)) : Command → Response
  | .watch chain deployment config once => watch (readFile chain) deployment config once
  | .disassemble script => disassemble script
  | .address hash => showAddress hash

/-- Answers the arguments of the program. -/
def respond (readFile : String → Except FileError (List UInt8)) (args : List String) : Response :=
  match read args with
  | .error .usage => .ended 2 "" helpText
  | .error .help => success helpText
  | .error .version => success versionText
  | .ok command => carryOut readFile command

end Registrar.CommandLine
