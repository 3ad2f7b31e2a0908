import Registrar.Monitor.Basic

/-!
# The arguments of the command line

The first argument names a command and the others are its options. An option has a long name, and
most have a letter too. A value stands in an argument of its own, which must not look like an
option, or in the same argument after a long name and `=`, or right after the letter. No option may
be given twice. The arguments are looked at from left to right: a fault before a request for help is
a fault.
-/

namespace Registrar.CommandLine

/-- What the program is asked to do. -/
inductive Command where
  /-- Follow the chain in a file for the contract that a transaction deploys; `once` for a single
  poll. -/
  | watch (chain deployment : String) (config : Monitor.Config) (once : Bool)
  /-- List the instructions of a script in hexadecimal. -/
  | disassemble (script : String)
  /-- Show the address of a script hash. -/
  | address (hash : String)
  deriving DecidableEq, Repr

/-- Why the arguments name no command. -/
inductive Stop where
  /-- They are faulty. -/
  | usage
  /-- They ask for help. -/
  | help
  /-- They ask for the version. -/
  | version
  deriving DecidableEq, Repr

/-- An option of a command. -/
structure Switch where
  long : String
  letter : Option Char := none
  /-- Which values it takes; a switch without values is either given or not. -/
  accepts : Option (String → Bool) := none

/-- The options that are given, with their values. -/
abbrev Given := List (String × String)

/-- Reads a number below `2 ^ 64`; a plus sign may stand before it. -/
def number? (s : String) : Option Nat :=
  let ds := match s.toList with
    | '+' :: rest => rest
    | cs => cs
  if ds.isEmpty || !ds.all Char.isDigit then none
  else
    let n := Nat.ofDigitChars 10 ds 0
    if n < UInt64.size then some n else none

/-- Takes note of an option and its value. -/
def Switch.give (switch : Switch) (value : String) (given : Given) : Except Stop Given :=
  if given.any fun entry => entry.1 = switch.long then .error .usage
  else
    match switch.accepts with
    | none => .ok ((switch.long, value) :: given)
    | some accepts =>
      if accepts value then .ok ((switch.long, value) :: given) else .error .usage

/-- Whether an argument looks like an option. A single dash does not. -/
def looksLikeOption (arg : String) : Bool :=
  match arg.toList with
  | '-' :: _ :: _ => true
  | _ => false

/-- What an argument says. -/
inductive Argument where
  /-- An option, and the value that is attached to it. -/
  | option (switch : Switch) (attached : Option String)
  /-- The mark after which there are no more options. -/
  | endMark
  /-- Nothing that is understood, or a request. -/
  | stop (reason : Stop)

/-- Reads an argument that begins with two dashes. -/
def readLong (switches : List Switch) (cs : List Char) : Argument :=
  let (name, tail) := cs.span (· ≠ '=')
  let attached := match tail with
    | [] => none
    | _ :: value => some (String.ofList value)
  let name := String.ofList name
  if name = "help" then .stop (if attached.isNone then .help else .usage)
  else
    match switches.find? fun s => s.long = name with
    | none => .stop .usage
    | some switch =>
      if switch.accepts.isNone && attached.isSome then .stop .usage else .option switch attached

/-- Reads an argument that begins with one dash. -/
def readLetter (switches : List Switch) (c : Char) (tail : List Char) : Argument :=
  if c = 'h' then .stop .help
  else
    match switches.find? fun s => s.letter = some c with
    | none => .stop .usage
    | some switch =>
      match tail with
      | [] => .option switch none
      | '=' :: value => .option switch (some (String.ofList value))
      | value => .option switch (some (String.ofList value))

/-- Reads one argument of a command. -/
def readArgument (switches : List Switch) (arg : String) : Argument :=
  match arg.toList with
  | ['-', '-'] => .endMark
  | '-' :: '-' :: cs => readLong switches cs
  | '-' :: c :: tail => readLetter switches c tail
  | _ => .stop .usage

/-- Reads the options of a command. -/
def readOptions (switches : List Switch) (given : Given) : List String → Except Stop Given
  | [] => .ok given
  | arg :: rest =>
    match readArgument switches arg with
    | .stop reason => .error reason
    | .endMark => if rest.isEmpty then .ok given else .error .usage
    | .option switch (some value) =>
      match switch.give value given with
      | .error e => .error e
      | .ok given => readOptions switches given rest
    | .option switch none =>
      if switch.accepts.isNone then
        match switch.give "" given with
        | .error e => .error e
        | .ok given => readOptions switches given rest
      else
        match rest with
        | [] => .error .usage
        | value :: rest =>
          if looksLikeOption value then .error .usage
          else
            match switch.give value given with
            | .error e => .error e
            | .ok given => readOptions switches given rest

/-! ## The commands -/

/-- Any value is accepted. -/
def anyText : String → Bool := fun _ => true

/-- A number is accepted. -/
def anyNumber : String → Bool := fun s => (number? s).isSome

/-- The options of `watch`. -/
def watchSwitches : List Switch :=
  [⟨"chain", some 'c', some fun s => !s.isEmpty⟩, ⟨"deploy-tx", some 'd', some anyText⟩,
   ⟨"start-height", some 's', some anyNumber⟩, ⟨"interval-ms", some 'i', some anyNumber⟩,
   ⟨"cache-size", none, some anyNumber⟩, ⟨"once", none, none⟩]

/-- The options of `disasm`. -/
def disassembleSwitches : List Switch :=
  [⟨"script", some 's', some anyText⟩]

/-- The options of `address`. -/
def addressSwitches : List Switch :=
  [⟨"hash", none, some anyText⟩]

/-- The value of an option. -/
def Given.value? (given : Given) (name : String) : Option String :=
  given.lookup name

/-- The number of an option that has a default. -/
def Given.number (given : Given) (name : String) (default : Nat) : Nat :=
  ((given.value? name).bind number?).getD default

/-- A command all of whose necessary options are given. -/
def require (command : Option Command) : Except Stop Command :=
  match command with
  | some command => .ok command
  | none => .error .usage

/-- Reads the options of `watch`. -/
def readWatch (args : List String) : Except Stop Command := do
  let given ← readOptions watchSwitches [] args
  require do
    let chain ← given.value? "chain"
    let deployment ← given.value? "deploy-tx"
    let defaults : Monitor.Config := {}
    let config : Monitor.Config :=
      { pollInterval := given.number "interval-ms" defaults.pollInterval
        startHeight :=
          UInt64.ofNat (given.number "start-height" defaults.startHeight.toNat)
        cacheCapacity := given.number "cache-size" defaults.cacheCapacity }
    return .watch chain deployment config (given.value? "once").isSome

/-- Reads the options of `disasm`. -/
def readDisassemble (args : List String) : Except Stop Command := do
  let given ← readOptions disassembleSwitches [] args
  require ((given.value? "script").map .disassemble)

/-- Reads the options of `address`. -/
def readAddress (args : List String) : Except Stop Command := do
  let given ← readOptions addressSwitches [] args
  require ((given.value? "hash").map .address)

/-- Reads a request for help on a command. -/
def readHelp (args : List String) : Except Stop Command :=
  match args with
  | [] => .error .help
  | [name] =>
    .error (if ["watch", "disasm", "address", "help"].contains name then .help else .usage)
  | _ => .error .usage

/-- Reads the arguments of the program. -/
def read (args : List String) : Except Stop Command :=
  match args with
  | [] => .error .usage
  | name :: rest =>
    if name = "watch" then readWatch rest
    else if name = "disasm" then readDisassemble rest
    else if name = "address" then readAddress rest
    else if name = "help" then readHelp rest
    else if name = "--version" then .error .version
    else if name = "--help" then .error .help
    else
      match name.toList with
      | '-' :: 'V' :: _ => .error .version
      | '-' :: 'h' :: _ => .error .help
      | _ => .error .usage

end Registrar.CommandLine
