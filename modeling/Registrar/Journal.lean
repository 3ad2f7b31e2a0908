/-!
# Journal

What the library notes about its work while it runs: each entry has a level and a text. Functions
that note something return their entries, in order, beside their result.
-/

namespace Registrar

/-- How much an entry matters. -/
inductive Level where
  | debug
  | info
  | warn
  deriving DecidableEq, Repr

/-- The name of a level. -/
def Level.name : Level → String
  | .debug => "DEBUG"
  | .info => "INFO"
  | .warn => "WARN"

/-- A note. -/
structure Entry where
  level : Level
  text : String
  deriving DecidableEq, Repr

/-- The entry as a line: the level, then the text. -/
def Entry.line (e : Entry) : String :=
  e.level.name ++ " " ++ e.text

/-- Entries in the order they were made. -/
abbrev Journal := List Entry

/-- Notes something of use only in a search for faults. -/
def debug (text : String) : Entry := ⟨.debug, text⟩

/-- Notes something that happened. -/
def info (text : String) : Entry := ⟨.info, text⟩

/-- Notes something that someone should look at. -/
def warn (text : String) : Entry := ⟨.warn, text⟩

end Registrar
