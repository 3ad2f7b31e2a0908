/-!
# Files that cannot be read

The system gives every reason for which a file cannot be read a number. A reason is shown by its
number, its kind and its message, and found again by its number.
-/

namespace Registrar

/-- Why a file cannot be read. -/
inductive FileError where
  /-- There is no file of this name. -/
  | missing
  /-- The file is not for everyone to read. -/
  | denied
  /-- The name leads through something that is not a directory. -/
  | notDirectory
  /-- The name is that of a directory. -/
  | directory
  /-- No file can have a name as long as this one. -/
  | longName
  deriving DecidableEq, Repr

namespace FileError

/-- The number by which the system knows a reason. -/
def number : FileError → Nat
  | missing => 2
  | denied => 13
  | notDirectory => 20
  | directory => 21
  | longName => 36

/-- The reason that the system knows by a number. -/
def ofNumber? (n : Nat) : Option FileError :=
  [missing, denied, notDirectory, directory, longName].find? fun e => e.number = n

theorem ofNumber?_number (e : FileError) : ofNumber? e.number = some e := by
  cases e <;> rfl

/-- The kind of a reason. -/
def kind : FileError → String
  | missing => "NotFound"
  | denied => "PermissionDenied"
  | notDirectory => "NotADirectory"
  | directory => "IsADirectory"
  | longName => "InvalidFilename"

/-- A reason in words. -/
def message : FileError → String
  | missing => "No such file or directory"
  | denied => "Permission denied"
  | notDirectory => "Not a directory"
  | directory => "Is a directory"
  | longName => "File name too long"

end FileError

end Registrar
