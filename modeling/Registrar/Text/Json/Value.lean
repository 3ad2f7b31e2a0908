import Registrar.Text.Hex

/-!
# JSON values and how they are written

What the library writes as JSON is first a value: members in the order they are declared, numbers
without fraction. The compact form has no blanks at all; the laid-out form puts each item on a line
of its own, two blanks deeper than what holds it. Strings escape the quote, the backslash and the
characters below the blank, and leave everything else as it is.
-/

namespace Registrar.Text

/-- A JSON value. -/
inductive Json where
  | null
  | number (n : Nat)
  | text (s : String)
  | array (items : List Json)
  | object (members : List (String × Json))

namespace Json

/-! ## Strings -/

/-- A character inside a string. -/
def escape (c : Char) : List Char :=
  if c = '"' then ['\\', '"']
  else if c = '\\' then ['\\', '\\']
  else if c = '\x08' then ['\\', 'b']
  else if c = '\x0c' then ['\\', 'f']
  else if c = '\n' then ['\\', 'n']
  else if c = '\r' then ['\\', 'r']
  else if c = '\t' then ['\\', 't']
  else if c.toNat < 32 then
    ['\\', 'u', '0', '0', Hex.digit (c.toNat / 16), Hex.digit (c.toNat % 16)]
  else [c]

/-- A string in quotes. -/
def quote (s : String) : List Char :=
  '"' :: s.toList.flatMap escape ++ ['"']

/-- A number in decimal digits. -/
def decimal (n : Nat) : List Char :=
  Nat.toDigits 10 n

/-! ## The compact form -/

mutual

/-- The characters of a value, without blanks. -/
def chars : Json → List Char
  | null => ['n', 'u', 'l', 'l']
  | number n => decimal n
  | text s => quote s
  | array items => '[' :: itemChars items ++ [']']
  | object members => '\x7b' :: memberChars members ++ ['\x7d']

/-- The items of an array, with a comma between two of them. -/
def itemChars : List Json → List Char
  | [] => []
  | [item] => chars item
  | item :: rest => chars item ++ ',' :: itemChars rest

/-- The members of an object, with a comma between two of them. -/
def memberChars : List (String × Json) → List Char
  | [] => []
  | [(name, value)] => quote name ++ ':' :: chars value
  | (name, value) :: rest => quote name ++ ':' :: chars value ++ ',' :: memberChars rest

end

/-- The compact form of a value. -/
def compact (value : Json) : String :=
  String.ofList (chars value)

/-! ## The laid-out form -/

/-- A new line, indented for what lies `depth` deep. -/
def newLine (depth : Nat) : List Char :=
  '\n' :: List.replicate (2 * depth) ' '

mutual

/-- The characters of a value that lies `depth` deep; an empty array or object stays on its line. -/
def laidOutChars (depth : Nat) : Json → List Char
  | null => ['n', 'u', 'l', 'l']
  | number n => decimal n
  | text s => quote s
  | array [] => ['[', ']']
  | array items => '[' :: laidOutItems (depth + 1) items ++ newLine depth ++ [']']
  | object [] => ['\x7b', '\x7d']
  | object members =>
    '\x7b' :: laidOutMembers (depth + 1) members ++ newLine depth ++ ['\x7d']

/-- Items on lines of their own. -/
def laidOutItems (depth : Nat) : List Json → List Char
  | [] => []
  | [item] => newLine depth ++ laidOutChars depth item
  | item :: rest => newLine depth ++ laidOutChars depth item ++ ',' :: laidOutItems depth rest

/-- Members on lines of their own. -/
def laidOutMembers (depth : Nat) : List (String × Json) → List Char
  | [] => []
  | [(name, value)] => newLine depth ++ quote name ++ [':', ' '] ++ laidOutChars depth value
  | (name, value) :: rest =>
    newLine depth ++ quote name ++ [':', ' '] ++ laidOutChars depth value
      ++ ',' :: laidOutMembers depth rest

end

/-- The laid-out form of a value. -/
def laidOut (value : Json) : String :=
  String.ofList (laidOutChars 0 value)

end Json

end Registrar.Text
