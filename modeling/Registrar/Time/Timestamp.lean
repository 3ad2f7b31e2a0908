import Registrar.Time.Calendar

/-!
# Timestamps

An instant in universal time, to the nanosecond. It is written as date, `T`, time and `Z`, with the
fewest of 0, 3, 6 or 9 fraction digits that are exact. It is read from the same form, with one or
more fraction digits, of which nine count, and with `Z` or an offset of hours and minutes, which is
taken off; `T` and `Z` are read in upper case only. A leap second is written and read as second 60
and kept as the second nanosecond range of second 59.
-/

namespace Registrar.Time

/-- An instant: whole seconds since the start of 1970, and nanoseconds. From a thousand million on
the nanoseconds are those of a leap second that follows. -/
structure Timestamp where
  seconds : Int
  nanos : Nat
  deriving DecidableEq, Repr

namespace Timestamp

/-! ## Writing -/

/-- A number in decimal digits, filled with zeros to at least `width`. -/
def padded (width n : Nat) : List Char :=
  let ds := Nat.toDigits 10 n
  List.replicate (width - ds.length) '0' ++ ds

/-- A year: four digits from 0 to 9999, and a sign in front of any other. -/
def yearChars (year : Int) : List Char :=
  if 0 ≤ year ∧ year ≤ 9999 then padded 4 year.toNat
  else if year < 0 then '-' :: padded 4 (-year).toNat
  else '+' :: padded 4 year.toNat

/-- A fraction of a second, in as few groups of three digits as are exact. -/
def fractionChars (nanos : Nat) : List Char :=
  if nanos = 0 then []
  else if nanos % 1000000 = 0 then '.' :: padded 3 (nanos / 1000000)
  else if nanos % 1000 = 0 then '.' :: padded 6 (nanos / 1000)
  else '.' :: padded 9 nanos

/-- The characters of the written form. -/
def chars (t : Timestamp) : List Char :=
  let date := Date.ofDays (t.seconds / 86400)
  let ofDay := (t.seconds % 86400).toNat
  let leap := t.nanos / 1000000000
  yearChars date.year ++ '-' :: padded 2 date.month ++ '-' :: padded 2 date.day
    ++ 'T' :: padded 2 (ofDay / 3600) ++ ':' :: padded 2 (ofDay / 60 % 60)
    ++ ':' :: padded 2 (ofDay % 60 + leap) ++ fractionChars (t.nanos % 1000000000) ++ ['Z']

/-- The written form. -/
def text (t : Timestamp) : String :=
  String.ofList t.chars

/-! ## Reading -/

/-- Takes off a number of exactly `width` digits. -/
def takeNumber (width : Nat) (s : List Char) : Option (Nat × List Char) :=
  let ds := s.take width
  if ds.length = width ∧ ds.all Char.isDigit then some (Nat.ofDigitChars 10 ds 0, s.drop width)
  else none

/-- Takes off one character. -/
def takeMark (mark : Char) : List Char → Option (List Char)
  | [] => none
  | c :: rest => if c = mark then some rest else none

/-- Takes off a mark and the two-digit number after it. -/
def takePart (mark : Char) (s : List Char) : Option (Nat × List Char) :=
  (takeMark mark s).bind (takeNumber 2)

/-- Takes off a fraction of a second, in nanoseconds; it may be left out. -/
def takeFraction (s : List Char) : Option (Nat × List Char) :=
  match s with
  | '.' :: rest =>
    let (ds, rest) := rest.span Char.isDigit
    if ds.isEmpty then none
    else
      let ds := ds.take 9
      some (Nat.ofDigitChars 10 ds 0 * Nat.pow 10 (9 - ds.length), rest)
  | _ => some (0, s)

/-- The offset from universal time in seconds that ends a text. -/
def readOffset (s : List Char) : Option Int :=
  let amount (rest : List Char) : Option Int :=
    match takeNumber 2 rest with
    | none => none
    | some (hours, rest) =>
      match takePart ':' rest with
      | some (minutes, []) =>
        if hours < 24 ∧ minutes < 60 then some ((hours * 3600 + minutes * 60 : Nat) : Int) else none
      | _ => none
  match s with
  | ['Z'] => some 0
  | '+' :: rest => amount rest
  | '-' :: rest => (amount rest).map fun n => -n
  | _ => none

/-- The instant at which clocks that are `offset` seconds ahead of universal time show a date and
time, if they can. -/
def ofParts (date : Date) (hour minute second nanos : Nat) (offset : Int) : Option Timestamp :=
  if date.isValid && hour < 24 && minute < 60 && second ≤ 60 then
    let leap := second / 60
    let ofDay : Nat := hour * 3600 + minute * 60 + (second - leap)
    some ⟨date.toDays * 86400 + ofDay - offset, leap * 1000000000 + nanos⟩
  else none

/-- Reads this form alone. The format of timestamps on the internet also has `t` and `z` in lower case,
which are not read here. -/
def ofChars? (s : List Char) : Option Timestamp := do
  let (year, s) ← takeNumber 4 s
  let (month, s) ← takePart '-' s
  let (day, s) ← takePart '-' s
  let (hour, s) ← takePart 'T' s
  let (minute, s) ← takePart ':' s
  let (second, s) ← takePart ':' s
  let (nanos, s) ← takeFraction s
  let offset ← readOffset s
  ofParts ⟨year, month, day⟩ hour minute second nanos offset

/-- Reads a text as a timestamp. -/
def parse? (s : String) : Option Timestamp :=
  ofChars? s.toList

end Timestamp

end Registrar.Time
