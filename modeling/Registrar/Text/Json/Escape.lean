import Registrar.Text.Json.Token

/-!
# Strings in JSON

Between its quotes a string holds characters and escapes. An escape is one letter, or `u` and a code
unit in four hexadecimal digits. Code units of a pair spell one character together and none alone.
-/

namespace Registrar.Text.Json

/-! ## Escapes -/

/-- Takes off the four digits of an escaped code unit. A text ends too early if fewer than four
bytes of it are left. -/
def codeUnit (s : List Char) : Taken Nat :=
  match s with
  | a :: b :: c :: d :: rest =>
    match Hex.value? a.toNat, Hex.value? b.toNat, Hex.value? c.toNat, Hex.value? d.toNat with
    | some a, some b, some c, some d => .ok (((a * 16 + b) * 16 + c) * 16 + d, rest)
    | _, _, _, _ => .error .malformed
  | _ => if (String.ofList s).utf8ByteSize < 4 then .error .ended else .error .malformed

theorem length_lt_of_codeUnit {s rest : List Char} {n : Nat} (h : codeUnit s = .ok (n, rest)) :
    rest.length < s.length := by
  rw [codeUnit.eq_def] at h
  split at h
  · split at h
    · cases h
      simp only [List.length_cons]
      omega
    · cases h
  · split at h <;> cases h

/-- Whether a code unit is the first of a pair. -/
def isHighSurrogate (n : Nat) : Bool := 0xD800 ≤ n && n ≤ 0xDBFF

/-- Whether a code unit is the second of a pair. -/
def isLowSurrogate (n : Nat) : Bool := 0xDC00 ≤ n && n ≤ 0xDFFF

/-- The character that the two units of a pair spell. -/
def pairedUnits (high low : Nat) : Char :=
  Char.ofNat (0x10000 + (high - 0xD800) * 0x400 + (low - 0xDC00))

/-- The character of an escape of one letter. -/
def shortEscape? (c : Char) : Option Char :=
  if c = '"' || c = '\\' || c = '/' then some c
  else if c = 'b' then some '\x08'
  else if c = 'f' then some '\x0c'
  else if c = 'n' then some '\n'
  else if c = 'r' then some '\r'
  else if c = 't' then some '\t'
  else none

/-- Takes off the escape of the second unit of a pair. -/
def secondUnit (high : Nat) (s : List Char) : Taken Char :=
  match letters ['\\', 'u'] s with
  | .error e => .error e
  | .ok (_, rest) =>
    match codeUnit rest with
    | .error e => .error e
    | .ok (low, rest) =>
      if isLowSurrogate low then .ok (pairedUnits high low, rest) else .error .malformed

theorem length_le_of_secondUnit {high : Nat} {s rest : List Char} {c : Char}
    (h : secondUnit high s = .ok (c, rest)) : rest.length ≤ s.length := by
  rw [secondUnit] at h
  split at h
  · cases h
  next hl =>
    have le := length_le_of_letters hl
    split at h
    · cases h
    next hu =>
      have lt := length_lt_of_codeUnit hu
      split at h
      · obtain ⟨-, rfl⟩ := Prod.mk.inj (Except.ok.inj h)
        omega
      · cases h

/-- Takes off the character that code units spell, after the `u` of the first. -/
def unicodeEscape (s : List Char) : Taken Char :=
  match codeUnit s with
  | .error e => .error e
  | .ok (n, rest) =>
    if isLowSurrogate n then .error .malformed
    else if isHighSurrogate n then secondUnit n rest
    else .ok (Char.ofNat n, rest)

theorem length_le_of_unicodeEscape {s rest : List Char} {c : Char}
    (h : unicodeEscape s = .ok (c, rest)) : rest.length ≤ s.length := by
  rw [unicodeEscape] at h
  split at h
  · cases h
  next hu =>
    have lt := length_lt_of_codeUnit hu
    split at h
    · cases h
    · split at h
      · have le := length_le_of_secondUnit h
        omega
      · cases h
        omega

/-! ## Whole strings -/

/-- Takes off one character of a string, or its closing quote. -/
def stringItem (s : List Char) : Taken (Option Char) :=
  match s with
  | [] => .error .ended
  | '"' :: rest => .ok (none, rest)
  | ['\\'] => .error .ended
  | '\\' :: 'u' :: rest =>
    match unicodeEscape rest with
    | .error e => .error e
    | .ok (c, rest) => .ok (some c, rest)
  | '\\' :: c :: rest =>
    match shortEscape? c with
    | some c => .ok (some c, rest)
    | none => .error .malformed
  | c :: rest => if c.toNat < 32 then .error .malformed else .ok (some c, rest)

theorem length_lt_of_stringItem {s rest : List Char} {item : Option Char}
    (h : stringItem s = .ok (item, rest)) : rest.length < s.length := by
  rw [stringItem.eq_def] at h
  split at h
  · cases h
  · cases h
    exact Nat.lt_succ_self _
  · cases h
  · split at h
    · cases h
    next hu =>
      cases h
      have le := length_le_of_unicodeEscape hu
      simp only [List.length_cons]
      omega
  · split at h
    · cases h
      simp only [List.length_cons]
      omega
    · cases h
  · split at h
    · cases h
    · cases h
      exact Nat.lt_succ_self _

/-- Takes off the rest of a string, after the characters `done`, last first. -/
def stringAfter (done : List Char) (s : List Char) : Taken String :=
  match _h : stringItem s with
  | .error e => .error e
  | .ok (none, rest) => .ok (String.ofList done.reverse, rest)
  | .ok (some c, rest) => stringAfter (c :: done) rest
termination_by s.length
decreasing_by exact length_lt_of_stringItem _h

/-- Takes off a string after its opening quote. -/
def stringBody (s : List Char) : Taken String :=
  stringAfter [] s

theorem length_lt_of_stringAfter {done s rest : List Char} {value : String}
    (h : stringAfter done s = .ok (value, rest)) : rest.length < s.length := by
  fun_induction stringAfter done s with
  | case1 => cases h
  | case2 done s r hi =>
    cases h
    exact length_lt_of_stringItem hi
  | case3 done s c r hi ih =>
    have lt := length_lt_of_stringItem hi
    have lt' := ih h
    omega

theorem length_lt_of_stringBody {s rest : List Char} {value : String}
    (h : stringBody s = .ok (value, rest)) : rest.length < s.length :=
  length_lt_of_stringAfter h

end Registrar.Text.Json
