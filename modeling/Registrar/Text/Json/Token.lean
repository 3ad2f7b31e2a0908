import Registrar.Text.Json.Value

/-!
# Taking tokens off a text

JSON is read strictly from left to right, and the first fault ends the reading, whichever kind it
is: the text ends too early, it is not JSON, or it is JSON of another form than expected. Each step
takes something off the front of the text. That nothing is ever put back is what ends every reading,
so for each step a lemma says how long the rest can be.
-/

namespace Registrar.Text.Json

/-- Why a text cannot be read as what is expected. -/
inductive Fault where
  /-- The text ends inside a value. -/
  | ended
  /-- The text is not JSON. -/
  | malformed
  /-- The text holds a value of another form. -/
  | mismatch
  deriving DecidableEq, Repr

/-- What is taken off the front of a text, and the rest. -/
abbrev Taken (α : Type) := Except Fault (α × List Char)

/-! ## Blanks and letters -/

/-- The four characters that may stand between the parts of a text. -/
def isBlank (c : Char) : Bool :=
  c = ' ' || c = '\n' || c = '\t' || c = '\r'

/-- The text after its leading blanks. -/
def skipBlanks (s : List Char) : List Char :=
  s.dropWhile isBlank

theorem length_skipBlanks_le (s : List Char) : (skipBlanks s).length ≤ s.length :=
  (List.dropWhile_suffix isBlank).length_le

/-- After the blanks of a text that goes on with `c`, less than the text is left. -/
theorem length_lt_of_skipBlanks {s rest : List Char} {c : Char} (h : skipBlanks s = c :: rest) :
    rest.length < s.length := by
  have le := length_skipBlanks_le s
  rw [h, List.length_cons] at le
  omega

/-- Takes off exactly these letters. -/
def letters : List Char → List Char → Taken Unit
  | [], s => .ok ((), s)
  | _ :: _, [] => .error .ended
  | e :: es, c :: s => if c = e then letters es s else .error .malformed

theorem length_le_of_letters {es s rest : List Char} {u : Unit}
    (h : letters es s = .ok (u, rest)) : rest.length ≤ s.length := by
  fun_induction letters es s with
  | case1 s =>
    cases h
    exact Nat.le_refl _
  | case2 => cases h
  | case3 e es s ih =>
    have le := ih h
    rw [List.length_cons]
    omega
  | case4 => cases h

/-! ## Marks -/

/-- Takes off a mark that has to come after the blanks. -/
def mark (expected : Char) (s : List Char) : Except Fault (List Char) :=
  match skipBlanks s with
  | [] => .error .ended
  | c :: rest => if c = expected then .ok rest else .error .malformed

theorem length_lt_of_mark {expected : Char} {s rest : List Char} (h : mark expected s = .ok rest) :
    rest.length < s.length := by
  rw [mark] at h
  split at h
  · cases h
  next c r hs =>
    split at h
    · cases h
      exact length_lt_of_skipBlanks hs
    · cases h

end Registrar.Text.Json
