import Registrar.Text.Json.Escape
import Registrar.Text.Json.Numeral

/-!
# Skipping JSON values

A value that nothing expects is skipped, with all that it holds. It has to be JSON, but its strings
may hold escapes that spell no character and its numbers may be of any size. Values lie in one
another to any depth, so the containers that are still open are kept in a list, innermost first.
-/

namespace Registrar.Text.Json

/-! ## Strings -/

/-- Takes off one character of a string that is skipped; tells whether it is the closing quote. -/
def skippedItem (s : List Char) : Taken Bool :=
  match s with
  | [] => .error .ended
  | '"' :: rest => .ok (true, rest)
  | ['\\'] => .error .ended
  | '\\' :: 'u' :: rest =>
    match codeUnit rest with
    | .error e => .error e
    | .ok (_, rest) => .ok (false, rest)
  | '\\' :: c :: rest =>
    if (shortEscape? c).isSome then .ok (false, rest) else .error .malformed
  | c :: rest => if c.toNat < 32 then .error .malformed else .ok (false, rest)

theorem length_lt_of_skippedItem {s rest : List Char} {closed : Bool}
    (h : skippedItem s = .ok (closed, rest)) : rest.length < s.length := by
  rw [skippedItem.eq_def] at h
  split at h
  · cases h
  · cases h
    exact Nat.lt_succ_self _
  · cases h
  · split at h
    · cases h
    next hu =>
      cases h
      have lt := length_lt_of_codeUnit hu
      simp only [List.length_cons]
      omega
  · split at h
    · cases h
      simp only [List.length_cons]
      omega
    · cases h
  · split at h
    · cases h
    · cases h
      exact Nat.lt_succ_self _

/-- Skips a string after its opening quote. -/
def skipString (s : List Char) : Except Fault (List Char) :=
  match _h : skippedItem s with
  | .error e => .error e
  | .ok (true, rest) => .ok rest
  | .ok (false, rest) => skipString rest
termination_by s.length
decreasing_by exact length_lt_of_skippedItem _h

theorem length_lt_of_skipString {s rest : List Char} (h : skipString s = .ok rest) :
    rest.length < s.length := by
  fun_induction skipString s with
  | case1 => cases h
  | case2 s r hi =>
    cases h
    exact length_lt_of_skippedItem hi
  | case3 s r hi ih =>
    have lt := length_lt_of_skippedItem hi
    have lt' := ih h
    omega

/-! ## Values that hold no others -/

/-- Takes off letters and nothing else. -/
def skipLetters (es s : List Char) : Except Fault (List Char) :=
  match letters es s with
  | .error e => .error e
  | .ok (_, rest) => .ok rest

theorem length_le_of_skipLetters {es s rest : List Char} (h : skipLetters es s = .ok rest) :
    rest.length ≤ s.length := by
  rw [skipLetters] at h
  split at h
  · cases h
  next hl =>
    cases h
    exact length_le_of_letters hl

/-- Skips a number. -/
def skipNumeral (s : List Char) : Except Fault (List Char) :=
  match numeral .malformed s with
  | .error e => .error e
  | .ok (_, rest) => .ok rest

theorem length_lt_of_skipNumeral {s rest : List Char} (h : skipNumeral s = .ok rest) :
    rest.length < s.length := by
  rw [skipNumeral] at h
  split at h
  · cases h
  next hn =>
    cases h
    exact length_lt_of_numeral hn

/-- Skips a value that is no container and begins with `c`. -/
def skipScalar (c : Char) (rest : List Char) : Except Fault (List Char) :=
  if c = 'n' then skipLetters ['u', 'l', 'l'] rest
  else if c = 't' then skipLetters ['r', 'u', 'e'] rest
  else if c = 'f' then skipLetters ['a', 'l', 's', 'e'] rest
  else if c = '"' then skipString rest
  else if beginsNumeral c then skipNumeral (c :: rest)
  else .error .malformed

theorem length_le_of_skipScalar {c : Char} {s rest : List Char} (h : skipScalar c s = .ok rest) :
    rest.length ≤ s.length := by
  rw [skipScalar] at h
  split at h
  · exact length_le_of_skipLetters h
  split at h
  · exact length_le_of_skipLetters h
  split at h
  · exact length_le_of_skipLetters h
  split at h
  · exact Nat.le_of_lt (length_lt_of_skipString h)
  split at h
  · exact Nat.le_of_lt_succ (length_lt_of_skipNumeral h)
  · cases h

/-! ## Containers -/

/-- What holds the values that are being skipped. -/
inductive Container where
  | array
  | object
  deriving DecidableEq, Repr

/-- The mark that closes a container. -/
def Container.closing : Container → Char
  | .array => ']'
  | .object => '\x7d'

/-- Skips the name of a member and the colon after it. -/
def skipName (s : List Char) : Except Fault (List Char) :=
  match mark '"' s with
  | .error e => .error e
  | .ok rest =>
    match skipString rest with
    | .error e => .error e
    | .ok rest => mark ':' rest

theorem length_lt_of_skipName {s rest : List Char} (h : skipName s = .ok rest) :
    rest.length < s.length := by
  rw [skipName] at h
  split at h
  · cases h
  next hq =>
    split at h
    · cases h
    next hs =>
      have lt := length_lt_of_mark hq
      have lt' := length_lt_of_skipString hs
      have lt'' := length_lt_of_mark h
      omega

/-- Comes to the next value of a container: in an object its name is skipped. -/
def Container.toValue (container : Container) (s : List Char) : Except Fault (List Char) :=
  match container with
  | .array => .ok s
  | .object => skipName s

theorem Container.length_le_of_toValue {container : Container} {s rest : List Char}
    (h : container.toValue s = .ok rest) : rest.length ≤ s.length := by
  cases container with
  | array =>
    cases h
    exact Nat.le_refl _
  | object => exact Nat.le_of_lt (length_lt_of_skipName h)

/-- A text with or without its first character is no longer than any that is longer than the rest.
-/
theorem length_ite_le {b : Bool} {c : Char} {rest s : List Char} (lt : rest.length < s.length) :
    (if b then rest else c :: rest).length ≤ s.length := by
  split
  · exact Nat.le_of_lt lt
  · exact lt

mutual

/-- Skips a value that lies in `outer`, innermost first, and everything up to their ends. -/
def skipValue (outer : List Container) (s : List Char) : Except Fault (List Char) :=
  match _h : skipBlanks s with
  | [] => .error .ended
  | c :: rest =>
    if c = '[' then skipAfter false (.array :: outer) rest
    else if c = '\x7b' then skipAfter false (.object :: outer) rest
    else
      match _hv : skipScalar c rest with
      | .error e => .error e
      | .ok rest => skipAfter true outer rest
termination_by (s.length, 0)
decreasing_by
  · exact .left _ _ (length_lt_of_skipBlanks _h)
  · exact .left _ _ (length_lt_of_skipBlanks _h)
  · exact .left _ _ (Nat.lt_of_le_of_lt (length_le_of_skipScalar _hv) (length_lt_of_skipBlanks _h))

/-- Goes on inside `outer`, innermost first: after a value, when `afterValue` holds, or right after
the opening bracket. -/
def skipAfter (afterValue : Bool) (outer : List Container) (s : List Char) :
    Except Fault (List Char) :=
  match outer with
  | [] => .ok s
  | container :: outer =>
    match _h : skipBlanks s with
    | [] => .error .ended
    | c :: rest =>
      if c = container.closing then skipAfter true outer rest
      else if afterValue && c ≠ ',' then .error .malformed
      else
        match _hv : container.toValue (if afterValue then rest else c :: rest) with
        | .error e => .error e
        | .ok rest => skipValue (container :: outer) rest
termination_by (s.length, 1)
decreasing_by
  · exact .left _ _ (length_lt_of_skipBlanks _h)
  · have le := Container.length_le_of_toValue _hv
    have le' := Nat.le_trans le (length_ite_le (length_lt_of_skipBlanks _h))
    rcases Nat.lt_or_eq_of_le le' with lt | eq
    · exact .left _ _ lt
    · rw [eq]
      exact .right _ Nat.zero_lt_one

end

mutual

theorem length_le_of_skipValue {outer : List Container} {s rest : List Char}
    (h : skipValue outer s = .ok rest) : rest.length ≤ s.length := by
  rw [skipValue] at h
  split at h
  · cases h
  next c r hb =>
    have lt := length_lt_of_skipBlanks hb
    split at h
    · exact Nat.le_trans (length_le_of_skipAfter h) (Nat.le_of_lt lt)
    split at h
    · exact Nat.le_trans (length_le_of_skipAfter h) (Nat.le_of_lt lt)
    split at h
    · cases h
    next hv =>
      have lt' := Nat.lt_of_le_of_lt (length_le_of_skipScalar hv) lt
      exact Nat.le_trans (length_le_of_skipAfter h) (Nat.le_of_lt lt')
termination_by (s.length, 0)
decreasing_by
  · exact .left _ _ lt'
  · exact .left _ _ lt
  · exact .left _ _ lt

theorem length_le_of_skipAfter {afterValue : Bool} {outer : List Container} {s rest : List Char}
    (h : skipAfter afterValue outer s = .ok rest) : rest.length ≤ s.length := by
  rw [skipAfter.eq_def] at h
  split at h
  · cases h
    exact Nat.le_refl _
  next container outer =>
    split at h
    · cases h
    next c r hb =>
      have lt := length_lt_of_skipBlanks hb
      split at h
      · exact Nat.le_trans (length_le_of_skipAfter h) (Nat.le_of_lt lt)
      split at h
      · cases h
      split at h
      · cases h
      next hv =>
        have le' := Nat.le_trans (Container.length_le_of_toValue hv)
          (length_ite_le lt : _ ≤ s.length)
        exact Nat.le_trans (length_le_of_skipValue h) le'
termination_by (s.length, 1)
decreasing_by
  · rcases Nat.lt_or_eq_of_le le' with lt' | eq
    · exact .left _ _ lt'
    · rw [eq]
      exact .right _ Nat.zero_lt_one
  · exact .left _ _ lt

end

/-- Skips one value. -/
def skip (s : List Char) : Except Fault (List Char) :=
  skipValue [] s

theorem length_le_of_skip {s rest : List Char} (h : skip s = .ok rest) : rest.length ≤ s.length :=
  length_le_of_skipValue h

end Registrar.Text.Json
