import Mathlib
import Registrar.Proofs.Text.Json.Numbers
import Registrar.Proofs.Text.Json.Strings
import Registrar.Text.Json.Skip

/-!
# Written values can be skipped

Whatever value is written, skipping it goes to its end and no further. While a container is skipped
it is the innermost of those that are open, so the statement is about any containers that are open
around the value: after the value, skipping goes on inside them.
-/

namespace Registrar.Text.Json

/-! ## Strings -/

theorem skippedItem_plain {c : Char} (hquote : c ≠ '"') (hbackslash : c ≠ '\\')
    (hblank : ¬ c.toNat < 32) (rest : List Char) : skippedItem (c :: rest) = .ok (false, rest) := by
  rw [skippedItem.eq_def]
  split
  next heq => cases heq
  next heq => exact absurd (List.cons.inj heq).1 hquote
  next heq => exact absurd (List.cons.inj heq).1 hbackslash
  next heq => exact absurd (List.cons.inj heq).1 hbackslash
  next heq => exact absurd (List.cons.inj heq).1 hbackslash
  next heq =>
    obtain ⟨rfl, rfl⟩ := List.cons.inj heq
    rw [if_neg hblank]

/-- What is written for a character is skipped as one character. -/
theorem skippedItem_escape (c : Char) (rest : List Char) :
    skippedItem (escape c ++ rest) = .ok (false, rest) := by
  unfold escape
  split_ifs with hquote hbackslash hbackspace hfeed hline hreturn htab hcontrol
  iterate 7 rfl
  · show skippedItem ('\\' :: 'u' :: '0' :: '0' :: Hex.digit (c.toNat / 16)
      :: Hex.digit (c.toNat % 16) :: rest) = _
    rw [skippedItem, codeUnit_digits (by omega)]
  · exact skippedItem_plain hquote hbackslash hcontrol rest

theorem skipString_eq (s : List Char) :
    skipString s = match skippedItem s with
      | .error e => .error e
      | .ok (true, rest) => .ok rest
      | .ok (false, rest) => skipString rest := by
  rw [skipString]
  split <;> simp only [*]

/-- A string is skipped up to its closing quote. -/
theorem skipString_escape (cs rest : List Char) :
    skipString (cs.flatMap escape ++ '"' :: rest) = .ok rest := by
  induction cs with
  | nil =>
    rw [skipString_eq]
    rfl
  | cons c cs ih =>
    rw [List.flatMap_cons, List.append_assoc, skipString_eq, skippedItem_escape]
    exact ih

/-! ## One step -/

theorem skipValue_eq (outer : List Container) (s : List Char) :
    skipValue outer s = match skipBlanks s with
      | [] => .error .ended
      | c :: rest =>
        if c = '[' then skipAfter false (.array :: outer) rest
        else if c = '\x7b' then skipAfter false (.object :: outer) rest
        else
          match skipScalar c rest with
          | .error e => .error e
          | .ok rest => skipAfter true outer rest := by
  rw [skipValue]
  split
  · simp only [*]
  · simp only [*]
    split
    · rfl
    split
    · rfl
    · split <;> simp only [*]

theorem skipAfter_eq (afterValue : Bool) (container : Container) (outer : List Container)
    (s : List Char) :
    skipAfter afterValue (container :: outer) s = match skipBlanks s with
      | [] => .error .ended
      | c :: rest =>
        if c = container.closing then skipAfter true outer rest
        else if afterValue && c ≠ ',' then .error .malformed
        else
          match container.toValue (if afterValue then rest else c :: rest) with
          | .error e => .error e
          | .ok rest => skipValue (container :: outer) rest := by
  rw [skipAfter]
  split
  · simp only [*]
  · simp only [*]
    split
    · rfl
    split
    · rfl
    · split <;> simp only [*]

section

variable {container : Container} {outer : List Container} {c : Char} {s rest rest' : List Char}

theorem skipValue_array (rest : List Char) :
    skipValue outer ('[' :: rest) = skipAfter false (.array :: outer) rest := by
  rw [skipValue_eq, skipBlanks_cons (by decide)]
  rfl

theorem skipValue_object (rest : List Char) :
    skipValue outer ('\x7b' :: rest) = skipAfter false (.object :: outer) rest := by
  rw [skipValue_eq, skipBlanks_cons (by decide)]
  rfl

/-- A value that is no container is skipped as a whole. -/
theorem skipValue_scalar (hblank : isBlank c = false) (harray : c ≠ '[') (hobject : c ≠ '\x7b')
    (hscalar : skipScalar c rest = .ok rest') :
    skipValue outer (c :: rest) = skipAfter true outer rest' := by
  rw [skipValue_eq, skipBlanks_cons hblank]
  simp only [harray, hobject, hscalar, if_false]

theorem skipAfter_close (afterValue : Bool) (container : Container) (rest : List Char) :
    skipAfter afterValue (container :: outer) (container.closing :: rest)
      = skipAfter true outer rest := by
  have hblank : isBlank container.closing = false := by cases container <;> decide
  rw [skipAfter_eq, skipBlanks_cons hblank]
  simp only [if_true]

/-- Inside a container, skipping goes on to the next value, behind a comma if one is due. -/
theorem skipAfter_value {afterValue : Bool} (hblank : isBlank c = false)
    (hopen : c ≠ container.closing) (hcomma : (afterValue && c ≠ ',') = false)
    (hvalue : container.toValue (if afterValue then rest else c :: rest) = .ok rest') :
    skipAfter afterValue (container :: outer) (c :: rest)
      = skipValue (container :: outer) rest' := by
  rw [skipAfter_eq, skipBlanks_cons hblank]
  simp only [hopen, hcomma, hvalue, if_false, Bool.false_eq_true]

end

theorem skipName_quote (name : String) (rest : List Char) :
    skipName (quote name ++ ':' :: rest) = .ok rest := by
  unfold skipName mark
  rw [skipBlanks_quote, quote_append]
  simp only [if_true, skipString_escape]
  rfl

/-! ## Whole values -/

theorem skipScalar_decimal (n : Nat) {c : Char} {cs rest : List Char}
    (h : decimal n = c :: cs) (hrest : Delimited rest) :
    skipScalar c (cs ++ rest) = .ok rest := by
  have hdigit : c.isDigit = true := isDigit_of_mem_decimal (n := n) (by rw [h]; simp)
  have hnumeral := numeral_decimal .malformed n hrest
  rw [h, List.cons_append] at hnumeral
  have hother : c ≠ 'n' ∧ c ≠ 't' ∧ c ≠ 'f' ∧ c ≠ '"' := by
    refine ⟨?_, ?_, ?_, ?_⟩ <;> rintro rfl <;> cases hdigit
  have hbegins : beginsNumeral c = true := by
    unfold beginsNumeral
    rw [hdigit, Bool.or_true]
  unfold skipScalar skipNumeral
  rw [if_neg hother.1, if_neg hother.2.1, if_neg hother.2.2.1, if_neg hother.2.2.2, if_pos hbegins,
    hnumeral]

theorem skipAfter_item (outer : List Container) (item : Json) (rest : List Char) :
    skipAfter false (.array :: outer) (item.chars ++ rest)
      = skipValue (.array :: outer) (item.chars ++ rest) := by
  obtain ⟨c, cs, hcons, hblank, hopen⟩ := exists_chars_eq_cons item
  rw [hcons, List.cons_append]
  exact skipAfter_value hblank hopen rfl rfl

theorem skipAfter_member (outer : List Container) (name : String) (rest : List Char) :
    skipAfter false (.object :: outer) (quote name ++ ':' :: rest)
      = skipValue (.object :: outer) rest := by
  have hname := skipName_quote name rest
  rw [quote_append] at hname ⊢
  exact skipAfter_value (by decide) (by decide) rfl hname

theorem skipAfter_comma_item (outer : List Container) (rest : List Char) :
    skipAfter true (.array :: outer) (',' :: rest) = skipValue (.array :: outer) rest :=
  skipAfter_value (by decide) (by decide) rfl rfl

theorem skipAfter_comma_member (outer : List Container) (name : String) (rest : List Char) :
    skipAfter true (.object :: outer) (',' :: (quote name ++ ':' :: rest))
      = skipValue (.object :: outer) rest :=
  skipAfter_value (by decide) (by decide) rfl (skipName_quote name rest)

mutual

/-- After a written value, skipping goes on in what is open around it. -/
theorem skipValue_chars (outer : List Container) {rest : List Char} (h : Delimited rest) :
    (json : Json) → skipValue outer (json.chars ++ rest) = skipAfter true outer rest
  | .null => skipValue_scalar (by decide) (by decide) (by decide) rfl
  | .number n => by
    obtain ⟨c, cs, hcons, hdigit⟩ := exists_decimal_eq_cons n
    have hscalar := skipScalar_decimal n hcons h
    rw [chars, hcons, List.cons_append]
    refine skipValue_scalar (isBlank_of_isDigit hdigit) ?_ ?_ hscalar
    · rintro rfl
      cases hdigit
    · rintro rfl
      cases hdigit
  | .text s => by
    rw [chars, quote_append]
    exact skipValue_scalar (by decide) (by decide) (by decide)
      (skipString_escape s.toList rest)
  | .array [] => by
    rw [array_append, skipValue_array]
    exact skipAfter_close false .array rest
  | .array (item :: items) => by
    rw [array_append, skipValue_array, itemChars_cons,
      List.append_assoc, skipAfter_item, skipValue_chars _ (delimited_laterItems items rest) item,
      skipAfter_laterItems outer rest items]
  | .object [] => by
    rw [object_append, skipValue_object]
    exact skipAfter_close false .object rest
  | .object ((name, value) :: members) => by
    rw [object_append, skipValue_object, memberChars_cons,
      List.append_assoc, List.cons_append, List.append_assoc, skipAfter_member,
      skipValue_chars _ (delimited_laterMembers members rest) value,
      skipAfter_laterMembers outer rest members]

/-- The items of an array that follow the first are skipped, and then the array ends. -/
theorem skipAfter_laterItems (outer : List Container) (rest : List Char) :
    (items : List Json) →
      skipAfter true (.array :: outer) (laterItems items ++ ']' :: rest) = skipAfter true outer rest
  | [] => skipAfter_close true .array rest
  | item :: items => by
    rw [laterItems_cons, skipAfter_comma_item,
      skipValue_chars _ (delimited_laterItems items rest) item,
      skipAfter_laterItems outer rest items]

/-- The members of an object that follow the first are skipped, and then the object ends. -/
theorem skipAfter_laterMembers (outer : List Container) (rest : List Char) :
    (members : List (String × Json)) →
      skipAfter true (.object :: outer) (laterMembers members ++ '\x7d' :: rest)
        = skipAfter true outer rest
  | [] => skipAfter_close true .object rest
  | (name, value) :: members => by
    rw [laterMembers_cons, skipAfter_comma_member,
      skipValue_chars _ (delimited_laterMembers members rest) value,
      skipAfter_laterMembers outer rest members]

end

/-- **A written value is skipped to its end.** -/
theorem skip_chars (json : Json) {rest : List Char} (h : Delimited rest) :
    skip (json.chars ++ rest) = .ok rest := by
  unfold skip
  rw [skipValue_chars [] h json, skipAfter]

end Registrar.Text.Json
