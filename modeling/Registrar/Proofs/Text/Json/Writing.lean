import Mathlib
import Registrar.Text.Json.Token

/-!
# What written values look like

A written value begins with a character that is neither a blank nor a closing bracket, so a reader
that comes to it finds it. Behind it comes a comma or a closing mark, or the text ends. Items and
members are told apart by the comma in front of each of them but the first.
-/

namespace Registrar.Text.Json

/-! ## The end of a value -/

/-- Whether what follows in a text ends the value in front of it. -/
def Delimited (rest : List Char) : Prop :=
  ∀ c ∈ rest.head?, c = ',' ∨ c = ']' ∨ c = '\x7d'

theorem delimited_nil : Delimited [] := by
  intro c hc
  cases hc

theorem delimited_cons {c : Char} (h : c = ',' ∨ c = ']' ∨ c = '\x7d') (rest : List Char) :
    Delimited (c :: rest) := by
  intro d hd
  cases hd
  exact h

/-! ## The beginning of a value -/

theorem isDigit_of_mem_decimal {n : Nat} {c : Char} (h : c ∈ decimal n) : c.isDigit = true :=
  Nat.isDigit_of_mem_toDigits (by decide) (by decide) h

/-- A number begins with a digit. -/
theorem exists_decimal_eq_cons (n : Nat) : ∃ c cs, decimal n = c :: cs ∧ c.isDigit = true := by
  obtain ⟨c, cs, h⟩ := List.exists_cons_of_ne_nil (Nat.toDigits_ne_nil : Nat.toDigits 10 n ≠ [])
  refine ⟨c, cs, h, isDigit_of_mem_decimal (n := n) ?_⟩
  unfold decimal
  rw [h]
  exact List.mem_cons_self

theorem skipBlanks_cons {c : Char} (h : isBlank c = false) (s : List Char) :
    skipBlanks (c :: s) = c :: s :=
  List.dropWhile_cons_of_neg (by rw [h]; exact Bool.false_ne_true)

theorem isBlank_of_isDigit {c : Char} (h : c.isDigit = true) : isBlank c = false := by
  by_contra hblank
  simp only [isBlank, Bool.not_eq_false, Bool.or_eq_true, decide_eq_true_eq] at hblank
  rcases hblank with ((rfl | rfl) | rfl) | rfl <;> cases h

theorem quote_append (s : String) (rest : List Char) :
    quote s ++ rest = '"' :: (s.toList.flatMap escape ++ '"' :: rest) := by
  unfold quote
  rw [List.cons_append, List.cons_append, List.append_assoc]
  rfl

theorem skipBlanks_quote (s : String) (rest : List Char) :
    skipBlanks (quote s ++ rest) = quote s ++ rest :=
  skipBlanks_cons (by decide) _

/-- No value begins with a blank or with a closing bracket. -/
theorem exists_chars_eq_cons (json : Json) :
    ∃ c cs, json.chars = c :: cs ∧ isBlank c = false ∧ c ≠ ']' := by
  cases json with
  | null => exact ⟨'n', _, rfl, by decide, by decide⟩
  | number n =>
    obtain ⟨c, cs, hcons, hdigit⟩ := exists_decimal_eq_cons n
    refine ⟨c, cs, hcons, isBlank_of_isDigit hdigit, ?_⟩
    rintro rfl
    cases hdigit
  | text s => exact ⟨'"', _, rfl, by decide, by decide⟩
  | array items => exact ⟨'[', _, rfl, by decide, by decide⟩
  | object members => exact ⟨'\x7b', _, rfl, by decide, by decide⟩

/-! ## Items and members -/

/-- The items of an array that follow the first, each behind a comma. -/
def laterItems (items : List Json) : List Char :=
  items.flatMap fun item => ',' :: item.chars

theorem itemChars_cons (item : Json) (items : List Json) :
    itemChars (item :: items) = item.chars ++ laterItems items := by
  induction items generalizing item with
  | nil =>
    rw [itemChars]
    exact (List.append_nil _).symm
  | cons next items ih =>
    rw [itemChars, ih]
    · rfl
    · exact List.cons_ne_nil _ _

theorem laterItems_cons (item : Json) (items : List Json) (rest : List Char) :
    laterItems (item :: items) ++ ']' :: rest
      = ',' :: (item.chars ++ (laterItems items ++ ']' :: rest)) := by
  simp only [laterItems, List.flatMap_cons, List.append_assoc, List.cons_append]

theorem delimited_laterItems (items : List Json) (rest : List Char) :
    Delimited (laterItems items ++ ']' :: rest) := by
  cases items with
  | nil => exact delimited_cons (by decide) _
  | cons item items => exact delimited_cons (by decide) _

theorem array_append (items : List Json) (rest : List Char) :
    (array items).chars ++ rest = '[' :: (itemChars items ++ ']' :: rest) := by
  rw [chars, List.cons_append, List.cons_append, List.append_assoc]
  rfl

/-- The members of an object that follow the first, each behind a comma. -/
def laterMembers (members : List (String × Json)) : List Char :=
  members.flatMap fun m => ',' :: (quote m.1 ++ ':' :: m.2.chars)

theorem memberChars_cons (name : String) (value : Json) (members : List (String × Json)) :
    memberChars ((name, value) :: members)
      = quote name ++ ':' :: (value.chars ++ laterMembers members) := by
  induction members generalizing name value with
  | nil =>
    rw [memberChars]
    unfold laterMembers
    rw [List.flatMap_nil, List.append_nil]
  | cons next members ih =>
    obtain ⟨name', value'⟩ := next
    rw [memberChars, ih]
    · simp only [laterMembers, List.flatMap_cons, List.append_assoc, List.cons_append]
    · exact List.cons_ne_nil _ _

theorem laterMembers_cons (name : String) (value : Json) (members : List (String × Json))
    (rest : List Char) :
    laterMembers ((name, value) :: members) ++ '\x7d' :: rest
      = ',' :: (quote name
        ++ ':' :: (value.chars ++ (laterMembers members ++ '\x7d' :: rest))) := by
  simp only [laterMembers, List.flatMap_cons, List.append_assoc, List.cons_append]

theorem delimited_laterMembers (members : List (String × Json)) (rest : List Char) :
    Delimited (laterMembers members ++ '\x7d' :: rest) := by
  cases members with
  | nil => exact delimited_cons (by decide) _
  | cons member members => exact delimited_cons (by decide) _

theorem object_append (members : List (String × Json)) (rest : List Char) :
    (object members).chars ++ rest = '\x7b' :: (memberChars members ++ '\x7d' :: rest) := by
  rw [chars, List.cons_append, List.cons_append, List.append_assoc]
  rfl

end Registrar.Text.Json
