import Mathlib
import Registrar.Proofs.Text.Json.Skipping
import Registrar.Text.Json.Reader

/-!
# Values are read as they were written

A reader fits a written value if it reads it whatever ends it, and leaves what ends it. Readers of
strings and numbers fit what they are for. From there on it is inherited: a reader of arrays fits if
that of the items does, and a reader of records if those of the members do, each member once and in
whatever order they are written, with any others between them.
-/

namespace Registrar.Text.Json

/-- Whether a reader reads this value where `json` is written, and nothing of what ends it. -/
def Reads {α : Type} (reader : Reader α) (value : α) (json : Json) : Prop :=
  ∀ rest, Delimited rest → reader.run (json.chars ++ rest) = .ok (value, rest)

/-- A text that consists of a written value is read as that value. -/
theorem Reads.parse {α : Type} {reader : Reader α} {value : α} {json : Json}
    (h : Reads reader value json) : reader.parse json.compact = .ok value := by
  have hrun := h [] delimited_nil
  rw [List.append_nil] at hrun
  unfold Reader.parse Reader.readAll compact
  rw [String.toList_ofList, hrun]
  rfl

/-! ## Strings and numbers -/

theorem takeString_quote (s : String) (rest : List Char) :
    Reader.takeString (quote s ++ rest) = .ok (s, rest) := by
  unfold Reader.takeString
  rw [skipBlanks_quote]
  rw [quote_append]
  exact stringBody_quote s rest

namespace Reads

theorem string (s : String) : Reads Reader.string s (.text s) :=
  fun rest _ => takeString_quote s rest

theorem stringAs {α : Type} {parse : String → Option α} {s : String} {value : α}
    (h : parse s = some value) : Reads (Reader.stringAs parse) value (.text s) := by
  intro rest _
  show Reader.takeStringAs parse (quote s ++ rest) = _
  unfold Reader.takeStringAs
  rw [takeString_quote]
  simp only [h]

theorem oneOf {α : Type} {ofName? : String → Option α} {s : String} {value : α}
    (h : ofName? s = some value) : Reads (Reader.oneOf ofName?) value (.text s) := by
  intro rest hrest
  show Reader.takeName ofName? (quote s ++ rest) = _
  unfold Reader.takeName
  rw [skipBlanks_quote]
  exact Reads.stringAs h rest hrest

theorem word64 (w : UInt64) : Reads Reader.word64 w (.number w.toNat) := by
  intro rest hrest
  have hlt : w.toNat < UInt64.size := w.toNat_lt
  have hnumeral := numeral_decimal .ended w.toNat hrest
  rw [ofParts_decimal hlt] at hnumeral
  obtain ⟨c, cs, hcons, hdigit⟩ := exists_decimal_eq_cons w.toNat
  have hbegins : beginsNumeral c = true := by
    unfold beginsNumeral
    rw [hdigit, Bool.or_true]
  show Reader.takeWord64 (decimal w.toNat ++ rest) = _
  rw [hcons, List.cons_append] at hnumeral ⊢
  unfold Reader.takeWord64
  rw [skipBlanks_cons (isBlank_of_isDigit hdigit)]
  simp only [hbegins, hnumeral, isHuge_ofNat hlt, word?_ofNat, if_true, Bool.false_eq_true,
    if_false]

end Reads

/-! ## Whole texts -/

/-- A text is a value just if the value is taken off it and no more than blanks are left. -/
theorem parse_eq_ok_iff {α : Type} {reader : Reader α} {json : String} {value : α} :
    reader.parse json = .ok value
      ↔ ∃ rest, reader.run json.toList = .ok (value, rest) ∧ skipBlanks rest = [] := by
  unfold Reader.parse Reader.readAll
  rcases reader.run json.toList with e | ⟨taken, rest⟩
  · simp
  · by_cases hrest : skipBlanks rest = []
    · simp [hrest]
    · simp only [List.isEmpty_iff, hrest, if_false, reduceCtorEq, false_iff]
      rintro ⟨left, htaken, hblank⟩
      cases htaken
      exact hrest hblank

theorem takeStringAs_eq_ok_iff {α : Type} {parse : String → Option α} {s rest : List Char}
    {value : α} :
    Reader.takeStringAs parse s = .ok (value, rest)
      ↔ ∃ text, Reader.takeString s = .ok (text, rest) ∧ parse text = some value := by
  unfold Reader.takeStringAs
  rcases Reader.takeString s with e | ⟨text, left⟩
  · simp
  · cases hparse : parse text <;> simp [hparse, and_comm]

/-- A string of a form of its own is read where a string is, if its text is of that form. -/
theorem parse_stringAs_eq_ok_iff {α : Type} {parse : String → Option α} {json : String}
    {value : α} :
    (Reader.stringAs parse).parse json = .ok value
      ↔ ∃ text, Reader.string.parse json = .ok text ∧ parse text = some value := by
  have hrun (rest : List Char) : (Reader.stringAs parse).run json.toList = .ok (value, rest)
      ↔ ∃ text, Reader.string.run json.toList = .ok (text, rest) ∧ parse text = some value :=
    takeStringAs_eq_ok_iff
  simp only [parse_eq_ok_iff, hrun]
  constructor
  · rintro ⟨rest, ⟨text, htake, hparse⟩, hblank⟩
    exact ⟨text, ⟨rest, htake, hblank⟩, hparse⟩
  · rintro ⟨text, ⟨rest, htake, hblank⟩, hparse⟩
    exact ⟨rest, ⟨text, htake, hparse⟩, hblank⟩

/-! ## Arrays -/

theorem nextItem_first (item : Json) (rest : List Char) :
    Reader.nextItem true (item.chars ++ rest) = .ok (some (item.chars ++ rest)) := by
  obtain ⟨c, cs, hcons, hblank, hclose⟩ := exists_chars_eq_cons item
  rw [hcons, List.cons_append]
  unfold Reader.nextItem
  rw [skipBlanks_cons hblank]
  simp only [if_neg hclose, if_true]

theorem nextItem_comma (item : Json) (rest : List Char) :
    Reader.nextItem false (',' :: (item.chars ++ rest)) = .ok (some (item.chars ++ rest)) := by
  obtain ⟨c, cs, hcons, hblank, hclose⟩ := exists_chars_eq_cons item
  rw [hcons, List.cons_append]
  unfold Reader.nextItem
  rw [skipBlanks_cons (by decide)]
  simp only [skipBlanks_cons hblank, if_neg hclose]
  rfl

section

variable {α : Type} {item : Reader α} {done : List α}

theorem itemsAfter_eq (item : Reader α) (done : List α) (s : List Char) :
    Reader.itemsAfter item done s = match Reader.nextItem done.isEmpty s with
      | .error e => .error e
      | .ok none => .ok (done.reverse, s)
      | .ok (some rest) =>
        match item.run rest with
        | .error e => .error e
        | .ok (value, rest) => Reader.itemsAfter item (value :: done) rest := by
  rw [Reader.itemsAfter]
  split
  · simp only [*]
  · simp only [*]
  · simp only [*]
    split <;> simp only [*]

/-- After the first item of an array the others are read, up to its closing bracket. -/
theorem itemsAfter_laterItems {values : List α} {items : List Json}
    (h : List.Forall₂ (Reads item) values items) {last : α} (rest : List Char) :
    Reader.itemsAfter item (last :: done) (laterItems items ++ ']' :: rest)
      = .ok ((last :: done).reverse ++ values, ']' :: rest) := by
  induction h generalizing last done with
  | nil =>
    rw [List.append_nil, itemsAfter_eq]
    rfl
  | @cons value json values items hvalue _ ih =>
    have hnext : Reader.nextItem (last :: done).isEmpty
        (',' :: (json.chars ++ (laterItems items ++ ']' :: rest)))
          = .ok (some (json.chars ++ (laterItems items ++ ']' :: rest))) :=
      nextItem_comma _ _
    rw [laterItems_cons, itemsAfter_eq, hnext]
    simp only [hvalue _ (delimited_laterItems items rest), ih]
    rw [List.reverse_cons (a := value), List.append_assoc]
    rfl

/-- The items of an array are read, up to its closing bracket. -/
theorem itemsAfter_itemChars {values : List α} {items : List Json}
    (h : List.Forall₂ (Reads item) values items) (rest : List Char) :
    Reader.itemsAfter item [] (itemChars items ++ ']' :: rest) = .ok (values, ']' :: rest) := by
  cases h with
  | nil =>
    rw [itemsAfter_eq]
    rfl
  | @cons value json values items hvalue hvalues =>
    have hnext : Reader.nextItem ([] : List α).isEmpty (itemChars (json :: items) ++ ']' :: rest)
        = .ok (some (json.chars ++ (laterItems items ++ ']' :: rest))) := by
      rw [itemChars_cons, List.append_assoc]
      exact nextItem_first _ _
    rw [itemsAfter_eq, hnext]
    simp only [hvalue _ (delimited_laterItems items rest), itemsAfter_laterItems hvalues]
    rfl

theorem Reads.array {values : List α} {items : List Json}
    (h : List.Forall₂ (Reads item) values items) :
    Reads (Reader.array item) values (.array items) := by
  intro rest _
  have hclose : mark ']' (']' :: rest) = .ok rest := rfl
  rw [array_append]
  show Reader.takeArray item ('[' :: (itemChars items ++ ']' :: rest)) = .ok (values, rest)
  unfold Reader.takeArray
  rw [skipBlanks_cons (by decide)]
  simp only [if_true, itemsAfter_itemChars h rest, hclose]

/-- An array is read if each of its items is. -/
theorem Reads.arrayOf {json : α → Json} {values : List α}
    (h : ∀ value ∈ values, Reads item value (json value)) :
    Reads (Reader.array item) values (.array (values.map json)) := by
  apply Reads.array
  rw [List.forall₂_map_right_iff, List.forall₂_same]
  exact h

end

/-! ## Records -/

theorem nextName_first (name : String) (rest : List Char) :
    Reader.nextName true (quote name ++ rest)
      = .ok (some (name.toList.flatMap escape ++ '"' :: rest)) := by
  unfold Reader.nextName
  rw [skipBlanks_quote, quote_append]
  rfl

theorem nextName_comma (name : String) (rest : List Char) :
    Reader.nextName false (',' :: (quote name ++ rest))
      = .ok (some (name.toList.flatMap escape ++ '"' :: rest)) := by
  unfold Reader.nextName
  rw [skipBlanks_cons (by decide)]
  simp only [quote_append]
  rfl

section

variable {σ : Type} {members : List (Reader.Member σ)} {given given' : σ}

theorem namedMembers_eq (members : List (Reader.Member σ)) (first : Bool) (given : σ)
    (s : List Char) :
    Reader.namedMembers members first given s = match Reader.nextName first s with
      | .error e => .error e
      | .ok none => .ok (given, s)
      | .ok (some rest) =>
        match stringBody rest with
        | .error e => .error e
        | .ok (name, rest) =>
          match Reader.namedMember members name given rest with
          | .error e => .error e
          | .ok (given, rest) => Reader.namedMembers members false given rest := by
  rw [Reader.namedMembers]
  split
  · simp only [*]
  · simp only [*]
  · simp only [*]
    split
    · simp only [*]
    · simp only [*]
      split <;> simp only [*]

/-- Whether what is written under a name brings a collection of members from one state to
another. -/
def ReadsMember (members : List (Reader.Member σ)) (given : σ) (name : String) (json : Json)
    (given' : σ) : Prop :=
  ∀ rest, Delimited rest →
    Reader.namedMember members name given (':' :: (json.chars ++ rest)) = .ok (given', rest)

/-- Whether written members, one after the other, bring a collection from one state to another. -/
inductive Fills (members : List (Reader.Member σ)) : σ → List (String × Json) → σ → Prop where
  | nil (given : σ) : Fills members given [] given
  | cons {given given' given'' : σ} {name : String} {json : Json} {later : List (String × Json)} :
    ReadsMember members given name json given' → Fills members given' later given'' →
    Fills members given ((name, json) :: later) given''

theorem Reads.map {α β : Type} {reader : Reader α} {value : α} {json : Json}
    (h : Reads reader value json) (f : α → β) : Reads (reader.map f) (f value) json := by
  intro rest hrest
  unfold Reader.map
  simp only [h rest hrest]

/-- A member that is kept in a place of its own fills that place, if it is empty. -/
theorem Fills.place {α : Type} {name : String} {reader : Reader α} {get : σ → Option α}
    {set : σ → α → σ} {value : α} {json : Json} {later : List (String × Json)}
    (hfind : members.find? (fun m => m.name = name) = some (.ofPlace name reader get set))
    (hempty : get given = none) (hread : Reads reader value json)
    (hlater : Fills members (set given value) later given') :
    Fills members given ((name, json) :: later) given' := by
  refine Fills.cons ?_ hlater
  intro rest hrest
  have hnew : (Reader.Member.ofPlace name reader get set).isGiven given = false := by
    show (get given).isSome = false
    rw [hempty]
    rfl
  have hcolon : mark ':' (':' :: (json.chars ++ rest)) = .ok (json.chars ++ rest) := rfl
  unfold Reader.namedMember
  simp only [hfind, hnew, hcolon, Bool.false_eq_true, if_false]
  exact hread.map (set given) rest hrest

/-- What is written under any other name is passed over, whatever it is. -/
theorem Fills.other {name : String} {json : Json} {later : List (String × Json)}
    (hfind : members.find? (fun m => m.name = name) = none)
    (hlater : Fills members given later given') :
    Fills members given ((name, json) :: later) given' := by
  refine Fills.cons ?_ hlater
  intro rest hrest
  have hcolon : mark ':' (':' :: (json.chars ++ rest)) = .ok (json.chars ++ rest) := rfl
  unfold Reader.namedMember
  simp only [hfind, hcolon, skip_chars json hrest]

/-- After the first member of an object the others are read, up to its closing brace. -/
theorem namedMembers_laterMembers {later : List (String × Json)}
    (h : Fills members given later given') (rest : List Char) :
    Reader.namedMembers members false given (laterMembers later ++ '\x7d' :: rest)
      = .ok (given', '\x7d' :: rest) := by
  induction h with
  | nil given =>
    rw [namedMembers_eq]
    rfl
  | @cons given given' given'' name json later hmember _ ih =>
    rw [laterMembers_cons, namedMembers_eq, nextName_comma]
    simp only [stringBody_quote, hmember _ (delimited_laterMembers later rest), ih]

/-- The members of an object are read, up to its closing brace. -/
theorem namedMembers_memberChars {written : List (String × Json)}
    (h : Fills members given written given') (rest : List Char) :
    Reader.namedMembers members true given (memberChars written ++ '\x7d' :: rest)
      = .ok (given', '\x7d' :: rest) := by
  cases h with
  | nil given =>
    rw [namedMembers_eq]
    rfl
  | @cons _ next _ name json later hmember hlater =>
    have hchars : memberChars ((name, json) :: later) ++ '\x7d' :: rest
        = quote name ++ ':' :: (json.chars ++ (laterMembers later ++ '\x7d' :: rest)) := by
      rw [memberChars_cons]
      simp only [List.append_assoc, List.cons_append]
    rw [hchars, namedMembers_eq, nextName_first]
    simp only [stringBody_quote, hmember _ (delimited_laterMembers later rest),
      namedMembers_laterMembers hlater]

theorem Reads.record {α : Type} {blank : σ} {finish : σ → Option α} {value : α}
    {written : List (String × Json)} (h : Fills members blank written given)
    (hfinish : finish given = some value) :
    Reads (Reader.record members blank finish) value (.object written) := by
  intro rest _
  have hclose : mark '\x7d' ('\x7d' :: rest) = .ok rest := rfl
  rw [object_append]
  show Reader.takeRecord members blank finish ('\x7b' :: (memberChars written ++ '\x7d' :: rest))
    = .ok (value, rest)
  unfold Reader.takeRecord
  rw [skipBlanks_cons (by decide)]
  simp only [if_true, namedMembers_memberChars h rest]
  unfold Reader.closeRecord
  simp only [hfinish, hclose]

end

end Registrar.Text.Json
