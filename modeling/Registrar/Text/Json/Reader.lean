import Registrar.Text.Json.Skip

/-!
# Reading JSON by what is expected

A reader takes a value of one expected form off the front of a text. Each value takes up at least
one character, so a reader carries the proof that the rest is shorter; that is why arrays and
objects end, whatever their items are.

Records are read from objects, where members may stand in any order and members of other names are
skipped, and also from arrays, where the members stand in their declared order.
-/

namespace Registrar.Text.Json

/-- Takes a value of one form off the front of a text. -/
structure Reader (α : Type) where
  run : List Char → Taken α
  /-- A value that is read takes up some of the text. -/
  shorter : ∀ {s rest value}, run s = .ok (value, rest) → rest.length < s.length

namespace Reader

/-! ## Values of another form -/

/-- What is wrong with a text off which something was taken, if that is not of the expected form. -/
def faultOf {α : Type} : Taken α → Fault
  | .error e => e
  | .ok _ => .mismatch

/-- Why the value at the front of a text, which has no leading blank, is not of the expected form.
It is a mismatch if it is a value at all, as far as that takes reading it. -/
def unexpected (s : List Char) : Fault :=
  match s with
  | [] => .ended
  | c :: rest =>
    if c = 'n' then faultOf (letters ['u', 'l', 'l'] rest)
    else if c = 't' then faultOf (letters ['r', 'u', 'e'] rest)
    else if c = 'f' then faultOf (letters ['a', 'l', 's', 'e'] rest)
    else if c = '"' then faultOf (stringBody rest)
    else if c = '[' || c = '\x7b' then .mismatch
    else if beginsNumeral c then
      match numeral .ended (c :: rest) with
      | .error e => e
      | .ok (n, _) => if n.isHuge then .malformed else .mismatch
    else .malformed

/-! ## Strings, numbers and names -/

/-- Takes off a string. -/
def takeString (s : List Char) : Taken String :=
  match skipBlanks s with
  | [] => .error .ended
  | c :: rest => if c = '"' then stringBody rest else .error (unexpected (c :: rest))

theorem length_lt_of_takeString {s rest : List Char} {value : String}
    (h : takeString s = .ok (value, rest)) : rest.length < s.length := by
  rw [takeString] at h
  split at h
  · cases h
  next hb =>
    split at h
    · exact Nat.lt_trans (length_lt_of_stringBody h) (length_lt_of_skipBlanks hb)
    · cases h

/-- Reads a string. -/
def string : Reader String where
  run := takeString
  shorter := length_lt_of_takeString

/-- Takes off a string of a form of its own. -/
def takeStringAs {α : Type} (parse : String → Option α) (s : List Char) : Taken α :=
  match takeString s with
  | .error e => .error e
  | .ok (spelled, rest) =>
    match parse spelled with
    | some value => .ok (value, rest)
    | none => .error .mismatch

theorem length_lt_of_takeStringAs {α : Type} {parse : String → Option α} {s rest : List Char}
    {value : α} (h : takeStringAs parse s = .ok (value, rest)) : rest.length < s.length := by
  rw [takeStringAs] at h
  split at h
  · cases h
  next hs =>
    split at h
    · cases h
      exact length_lt_of_takeString hs
    · cases h

/-- Reads a string of a form of its own. -/
def stringAs {α : Type} (parse : String → Option α) : Reader α where
  run := takeStringAs parse
  shorter := length_lt_of_takeStringAs

/-- Takes off a whole number below `2 ^ 64`. -/
def takeWord64 (s : List Char) : Taken UInt64 :=
  match skipBlanks s with
  | [] => .error .ended
  | c :: rest =>
    if beginsNumeral c then
      match numeral .ended (c :: rest) with
      | .error e => .error e
      | .ok (n, rest) =>
        if n.isHuge then .error .malformed
        else
          match n.word? with
          | some value => .ok (value, rest)
          | none => .error .mismatch
    else .error (unexpected (c :: rest))

theorem length_lt_of_takeWord64 {s rest : List Char} {value : UInt64}
    (h : takeWord64 s = .ok (value, rest)) : rest.length < s.length := by
  rw [takeWord64] at h
  split at h
  · cases h
  next hb =>
    split at h
    · split at h
      · cases h
      next hn =>
        split at h
        · cases h
        split at h
        · obtain ⟨-, rfl⟩ := Prod.mk.inj (Except.ok.inj h)
          exact Nat.lt_of_le_of_lt (Nat.le_of_lt_succ (length_lt_of_numeral hn))
            (length_lt_of_skipBlanks hb)
        · cases h
    · cases h

/-- Reads a whole number below `2 ^ 64`. -/
def word64 : Reader UInt64 where
  run := takeWord64
  shorter := length_lt_of_takeWord64

/-- Takes off `null`. -/
def takeNull (s : List Char) : Except Fault (List Char) :=
  match skipBlanks s with
  | [] => .error .ended
  | c :: rest =>
    if c = 'n' then skipLetters ['u', 'l', 'l'] rest else .error (unexpected (c :: rest))

theorem length_lt_of_takeNull {s rest : List Char} (h : takeNull s = .ok rest) :
    rest.length < s.length := by
  rw [takeNull] at h
  split at h
  · cases h
  next hb =>
    split at h
    · exact Nat.lt_of_le_of_lt (length_le_of_skipLetters h) (length_lt_of_skipBlanks hb)
    · cases h

/-- Takes off the name of a member, of a form of its own. What is not a string is not a name at all,
so whatever value it is, it is malformed. -/
def takeKeyAs {α : Type} (parse : String → Option α) (s : List Char) : Taken α :=
  match skipBlanks s with
  | [] => .error .ended
  | c :: _ => if c = '"' then takeStringAs parse s else .error .malformed

theorem length_lt_of_takeKeyAs {α : Type} {parse : String → Option α} {s rest : List Char}
    {value : α} (h : takeKeyAs parse s = .ok (value, rest)) : rest.length < s.length := by
  rw [takeKeyAs] at h
  split at h
  · cases h
  · split at h
    · exact length_lt_of_takeStringAs h
    · cases h

/-- Takes off the member whose name is one of several and whose value is `null`, and the brace that
closes its object. -/
def takeLoneName {α : Type} (ofName? : String → Option α) (s : List Char) : Taken α :=
  match takeKeyAs ofName? s with
  | .error e => .error e
  | .ok (value, rest) =>
    match mark ':' rest with
    | .error e => .error e
    | .ok rest =>
      match takeNull rest with
      | .error e => .error e
      | .ok rest =>
        match mark '\x7d' rest with
        | .error e => .error e
        | .ok rest => .ok (value, rest)

theorem length_lt_of_takeLoneName {α : Type} {ofName? : String → Option α} {s rest : List Char}
    {value : α} (h : takeLoneName ofName? s = .ok (value, rest)) : rest.length < s.length := by
  rw [takeLoneName] at h
  split at h
  · cases h
  next hs =>
    split at h
    · cases h
    next hc =>
      split at h
      · cases h
      next hn =>
        split at h
        · cases h
        next hm =>
          cases h
          have lt := length_lt_of_takeKeyAs hs
          have lt' := length_lt_of_mark hc
          have lt'' := length_lt_of_takeNull hn
          have lt''' := length_lt_of_mark hm
          omega

/-- Takes off one of several names: a string, or an object that holds `null` under the name. -/
def takeName {α : Type} (ofName? : String → Option α) (s : List Char) : Taken α :=
  match skipBlanks s with
  | [] => .error .ended
  | c :: rest =>
    if c = '"' then takeStringAs ofName? s
    else if c = '\x7b' then takeLoneName ofName? rest
    else .error .malformed

theorem length_lt_of_takeName {α : Type} {ofName? : String → Option α} {s rest : List Char}
    {value : α} (h : takeName ofName? s = .ok (value, rest)) : rest.length < s.length := by
  rw [takeName] at h
  split at h
  · cases h
  next hb =>
    split at h
    · exact length_lt_of_takeStringAs h
    split at h
    · exact Nat.lt_trans (length_lt_of_takeLoneName h) (length_lt_of_skipBlanks hb)
    · cases h

/-- Reads one of several names. -/
def oneOf {α : Type} (ofName? : String → Option α) : Reader α where
  run := takeName ofName?
  shorter := length_lt_of_takeName

/-! ## Arrays -/

/-- Comes to the next item of an array, or to its closing bracket, which stays. -/
def nextItem (first : Bool) (s : List Char) : Except Fault (Option (List Char)) :=
  match skipBlanks s with
  | [] => .error .ended
  | c :: rest =>
    if c = ']' then .ok none
    else if first then .ok (some (c :: rest))
    else if c = ',' then
      match skipBlanks rest with
      | [] => .error .ended
      | c :: rest => if c = ']' then .error .malformed else .ok (some (c :: rest))
    else .error .malformed

theorem length_le_of_nextItem {first : Bool} {s rest : List Char}
    (h : nextItem first s = .ok (some rest)) : rest.length ≤ s.length := by
  rw [nextItem] at h
  split at h
  · cases h
  next hb =>
    have lt := length_lt_of_skipBlanks hb
    split at h
    · cases h
    split at h
    · cases h
      exact lt
    split at h
    · split at h
      · cases h
      next hb' =>
        have lt' := length_lt_of_skipBlanks hb'
        split at h
        · cases h
        · cases h
          exact Nat.le_trans lt' (Nat.le_of_lt lt)
    · cases h

/-- Takes off the items of an array that follow those in `done`, last first. -/
def itemsAfter {α : Type} (item : Reader α) (done : List α) (s : List Char) : Taken (List α) :=
  match _hn : nextItem done.isEmpty s with
  | .error e => .error e
  | .ok none => .ok (done.reverse, s)
  | .ok (some rest) =>
    match _hi : item.run rest with
    | .error e => .error e
    | .ok (value, rest) => itemsAfter item (value :: done) rest
termination_by s.length
decreasing_by exact Nat.lt_of_lt_of_le (item.shorter _hi) (length_le_of_nextItem _hn)

theorem length_le_of_itemsAfter {α : Type} {item : Reader α} {done values : List α}
    {s rest : List Char} (h : itemsAfter item done s = .ok (values, rest)) :
    rest.length ≤ s.length := by
  fun_induction itemsAfter item done s with
  | case1 => cases h
  | case2 =>
    cases h
    exact Nat.le_refl _
  | case3 => cases h
  | case4 done s r hn value r' hi ih =>
    have lt := Nat.lt_of_lt_of_le (item.shorter hi) (length_le_of_nextItem hn)
    exact Nat.le_trans (ih h) (Nat.le_of_lt lt)

/-- Takes off an array. -/
def takeArray {α : Type} (item : Reader α) (s : List Char) : Taken (List α) :=
  match skipBlanks s with
  | [] => .error .ended
  | c :: rest =>
    if c = '[' then
      match itemsAfter item [] rest with
      | .error e => .error e
      | .ok (values, rest) =>
        match mark ']' rest with
        | .error e => .error e
        | .ok rest => .ok (values, rest)
    else .error (unexpected (c :: rest))

theorem length_lt_of_takeArray {α : Type} {item : Reader α} {s rest : List Char} {values : List α}
    (h : takeArray item s = .ok (values, rest)) : rest.length < s.length := by
  rw [takeArray] at h
  split at h
  · cases h
  next hb =>
    split at h
    · split at h
      · cases h
      next hi =>
        split at h
        · cases h
        next hm =>
          cases h
          have lt := length_lt_of_skipBlanks hb
          have le := length_le_of_itemsAfter hi
          have lt' := length_lt_of_mark hm
          omega
    · cases h

/-- Reads an array of values of one form. -/
def array {α : Type} (item : Reader α) : Reader (List α) where
  run := takeArray item
  shorter := length_lt_of_takeArray

/-! ## Records -/

/-- A member of a record whose members are collected in a `σ`. -/
structure Member (σ : Type) where
  name : String
  /-- Whether the member has been read. -/
  isGiven : σ → Bool
  /-- Reads the value of the member into the collection. -/
  read : σ → Reader σ

/-- Reads a value and changes it. -/
def map {α β : Type} (f : α → β) (reader : Reader α) : Reader β where
  run s :=
    match reader.run s with
    | .error e => .error e
    | .ok (value, rest) => .ok (f value, rest)
  shorter h := by
    split at h
    · cases h
    next hr =>
      cases h
      exact reader.shorter hr

/-- The member that is kept in one place of the collection. -/
def Member.ofPlace {σ α : Type} (name : String) (reader : Reader α) (get : σ → Option α)
    (set : σ → α → σ) : Member σ where
  name
  isGiven := fun given => (get given).isSome
  read := fun given => reader.map (set given)

/-- Takes off the members of an array in their declared order, as far as the array goes. -/
def memberItems {σ : Type} (first : Bool) : List (Member σ) → σ → List Char → Taken σ
  | [], given, s => .ok (given, s)
  | m :: ms, given, s =>
    match nextItem first s with
    | .error e => .error e
    | .ok none => .ok (given, s)
    | .ok (some rest) =>
      match (m.read given).run rest with
      | .error e => .error e
      | .ok (given, rest) => memberItems false ms given rest

theorem length_le_of_memberItems {σ : Type} {first : Bool} {members : List (Member σ)}
    {given collected : σ} {s rest : List Char}
    (h : memberItems first members given s = .ok (collected, rest)) : rest.length ≤ s.length := by
  fun_induction memberItems first members given s with
  | case1 =>
    cases h
    exact Nat.le_refl _
  | case2 => cases h
  | case3 =>
    cases h
    exact Nat.le_refl _
  | case4 => cases h
  | case5 first m ms given s r hn given' r' hr ih =>
    have lt := Nat.lt_of_lt_of_le ((m.read given).shorter hr) (length_le_of_nextItem hn)
    exact Nat.le_trans (ih h) (Nat.le_of_lt lt)

/-- Takes off a member from after its name: a name that is not among the members is passed over, and
a member that was read before is a mismatch. -/
def namedMember {σ : Type} (members : List (Member σ)) (name : String) (given : σ)
    (s : List Char) : Taken σ :=
  match members.find? fun m => m.name = name with
  | none =>
    match mark ':' s with
    | .error e => .error e
    | .ok rest =>
      match skip rest with
      | .error e => .error e
      | .ok rest => .ok (given, rest)
  | some m =>
    if m.isGiven given then .error .mismatch
    else
      match mark ':' s with
      | .error e => .error e
      | .ok rest => (m.read given).run rest

theorem length_lt_of_namedMember {σ : Type} {members : List (Member σ)} {name : String}
    {given collected : σ} {s rest : List Char}
    (h : namedMember members name given s = .ok (collected, rest)) : rest.length < s.length := by
  rw [namedMember] at h
  split at h
  · split at h
    · cases h
    next hc =>
      split at h
      · cases h
      next hs =>
        cases h
        exact Nat.lt_of_le_of_lt (length_le_of_skip hs) (length_lt_of_mark hc)
  next m _ =>
    split at h
    · cases h
    split at h
    · cases h
    next hc => exact Nat.lt_trans ((m.read given).shorter h) (length_lt_of_mark hc)

/-- Takes off the opening quote of a member's name. -/
def openName (s : List Char) : Except Fault (Option (List Char)) :=
  match s with
  | [] => .error .ended
  | c :: rest => if c = '"' then .ok (some rest) else .error .malformed

theorem length_lt_of_openName {s rest : List Char} (h : openName s = .ok (some rest)) :
    rest.length < s.length := by
  rw [openName.eq_def] at h
  split at h
  · cases h
  · split at h
    · cases h
      exact Nat.lt_succ_self _
    · cases h

/-- Comes to the next name of an object, after its opening quote, or to the closing brace, which
stays. -/
def nextName (first : Bool) (s : List Char) : Except Fault (Option (List Char)) :=
  match skipBlanks s with
  | [] => .error .ended
  | c :: rest =>
    if c = '\x7d' then .ok none
    else if first then openName (c :: rest)
    else if c = ',' then openName (skipBlanks rest)
    else .error .malformed

theorem length_lt_of_nextName {first : Bool} {s rest : List Char}
    (h : nextName first s = .ok (some rest)) : rest.length < s.length := by
  rw [nextName] at h
  split at h
  · cases h
  next hb =>
    have lt := length_lt_of_skipBlanks hb
    split at h
    · cases h
    split at h
    · exact Nat.lt_of_lt_of_le (length_lt_of_openName h) lt
    split at h
    · exact Nat.lt_trans
        (Nat.lt_of_lt_of_le (length_lt_of_openName h) (length_skipBlanks_le _)) lt
    · cases h

/-- Takes off the members of an object up to its closing brace. -/
def namedMembers {σ : Type} (members : List (Member σ)) (first : Bool) (given : σ)
    (s : List Char) : Taken σ :=
  match _hn : nextName first s with
  | .error e => .error e
  | .ok none => .ok (given, s)
  | .ok (some rest) =>
    match _hs : stringBody rest with
    | .error e => .error e
    | .ok (name, rest) =>
      match _hm : namedMember members name given rest with
      | .error e => .error e
      | .ok (given, rest) => namedMembers members false given rest
termination_by s.length
decreasing_by
  exact Nat.lt_trans (length_lt_of_namedMember _hm)
    (Nat.lt_trans (length_lt_of_stringBody _hs) (length_lt_of_nextName _hn))

theorem length_le_of_namedMembers {σ : Type} {members : List (Member σ)} {first : Bool}
    {given collected : σ} {s rest : List Char}
    (h : namedMembers members first given s = .ok (collected, rest)) : rest.length ≤ s.length := by
  fun_induction namedMembers members first given s with
  | case1 => cases h
  | case2 =>
    cases h
    exact Nat.le_refl _
  | case3 => cases h
  | case4 => cases h
  | case5 first given s r hn name r' hs given' r'' hm ih =>
    have le := ih h
    have lt := length_lt_of_namedMember hm
    have lt' := length_lt_of_stringBody hs
    have lt'' := length_lt_of_nextName hn
    omega

/-- Finishes a record: its members have to suffice, and then its closing mark has to come. -/
def closeRecord {σ α : Type} (finish : σ → Option α) (closing : Char) (members : Taken σ) :
    Taken α :=
  match members with
  | .error e => .error e
  | .ok (given, rest) =>
    match finish given with
    | none => .error .mismatch
    | some value =>
      match mark closing rest with
      | .error e => .error e
      | .ok rest => .ok (value, rest)

theorem length_lt_of_closeRecord {σ α : Type} {finish : σ → Option α} {closing : Char}
    {members : Taken σ} {n : Nat} {rest : List Char} {value : α}
    (le : ∀ {given s}, members = .ok (given, s) → s.length ≤ n)
    (h : closeRecord finish closing members = .ok (value, rest)) : rest.length < n := by
  rw [closeRecord.eq_def] at h
  split at h
  · cases h
  · split at h
    · cases h
    · split at h
      · cases h
      next hm =>
        cases h
        exact Nat.lt_of_lt_of_le (length_lt_of_mark hm) (le rfl)

/-- Takes off a record: collects its members, starting from `blank`, and finishes it, which fails
where a member is missing that has no default. -/
def takeRecord {σ α : Type} (members : List (Member σ)) (blank : σ) (finish : σ → Option α)
    (s : List Char) : Taken α :=
  match skipBlanks s with
  | [] => .error .ended
  | c :: rest =>
    if c = '\x7b' then closeRecord finish '\x7d' (namedMembers members true blank rest)
    else if c = '[' then closeRecord finish ']' (memberItems true members blank rest)
    else .error (unexpected (c :: rest))

theorem length_lt_of_takeRecord {σ α : Type} {members : List (Member σ)} {blank : σ}
    {finish : σ → Option α} {s rest : List Char} {value : α}
    (h : takeRecord members blank finish s = .ok (value, rest)) : rest.length < s.length := by
  rw [takeRecord] at h
  split at h
  · cases h
  next hb =>
    have lt := length_lt_of_skipBlanks hb
    split at h
    · exact Nat.lt_trans (length_lt_of_closeRecord length_le_of_namedMembers h) lt
    split at h
    · exact Nat.lt_trans (length_lt_of_closeRecord length_le_of_memberItems h) lt
    · cases h

/-- Reads a record. -/
def record {σ α : Type} (members : List (Member σ)) (blank : σ) (finish : σ → Option α) :
    Reader α where
  run := takeRecord members blank finish
  shorter := length_lt_of_takeRecord

/-! ## Whole texts -/

/-- Reads a text that holds one value and nothing after it but blanks. -/
def readAll {α : Type} (reader : Reader α) (s : List Char) : Except Fault α :=
  match reader.run s with
  | .error e => .error e
  | .ok (value, rest) => if (skipBlanks rest).isEmpty then .ok value else .error .malformed

/-- Reads a text. -/
def parse {α : Type} (reader : Reader α) (text : String) : Except Fault α :=
  readAll reader text.toList

end Reader

end Registrar.Text.Json
