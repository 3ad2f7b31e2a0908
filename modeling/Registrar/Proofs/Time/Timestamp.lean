import Mathlib
import Registrar.Proofs.Time.Calendar
import Registrar.Time.Timestamp

/-!
# Timestamps are read as they were written

A timestamp is written as numbers of a fixed width with marks between them, and a fraction that has
as many digits as it needs. Each part is read as it was written, whatever comes after it, so the
whole is: for years of four digits, and outside of leap seconds.
-/

namespace Registrar.Time.Timestamp

/-- The date of a timestamp. -/
def date (t : Timestamp) : Date :=
  Date.ofDays (t.seconds / 86400)

/-- Whether the year of a timestamp is one from 0 to 9999, and it lies in no leap second. -/
structure Plain (t : Timestamp) : Prop where
  year_nonneg : 0 ≤ t.date.year
  year_le : t.date.year ≤ 9999
  nanos_lt : t.nanos < 1000000000

/-! ## Numbers of a fixed width -/

theorem length_padded {width n : Nat} (hwidth : 0 < width) (h : n < 10 ^ width) :
    (padded width n).length = width := by
  have hle := (Nat.length_toDigits_le_iff (by decide : 1 < 10) hwidth).mpr h
  unfold padded
  rw [List.length_append, List.length_replicate]
  omega

theorem isDigit_of_mem_padded {width n : Nat} {c : Char} (h : c ∈ padded width n) :
    c.isDigit = true := by
  unfold padded at h
  rw [List.mem_append, List.mem_replicate] at h
  rcases h with ⟨-, rfl⟩ | h
  · rfl
  · exact Nat.isDigit_of_mem_toDigits (by decide) (by decide) h

/-- The zeros that fill up a number do not change it. -/
theorem ofDigitChars_padded (width n : Nat) : Nat.ofDigitChars 10 (padded width n) 0 = n := by
  unfold padded
  rw [Nat.ofDigitChars_append, Nat.ofDigitChars_replicate_zero, Nat.mul_zero,
    Nat.ofDigitChars_ten_toDigits]

theorem takeNumber_padded {width n : Nat} (hwidth : 0 < width) (h : n < 10 ^ width)
    (rest : List Char) : takeNumber width (padded width n ++ rest) = some (n, rest) := by
  have hlength := length_padded hwidth h
  have htake : (padded width n ++ rest).take width = padded width n := List.take_left' hlength
  have hdrop : (padded width n ++ rest).drop width = rest := List.drop_left' hlength
  have hdigits : (padded width n).all Char.isDigit = true :=
    List.all_eq_true.mpr fun c hc => isDigit_of_mem_padded hc
  unfold takeNumber
  simp only [htake, hdrop]
  rw [if_pos ⟨hlength, hdigits⟩, ofDigitChars_padded]

/-- A number of two digits is read after its mark. -/
theorem takePart_padded (mark : Char) {n : Nat} (h : n < 100) (rest : List Char) :
    takePart mark (mark :: (padded 2 n ++ rest)) = some (n, rest) := by
  have hmark : takeMark mark (mark :: (padded 2 n ++ rest)) = some (padded 2 n ++ rest) :=
    if_pos rfl
  unfold takePart
  rw [hmark, Option.bind_some]
  exact takeNumber_padded (by decide) h rest

/-! ## Fractions -/

theorem takeFraction_padded {width n nanos : Nat} (hwidth : 0 < width) (hle : width ≤ 9)
    (h : n < 10 ^ width) (hnanos : n * 10 ^ (9 - width) = nanos) (rest : List Char) :
    takeFraction ('.' :: (padded width n ++ 'Z' :: rest)) = some (nanos, 'Z' :: rest) := by
  have hlength := length_padded hwidth h
  have hspan : (padded width n ++ 'Z' :: rest).span Char.isDigit
      = (padded width n, 'Z' :: rest) := by
    rw [List.span_eq_takeWhile_dropWhile,
      List.takeWhile_append_of_pos fun c hc => isDigit_of_mem_padded hc,
      List.dropWhile_append_of_pos fun c hc => isDigit_of_mem_padded hc,
      List.takeWhile_cons_of_neg (by decide), List.dropWhile_cons_of_neg (by decide),
      List.append_nil]
  have hne : (padded width n).isEmpty = false := by
    rw [List.isEmpty_eq_false_iff, ← List.length_pos_iff, hlength]
    exact hwidth
  unfold takeFraction
  simp only [hspan, hne, Bool.false_eq_true, if_false]
  rw [List.take_of_length_le (by omega), ofDigitChars_padded, hlength, ← hnanos]
  rfl

/-- A fraction of a second is read as it was written. -/
theorem takeFraction_fractionChars {nanos : Nat} (h : nanos < 1000000000) (rest : List Char) :
    takeFraction (fractionChars nanos ++ 'Z' :: rest) = some (nanos, 'Z' :: rest) := by
  unfold fractionChars
  split_ifs with hzero hmillis hmicros
  · rw [hzero]
    rfl
  · rw [List.cons_append]
    exact takeFraction_padded (by decide) (by decide) (by omega) (by omega) rest
  · rw [List.cons_append]
    exact takeFraction_padded (by decide) (by decide) (by omega) (by omega) rest
  · rw [List.cons_append]
    exact takeFraction_padded (by decide) (by decide) (by omega) (by omega) rest

/-! ## Whole timestamps -/

theorem yearChars_of_plain {t : Timestamp} (h : t.Plain) :
    yearChars t.date.year = padded 4 t.date.year.toNat := by
  unfold yearChars
  rw [if_pos ⟨h.year_nonneg, h.year_le⟩]

/-- The parts that are read of a timestamp make it again. -/
theorem ofParts_date (t : Timestamp) (h : t.nanos < 1000000000) :
    ofParts t.date ((t.seconds % 86400).toNat / 3600) ((t.seconds % 86400).toNat / 60 % 60)
      ((t.seconds % 86400).toNat % 60) t.nanos 0 = some t := by
  have hvalid : t.date.isValid = true := isValid_ofDays _
  have hdays : t.date.toDays = t.seconds / 86400 := toDays_ofDays _
  unfold ofParts
  rw [if_pos]
  · obtain ⟨seconds, nanos⟩ := t
    simp only [hdays, Option.some.injEq, Timestamp.mk.injEq]
    constructor
    · show _ = seconds
      omega
    · omega
  · simp only [hvalid, Bool.and_eq_true, decide_eq_true_eq, true_and]
    omega

/-- **A timestamp is read as it was written.** -/
theorem ofChars?_chars {t : Timestamp} (h : t.Plain) : ofChars? t.chars = some t := by
  obtain ⟨hmonth, hday⟩ : t.date.month < 100 ∧ t.date.day < 100 :=
    Date.lt_of_isValid (isValid_ofDays _)
  have hyear : t.date.year.toNat < 10000 := by
    have hle := h.year_le
    omega
  have hnanos := h.nanos_lt
  have hleap : t.nanos / 1000000000 = 0 := Nat.div_eq_of_lt hnanos
  have hfraction : t.nanos % 1000000000 = t.nanos := Nat.mod_eq_of_lt hnanos
  have hchars : t.chars = padded 4 t.date.year.toNat ++ '-' :: (padded 2 t.date.month
      ++ '-' :: (padded 2 t.date.day ++ 'T' :: (padded 2 ((t.seconds % 86400).toNat / 3600)
      ++ ':' :: (padded 2 ((t.seconds % 86400).toNat / 60 % 60)
      ++ ':' :: (padded 2 ((t.seconds % 86400).toNat % 60)
      ++ (fractionChars t.nanos ++ ['Z'])))))) := by
    rw [← yearChars_of_plain h]
    simp only [chars, hleap, hfraction, Nat.add_zero, List.append_assoc, List.cons_append]
    rfl
  rw [hchars]
  unfold ofChars?
  rw [takeNumber_padded (by decide) hyear]
  have hhour : (t.seconds % 86400).toNat / 3600 < 100 := by omega
  have hminute : (t.seconds % 86400).toNat / 60 % 60 < 100 := by omega
  have hsecond : (t.seconds % 86400).toNat % 60 < 100 := by omega
  simp only [Option.bind_eq_bind, Option.bind_some, takePart_padded _ hmonth,
    takePart_padded _ hday, takePart_padded _ hhour, takePart_padded _ hminute,
    takePart_padded _ hsecond, takeFraction_fractionChars hnanos]
  -- what is left over is the mark of universal time
  show (some 0).bind _ = _
  rw [Option.bind_some, Int.toNat_of_nonneg h.year_nonneg]
  exact ofParts_date t hnanos

theorem parse?_text {t : Timestamp} (h : t.Plain) : parse? t.text = some t := by
  unfold parse? text
  rw [String.toList_ofList]
  exact ofChars?_chars h

end Registrar.Time.Timestamp
