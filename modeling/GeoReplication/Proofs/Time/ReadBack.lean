import GeoReplication.Proofs.Time.StoredOrder
import Mathlib.Algebra.GroupWithZero.Nat

/-!
# Proofs/Time/ReadBack — stored times read back

    2024-02-29T23:59:60.123456Z

Every number of a stored text is followed by a mark that is no digit, so the reader takes off the
numbers one by one (`digits?_fixedDigits`), and the fields they make up name the instant they were
written from, to the microsecond (`Instant.ofStored_stored`).  Since all texts are of one length and
compare as times do, a text can stand for its time (`Instant.stored_stands_for_time`).
-/

namespace GeoReplication

/-! ## Digits -/

namespace Text

theorem isDigit_digitOf (n : Nat) : (digitOf n).isDigit = true := by
  have hall : ∀ i < 10, (Char.ofNat (48 + i)).isDigit = true := by decide
  exact hall _ (Nat.mod_lt n (by decide))

theorem toNat_digitOf (n : Nat) : (digitOf n).toNat - '0'.toNat = n % 10 := by
  have hall : ∀ i < 10, (Char.ofNat (48 + i)).toNat - '0'.toNat = i := by decide
  exact hall _ (Nat.mod_lt n (by decide))

theorem isDigit_of_mem_fixedDigits {width n : Nat} {c : Char} (h : c ∈ fixedDigits width n) :
    c.isDigit = true := by
  induction width generalizing n with
  | zero => cases h
  | succ width ih =>
    rcases List.mem_append.mp h with hfirst | hlast
    · exact ih hfirst
    · obtain rfl := List.mem_singleton.mp hlast
      exact isDigit_digitOf n

theorem ofDigitChars_fixedDigits {width n : Nat} (h : n < 10 ^ width) :
    Nat.ofDigitChars 10 (fixedDigits width n) 0 = n := by
  induction width generalizing n with
  | zero =>
    rw [fixedDigits, Nat.ofDigitChars_nil]
    omega
  | succ width ih =>
    rw [fixedDigits, Nat.ofDigitChars_append,
      ih (Nat.div_lt_of_lt_mul (by rwa [Nat.pow_succ'] at h)), Nat.ofDigitChars_cons,
      Nat.ofDigitChars_nil, toNat_digitOf]
    omega

/-- The numbers of a row do not change how long it is. -/
theorem length_row : ∀ {layout : List (Nat × Char)} {ns : List Nat}, Fits layout ns →
    (row layout ns).length = (layout.map fun field => field.1 + 1).sum
  | [], [], _ => rfl
  | [], _ :: _, h => h.elim
  | _ :: _, [], h => h.elim
  | (width, mark) :: layout, n :: ns, h => by
      rw [row, List.length_append, List.length_cons, length_fixedDigits, length_row h.2,
        List.map_cons, List.sum_cons]
      omega

end Text

namespace Time

open GeoReplication.Text

/-- A number of fixed width is taken off before a mark. -/
theorem digits?_fixedDigits {min max width n : Nat} {mark : Char} (hmin : min ≤ width)
    (hmax : width ≤ max) (hn : n < 10 ^ width) (hmark : mark.isDigit = false) (rest : List Char) :
    digits? min max (fixedDigits width n ++ mark :: rest) = some (n, mark :: rest) := by
  have hrest : ((mark :: rest).take (max - width)).takeWhile Char.isDigit = [] := by
    cases max - width with
    | zero => rfl
    | succ k => simp [hmark]
  have htaken : ((fixedDigits width n ++ mark :: rest).take max).takeWhile Char.isDigit =
      fixedDigits width n := by
    rw [List.take_append, length_fixedDigits, List.take_of_length_le (by simpa using hmax),
      List.takeWhile_append_of_pos fun c => isDigit_of_mem_fixedDigits, hrest, List.append_nil]
  simp only [digits?, htaken, length_fixedDigits, if_neg (Nat.not_lt.mpr hmin),
    ofDigitChars_fixedDigits hn]
  rw [List.drop_left' (length_fixedDigits width n)]

/-- A field of a text that is just as wide as its number. -/
theorem digits?_field {width n : Nat} {mark : Char} (hn : n < 10 ^ width)
    (hmark : mark.isDigit = false) (rest : List Char) :
    digits? width width (fixedDigits width n ++ mark :: rest) = some (n, mark :: rest) :=
  digits?_fixedDigits (Nat.le_refl width) (Nat.le_refl width) hn hmark rest

theorem mark?_cons (c : Char) (rest : List Char) : mark? c (c :: rest) = some rest := by
  rw [mark?, if_pos rfl]

/-! ## Dates -/

namespace Date

/-- The date of a day is counted back to the day. -/
theorem count_ofCount (day : Int) : (ofCount day).count = day := by
  have hyear := yearStart_yearOf_le (day + epochDay)
  have hmonth := (monthOf_bounds _ _ (dayOfYear_lt (day + epochDay))).2.2.1
  simp only [count, ofCount]
  omega

theorem isValid_ofCount (day : Int) : (ofCount day).isValid = true := by
  obtain ⟨hfirst, hlast, hstart, hend⟩ := monthOf_bounds _ _ (dayOfYear_lt (day + epochDay))
  simp only [isValid, ofCount, monthLength, Bool.and_eq_true]
  exact ⟨⟨⟨decide_eq_true hfirst, decide_eq_true hlast⟩, decide_eq_true (by omega)⟩,
    decide_eq_true (by omega)⟩

/-- A day of a year from 0 to 9999 lies close enough to be counted in seconds. -/
theorem bounds_of_year {day : Int} (h : 0 ≤ (ofCount day).year) (h' : (ofCount day).year ≤ 9999) :
    -719528 ≤ day ∧ day ≤ 2932896 := by
  have hstart := yearStart_yearOf_le (day + epochDay)
  have hend := lt_yearStart_yearOf (day + epochDay)
  change 0 ≤ yearOf (day + epochDay) at h
  change yearOf (day + epochDay) ≤ 9999 at h'
  have hfirst := yearStart_mono h
  have hlast := yearStart_mono (show yearOf (day + epochDay) + 1 ≤ 10000 by omega)
  simp only [show yearStart 0 = 0 from rfl, show yearStart 10000 = 3652425 from rfl, epochDay] at *
  omega

end Date

/-! ## Instants -/

namespace Instant

variable {t : Instant}

/-- The fields of a date and a time of day name the second they were taken from; second 60 goes into
the nanoseconds. -/
theorem instant?_fields (h : t.IsSortable) (nanos : Nat) :
    Fields.instant? ⟨t.date.year.toNat, t.date.month, t.date.day, t.ofDay / 3600,
      t.ofDay / 60 % 60, t.ofDay % 60 + t.nanos / nanosPerSecond, nanos⟩ 0 =
        some ⟨t.second, nanos + t.nanos / nanosPerSecond * nanosPerSecond⟩ := by
  obtain ⟨hproper, hyear, hyear'⟩ := h
  have hofDay := t.ofDay_lt
  have hday := Date.bounds_of_year hyear hyear'
  have hdate : (⟨(t.date.year.toNat : Int), t.date.month, t.date.day⟩ : Date) = t.date := by
    rw [Int.toNat_of_nonneg hyear]
  have hcount : t.date.count * secondsPerDay + t.ofDay = t.second := by
    rw [date, Date.count_ofCount]
    simp only [ofDay, secondsPerDay]
    omega
  have hvalid : t.date.isValid = true := Date.isValid_ofCount _
  simp only [IsProper, nanosPerSecond, secondsPerDay] at hproper hday hcount
  have hleap : (t.ofDay % 60 + t.nanos / 1000000000) / 60 = t.nanos / 1000000000 := by
    simp only [ofDay, secondsPerDay]
    omega
  have hsecond : t.date.count * 86400 + ((t.ofDay / 3600 * 3600 + t.ofDay / 60 % 60 * 60 +
      (t.ofDay % 60 + t.nanos / 1000000000 - t.nanos / 1000000000) : Nat) : Int) - 0 =
        t.second := by
    omega
  simp only [Fields.instant?, hdate, nanosPerSecond, secondsPerDay, hleap, hsecond]
  rw [if_pos ⟨by omega, by omega, hvalid, by omega, by omega, by omega, by decide⟩, if_pos]
  simp only [firstSecond, lastSecond]
  omega

/-- What is kept to the microsecond names the instant to the microsecond. -/
theorem instant?_storedFields (h : t.IsSortable) :
    Fields.instant? ⟨t.date.year.toNat, t.date.month, t.date.day, t.ofDay / 3600,
      t.ofDay / 60 % 60, t.ofDay % 60 + t.nanos / nanosPerSecond,
      t.nanos % nanosPerSecond / 1000 * 1000⟩ 0 = some t.toMicros := by
  have hnanos : t.nanos % nanosPerSecond / 1000 * 1000 +
      t.nanos / nanosPerSecond * nanosPerSecond = t.nanos / 1000 * 1000 := by
    simp only [nanosPerSecond]
    omega
  rw [instant?_fields h, hnanos]
  rfl

/-- The digits of a second count from the tenth part of it on. -/
theorem fraction?_fixedDigits {width n : Nat} (hmin : 1 ≤ width) (hmax : width ≤ 9)
    (hn : n < 10 ^ width) :
    fraction? ('.' :: (fixedDigits width n ++ ['Z'])) = some (n * 10 ^ (9 - width), ['Z']) := by
  have hread : digits? 1 9 (fixedDigits width n ++ ['Z']) = some (n, ['Z']) :=
    digits?_fixedDigits hmin hmax hn (by decide) []
  simp only [fraction?, hread]
  simp

/-- **A stored time reads back**, whatever the current time is. -/
theorem ofStored_stored (now : Instant) (h : t.IsSortable) :
    ofStored now t.stored = t.toMicros := by
  have hstrict : strict? t.stored.toList = some t.toMicros := by
    obtain ⟨hyear, hmonth, hday, hhour, hminute, hsecond, hmicros, -⟩ := h.fits
    have hdash : '-'.isDigit = false := by decide
    have hletter : 'T'.isDigit = false := by decide
    have hcolon : ':'.isDigit = false := by decide
    have hdot : '.'.isDigit = false := by decide
    rw [toList_stored h]
    simp only [storedLayout, storedFields, row]
    refine Option.bind_eq_some_iff.mpr ⟨_, digits?_field hyear hdash _, ?_⟩
    refine Option.bind_eq_some_iff.mpr ⟨_, mark?_cons _ _, ?_⟩
    refine Option.bind_eq_some_iff.mpr ⟨_, digits?_field hmonth hdash _, ?_⟩
    refine Option.bind_eq_some_iff.mpr ⟨_, mark?_cons _ _, ?_⟩
    refine Option.bind_eq_some_iff.mpr ⟨_, digits?_field hday hletter _, ?_⟩
    refine Option.bind_eq_some_iff.mpr ⟨_, rfl, ?_⟩
    refine Option.bind_eq_some_iff.mpr ⟨_, digits?_field hhour hcolon _, ?_⟩
    refine Option.bind_eq_some_iff.mpr ⟨_, mark?_cons _ _, ?_⟩
    refine Option.bind_eq_some_iff.mpr ⟨_, digits?_field hminute hcolon _, ?_⟩
    refine Option.bind_eq_some_iff.mpr ⟨_, mark?_cons _ _, ?_⟩
    refine Option.bind_eq_some_iff.mpr ⟨_, digits?_field hsecond hdot _, ?_⟩
    have hfraction := fraction?_fixedDigits (by decide) (by decide) hmicros
    refine Option.bind_eq_some_iff.mpr ⟨_, hfraction, ?_⟩
    exact instant?_storedFields h
  rw [ofStored, hstrict]
  rfl

/-! ## Texts in place of times -/

theorem length_stored (h : t.IsSortable) : t.stored.length = 27 := by
  rw [← String.length_toList, toList_stored h, length_row h.fits]
  rfl

variable {a b : Instant}

/-- Two times have one text only if they lie in one microsecond: the text reads back as either. -/
theorem stored_eq_iff (ha : a.IsSortable) (hb : b.IsSortable) :
    a.stored = b.stored ↔ a.toMicros = b.toMicros := by
  refine ⟨fun h => ?_, stored_congr⟩
  rw [← ofStored_stored epoch ha, h, ofStored_stored epoch hb]

/-- **A stored text stands for its time, to the microsecond.**  In the years of four digits, leap
seconds included, it reads back, it is as long as any other, and two of them compare as the times
do. -/
theorem stored_stands_for_time (ha : a.IsSortable) (hb : b.IsSortable) (now : Instant) :
    ofStored now a.stored = a.toMicros ∧ a.stored.length = 27 ∧
    (a.stored < b.stored ↔ a.toMicros < b.toMicros) ∧
    (a.stored = b.stored ↔ a.toMicros = b.toMicros) ∧
    (b.stored < a.stored ↔ b.toMicros < a.toMicros) :=
  ⟨ofStored_stored now ha, length_stored ha, stored_lt_iff ha hb, stored_eq_iff ha hb,
    stored_lt_iff hb ha⟩

/-- The last nanosecond of a leap day, and the start of the next. -/
theorem stored_stands_for_time_leapDay :
    (⟨1709251199, 999999999⟩ : Instant).IsSortable ∧ (⟨1709251200, 0⟩ : Instant).IsSortable ∧
    ofStored epoch (stored ⟨1709251199, 999999999⟩) = ⟨1709251199, 999999000⟩ ∧
    (stored ⟨1709251199, 999999999⟩).length = 27 ∧
    stored ⟨1709251199, 999999999⟩ < stored ⟨1709251200, 0⟩ ∧
    stored ⟨1709251199, 999999999⟩ ≠ stored ⟨1709251200, 0⟩ ∧
    ¬ stored ⟨1709251200, 0⟩ < stored ⟨1709251199, 999999999⟩ := by
  have hbefore : (⟨1709251199, 999999999⟩ : Instant).IsSortable := by decide
  have hafter : (⟨1709251200, 0⟩ : Instant).IsSortable := by decide
  obtain ⟨hread, hlength, hlt, heq, hgt⟩ := stored_stands_for_time hbefore hafter epoch
  exact ⟨hbefore, hafter, hread, hlength, hlt.mpr (by decide),
    fun h => absurd (heq.mp h) (by decide), fun h => absurd (hgt.mp h) (by decide)⟩

end Instant

end Time

end GeoReplication
