import GeoReplication.Proofs.Time.Calendar
import GeoReplication.Time.Rfc3339
import Mathlib.Algebra.Group.Nat.Defs

/-!
# Proofs/Time/StoredOrder — stored times compare as text

    2024-02-29T23:59:60.123456Z
    year-month-dayThour:minute:second.microseconds

Within the years 0 to 9999 the stored text of an instant is a row of numbers of fixed widths
(`Instant.toList_stored`), so that texts compare as the numbers do, one after another, and the
numbers as the instants do up to the microsecond: `Instant.stored_lt_iff`, `Instant.stored_le_iff`.
-/

namespace GeoReplication

/-! ## Numbers of fixed width -/

namespace Text

theorem append_lt_append {xs ys : List Char} (hlen : xs.length = ys.length) (h : xs < ys)
    (xs' ys' : List Char) : xs ++ xs' < ys ++ ys' := by
  induction xs generalizing ys with
  | nil =>
    obtain rfl := List.eq_nil_of_length_eq_zero hlen.symm
    exact absurd h (List.not_lt_nil [])
  | cons x xs ih =>
    cases ys with
    | nil => exact absurd h (List.not_lt_nil _)
    | cons y ys =>
      rcases List.cons_lt_cons_iff.mp h with hlt | ⟨rfl, hlt⟩
      · exact List.cons_lt_cons_iff.mpr (.inl hlt)
      · exact List.cons_lt_cons_iff.mpr (.inr ⟨rfl, ih (Nat.succ.inj hlen) hlt⟩)

theorem digitOf_lt_digitOf {m n : Nat} (h : m % 10 < n % 10) : digitOf m < digitOf n := by
  have hall : ∀ j < 10, ∀ i < j, Char.ofNat (48 + i) < Char.ofNat (48 + j) := by decide
  exact hall _ (Nat.mod_lt _ (by decide)) _ h

theorem sign_lt_digitOf {sign : Char} (h : sign = '-' ∨ sign = '+') (n : Nat) :
    sign < digitOf n := by
  have hall : ∀ i < 10, '-' < Char.ofNat (48 + i) ∧ '+' < Char.ofNat (48 + i) := by decide
  obtain ⟨hminus, hplus⟩ := hall _ (Nat.mod_lt n (by decide))
  rcases h with rfl | rfl
  · exact hminus
  · exact hplus

/-- Numbers of one width compare as their digits do. -/
theorem fixedDigits_lt {width m n : Nat} (hn : n < 10 ^ width) (h : m < n) :
    fixedDigits width m < fixedDigits width n := by
  induction width generalizing m n with
  | zero => exact absurd hn (by omega)
  | succ width ih =>
    rcases Nat.lt_or_eq_of_le (Nat.div_le_div_right (c := 10) (Nat.le_of_lt h)) with hlt | heq
    · have hn' : n / 10 < 10 ^ width := Nat.div_lt_of_lt_mul (by rwa [Nat.pow_succ'] at hn)
      exact append_lt_append (by simp) (ih hn' hlt) _ _
    · have hlast : [digitOf m] < [digitOf n] :=
        List.cons_lt_cons_iff.mpr (.inl (digitOf_lt_digitOf (by omega)))
      rw [fixedDigits, fixedDigits, heq]
      exact List.append_left_lt hlast

/-- Numbers one after another, each with the width and the mark behind it that the layout says. -/
def row : List (Nat × Char) → List Nat → List Char
  | (width, mark) :: layout, n :: ns => fixedDigits width n ++ mark :: row layout ns
  | _, _ => []

/-- A row of numbers fits its layout. -/
def Fits : List (Nat × Char) → List Nat → Prop
  | [], [] => True
  | (width, _) :: layout, n :: ns => n < 10 ^ width ∧ Fits layout ns
  | _, _ => False

/-- Rows of one layout compare as their numbers do. -/
theorem row_lt {layout : List (Nat × Char)} {ns ns' : List Nat} (hfits : Fits layout ns)
    (hfits' : Fits layout ns') (h : ns < ns') : row layout ns < row layout ns' := by
  induction layout generalizing ns ns' with
  | nil =>
    cases ns' with
    | nil => exact absurd h (List.not_lt_nil _)
    | cons n' ns' => exact hfits'.elim
  | cons field layout ih =>
    obtain ⟨width, mark⟩ := field
    cases ns' with
    | nil => exact absurd h (List.not_lt_nil _)
    | cons n' ns' =>
      cases ns with
      | nil => exact hfits.elim
      | cons n ns =>
        rcases List.cons_lt_cons_iff.mp h with hlt | ⟨rfl, hlt⟩
        · exact append_lt_append (by simp) (fixedDigits_lt hfits'.1 hlt) _ _
        · exact List.append_left_lt
            (List.cons_lt_cons_iff.mpr (.inr ⟨rfl, ih hfits.2 hfits'.2 hlt⟩))

end Text

namespace Time.Instant

open GeoReplication.Text

variable {a b : Instant}

/-! ## The order of instants -/

theorem not_lt : ¬ a < b ↔ b ≤ a := by
  rw [lt_iff, le_iff]
  omega

theorem le_refl (a : Instant) : a ≤ a := .inr ⟨rfl, Nat.le_refl _⟩

theorem le_trans {c : Instant} (h : a ≤ b) (h' : b ≤ c) : a ≤ c := by
  rw [le_iff] at *
  omega

theorem lt_trichotomy (a b : Instant) : a < b ∨ a = b ∨ b < a := by
  obtain ⟨second, nanos⟩ := a
  obtain ⟨second', nanos'⟩ := b
  simp only [lt_iff, mk.injEq]
  omega

theorem toMicros_mono (h : a ≤ b) : a.toMicros ≤ b.toMicros := by
  simp only [le_iff, toMicros] at h ⊢
  omega

theorem toMicros_lt_of_lt_of_le {c : Instant} (h : a.toMicros < b.toMicros) (h' : b ≤ c) :
    a.toMicros < c.toMicros := by
  simp only [lt_iff, le_iff, toMicros] at *
  omega

theorem toMicros_lt_of_le_of_lt {c : Instant} (h : a ≤ b) (h' : b.toMicros < c.toMicros) :
    a.toMicros < c.toMicros := by
  simp only [lt_iff, le_iff, toMicros] at *
  omega

theorem isPlain_addMillis (t : Instant) (millis : Nat) : (t.addMillis millis).IsPlain :=
  Nat.mod_lt _ (by decide)

/-- Leap seconds apart, what begins earlier ends earlier. -/
theorem addMillis_mono (ha : a.IsPlain) (h : a ≤ b) (millis : Nat) :
    a.addMillis millis ≤ b.addMillis millis := by
  simp only [IsPlain, le_iff, addMillis, nanosPerSecond] at *
  omega

theorem addMillis_zero (ha : a.IsPlain) : a.addMillis 0 = a := by
  obtain ⟨second, nanos⟩ := a
  simp only [IsPlain] at ha
  simp [addMillis, Nat.div_eq_of_lt ha, Nat.mod_eq_of_lt ha]

theorem toMicros_lt_addMillis (ha : a.IsPlain) {millis : Nat} (h : 0 < millis) :
    a.toMicros < (a.addMillis millis).toMicros := by
  simp only [IsPlain, lt_iff, toMicros, addMillis, nanosPerSecond] at *
  omega

theorem le_addMillis (ha : a.IsPlain) (millis : Nat) : a ≤ a.addMillis millis := by
  simp only [IsPlain, le_iff, addMillis, nanosPerSecond] at *
  omega

theorem year_mono (h : a ≤ b) : a.date.year ≤ b.date.year := by
  have hdays : a.second / secondsPerDay ≤ b.second / secondsPerDay :=
    Int.ediv_le_ediv (by decide) (by rw [le_iff] at h; omega)
  exact yearOf_mono (by omega)

/-! ## The numbers of a stored text -/

/-- Nanoseconds stay below a second, or the instant lies in a leap second, which comes at the end
of a minute. -/
def IsProper (t : Instant) : Prop :=
  t.nanos < nanosPerSecond ∨ t.second % 60 = 59 ∧ t.nanos < 2 * nanosPerSecond

instance (t : Instant) : Decidable t.IsProper :=
  inferInstanceAs (Decidable (_ ∨ _))

instance (t : Instant) : Decidable t.IsPlain := inferInstanceAs (Decidable (_ < _))

theorem IsPlain.isProper {t : Instant} (h : t.IsPlain) : t.IsProper := .inl h

/-- The instant lies in the years that are written with four digits. -/
structure IsSortable (t : Instant) : Prop where
  proper : t.IsProper
  year_nonneg : 0 ≤ t.date.year
  year_le : t.date.year ≤ 9999

instance (t : Instant) : Decidable t.IsSortable :=
  decidable_of_iff (t.IsProper ∧ 0 ≤ t.date.year ∧ t.date.year ≤ 9999)
    ⟨fun ⟨hproper, h0, h9999⟩ => ⟨hproper, h0, h9999⟩, fun h => ⟨h.1, h.2, h.3⟩⟩

/-- Between a year that is not negative and a sortable time all times are sortable. -/
theorem IsSortable.of_le (hb : b.IsSortable) (ha : a.IsProper) (hyear : 0 ≤ a.date.year)
    (h : a ≤ b) : a.IsSortable :=
  ⟨ha, hyear, Int.le_trans (year_mono h) hb.year_le⟩

/-- Years of four digits lie before the last year that can be counted. -/
theorem IsSortable.second_le (h : a.IsSortable) : a.second ≤ lastSecond := by
  refine Int.not_lt.mp fun hlater => ?_
  have hlast : (⟨lastSecond, 0⟩ : Instant).date.year = 262142 := by decide +kernel
  have hyear := year_mono (.inl hlater : (⟨lastSecond, 0⟩ : Instant) ≤ a)
  have hyear' := h.year_le
  omega

/-- Widths and marks of a stored text. -/
def storedLayout : List (Nat × Char) :=
  [(4, '-'), (2, '-'), (2, 'T'), (2, ':'), (2, ':'), (2, '.'), (6, 'Z')]

/-- The numbers of a stored text. -/
def storedFields (t : Instant) : List Nat :=
  [t.date.year.toNat, t.date.month, t.date.day, t.ofDay / 3600, t.ofDay / 60 % 60,
    t.ofDay % 60 + t.nanos / nanosPerSecond, t.nanos % nanosPerSecond / 1000]

theorem toList_stored {t : Instant} (h : t.IsSortable) :
    t.stored.toList = row storedLayout t.storedFields := by
  simp [stored, textWith, secondText, yearText, h.year_nonneg, h.year_le, storedLayout,
    storedFields, row]

theorem ofDay_lt (t : Instant) : t.ofDay < 86400 := by
  simp only [ofDay, secondsPerDay]
  omega

theorem IsSortable.fits {t : Instant} (h : t.IsSortable) : Fits storedLayout t.storedFields := by
  obtain ⟨hproper, hyear, hyear'⟩ := h
  obtain ⟨hmonth, hday⟩ := Date.ofCount_bounds (t.second / secondsPerDay)
  have hofDay := t.ofDay_lt
  simp only [IsProper, nanosPerSecond] at hproper
  simp only [storedLayout, storedFields, Fits, nanosPerSecond, date, Nat.reducePow, and_true] at *
  omega

/-- Time of day, as its numbers: hour, minute, second, microsecond. -/
theorem timeOfDay_lt (ha : a.IsProper) (hday : a.second / secondsPerDay = b.second / secondsPerDay)
    (h : a.toMicros < b.toMicros) :
    [a.ofDay / 3600, a.ofDay / 60 % 60, a.ofDay % 60 + a.nanos / nanosPerSecond,
        a.nanos % nanosPerSecond / 1000] <
      [b.ofDay / 3600, b.ofDay / 60 % 60, b.ofDay % 60 + b.nanos / nanosPerSecond,
        b.nanos % nanosPerSecond / 1000] := by
  simp only [IsProper, lt_iff, toMicros, nanosPerSecond, ofDay, secondsPerDay] at *
  simp only [List.cons_lt_cons_iff, List.not_lt_nil, and_false, or_false]
  omega

/-- A later microsecond has later numbers. -/
theorem storedFields_lt (ha : a.IsSortable) (hb : b.IsSortable) (h : a.toMicros < b.toMicros) :
    a.storedFields < b.storedFields := by
  have hdays : a.second / secondsPerDay ≤ b.second / secondsPerDay := by
    simp only [lt_iff, toMicros] at h
    exact Int.ediv_le_ediv (by decide) (by omega)
  have hyear := ha.year_nonneg
  have hyear' := hb.year_nonneg
  simp only [storedFields]
  rcases Int.lt_or_eq_of_le hdays with hlt | heq
  · have hdate : a.date < b.date := Date.ofCount_lt hlt
    change _ ∨ _ at hdate
    simp only [List.cons_lt_cons_iff]
    omega
  · have hdate : a.date = b.date := congrArg Date.ofCount heq
    rw [hdate]
    change [_, _, _] ++ _ < [_, _, _] ++ _
    exact List.append_left_lt (timeOfDay_lt ha.proper heq h)

/-! ## Texts compare as times -/

/-- A later microsecond has a later text. -/
theorem stored_lt (ha : a.IsSortable) (hb : b.IsSortable) (h : a.toMicros < b.toMicros) :
    a.stored < b.stored := by
  rw [String.lt_iff, toList_stored ha, toList_stored hb]
  exact row_lt ha.fits hb.fits (storedFields_lt ha hb h)

/-- What is finer than a microsecond is not stored. -/
theorem stored_congr (h : a.toMicros = b.toMicros) : a.stored = b.stored := by
  simp only [toMicros, mk.injEq] at h
  have hnanos : a.nanos / 1000 = b.nanos / 1000 := by omega
  have hseconds : a.nanos / nanosPerSecond = b.nanos / nanosPerSecond := by
    simp only [nanosPerSecond]
    omega
  have hmicros : a.nanos % nanosPerSecond / 1000 = b.nanos % nanosPerSecond / 1000 := by
    simp only [nanosPerSecond]
    omega
  simp only [stored, textWith, secondText, date, ofDay, h.1, hseconds, hmicros]

/-- **The texts of two times compare as the times do**, to the microsecond. -/
theorem stored_lt_iff (ha : a.IsSortable) (hb : b.IsSortable) :
    a.stored < b.stored ↔ a.toMicros < b.toMicros := by
  refine ⟨fun h => ?_, stored_lt ha hb⟩
  rcases lt_trichotomy a.toMicros b.toMicros with hlt | heq | hgt
  · exact hlt
  · exact absurd (stored_congr heq ▸ h) (String.lt_irrefl _)
  · exact absurd h (String.lt_asymm (stored_lt hb ha hgt))

theorem stored_le_iff (ha : a.IsSortable) (hb : b.IsSortable) :
    a.stored ≤ b.stored ↔ a.toMicros ≤ b.toMicros := by
  rw [← String.not_lt, stored_lt_iff hb ha, not_lt]

/-- A year of more than four digits, or before year 0, is written with a sign. -/
theorem toList_stored_of_sign {t : Instant} (h : ¬ (0 ≤ t.date.year ∧ t.date.year ≤ 9999)) :
    ∃ sign rest, t.stored.toList = sign :: rest ∧ (sign = '-' ∨ sign = '+') := by
  rw [stored, String.toList_ofList, textWith, secondText, yearText, if_neg h]
  by_cases hbefore : t.date.year < 0
  · rw [if_pos hbefore]
    exact ⟨'-', _, rfl, .inl rfl⟩
  · rw [if_neg hbefore]
    exact ⟨'+', _, rfl, .inr rfl⟩

/-- A sign comes before every digit. -/
theorem stored_lt_of_sign (ha : a.IsSortable)
    (hb : ¬ (0 ≤ b.date.year ∧ b.date.year ≤ 9999)) : b.stored < a.stored := by
  obtain ⟨sign, rest, hrest, hsign⟩ := toList_stored_of_sign hb
  have hfirst : sign < digitOf (a.date.year.toNat / 10 / 10 / 10) := sign_lt_digitOf hsign _
  rw [String.lt_iff, hrest, toList_stored ha]
  exact List.cons_lt_cons_iff.mpr (.inl hfirst)

/-- What is not before a sortable time is sortable. -/
theorem isSortable_of_stored_le (ha : a.IsSortable) (hb : b.IsProper) (h : a.stored ≤ b.stored) :
    b.IsSortable := by
  by_cases hyear : 0 ≤ b.date.year ∧ b.date.year ≤ 9999
  · exact ⟨hb, hyear.1, hyear.2⟩
  · exact absurd h (String.not_le.mpr (stored_lt_of_sign ha hyear))

/-- A sortable time whose text does not come after that of another lies no later. -/
theorem toMicros_le_of_stored_le (ha : a.IsSortable) (hb : b.IsProper) (h : a.stored ≤ b.stored) :
    a.toMicros ≤ b.toMicros :=
  (stored_le_iff ha (isSortable_of_stored_le ha hb h)).mp h

end Time.Instant

end GeoReplication
