import GeoReplication.Proofs.Time.ReadBack
import Mathlib.Tactic.SplitIfs

/-!
# Proofs/Time/WrittenBack — times of records read back

    2024-02-29T23:59:60.12Z   never written
    2024-02-29T23:59:60.120Z

A record keeps the fewest digits that lose nothing, so what stands behind the seconds is a point or
the closing `Z`, no digit either way (`exists_mark`).  The reader of records takes blanks and short
numbers as well, but none are written: the numbers come off as they do from a stored text, now to
the nanosecond (`Instant.ofWritten?_written`).
-/

namespace GeoReplication.Time

open GeoReplication.Text

/-! ## Numbers behind blanks -/

theorem isBlank_digitOf (n : Nat) : isBlank (digitOf n) = false := by
  have hall : ∀ i < 10, isBlank (Char.ofNat (48 + i)) = false := by decide
  exact hall _ (Nat.mod_lt n (by decide))

theorem exists_fixedDigits_eq (width n : Nat) :
    ∃ m cs, fixedDigits (width + 1) n = digitOf m :: cs := by
  induction width generalizing n with
  | zero => exact ⟨n, [], rfl⟩
  | succ width ih =>
    obtain ⟨m, cs, heq⟩ := ih (n / 10)
    exact ⟨m, cs ++ [digitOf n], by rw [fixedDigits, heq, List.cons_append]⟩

theorem skipBlanks_fixedDigits (width n : Nat) (rest : List Char) :
    skipBlanks (fixedDigits (width + 1) n ++ rest) = fixedDigits (width + 1) n ++ rest := by
  obtain ⟨m, cs, heq⟩ := exists_fixedDigits_eq width n
  rw [heq, List.cons_append, skipBlanks, List.dropWhile_cons_of_neg]
  rw [isBlank_digitOf]
  exact Bool.false_ne_true

theorem pair?_fixedDigits {n : Nat} {mark : Char} (hn : n < 10 ^ 2) (hmark : mark.isDigit = false)
    (rest : List Char) : pair? (fixedDigits 2 n ++ mark :: rest) = some (n, mark :: rest) := by
  rw [pair?, skipBlanks_fixedDigits]
  exact digits?_fixedDigits (by decide) (by decide) hn hmark rest

/-- A year of four digits has no sign. -/
theorem year?_fixedDigits {n : Nat} {mark : Char} (hn : n < 10 ^ 4) (hmark : mark.isDigit = false)
    (rest : List Char) :
    year? (fixedDigits 4 n ++ mark :: rest) = some ((n : Int), mark :: rest) := by
  have hread : digits? 1 4 (fixedDigits 4 n ++ mark :: rest) = some (n, mark :: rest) :=
    digits?_fixedDigits (by decide) (by decide) hn hmark rest
  obtain ⟨m, cs, heq⟩ := exists_fixedDigits_eq 3 n
  rw [year?, skipBlanks_fixedDigits]
  split
  · next h =>
    rw [heq, List.cons_append] at h
    exact absurd (isDigit_digitOf m) (by rw [(List.cons.inj h).1]; decide)
  · next h =>
    rw [heq, List.cons_append] at h
    exact absurd (isDigit_digitOf m) (by rw [(List.cons.inj h).1]; decide)
  · rw [hread]
    rfl

/-! ## Parts of a text -/

theorem date?_fixedDigits {year month day : Nat} (hyear : year < 10 ^ 4) (hmonth : month < 10 ^ 2)
    (hday : day < 10 ^ 2) (rest : List Char) :
    date? skipBlanks (fixedDigits 4 year ++ '-' :: (fixedDigits 2 month ++
      '-' :: (fixedDigits 2 day ++ 'T' :: rest))) =
        some (((year : Int), month, day), 'T' :: rest) := by
  have hdash : '-'.isDigit = false := by decide
  refine Option.bind_eq_some_iff.mpr ⟨_, year?_fixedDigits hyear hdash _, ?_⟩
  refine Option.bind_eq_some_iff.mpr ⟨_, mark?_cons _ _, ?_⟩
  refine Option.bind_eq_some_iff.mpr ⟨_, pair?_fixedDigits hmonth hdash _, ?_⟩
  refine Option.bind_eq_some_iff.mpr ⟨_, mark?_cons _ _, ?_⟩
  exact Option.bind_eq_some_iff.mpr ⟨_, pair?_fixedDigits hday (by decide) _, rfl⟩

theorem timeOfDay?_fixedDigits {hour minute second : Nat} {mark : Char} (hhour : hour < 10 ^ 2)
    (hminute : minute < 10 ^ 2) (hsecond : second < 10 ^ 2) (hmark : mark.isDigit = false)
    (rest : List Char) :
    timeOfDay? skipBlanks (fixedDigits 2 hour ++ ':' :: (fixedDigits 2 minute ++
      ':' :: (fixedDigits 2 second ++ mark :: rest))) =
        some ((hour, minute, second), mark :: rest) := by
  have hcolon : ':'.isDigit = false := by decide
  refine Option.bind_eq_some_iff.mpr ⟨_, pair?_fixedDigits hhour hcolon _, ?_⟩
  refine Option.bind_eq_some_iff.mpr ⟨_, mark?_cons _ _, ?_⟩
  refine Option.bind_eq_some_iff.mpr ⟨_, pair?_fixedDigits hminute hcolon _, ?_⟩
  refine Option.bind_eq_some_iff.mpr ⟨_, mark?_cons _ _, ?_⟩
  exact Option.bind_eq_some_iff.mpr ⟨_, pair?_fixedDigits hsecond hmark _, rfl⟩

namespace Instant

/-- **No nanosecond is lost** by writing three, six or nine digits. -/
theorem fraction?_shortFraction {nanos : Nat} (h : nanos < nanosPerSecond) :
    fraction? (shortFraction nanos ++ ['Z']) = some (nanos, ['Z']) := by
  simp only [nanosPerSecond] at h
  rw [shortFraction]
  split_ifs with hzero hmillis hmicros
  · rw [hzero]
    rfl
  · have hwhole : nanos / 1000000 * 10 ^ (9 - 3) = nanos :=
      Nat.div_mul_cancel (Nat.dvd_of_mod_eq_zero hmillis)
    rw [List.cons_append, fraction?_fixedDigits (by decide) (by decide) (by omega), hwhole]
  · have hwhole : nanos / 1000 * 10 ^ (9 - 6) = nanos :=
      Nat.div_mul_cancel (Nat.dvd_of_mod_eq_zero hmicros)
    rw [List.cons_append, fraction?_fixedDigits (by decide) (by decide) (by omega), hwhole]
  · have hwhole : nanos * 10 ^ (9 - 9) = nanos := Nat.mul_one nanos
    rw [List.cons_append, fraction?_fixedDigits (by decide) (by decide) (by omega), hwhole]

theorem exists_mark (nanos : Nat) :
    ∃ mark rest, shortFraction nanos ++ ['Z'] = mark :: rest ∧ mark.isDigit = false := by
  rw [shortFraction]
  split_ifs
  · exact ⟨'Z', [], rfl, by decide⟩
  all_goals exact ⟨'.', _, rfl, by decide⟩

variable {t : Instant}

theorem toList_written (h : t.IsSortable) : t.written.toList =
    fixedDigits 4 t.date.year.toNat ++ '-' :: (fixedDigits 2 t.date.month ++
      '-' :: (fixedDigits 2 t.date.day ++ 'T' :: (fixedDigits 2 (t.ofDay / 3600) ++
        ':' :: (fixedDigits 2 (t.ofDay / 60 % 60) ++
          ':' :: (fixedDigits 2 (t.ofDay % 60 + t.nanos / nanosPerSecond) ++
            (shortFraction (t.nanos % nanosPerSecond) ++ ['Z'])))))) := by
  simp [written, textWith, secondText, yearText, h.year_nonneg, h.year_le]

/-- **A written time reads back**, to the nanosecond. -/
theorem ofWritten?_written (h : t.IsSortable) : ofWritten? t.written = some t := by
  obtain ⟨hyear, hmonth, hday, hhour, hminute, hsecond, -, -⟩ := h.fits
  have hfraction : fraction? (shortFraction (t.nanos % nanosPerSecond) ++ ['Z']) =
      some (t.nanos % nanosPerSecond, ['Z']) :=
    fraction?_shortFraction (Nat.mod_lt _ (by decide))
  have hinstant := instant?_fields h (t.nanos % nanosPerSecond)
  rw [Nat.mod_add_div'] at hinstant
  obtain ⟨mark, rest, hrest, hmark⟩ := exists_mark (t.nanos % nanosPerSecond)
  rw [ofWritten?, toList_written h]
  rw [hrest] at hfraction ⊢
  refine Option.bind_eq_some_iff.mpr ⟨_, date?_fixedDigits hyear hmonth hday _, ?_⟩
  refine Option.bind_eq_some_iff.mpr ⟨_, rfl, ?_⟩
  refine Option.bind_eq_some_iff.mpr ⟨_, timeOfDay?_fixedDigits hhour hminute hsecond hmark _, ?_⟩
  refine Option.bind_eq_some_iff.mpr ⟨_, hfraction, ?_⟩
  refine Option.bind_eq_some_iff.mpr ⟨_, rfl, ?_⟩
  exact hinstant

end Instant

end GeoReplication.Time
