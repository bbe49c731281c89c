import GeoReplication.Time.Civil

/-!
# Proofs/Time/Calendar — dates come in the order of days

    yearStart y ≤ day < yearStart (y + 1),    monthStart m ≤ day of the year < monthStart (m + 1)

`Date.ofCount` finds the year and the month that a day lies in.  Both starts grow, so a later day
never has an earlier date (`Date.ofCount_lt`).
-/

namespace GeoReplication.Time

/-! ## Years -/

theorem yearStart_mono {y y' : Int} (h : y ≤ y') : yearStart y ≤ yearStart y' := by
  simp only [yearStart]
  omega

/-- The estimate of the year is off by at most one. -/
theorem yearStart_estimate (day : Int) :
    yearStart (day * 400 / 146097 - 1) ≤ day ∧ day < yearStart (day * 400 / 146097 + 1 + 1) := by
  simp only [yearStart]
  omega

theorem yearStart_yearOf_le (day : Int) : yearStart (Date.yearOf day) ≤ day := by
  have hestimate := (yearStart_estimate day).1
  simp only [Date.yearOf]
  split
  · exact hestimate
  · split <;> omega

theorem lt_yearStart_yearOf (day : Int) : day < yearStart (Date.yearOf day + 1) := by
  have hestimate := (yearStart_estimate day).2
  simp only [Date.yearOf]
  split
  · simpa
  · split
    · exact hestimate
    · omega

/-- A later day lies in no earlier year. -/
theorem yearOf_mono {day day' : Int} (h : day ≤ day') : Date.yearOf day ≤ Date.yearOf day' := by
  refine Int.not_lt.mp fun hlater => ?_
  have hstart := yearStart_yearOf_le day
  have hend := lt_yearStart_yearOf day'
  have hmono := yearStart_mono (show Date.yearOf day' + 1 ≤ Date.yearOf day by omega)
  omega

/-- Days of a year. -/
def yearLength (leap : Bool) : Nat := if leap then 366 else 365

theorem yearStart_succ (year : Int) :
    yearStart (year + 1) = yearStart year + yearLength (isLeap year) := by
  have hleap : isLeap year = true ↔ year % 4 = 0 ∧ (year % 100 ≠ 0 ∨ year % 400 = 0) := by
    simp [isLeap]
  simp only [yearStart, yearLength, hleap]
  split <;> omega

/-! ## Months -/

theorem monthStart_mono (leap : Bool) {m m' : Nat} (h : m ≤ m') :
    monthStart leap m ≤ monthStart leap m' := by
  cases leap <;> grind [monthStart, februaryGap]

/-- Each day of the year lies in the month that `monthOf` finds. -/
theorem monthOf_bounds : ∀ leap, ∀ d < yearLength leap,
    1 ≤ monthOf leap d ∧ monthOf leap d ≤ 12 ∧
      monthStart leap (monthOf leap d) ≤ d ∧ d < monthStart leap (monthOf leap d + 1) := by
  decide +kernel

/-- A later day of the year lies in no earlier month. -/
theorem monthOf_mono {leap : Bool} {d d' : Nat} (hd' : d' < yearLength leap) (h : d ≤ d') :
    monthOf leap d ≤ monthOf leap d' := by
  refine Nat.not_lt.mp fun hlater => ?_
  have hstart := (monthOf_bounds leap d (by omega)).2.2.1
  have hend := (monthOf_bounds leap d' hd').2.2.2
  have hmono := monthStart_mono leap (show monthOf leap d' + 1 ≤ monthOf leap d by omega)
  omega

/-- No month is longer than 31 days. -/
theorem monthStart_succ_le (leap : Bool) (m : Nat) :
    monthStart leap (m + 1) ≤ monthStart leap m + 31 := by
  cases leap <;> grind [monthStart, februaryGap]

/-! ## Dates -/

namespace Date

/-- Dates are ordered by year, then month, then day. -/
instance : LT Date :=
  ⟨fun a b => a.year < b.year ∨ a.year = b.year ∧
    (a.month < b.month ∨ a.month = b.month ∧ a.day < b.day)⟩

/-- The day of the year of a count of days from the first of January of year 0. -/
theorem dayOfYear_lt (day : Int) :
    (day - yearStart (yearOf day)).toNat < yearLength (isLeap (yearOf day)) := by
  have hstart := yearStart_yearOf_le day
  have hend := lt_yearStart_yearOf day
  rw [yearStart_succ] at hend
  omega

/-- Month and day of a date have at most two digits. -/
theorem ofCount_bounds (day : Int) : (ofCount day).month ≤ 12 ∧ (ofCount day).day ≤ 31 := by
  obtain ⟨-, hmonth, hstart, hend⟩ := monthOf_bounds _ _ (dayOfYear_lt (day + epochDay))
  have hlength := monthStart_succ_le (isLeap (yearOf (day + epochDay)))
    (monthOf (isLeap (yearOf (day + epochDay)))
      (day + epochDay - yearStart (yearOf (day + epochDay))).toNat)
  simp only [ofCount]
  omega

/-- **A later day has a later date.** -/
theorem ofCount_lt {day day' : Int} (h : day < day') : ofCount day < ofCount day' := by
  have hyear : yearOf (day + epochDay) ≤ yearOf (day' + epochDay) := yearOf_mono (by omega)
  rcases Int.lt_or_eq_of_le hyear with hlt | heq
  · exact .inl hlt
  · refine .inr ⟨heq, ?_⟩
    have hday' := dayOfYear_lt (day' + epochDay)
    have hstart := yearStart_yearOf_le (day + epochDay)
    simp only [ofCount]
    rw [heq] at hstart ⊢
    generalize isLeap (yearOf (day' + epochDay)) = leap at *
    generalize yearStart (yearOf (day' + epochDay)) = first at *
    have hdays : (day + epochDay - first).toNat < (day' + epochDay - first).toNat := by omega
    generalize (day + epochDay - first).toNat = d at *
    generalize (day' + epochDay - first).toNat = d' at *
    rcases Nat.lt_or_eq_of_le (monthOf_mono hday' (Nat.le_of_lt hdays)) with hlt | heq
    · exact .inl hlt
    · have hmonth := (monthOf_bounds leap d (by omega)).2.2.1
      refine .inr ⟨heq, ?_⟩
      rw [heq] at hmonth ⊢
      omega

end Date

end GeoReplication.Time
