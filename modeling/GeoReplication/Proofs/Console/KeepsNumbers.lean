import GeoReplication.Console.StatusText
import GeoReplication.Proofs.Text.Cuts
import GeoReplication.Proofs.Text.Numerals
import GeoReplication.Proofs.Time.ReadBack
import Mathlib.Algebra.GroupWithZero.Nat

/-!
# Proofs/Console/KeepsNumbers — a report loses no number

    Health status:          Unhealthy
    Health:                 whatever it says
    Replication lag:        1w 1d 1m 1s
    Repositories:           1,000/1,234,567 (0.08%)  failed: 3
    …

A report is a name and a value on each line, and names have no colon and values no line break, so
the lines can be told from the text (`written_injective`).  A value is cut at its blanks and
slashes, since numbers have neither: counts in `counts_injective`, events in `eventId_injective`.  A
lag is counted together again from its units (`seconds?_lag`).  So a report keeps every number that
it shows: `render_keeps_numbers`.
-/

namespace GeoReplication

open Text Time

/-! ## The numbers of a report -/

/-- The numbers of a class, without its share in percent. -/
def CopyCounts.numbers (c : CopyCounts) : Nat × Nat × Nat := (c.total, c.synced, c.failed)

/-- Two states that differ in no number: in what is counted, the lag and the ids of both events. -/
structure NodeStatus.SameNumbers (s s' : NodeStatus) : Prop where
  repositories : s.repositories.numbers = s'.repositories.numbers
  lfsObjects : s.lfsObjects.numbers = s'.lfsObjects.numbers
  attachments : s.attachments.numbers = s'.attachments.numbers
  lag : s.lag = s'.lag
  lastEventId : s.lastEventId = s'.lastEventId
  cursorEventId : s.cursorEventId = s'.cursorEventId

namespace StatusText

/-! ## Lags -/

/-- Seconds of the unit with this suffix. -/
def unitSize (suffix : List Char) : Nat :=
  match units.find? fun u => u.2.toList == suffix with
  | some u => u.1
  | none => 0

/-- Seconds that a number and the suffix behind it stand for. -/
def partSeconds (part : List Char) : Nat :=
  Nat.ofDigitChars 10 (part.takeWhile Char.isDigit) 0 * unitSize (part.dropWhile Char.isDigit)

/-- Seconds of a lag as it is shown, none if it is unknown. -/
def seconds? (text : String) : Option Nat :=
  if text = unknown then none else some ((splitAll ' ' text.toList).map partSeconds).sum

/-- A suffix is one letter. -/
theorem suffix_units {u : Nat × String} (hu : u ∈ units) :
    ∃ c ∈ ['w', 'd', 'h', 'm', 's'], u.2.toList = [c] := by
  simp only [units, List.mem_cons, List.not_mem_nil, or_false] at hu
  rcases hu with rfl | rfl | rfl | rfl | rfl <;> exact ⟨_, by decide, rfl⟩

theorem isDigit_suffix {c : Char} (hc : c ∈ ['w', 'd', 'h', 'm', 's']) : c.isDigit = false := by
  simp only [List.mem_cons, List.not_mem_nil, or_false] at hc
  rcases hc with rfl | rfl | rfl | rfl | rfl <;> rfl

theorem partSeconds_part {u : Nat × String} (hu : u ∈ units) (count : Nat) :
    partSeconds (decimal count ++ u.2).toList = count * u.1 := by
  obtain ⟨letter, hletter, hsuffix⟩ := suffix_units hu
  have hhead : ∀ c ∈ u.2.toList.head?, c.isDigit = false := by
    intro c hc
    rw [hsuffix, List.head?_cons, Option.mem_some_iff] at hc
    exact isDigit_suffix (hc ▸ hletter)
  have hsize : ∀ u ∈ units, unitSize u.2.toList = u.1 := by decide
  have hread : Nat.ofDigitChars 10 (digits count) 0 = count :=
    Nat.ofDigitChars_toDigits (by decide) (by decide)
  have htext : (decimal count ++ u.2).toList = digits count ++ u.2.toList := by
    rw [String.toList_append, decimal, String.toList_ofList]
    rfl
  rw [partSeconds, htext, takeWhile_digits_append count hhead,
    dropWhile_digits_append count hhead, hread, hsize u hu]

/-- What is left over of a number of seconds after all units. -/
def leftOver (us : List (Nat × String)) (seconds : Nat) : Nat :=
  us.foldl (fun seconds u => seconds % u.1) seconds

theorem leftOver_units (seconds : Nat) : leftOver units seconds = 0 := Nat.mod_one _

theorem inUnits_of_pos {u : Nat × String} {us : List (Nat × String)} {seconds : Nat}
    (h : 0 < seconds / u.1) : inUnits (u :: us) seconds =
      (decimal (seconds / u.1 : Nat) ++ u.2) :: inUnits us (seconds % u.1) := if_pos h

/-- A unit of which there is none changes nothing. -/
theorem inUnits_of_zero {u : Nat × String} {us : List (Nat × String)} {seconds : Nat}
    (h : seconds / u.1 = 0) : inUnits (u :: us) seconds = inUnits us (seconds % u.1) := by
  have hall : seconds % u.1 = seconds := by
    have hsplit := Nat.div_add_mod seconds u.1
    rwa [h, Nat.mul_zero, Nat.zero_add] at hsplit
  rw [hall]
  exact if_neg (by rw [h]; exact Nat.lt_irrefl 0)

/-- The units and what is left over make up the seconds. -/
theorem sum_inUnits : ∀ {us : List (Nat × String)}, (∀ u ∈ us, u ∈ units) → ∀ seconds : Nat,
    ((inUnits us seconds).map fun part => partSeconds part.toList).sum + leftOver us seconds =
      seconds
  | [], _, seconds => Nat.zero_add seconds
  | u :: us, hus, seconds => by
      obtain ⟨hu, hus⟩ := List.forall_mem_cons.mp hus
      have hrest := sum_inUnits hus (seconds % u.1)
      have hsplit := Nat.div_add_mod' seconds u.1
      change _ + leftOver us (seconds % u.1) = seconds
      rcases Nat.eq_zero_or_pos (seconds / u.1) with hzero | hpos
      · rw [hzero, Nat.zero_mul, Nat.zero_add] at hsplit
        rw [inUnits_of_zero hzero, hrest, hsplit]
      · rw [inUnits_of_pos hpos, List.map_cons, List.sum_cons, partSeconds_part hu, Nat.add_assoc,
          hrest, hsplit]

theorem mem_part {c : Char} : ∀ {us : List (Nat × String)} {seconds : Nat} {part : String},
    (∀ u ∈ us, u ∈ units) → part ∈ inUnits us seconds → c ∈ part.toList →
      c.isDigit = true ∨ c ∈ ['w', 'd', 'h', 'm', 's']
  | [], _, _, _, hpart, _ => by cases hpart
  | u :: us, seconds, part, hus, hpart, hc => by
      obtain ⟨hu, hus⟩ := List.forall_mem_cons.mp hus
      rcases Nat.eq_zero_or_pos (seconds / u.1) with hzero | hpos
      · rw [inUnits_of_zero hzero] at hpart
        exact mem_part hus hpart hc
      · rw [inUnits_of_pos hpos] at hpart
        rcases List.mem_cons.mp hpart with rfl | hpart
        · obtain ⟨letter, hletter, hsuffix⟩ := suffix_units hu
          rw [String.toList_append, decimal, String.toList_ofList, hsuffix, List.mem_append,
            List.mem_singleton] at hc
          rcases hc with hdigit | rfl
          · exact .inl (isDigit_of_mem_digits hdigit)
          · exact .inr hletter
        · exact mem_part hus hpart hc

theorem lag_of_pos {seconds : Int} (h : 0 < seconds) :
    lag (some seconds) = joinWith " " (inUnits units seconds.toNat) := if_neg (Int.not_le.mpr h)

theorem mem_lag {c : Char} {seconds : Int} (hc : c ∈ (lag (some seconds)).toList) :
    c.isDigit = true ∨ c ∈ [' ', 'w', 'd', 'h', 'm', 's'] := by
  by_cases hpos : 0 < seconds
  · rw [lag_of_pos hpos] at hc
    rcases mem_joinWith hc with hblank | ⟨part, hpart, hc⟩
    · exact .inr (List.mem_cons.mpr (.inl (List.mem_singleton.mp hblank)))
    · exact (mem_part (fun _ => id) hpart hc).imp_right (List.mem_cons_of_mem _)
  · have hzero : lag (some seconds) = "0s" := if_pos (Int.not_lt.mp hpos)
    have hcases : c ∈ ['0', 's'] := by rwa [hzero] at hc
    rcases List.mem_pair.mp hcases with rfl | rfl
    · exact .inl rfl
    · exact .inr (by decide)

theorem notMem_lag {c : Char} (hc : c.isDigit = false)
    (hletter : c ∉ [' ', 'w', 'd', 'h', 'm', 's']) (seconds : Int) :
    c ∉ (lag (some seconds)).toList := by
  intro hmem
  rcases mem_lag hmem with hdigit | hin
  · exact absurd (hdigit.symm.trans hc) (by decide)
  · exact hletter hin

theorem sum_units (seconds : Nat) :
    ((inUnits units seconds).map fun part => partSeconds part.toList).sum = seconds := by
  have hall := sum_inUnits (fun _ => id) seconds
  rwa [leftOver_units, Nat.add_zero] at hall

theorem splitAll_lag {seconds : Int} (h : 0 < seconds) :
    splitAll ' ' (lag (some seconds)).toList =
      (inUnits units seconds.toNat).map String.toList := by
  have hparts : inUnits units seconds.toNat ≠ [] := by
    intro hnil
    have hsum := sum_units seconds.toNat
    rw [hnil, List.map_nil, List.sum_nil] at hsum
    omega
  have hblank : ∀ part ∈ inUnits units seconds.toNat, ' ' ∉ part.toList := by
    intro part hpart hmem
    rcases mem_part (fun _ => id) hpart hmem with hdigit | hletter
    · exact absurd hdigit (by decide)
    · exact absurd hletter (by decide)
  rw [lag_of_pos h, splitAll_joinWith rfl hparts hblank]

/-- **A lag is counted together again from its text.** -/
theorem seconds?_lag {x : Option Int} (h : ∀ n ∈ x, 0 ≤ n) :
    (seconds? (lag x)).map Int.ofNat = x := by
  cases x with
  | none => rfl
  | some seconds =>
    have hknown : lag (some seconds) ≠ unknown := by
      intro hunknown
      exact notMem_lag (c := 'U') (by decide) (by decide) seconds (by rw [hunknown]; decide)
    rcases Int.lt_or_eq_of_le (h seconds rfl) with hpos | rfl
    · have hsum : ((splitAll ' ' (lag (some seconds)).toList).map partSeconds).sum =
          seconds.toNat := by
        rw [splitAll_lag hpos, List.map_map]
        exact sum_units seconds.toNat
      rw [seconds?, if_neg hknown, hsum]
      exact congrArg some (Int.toNat_of_nonneg (Int.le_of_lt hpos))
    · decide

theorem lag_injective {x y : Option Int} (hx : ∀ n ∈ x, 0 ≤ n) (hy : ∀ n ∈ y, 0 ≤ n)
    (h : lag x = lag y) : x = y := by
  rw [← seconds?_lag hx, h, seconds?_lag hy]

/-! ## Counts -/

theorem toList_counts (c : CopyCounts) : (counts c).toList =
    (grouped c.synced).toList ++ '/' :: ((grouped c.total).toList ++ ' ' ::
      (['('] ++ (rounded 2 c.percentage).toList ++ "%)  failed:".toList ++ ' ' ::
        (grouped c.failed).toList)) := by
  simp [counts, share]

/-- **Counts are told from their text**, whatever the share. -/
theorem counts_injective {c d : CopyCounts} (h : counts c = counts d) :
    c.numbers = d.numbers := by
  have htext := congrArg String.toList h
  rw [toList_counts, toList_counts] at htext
  have hslash := notMem_grouped (c := '/') (by decide) (by decide)
  have hblank := notMem_grouped (c := ' ') (by decide) (by decide)
  obtain ⟨hsynced, hrest⟩ := eq_of_cut (hslash _) (hslash _) htext
  obtain ⟨htotal, hbehind⟩ := eq_of_cut (hblank _) (hblank _) hrest
  -- The share may have any length, so the failed ones are what stands behind the last blank.
  have hfailed := congrArg (splitLast? ' ') hbehind
  rw [splitLast?_append (hblank _), splitLast?_append (hblank _)] at hfailed
  obtain ⟨-, hfailed⟩ := Prod.mk.inj (Option.some.inj hfailed)
  rw [CopyCounts.numbers, grouped_injective (String.toList_injective htotal),
    grouped_injective (String.toList_injective hsynced),
    grouped_injective (String.toList_injective hfailed), CopyCounts.numbers]

/-! ## Events -/

/-- Up to its first blank an event is its id, or says that there is none. -/
theorem takeWhile_event (id : Option Int) (date : Option Instant) :
    (event id date).toList.takeWhile (· ≠ ' ') = id.elim unknown.toList intDigits := by
  cases id with
  | none => exact (by decide : unknown.toList.takeWhile (· ≠ ' ') = unknown.toList)
  | some id =>
    have hid : ∀ c ∈ intDigits id, decide (c ≠ ' ') = true := by
      intro c hc
      refine decide_eq_true ?_
      rintro rfl
      exact notMem_intDigits (by decide) (by decide) id hc
    cases date with
    | none =>
      rw [event, decimal, String.toList_ofList]
      exact List.takeWhile_eq_self_iff.mpr hid
    | some date =>
      have htext : (event (some id) (some date)).toList = intDigits id ++
          (' ' :: ('(' :: date.secondText ' ' ++ " UTC)".toList)) := by
        simp [event, decimal]
      rw [htext, List.takeWhile_append_of_pos hid, List.takeWhile_cons_of_neg (by decide),
        List.append_nil]
      rfl

/-- **An event's id is told from its text**, whatever the date. -/
theorem eventId_injective {x y : Option Int} {date date' : Option Instant}
    (h : event x date = event y date') : x = y := by
  have hunknown : ∀ n : Int, intDigits n ≠ unknown.toList := by
    intro n heq
    have hletter : 'U' ∈ unknown.toList := by decide
    exact notMem_intDigits (by decide) (by decide) n (heq ▸ hletter)
  have hfront : x.elim unknown.toList intDigits = y.elim unknown.toList intDigits := by
    rw [← takeWhile_event x date, h, takeWhile_event]
  cases x with
  | none =>
    cases y with
    | none => rfl
    | some n => exact absurd hfront.symm (hunknown n)
  | some m =>
    cases y with
    | none => exact absurd hfront (hunknown m)
    | some n => exact congrArg some (intDigits_injective hfront)

/-! ## Values have no line break -/

theorem notMem_fixedDigits (width n : Nat) : '\n' ∉ fixedDigits width n := by
  intro hmem
  exact absurd (isDigit_of_mem_fixedDigits hmem) (by decide)

theorem notMem_secondText (date : Instant) : '\n' ∉ date.secondText ' ' := by
  have hyear : '\n' ∉ yearText date.date.year := by
    rw [yearText]
    split
    · exact notMem_fixedDigits 4 _
    · split <;> simp [notMem_digits]
  simp [Instant.secondText, hyear, notMem_fixedDigits]

theorem notMem_rounded (places : Nat) (x : Float) : '\n' ∉ (rounded places x).toList := by
  have hplaced : ∀ n : Nat, '\n' ∉ placed places n := by
    intro n
    rw [placed]
    split <;> simp [notMem_digits, notMem_fixedDigits]
  rw [rounded]
  split
  · decide
  · simp only [String.toList_ofList]
    split <;> split <;> simp [hplaced]

theorem notMem_lagText (x : Option Int) : '\n' ∉ (lag x).toList := by
  cases x with
  | none => decide
  | some seconds => exact notMem_lag (by decide) (by decide) seconds

theorem notMem_counts (c : CopyCounts) : '\n' ∉ (counts c).toList := by
  have hgrouped := notMem_grouped (c := '\n') (by decide) (by decide)
  rw [toList_counts]
  simp [hgrouped, notMem_rounded]

theorem notMem_event (id : Option Int) (date : Option Instant) :
    '\n' ∉ (event id date).toList := by
  have hid : ∀ n : Int, '\n' ∉ intDigits n := notMem_intDigits (by decide) (by decide)
  cases id with
  | none => exact (by decide : '\n' ∉ unknown.toList)
  | some id =>
    cases date with
    | none => simp [event, decimal, hid]
    | some date => simp [event, decimal, hid, notMem_secondText]

/-! ## Lines -/

/-- The lines of a report, each a name and a value. -/
def rows (s : NodeStatus) : List (String × String) :=
  ("Health status", if s.healthy then "Healthy" else "Unhealthy") ::
    (if s.health.isEmpty then [] else [("Health", s.health)]) ++
    [("Replication lag", lag s.lag), ("Repositories", counts s.repositories),
      ("LFS objects", counts s.lfsObjects), ("Attachments", counts s.attachments),
      ("Last event ID seen", event s.lastEventId s.lastEventDate),
      ("Last event processed", event s.cursorEventId s.cursorEventDate)]

/-- Lines one below the other. -/
def written : List (String × String) → String
  | [] => ""
  | row :: rows => line row.1 row.2 ++ written rows

theorem render_eq_written (s : NodeStatus) : render s = written (rows s) := by
  rw [render, rows]
  cases h : s.health.isEmpty <;> simp [written, String.append_assoc]

/-- A name ends with its colon and a value with its line. -/
structure IsRow (row : String × String) : Prop where
  name : ':' ∉ row.1.toList
  value : '\n' ∉ row.2.toList

theorem toList_line_append (name value rest : String) : (line name value ++ rest).toList =
    name.toList ++ ':' :: (List.replicate (nameWidth - (name ++ ":").length) ' ' ++
      (value.toList ++ '\n' :: rest.toList)) := by
  simp [line, padRight]

theorem line_append_ne_empty (name value rest : String) : line name value ++ rest ≠ "" := by
  intro hempty
  have htext := congrArg String.toList hempty
  rw [toList_line_append] at htext
  simp at htext

/-- The first line of a text is told from what follows it. -/
theorem line_append_injective {row row' : String × String} (h : IsRow row) (h' : IsRow row')
    {rest rest' : String} (heq : line row.1 row.2 ++ rest = line row'.1 row'.2 ++ rest') :
    row = row' ∧ rest = rest' := by
  obtain ⟨name, value⟩ := row
  obtain ⟨name', value'⟩ := row'
  have htext := congrArg String.toList heq
  rw [toList_line_append, toList_line_append] at htext
  obtain ⟨hname, hbehind⟩ := eq_of_cut h.name h'.name htext
  obtain rfl : name = name' := String.toList_injective hname
  obtain ⟨hvalue, hrest⟩ := eq_of_cut h.value h'.value (List.append_cancel_left hbehind)
  exact ⟨congrArg (name, ·) (String.toList_injective hvalue), String.toList_injective hrest⟩

/-- **A text has its lines in one way only.** -/
theorem written_injective : ∀ {rs rs' : List (String × String)}, (∀ row ∈ rs, IsRow row) →
    (∀ row ∈ rs', IsRow row) → written rs = written rs' → rs = rs'
  | [], [], _, _, _ => rfl
  | [], _ :: _, _, _, h => absurd h.symm (line_append_ne_empty _ _ _)
  | _ :: _, [], _, _, h => absurd h (line_append_ne_empty _ _ _)
  | row :: rs, row' :: rs', h, h', heq => by
      obtain ⟨hrow, hrows⟩ := List.forall_mem_cons.mp h
      obtain ⟨hrow', hrows'⟩ := List.forall_mem_cons.mp h'
      obtain ⟨rfl, hrest⟩ := line_append_injective hrow hrow' heq
      rw [written_injective hrows hrows' hrest]

theorem isRow {name value : String} (hname : ':' ∉ name.toList) (hvalue : '\n' ∉ value.toList) :
    IsRow (name, value) := ⟨hname, hvalue⟩

theorem isRow_of_mem_rows {s : NodeStatus} (h : '\n' ∉ s.health.toList) :
    ∀ row ∈ rows s, IsRow row := by
  have hhealthy : '\n' ∉ (if s.healthy then "Healthy" else "Unhealthy").toList := by
    split <;> decide
  have hhealth : ∀ row ∈ (if s.health.isEmpty then [] else [("Health", s.health)]), IsRow row := by
    split
    · exact fun row hrow => absurd hrow List.not_mem_nil
    · exact List.forall_mem_singleton.mpr (isRow (by decide) h)
  rw [rows, List.forall_mem_append, List.forall_mem_cons]
  refine ⟨⟨isRow (by decide) hhealthy, hhealth⟩, ?_⟩
  simp only [List.forall_mem_cons]
  exact ⟨isRow (by decide) (notMem_lagText _), isRow (by decide) (notMem_counts _),
    isRow (by decide) (notMem_counts _), isRow (by decide) (notMem_counts _),
    isRow (by decide) (notMem_event _ _), isRow (by decide) (notMem_event _ _),
    List.forall_mem_nil _⟩

/-- **A report keeps its numbers.**  If no health text has a line break and no lag is negative, two
states that are shown alike have the same numbers, whatever their health, shares and dates are. -/
theorem render_keeps_numbers {s s' : NodeStatus} (hhealth : '\n' ∉ s.health.toList)
    (hhealth' : '\n' ∉ s'.health.toList) (hlag : ∀ n ∈ s.lag, 0 ≤ n) (hlag' : ∀ n ∈ s'.lag, 0 ≤ n)
    (h : render s = render s') : s.SameNumbers s' := by
  have hrows : rows s = rows s' := by
    refine written_injective (isRow_of_mem_rows hhealth) (isRow_of_mem_rows hhealth') ?_
    rw [← render_eq_written, h, render_eq_written]
  -- There may be a line on health or none, so the lines are counted from the end.
  rw [rows, rows] at hrows
  have hlast := List.append_inj_right' hrows (by simp only [List.length_cons, List.length_nil])
  simp only [List.cons.injEq, Prod.mk.injEq, true_and, and_true] at hlast
  obtain ⟨hlagText, hrepositories, hlfsObjects, hattachments, hlastEvent, hcursor⟩ := hlast
  exact ⟨counts_injective hrepositories, counts_injective hlfsObjects,
    counts_injective hattachments, lag_injective hlag hlag' hlagText,
    eventId_injective hlastEvent, eventId_injective hcursor⟩

/-- Nearly everything was shown, but no cursor is known; the health text reads like a lag. -/
def lookalikeStatus (lastEventDate : Instant) (cursorEventDate : Option Instant) : NodeStatus :=
  ⟨false, "Replication lag:        5s", some 694861, ⟨1234567, 1000, 0.08, 3⟩, .empty,
    ⟨999, 999, 100, 0⟩, some (-42), some lastEventDate, none, cursorEventDate⟩

/-- The dates differ, by less than a second and where there is no event. -/
theorem render_keeps_numbers_lookalike :
    '\n' ∉ "Replication lag:        5s".toList ∧ (0 : Int) ≤ 694861 ∧
    render (lookalikeStatus ⟨1493641800, 1⟩ none) =
      render (lookalikeStatus ⟨1493641800, 999999999⟩ (some .epoch)) ∧
    (lookalikeStatus ⟨1493641800, 1⟩ none).SameNumbers
      (lookalikeStatus ⟨1493641800, 999999999⟩ (some .epoch)) := by
  have hhealth : '\n' ∉ "Replication lag:        5s".toList := by decide
  have hlag : ∀ n ∈ some (694861 : Int), 0 ≤ n := by decide
  have hdate : (⟨1493641800, 1⟩ : Instant).secondText ' ' =
      (⟨1493641800, 999999999⟩ : Instant).secondText ' ' := by decide
  have hshown : render (lookalikeStatus ⟨1493641800, 1⟩ none) =
      render (lookalikeStatus ⟨1493641800, 999999999⟩ (some .epoch)) := by
    simp only [render, lookalikeStatus, event, hdate]
    rfl
  exact ⟨hhealth, by decide, hshown, render_keeps_numbers hhealth hhealth hlag hlag hshown⟩

end StatusText

end GeoReplication
