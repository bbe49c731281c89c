import GeoReplication.Text.Decimal
import GeoReplication.Time.Instant

/-!
# Time/Rfc3339 — instants as text

Two written forms, both in UTC and ended by `Z`: the store keeps exactly six digits of a second
(`Instant.stored`), records sent elsewhere keep the fewest of 0, 3, 6 or 9 digits that lose nothing
(`Instant.written`).  A year from 0 to 9999 has four digits, any other a sign.

Three readers: `strict?` for the RFC 3339 text of the store, `plain?` for a date and time of day
with a blank between them and no offset, and `relaxed?` for records, which also takes blanks around
the parts and an explicit sign before the year.
-/

namespace GeoReplication.Time

open GeoReplication.Text

/-- The year: four digits, or a sign and at least four. -/
def yearText (year : Int) : List Char :=
  if 0 ≤ year ∧ year ≤ 9999 then fixedDigits 4 year.toNat
  else
    let ds := digits year.natAbs
    (if year < 0 then '-' else '+') :: (List.replicate (4 - ds.length) '0' ++ ds)

namespace Instant

/-- Date and time of day up to the second, with `separator` between them. -/
def secondText (separator : Char) (t : Instant) : List Char :=
  let d := t.date
  let s := t.ofDay
  yearText d.year ++ '-' :: fixedDigits 2 d.month ++ '-' :: fixedDigits 2 d.day ++
    separator :: fixedDigits 2 (s / 3600) ++ ':' :: fixedDigits 2 (s / 60 % 60) ++
    ':' :: fixedDigits 2 (s % 60 + t.nanos / nanosPerSecond)

/-- Date and time of day, the fraction, then `Z`. -/
def textWith (t : Instant) (fraction : List Char) : List Char :=
  t.secondText 'T' ++ fraction ++ ['Z']

/-- The text kept in the store: microseconds, always six digits. -/
def stored (t : Instant) : String :=
  String.ofList (t.textWith ('.' :: fixedDigits 6 (t.nanos % nanosPerSecond / 1000)))

/-- The digits of a fraction of a second, in groups of three and no more than needed. -/
def shortFraction (nanos : Nat) : List Char :=
  if nanos = 0 then []
  else if nanos % 1000000 = 0 then '.' :: fixedDigits 3 (nanos / 1000000)
  else if nanos % 1000 = 0 then '.' :: fixedDigits 6 (nanos / 1000)
  else '.' :: fixedDigits 9 nanos

/-- The text of records: the fewest digits that lose nothing. -/
def written (t : Instant) : String :=
  String.ofList (t.textWith (shortFraction (t.nanos % nanosPerSecond)))

end Instant

/-! ## Reading -/

/-- From `min` to `max` digits, as many as there are, and what follows them. -/
def digits? (min max : Nat) (cs : List Char) : Option (Nat × List Char) :=
  let ds := (cs.take max).takeWhile Char.isDigit
  if ds.length < min then none else some (Nat.ofDigitChars 10 ds 0, cs.drop ds.length)

/-- What follows the character `mark`. -/
def mark? (mark : Char) : List Char → Option (List Char)
  | [] => none
  | c :: cs => if c = mark then some cs else none

/-- An optional fraction: a point and digits, of which nine count. -/
def fraction? : List Char → Option (Nat × List Char)
  | '.' :: cs => do
    let (n, rest) ← digits? 1 9 cs
    let used := cs.length - rest.length
    some (n * Nat.pow 10 (9 - used), rest.dropWhile Char.isDigit)
  | cs => some (0, cs)

/-- What a date and a time of day are read from. -/
structure Fields where
  year : Int
  month : Nat
  day : Nat
  hour : Nat
  minute : Nat
  second : Nat
  nanos : Nat
deriving DecidableEq, Repr

namespace Fields

/-- The instant, `offset` seconds ahead of UTC, if the fields name one. -/
def instant? (f : Fields) (offset : Int) : Option Instant :=
  let d : Date := ⟨f.year, f.month, f.day⟩
  if -262143 ≤ f.year ∧ f.year ≤ 262142 ∧ d.isValid ∧ f.hour < 24 ∧ f.minute < 60 ∧ f.second ≤ 60
      ∧ offset.natAbs < 86400 then
    let leap := f.second / 60
    let local_ := d.count * secondsPerDay
      + (f.hour * 3600 + f.minute * 60 + (f.second - leap) : Nat)
    let t : Instant := ⟨local_ - offset, f.nanos + leap * nanosPerSecond⟩
    if Instant.firstSecond ≤ t.second ∧ t.second ≤ Instant.lastSecond then some t else none
  else none

end Fields

/-- The offset from UTC in seconds: `Z`, or a sign, two digits of hours and two of minutes.
`separator` drops what may stand between hours and minutes. -/
def offset? (separator : List Char → Option (List Char)) : List Char → Option (Int × List Char)
  | [] => none
  | c :: cs => do
    if c = 'Z' ∨ c = 'z' then return (0, cs)
    let sign : Int ← if c = '+' then some 1 else if c = '-' ∨ c = '−' then some (-1) else none
    let (hours, rest) ← digits? 2 2 cs
    let rest ← separator rest
    let (minutes, rest) ← digits? 2 2 rest
    if minutes < 60 then some (sign * (hours * 3600 + minutes * 60 : Nat), rest) else none

/-- An instant in the form of RFC 3339. -/
def strict? (cs : List Char) : Option Instant := do
  let (year, cs) ← digits? 4 4 cs
  let cs ← mark? '-' cs
  let (month, cs) ← digits? 2 2 cs
  let cs ← mark? '-' cs
  let (day, cs) ← digits? 2 2 cs
  let cs ← match cs with
    | 'T' :: rest | 't' :: rest | ' ' :: rest => some rest
    | _ => none
  let (hour, cs) ← digits? 2 2 cs
  let cs ← mark? ':' cs
  let (minute, cs) ← digits? 2 2 cs
  let cs ← mark? ':' cs
  let (second, cs) ← digits? 2 2 cs
  let (nanos, cs) ← fraction? cs
  let (offset, cs) ← offset? (mark? ':') cs
  if cs.isEmpty then Fields.instant? ⟨year, month, day, hour, minute, second, nanos⟩ offset
  else none

/-- Blanks dropped from the front. -/
def skipBlanks (cs : List Char) : List Char := cs.dropWhile isBlank

/-- A year after blanks: up to four digits, or a sign and any number of them. -/
def year? (cs : List Char) : Option (Int × List Char) :=
  match skipBlanks cs with
  | '-' :: rest => (digits? 1 rest.length rest).map fun (n, cs) => (-(n : Int), cs)
  | '+' :: rest => (digits? 1 rest.length rest).map fun (n, cs) => ((n : Int), cs)
  | rest => (digits? 1 4 rest).map fun (n, cs) => ((n : Int), cs)

/-- One or two digits after blanks. -/
def pair? (cs : List Char) : Option (Nat × List Char) := digits? 1 2 (skipBlanks cs)

/-- Year, month and day with dashes between them; `skip` drops what may stand before a dash. -/
def date? (skip : List Char → List Char) (cs : List Char) :
    Option ((Int × Nat × Nat) × List Char) := do
  let (year, cs) ← year? cs
  let cs ← mark? '-' (skip cs)
  let (month, cs) ← pair? cs
  let cs ← mark? '-' (skip cs)
  let (day, cs) ← pair? cs
  some ((year, month, day), cs)

/-- Hour, minute and second with colons between them; `skip` drops what may stand before a colon. -/
def timeOfDay? (skip : List Char → List Char) (cs : List Char) :
    Option ((Nat × Nat × Nat) × List Char) := do
  let (hour, cs) ← pair? cs
  let cs ← mark? ':' (skip cs)
  let (minute, cs) ← pair? cs
  let cs ← mark? ':' (skip cs)
  let (second, cs) ← pair? cs
  some ((hour, minute, second), cs)

/-- A date and a time of day without fraction and offset, taken as UTC. -/
def plain? (cs : List Char) : Option Instant := do
  let ((year, month, day), cs) ← date? id cs
  let ((hour, minute, second), cs) ← timeOfDay? id (skipBlanks cs)
  if cs.isEmpty then Fields.instant? ⟨year, month, day, hour, minute, second, 0⟩ 0 else none

/-- The offset of a record: `UTC` in any case of letters, or as `offset?` with colons or blanks
between hours and minutes. -/
def relaxedOffset? (cs : List Char) : Option (Int × List Char) :=
  if lower (cs.take 3) = ['u', 't', 'c'] then some (0, cs.drop 3)
  else offset? (fun cs => some (cs.dropWhile fun c => c == ':' || isBlank c)) cs

/-- An instant as records hold it. -/
def relaxed? (cs : List Char) : Option Instant := do
  let ((year, month, day), cs) ← date? skipBlanks cs
  let cs ← match cs with
    | 'T' :: rest | 't' :: rest | ' ' :: rest => some rest
    | _ => none
  let ((hour, minute, second), cs) ← timeOfDay? skipBlanks cs
  let (nanos, cs) ← fraction? cs
  let (offset, cs) ← relaxedOffset? (skipBlanks cs)
  if (skipBlanks cs).isEmpty then
    Fields.instant? ⟨year, month, day, hour, minute, second, nanos⟩ offset
  else none

namespace Instant

/-- Reads the text of a record. -/
def ofWritten? (text : String) : Option Instant := relaxed? text.toList

/-- Reads a text of the store; one that is no time at all counts as `now`. -/
def ofStored (now : Instant) (text : String) : Instant :=
  ((strict? text.toList).or (plain? text.toList)).getD now

end Instant

end GeoReplication.Time
