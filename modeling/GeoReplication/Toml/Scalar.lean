import GeoReplication.Text.Decimal
import GeoReplication.Time.Civil
import GeoReplication.Toml.Basic

/-!
# Toml/Scalar — values on one line

Strings in their four spellings, numbers in four bases with underscores between digits, truth
values, and dates and times of day.
-/

namespace GeoReplication.Toml

open GeoReplication.Text

/-- A reader of the start of a text: what was read, and what follows. -/
abbrev Scan (α : Type) := List Char → Option (α × List Char)

/-- A character of the text that may stand in a comment or a literal string. -/
def isPrintable (c : Char) : Bool := c == '\t' || (0x20 ≤ c.toNat && c.toNat != 0x7F)

/-- A blank within a line. -/
def isBlankInLine (c : Char) : Bool := c == ' ' || c == '\t'

/-- The text without blanks in front. -/
def skipBlanksInLine (cs : List Char) : List Char := cs.dropWhile isBlankInLine

/-- A line break. -/
def lineBreak? : List Char → Option (List Char)
  | '\n' :: cs => some cs
  | '\r' :: '\n' :: cs => some cs
  | _ => none

/-! ## Strings -/

/-- The character with a number, if there is one. -/
def scalar? (n : Nat) : Option Char := if n.isValidChar then some (Char.ofNat n) else none

/-- The value of a run of hexadecimal digits. -/
def hex? (cs : List Char) : Option Nat :=
  let digit? (c : Char) : Option Nat :=
    if c.isDigit then some (c.toNat - '0'.toNat)
    else if 'a' ≤ c ∧ c ≤ 'f' then some (c.toNat - 'a'.toNat + 10)
    else if 'A' ≤ c ∧ c ≤ 'F' then some (c.toNat - 'A'.toNat + 10)
    else none
  cs.foldlM (fun n c => (digit? c).map (n * 16 + ·)) 0

/-- What follows the backslash of an escape: the character, and the number of characters used. -/
def escape? : List Char → Option (Char × Nat)
  | 'b' :: _ => some (Char.ofNat 0x08, 1)
  | 't' :: _ => some ('\t', 1)
  | 'n' :: _ => some ('\n', 1)
  | 'f' :: _ => some (Char.ofNat 0x0C, 1)
  | 'r' :: _ => some ('\r', 1)
  | '"' :: _ => some ('"', 1)
  | '\\' :: _ => some ('\\', 1)
  | 'u' :: cs => if 4 ≤ cs.length then ((hex? (cs.take 4)).bind scalar?).map (·, 5) else none
  | 'U' :: cs => if 8 ≤ cs.length then ((hex? (cs.take 8)).bind scalar?).map (·, 9) else none
  | _ => none

/-- A string between quotes, after the opening quote. -/
def basicString (cs : List Char) : Option (List Char × List Char) :=
  go cs.length cs
where
  /-- The same with fuel for every character. -/
  go : Nat → Scan (List Char)
    | _, [] => none
    | _, '"' :: cs => some ([], cs)
    | 0, _ => none
    | fuel + 1, '\\' :: cs => do
      let (c, used) ← escape? cs
      let (text, rest) ← go fuel (cs.drop used)
      some (c :: text, rest)
    | fuel + 1, c :: cs => do
      if !isPrintable c then none
      let (text, rest) ← go fuel cs
      some (c :: text, rest)

/-- A string between apostrophes, after the opening one. -/
def literalString : List Char → Option (List Char × List Char)
  | [] => none
  | c :: cs =>
    if c.toNat = 0x27 then some ([], cs)
    else if isPrintable c then (literalString cs).map fun (text, rest) => (c :: text, rest)
    else none

/-- The end of a string in triple quotes: three quotes, before which up to two more belong to the
string. -/
def tripleEnd? (quote : Char) (cs : List Char) : Option (List Char × List Char) :=
  let run := (cs.takeWhile (· == quote)).length
  if 3 ≤ run then
    let inside := min (run - 3) 2
    some (List.replicate inside quote, cs.drop (inside + 3))
  else none

/-- What follows a backslash at the end of a line: the next character that is neither blank nor line
break. -/
def skipLineEnd? (cs : List Char) : Option (List Char) :=
  match lineBreak? (skipBlanksInLine cs) with
  | none => none
  | some rest => some (go rest.length rest)
where
  /-- Blanks and line breaks dropped. -/
  go : Nat → List Char → List Char
    | 0, cs => cs
    | fuel + 1, cs =>
      match lineBreak? cs with
      | some rest => go fuel rest
      | none =>
        match cs with
        | c :: rest => if isBlankInLine c then go fuel rest else c :: rest
        | [] => []

/-- A string in triple quotes, after the opening ones and a line break there; with `escapes`, a
backslash starts an escape. -/
def tripleString (quote : Char) (escapes : Bool) (cs : List Char) :
    Option (List Char × List Char) :=
  let cs := (lineBreak? cs).getD cs
  go cs.length cs
where
  /-- The same with fuel for every character. -/
  go : Nat → Scan (List Char)
    | 0, _ => none
    | fuel + 1, cs =>
      match tripleEnd? quote cs with
      | some found => some found
      | none =>
        match lineBreak? cs with
        | some rest => (go fuel rest).map fun (text, rest) => ('\n' :: text, rest)
        | none =>
          match cs with
          | [] => none
          | c :: rest =>
            if escapes ∧ c = '\\' then
              match skipLineEnd? rest with
              | some rest => go fuel rest
              | none =>
                match escape? rest with
                | none => none
                | some (e, used) =>
                  (go fuel (rest.drop used)).map fun (text, rest) => (e :: text, rest)
            else if isPrintable c then (go fuel rest).map fun (text, rest) => (c :: text, rest)
            else none

/-- The mark of literal strings. -/
def apostrophe : Char := Char.ofNat 0x27

/-- A string in any of the four spellings. -/
def string? (cs : List Char) : Option (String × List Char) :=
  let found :=
    match cs with
    | '"' :: '"' :: '"' :: rest => tripleString '"' true rest
    | '"' :: rest => basicString rest
    | a :: b :: c :: rest =>
      if a = apostrophe ∧ b = apostrophe ∧ c = apostrophe then tripleString apostrophe false rest
      else if a = apostrophe then literalString (b :: c :: rest)
      else none
    | a :: rest => if a = apostrophe then literalString rest else none
    | [] => none
  found.map fun (text, rest) => (String.ofList text, rest)

/-! ## Numbers -/

/-- Digits with single underscores between them, at least one digit; the underscores are dropped. -/
def digitRun? (isDigit : Char → Bool) : List Char → Option (List Char × List Char)
  | [] => none
  | c :: cs =>
    if !isDigit c then none
    else
      match cs with
      | '_' :: rest =>
        match digitRun? isDigit rest with
        | some (ds, rest) => some (c :: ds, rest)
        | none => none
      | d :: rest =>
        if isDigit d then (digitRun? isDigit (d :: rest)).map fun (ds, rest) => (c :: ds, rest)
        else some ([c], d :: rest)
      | [] => some ([c], [])

/-- A whole number in base 16, 8 or 2. -/
def based? (base : Nat) (cs : List Char) : Option (Toml × List Char) := do
  let isDigit (c : Char) : Bool :=
    if base = 16 then c.isDigit || ('a' ≤ c && c ≤ 'f') || ('A' ≤ c && c ≤ 'F')
    else c.isDigit && c.toNat - '0'.toNat < base
  let (ds, rest) ← digitRun? isDigit cs
  let value := ds.foldl (fun n c => n * base + ((hex? [c]).getD 0)) 0
  if (value : Int) ≤ maxId then some (.integer value, rest) else none

/-- A number in base ten, whole or not. -/
def decimal? (cs : List Char) : Option (Toml × List Char) := do
  let (negative, body) := match cs with
    | '-' :: rest => (true, rest)
    | '+' :: rest => (false, rest)
    | _ => (false, cs)
  match dropMark? ['i', 'n', 'f'] body, dropMark? ['n', 'a', 'n'] body with
  | some rest, _ => some (.float (if negative then -1.0 / 0.0 else 1.0 / 0.0), rest)
  | _, some rest => some (.float (0.0 / 0.0), rest)
  | none, none =>
    let (whole, rest) ← match body with
      | '0' :: rest => some (['0'], rest)
      | _ => digitRun? Char.isDigit body
    let (fraction, rest) ← match rest with
      | '.' :: r => (digitRun? Char.isDigit r).map fun (ds, r) => (ds, r)
      | _ => some ([], rest)
    let (exponent, rest) ← match rest with
      | c :: r =>
        if c = 'e' ∨ c = 'E' then
          let (minus, r) := match r with
            | '-' :: r => (true, r)
            | '+' :: r => (false, r)
            | _ => (false, r)
          (digitRun? Char.isDigit r).map fun (ds, r) => (some (minus, ds), r)
        else some (none, c :: r)
      | [] => some (none, [])
    -- a zero in front of another digit is no number
    if whole = ['0'] ∧ (rest.head?.map fun c => c.isDigit || c == '_') = some true ∧ fraction = []
        ∧ exponent = none then none
    if fraction = [] ∧ exponent = none then
      let n : Int := Nat.ofDigitChars 10 whole 0
      let n := if negative then -n else n
      if minId ≤ n ∧ n ≤ maxId then some (.integer n, rest) else none
    else
      let mantissa := Nat.ofDigitChars 10 (whole ++ fraction) 0
      let e : Int := match exponent with
        | none => 0
        | some (minus, ds) =>
          let n : Int := min (Nat.ofDigitChars 10 ds 0) 100000
          if minus then -n else n
      let e := e - fraction.length
      let x := Float.ofScientific mantissa (e < 0) e.natAbs
      if x.isInf && !negative then none else some (.float (if negative then -x else x), rest)

/-! ## Dates and times of day -/

/-- Exactly `count` digits. -/
def fixed? (count : Nat) (cs : List Char) : Option (Nat × List Char) :=
  let ds := (cs.take count).takeWhile Char.isDigit
  if ds.length = count then some (Nat.ofDigitChars 10 ds 0, cs.drop count) else none

/-- A date; its text and what follows. -/
def date? (cs : List Char) : Option (List Char × List Char) := do
  let (year, cs) ← fixed? 4 cs
  let (month, cs) ← fixed? 2 (← dropMark? ['-'] cs)
  let (day, cs) ← fixed? 2 (← dropMark? ['-'] cs)
  if (Time.Date.mk year month day).isValid then
    some (fixedDigits 4 year ++ '-' :: fixedDigits 2 month ++ '-' :: fixedDigits 2 day, cs)
  else none

/-- A time of day; its text, the fraction without zeros at the end, and what follows. -/
def timeOfDay? (cs : List Char) : Option (List Char × List Char) := do
  let (hour, cs) ← fixed? 2 cs
  let (minute, cs) ← fixed? 2 (← dropMark? [':'] cs)
  let (second, cs) ← fixed? 2 (← dropMark? [':'] cs)
  if 24 ≤ hour ∨ 60 ≤ minute ∨ 61 ≤ second then none
  let text := fixedDigits 2 hour ++ ':' :: fixedDigits 2 minute ++ ':' :: fixedDigits 2 second
  match cs with
  | '.' :: rest =>
    let ds := rest.takeWhile Char.isDigit
    if ds.isEmpty then none
    let short := trimEnd (· == '0') (ds.take 9)
    some (if short.isEmpty then text else text ++ '.' :: short, rest.dropWhile Char.isDigit)
  | _ => some (text, cs)

/-- An offset from UTC; its text and what follows. -/
def offset? : List Char → Option (List Char × List Char)
  | [] => none
  | c :: cs =>
    if c = 'Z' ∨ c = 'z' then some (['Z'], cs)
    else if c = '+' ∨ c = '-' then do
      let (hour, cs) ← fixed? 2 cs
      let (minute, cs) ← fixed? 2 (← dropMark? [':'] cs)
      if 24 ≤ hour ∨ 60 ≤ minute then none
      some (c :: (fixedDigits 2 hour ++ ':' :: fixedDigits 2 minute), cs)
    else none

/-- A date, a time of day, or both, then perhaps with an offset. -/
def datetime? (cs : List Char) : Option (Toml × List Char) :=
  match date? cs with
  | some (date, rest) =>
    let time := match rest with
      | c :: r => if c = 'T' ∨ c = 't' ∨ c = ' ' then timeOfDay? r else none
      | [] => none
    match time with
    | none =>
      match rest with
      | 'T' :: _ => none
      | 't' :: _ => none
      | _ => some (.datetime (String.ofList date), rest)
    | some (time, rest) =>
      match offset? rest with
      | some (offset, rest) =>
        some (.datetime (String.ofList (date ++ 'T' :: time ++ offset)), rest)
      | none => some (.datetime (String.ofList (date ++ 'T' :: time)), rest)
  | none => (timeOfDay? cs).map fun (time, rest) => (.datetime (String.ofList time), rest)

/-- The text begins like a date or a time of day. -/
def startsDatetime (cs : List Char) : Bool :=
  match (cs.take 5).span Char.isDigit with
  | ([_, _, _, _], '-' :: _) => true
  | ([_, _], ':' :: _) => true
  | _ => false

/-- A value without brackets. -/
def scalarValue? (cs : List Char) : Option (Toml × List Char) :=
  match cs with
  | [] => none
  | c :: rest =>
    if c = '"' ∨ c = apostrophe then (string? cs).map fun (s, rest) => (.string s, rest)
    else if c = 't' then (dropMark? ['r', 'u', 'e'] rest).map ((.boolean true, ·))
    else if c = 'f' then (dropMark? ['a', 'l', 's', 'e'] rest).map ((.boolean false, ·))
    else if startsDatetime cs then datetime? cs
    else
      match cs with
      | '0' :: 'x' :: rest => based? 16 rest
      | '0' :: 'o' :: rest => based? 8 rest
      | '0' :: 'b' :: rest => based? 2 rest
      | _ => decimal? cs

end GeoReplication.Toml
