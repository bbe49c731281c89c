import GeoReplication.Json.Basic
import GeoReplication.Text.Decimal

/-!
# Json/Reader — documents from text

`Doc.read` reads one value and says whether anything but blanks follows it.  Nesting has no limit.
Strings and numbers are judged by their grammar first; one that fits the grammar and still has no
value (half of a surrogate pair, a number beyond all floats) is `Doc.unreadable`, which only matters
where it is used.
-/

namespace GeoReplication.Json

open GeoReplication.Text

/-- Blanks between tokens. -/
def isGap (c : Char) : Bool := c == ' ' || c == '\n' || c == '\t' || c == '\r'

/-- The text without blanks in front. -/
def skipGap (cs : List Char) : List Char := cs.dropWhile isGap

/-! ## Strings -/

/-- The value of a hexadecimal digit. -/
def hexValue? (c : Char) : Option Nat :=
  if c.isDigit then some (c.toNat - '0'.toNat)
  else if 'a' ≤ c ∧ c ≤ 'f' then some (c.toNat - 'a'.toNat + 10)
  else if 'A' ≤ c ∧ c ≤ 'F' then some (c.toNat - 'A'.toNat + 10)
  else none

/-- The value of four hexadecimal digits. -/
def hexValue4? (a b c d : Char) : Option Nat := do
  let a ← hexValue? a
  let b ← hexValue? b
  let c ← hexValue? c
  let d ← hexValue? d
  some (((a * 16 + b) * 16 + c) * 16 + d)

/-- The characters of a string and what follows its closing quote. `chars` is empty-handed when an
escape names no character. -/
structure StringEnd where
  chars : Option (List Char)
  rest : List Char

namespace StringEnd

/-- One character more in front. -/
def push (c : Char) (e : StringEnd) : StringEnd := { e with chars := e.chars.map (c :: ·) }

/-- An escape without character in front. -/
def spoil (e : StringEnd) : StringEnd := { e with chars := none }

end StringEnd

/-- The escapes of one letter. -/
def simpleEscape? (c : Char) : Option Char :=
  match c with
  | '"' => some '"'
  | '\\' => some '\\'
  | '/' => some '/'
  | 'b' => some (Char.ofNat 0x08)
  | 'f' => some (Char.ofNat 0x0C)
  | 'n' => some '\n'
  | 'r' => some '\r'
  | 't' => some '\t'
  | _ => none

/-- A leading and a trailing half of a surrogate pair as one character. -/
def joinSurrogates (high low : Nat) : Char :=
  Char.ofNat (0x10000 + (high - 0xD800) * 0x400 + (low - 0xDC00))

/-- The halves of surrogate pairs that stand first. -/
def isHighSurrogate (n : Nat) : Bool := 0xD800 ≤ n && n ≤ 0xDBFF

/-- The halves of surrogate pairs that stand second. -/
def isLowSurrogate (n : Nat) : Bool := 0xDC00 ≤ n && n ≤ 0xDFFF

/-- What follows the opening quote of a string. -/
def readString : List Char → Option StringEnd
  | [] => none
  | '"' :: cs => some ⟨some [], cs⟩
  | '\\' :: 'u' :: a :: b :: c :: d :: '\\' :: 'u' :: a' :: b' :: c' :: d' :: cs =>
    match hexValue4? a b c d with
    | none => none
    | some n =>
      if isHighSurrogate n then
        match hexValue4? a' b' c' d' with
        | none => none
        | some low =>
          if isLowSurrogate low then (readString cs).map (·.push (joinSurrogates n low))
          else (readString ('\\' :: 'u' :: a' :: b' :: c' :: d' :: cs)).map (·.spoil)
      else
        (readString ('\\' :: 'u' :: a' :: b' :: c' :: d' :: cs)).map
          fun e => if isLowSurrogate n then e.spoil else e.push (Char.ofNat n)
  | '\\' :: 'u' :: a :: b :: c :: d :: cs =>
    match hexValue4? a b c d with
    | none => none
    | some n =>
      (readString cs).map fun e =>
        if isHighSurrogate n || isLowSurrogate n then e.spoil else e.push (Char.ofNat n)
  | '\\' :: c :: cs =>
    match simpleEscape? c with
    | none => none
    | some e => (readString cs).map (·.push e)
  | c :: cs => if c.toNat < 0x20 || c == '\\' then none else (readString cs).map (·.push c)

/-! ## Numbers -/

/-- Digits taken into `significand` as long as it stays an unsigned 64-bit number; how many were
taken, and the digits left. -/
def gather : (significand : Nat) → (taken : Nat) → List Char → Nat × Nat × List Char
  | s, k, [] => (s, k, [])
  | s, k, c :: cs =>
    let next := s * 10 + (c.toNat - '0'.toNat)
    if next ≤ maxUnsigned then gather next (k + 1) cs else (s, k, c :: cs)

/-- The float `significand · 10 ^ exponent`, by one multiplication or by divisions of at most
`10 ^ 308`; none if it is beyond all floats. -/
def scaled? (significand : Nat) (exponent : Int) : Option Float :=
  let start := significand.toUInt64.toFloat
  let power (k : Nat) : Float := Float.ofScientific 1 false k
  if 0 ≤ exponent then
    if exponent ≤ 308 then
      let x := start * power exponent.toNat
      if x.isInf then none else some x
    else if start == 0 then some start else none
  else some (shrink start exponent.natAbs power)
where
  /-- Division by `10 ^ k`, in steps of 308 places. -/
  shrink (x : Float) (k : Nat) (power : Nat → Float) : Float :=
    if k ≤ 308 then x / power k
    else if x == 0 then x
    else shrink (x / power 308) (k - 308) power
  termination_by k
  decreasing_by omega

/-- The parts of a number as they are written. -/
structure NumberText where
  negative : Bool
  whole : List Char
  fraction : List Char
  /-- sign and digits of the exponent, if it has one -/
  exponent : Option (Bool × List Char)

namespace NumberText

/-- The value, if it has one. -/
def value? (t : NumberText) : Option Number :=
  let sign (x : Float) : Float := if t.negative then -x else x
  let n := Nat.ofDigitChars 10 t.whole 0
  if t.fraction.isEmpty && t.exponent.isNone && n ≤ maxUnsigned then
    if !t.negative then some (.whole n)
    else if n = 0 ∨ Nat.pow 2 63 < n then some (.real (sign n.toUInt64.toFloat))
    else some (.whole (-(n : Int)))
  else
    let (s, _, left) := gather 0 0 t.whole
    let (s, taken, _) := gather s 0 t.fraction
    let base : Int := (left.length : Int) - taken
    match t.exponent with
    | none => (scaled? s base).map fun x => .real (sign x)
    | some (negative, ds) =>
      let e := Nat.ofDigitChars 10 ds 0
      if 2147483647 < e then
        if s ≠ 0 ∧ !negative then none else some (.real (sign 0))
      else (scaled? s (if negative then base - e else base + e)).map fun x => .real (sign x)

end NumberText

/-- The longest number at the start, if the text starts with one. -/
def readNumber (cs : List Char) : Option (NumberText × List Char) := do
  let (negative, cs) := match cs with
    | '-' :: rest => (true, rest)
    | _ => (false, cs)
  let whole := cs.takeWhile Char.isDigit
  let cs := cs.dropWhile Char.isDigit
  if whole.isEmpty || (whole.head? == some '0' && whole.length != 1) then none
  let (fraction, cs) ← match cs with
    | '.' :: rest =>
      let ds := rest.takeWhile Char.isDigit
      if ds.isEmpty then none else some (ds, rest.dropWhile Char.isDigit)
    | _ => some ([], cs)
  let (exponent, cs) ← match cs with
    | c :: rest =>
      if c = 'e' ∨ c = 'E' then
        let (minus, rest) := match rest with
          | '-' :: r => (true, r)
          | '+' :: r => (false, r)
          | _ => (false, rest)
        let ds := rest.takeWhile Char.isDigit
        if ds.isEmpty then none else some (some (minus, ds), rest.dropWhile Char.isDigit)
      else some (none, c :: rest)
    | [] => some (none, [])
  some (⟨negative, whole, fraction, exponent⟩, cs)

/-! ## Values -/

/-- A value without brackets, and what follows it; `broken` if there is none. -/
def readScalar (cs : List Char) : Doc × List Char :=
  match cs with
  | [] => (.broken, [])
  | c :: rest =>
    if c = '"' then
      match readString rest with
      | none => (.broken, [])
      | some ⟨some text, rest⟩ => (.string (String.ofList text), rest)
      | some ⟨none, rest⟩ => (.unreadable, rest)
    else if c = '-' ∨ c.isDigit then
      match readNumber (c :: rest) with
      | none => (.broken, [])
      | some (t, rest) =>
        match t.value? with
        | some n => (.number n, rest)
        | none => (.unreadable, rest)
    else if c = 'n' then
      match dropMark? ['u', 'l', 'l'] rest with
      | some rest => (.null, rest)
      | none => (.broken, [])
    else if c = 't' then
      match dropMark? ['r', 'u', 'e'] rest with
      | some rest => (.bool true, rest)
      | none => (.broken, [])
    else if c = 'f' then
      match dropMark? ['a', 'l', 's', 'e'] rest with
      | some rest => (.bool false, rest)
      | none => (.broken, [])
    else (.broken, [])

namespace Doc

/-- The document breaks off. -/
def isBroken : Doc → Bool
  | .broken => true
  | .array _ closed => !closed
  | .object _ closed => !closed
  | _ => false

end Doc

/-- The name of a member at the start of the text, and what follows it. -/
def readKey (cs : List Char) : Option (Key × List Char) :=
  match cs with
  | '"' :: rest =>
    match readString rest with
    | none => none
    | some ⟨some text, rest⟩ => some (.name (String.ofList text), rest)
    | some ⟨none, rest⟩ => some (.unreadable, rest)
  | '[' :: _ => some (.other, [])
  | '{' :: _ => some (.other, [])
  | _ =>
    match readScalar cs with
    | (.broken, _) => none
    | _ => some (.other, [])

mutual

/-- The value at the start of the text and what follows it.  `fuel` is used up by one a bracket or
separator, so the length of the text is enough. -/
def readValue : (fuel : Nat) → List Char → Doc × List Char
  | 0, _ => (.broken, [])
  | fuel + 1, cs =>
    match skipGap cs with
    | '[' :: rest =>
      match skipGap rest with
      | ']' :: rest => (.array [] true, rest)
      | rest =>
        let (items, closed, rest) := readItems fuel rest
        (.array items closed, rest)
    | '{' :: rest =>
      match skipGap rest with
      | '}' :: rest => (.object [] true, rest)
      | rest =>
        let (members, closed, rest) := readMembers fuel rest
        (.object members closed, rest)
    | cs => readScalar cs

/-- Items up to the closing bracket. -/
def readItems : (fuel : Nat) → List Char → List Doc × Bool × List Char
  | 0, _ => ([], false, [])
  | fuel + 1, cs =>
    let (item, rest) := readValue fuel cs
    if item.isBroken then ([item], false, [])
    else
      match skipGap rest with
      | ']' :: rest => ([item], true, rest)
      | ',' :: rest =>
        let (items, closed, rest) := readItems fuel rest
        (item :: items, closed, rest)
      | _ => ([item], false, [])

/-- Members up to the closing brace. -/
def readMembers : (fuel : Nat) → List Char → List (Key × Doc) × Bool × List Char
  | 0, _ => ([], false, [])
  | fuel + 1, cs =>
    match readKey (skipGap cs) with
    | none => ([], false, [])
    | some (key, rest) =>
      match skipGap rest with
      | ':' :: rest =>
        let (value, rest) := readValue fuel rest
        if value.isBroken then ([(key, value)], false, [])
        else
          match skipGap rest with
          | '}' :: rest => ([(key, value)], true, rest)
          | ',' :: rest =>
            let (members, closed, rest) := readMembers fuel rest
            ((key, value) :: members, closed, rest)
          | _ => ([(key, value)], false, [])
      | _ => ([(key, .broken)], false, [])

end

/-- A whole text: its value, and whether something else follows it. -/
structure Document where
  value : Doc
  trailing : Bool

/-- Reads a whole text. -/
def Document.read (text : String) : Document :=
  let cs := text.toList
  let (value, rest) := readValue (2 * cs.length + 1) cs
  ⟨value, !(skipGap rest).isEmpty⟩

end GeoReplication.Json
