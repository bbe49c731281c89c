import GeoReplication.Text.Decimal

/-!
# Url/Socket — addresses to listen on

A socket address is an IPv4 address in four decimal numbers, or an IPv6 address in brackets, and a
port.  `Socket.parse?` reads it and `Socket.text` writes the canonical text: no leading zeros, the
longest run of zero groups of an IPv6 address left out.
-/

namespace GeoReplication

open GeoReplication.Text

/-- An address to listen on. -/
inductive Socket where
  | v4 (octets : List Nat) (port : Nat)
  | v6 (groups : List Nat) (scope : Nat) (port : Nat)
deriving DecidableEq, Repr

namespace Socket

/-- The value of a digit in bases up to 16. -/
def digit? (base : Nat) (c : Char) : Option Nat :=
  let value :=
    if c.isDigit then c.toNat - '0'.toNat
    else if 'a' ≤ c ∧ c ≤ 'f' then c.toNat - 'a'.toNat + 10
    else if 'A' ≤ c ∧ c ≤ 'F' then c.toNat - 'A'.toNat + 10
    else 16
  if value < base then some value else none

/-- As many digits as there are; at most `places`, if said, and a value up to `max`. -/
def number? (base : Nat) (places : Option Nat) (zeros : Bool) (max : Nat) (cs : List Char) :
    Option (Nat × List Char) :=
  let ds := cs.takeWhile fun c => (digit? base c).isSome
  let value := ds.foldl (fun n c => n * base + (digit? base c).getD 0) 0
  if ds.isEmpty || (!zeros && ds.head? == some '0' && ds.length != 1) || max < value
      || places.any (· < ds.length) then none
  else some (value, cs.drop ds.length)

/-- What follows the character `mark`. -/
def char? (mark : Char) : List Char → Option (List Char)
  | [] => none
  | c :: cs => if c = mark then some cs else none

/-- Four numbers up to 255 with points between them. -/
def octets? (cs : List Char) : Option (List Nat × List Char) := do
  let (a, cs) ← number? 10 (some 3) false 255 cs
  let (b, cs) ← number? 10 (some 3) false 255 (← char? '.' cs)
  let (c, cs) ← number? 10 (some 3) false 255 (← char? '.' cs)
  let (d, cs) ← number? 10 (some 3) false 255 (← char? '.' cs)
  some ([a, b, c, d], cs)

/-- Up to `limit` groups with colons between them, the last two perhaps written as an IPv4 address;
says also whether they were. `first` is true before the first group. -/
def groups (first : Bool) : (limit : Nat) → List Char → List Nat × Bool × List Char
  | 0, cs => ([], false, cs)
  | limit + 1, cs =>
    let start := if first then some cs else char? ':' cs
    let v4 := if limit = 0 then none else start.bind octets?
    match v4 with
    | some ([a, b, c, d], rest) => ([a * 256 + b, c * 256 + d], true, rest)
    | _ =>
      match start.bind (number? 16 (some 4) true 65535) with
      | none => ([], false, cs)
      | some (g, rest) =>
        let (gs, embedded, rest) := groups false limit rest
        (g :: gs, embedded, rest)

/-- Eight groups, of which a run of zeros may be left out. -/
def ipv6? (cs : List Char) : Option (List Nat × List Char) :=
  let (head, embedded, rest) := groups true 8 cs
  if head.length = 8 then some (head, rest)
  else if embedded then none
  else do
    let rest ← char? ':' rest
    let rest ← char? ':' rest
    let (tail, _, rest) := groups true (7 - head.length) rest
    some (head ++ List.replicate (8 - head.length - tail.length) 0 ++ tail, rest)

/-- Reads a socket address. -/
def parse? (text : String) : Option Socket :=
  let v4 : Option Socket := do
    let (octets, cs) ← octets? text.toList
    let (port, cs) ← number? 10 none true 65535 (← char? ':' cs)
    if cs.isEmpty then some (.v4 octets port) else none
  let v6 : Option Socket := do
    let (groups, cs) ← ipv6? (← char? '[' text.toList)
    let (scope, cs) ← match cs with
      | '%' :: rest => number? 10 none true 4294967295 rest
      | _ => some (0, cs)
    let cs ← char? ':' (← char? ']' cs)
    let (port, cs) ← number? 10 none true 65535 cs
    if cs.isEmpty then some (.v6 groups scope port) else none
  v4.or v6

/-- The number of leading zeros of a list of groups. -/
def zeroRun (groups : List Nat) : Nat := (groups.takeWhile (· == 0)).length

/-- Start and length of the first longest run of zero groups. -/
def longestZeroRun : (start : Nat) → List Nat → Nat × Nat
  | _, [] => (0, 0)
  | start, g :: gs =>
    let (s, n) := longestZeroRun (start + 1) gs
    let here := zeroRun (g :: gs)
    if 0 < here ∧ n ≤ here then (start, here) else (s, n)

/-- Groups in hexadecimal with colons between them. -/
def groupsText (groups : List Nat) : String :=
  joinWith ":" (groups.map fun g => String.ofList (Nat.toDigits 16 g))

/-- Octets with points between them. -/
def octetsText (octets : List Nat) : String := joinWith "." (octets.map fun (n : Nat) => decimal n)

/-- The canonical text of an IPv6 address. -/
def ipv6Text (groups : List Nat) : String :=
  match groups with
  | [0, 0, 0, 0, 0, 65535, a, b] =>
    "::ffff:" ++ octetsText [a / 256, a % 256, b / 256, b % 256]
  | _ =>
    let (start, count) := longestZeroRun 0 groups
    if 1 < count then
      groupsText (groups.take start) ++ "::" ++ groupsText (groups.drop (start + count))
    else groupsText groups

/-- The canonical text. -/
def text : Socket → String
  | .v4 octets port => octetsText octets ++ ":" ++ decimal port
  | .v6 groups scope port =>
    "[" ++ ipv6Text groups ++ (if scope = 0 then "" else "%" ++ decimal scope) ++ "]:"
      ++ decimal port

end Socket

end GeoReplication
