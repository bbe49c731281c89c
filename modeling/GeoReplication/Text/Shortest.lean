import GeoReplication.Text.Decimal

/-!
# Text/Shortest — binary fractions as decimal text

A finite float is `m · 2^q` for whole numbers `m` and `q`, and every decimal number that lies closer
to it than to any other float reads back as it.  `shortestDigits` looks for the fewest digits among
those numbers, and of equally many for the nearest, by testing the two neighbours of the value on
each decimal grid in turn.  `floatText` lays the digits out: positional up to sixteen places before
the point and down to five places behind it, with an exponent beyond.
-/

namespace GeoReplication.Text

/-- Sign, mantissa and exponent of a finite float, from its bits. -/
def decodeFloat (x : Float) : Bool × Nat × Int :=
  let bits := x.toBits.toNat
  let negative := bits / Nat.pow 2 63 = 1
  let exponent : Nat := bits / Nat.pow 2 52 % Nat.pow 2 11
  let fraction := bits % Nat.pow 2 52
  if exponent = 0 then (negative, fraction, -1074)
  else (negative, Nat.pow 2 52 + fraction, (exponent : Int) - 1075)

/-- `2 ^ q` or `10 ^ q` as a quotient of whole numbers. -/
def powerPair (base : Nat) (q : Int) : Nat × Nat :=
  if 0 ≤ q then (base.pow q.toNat, 1) else (1, base.pow q.natAbs)

/-- The number of digits before the point of `num / den`, not positive for small fractions. -/
def decimalPlaces (num den : Nat) : Int :=
  let guess := ((num.log2 : Int) - den.log2) * 30103 / 100000
  let atLeast (k : Int) : Bool := let (p, r) := powerPair 10 k; p * den ≤ num * r
  if atLeast (guess + 1) then (if atLeast (guess + 2) then guess + 3 else guess + 2)
  else if atLeast guess then guess + 1
  else guess

/-- Of the numbers `d · 10^e` with `count` digits next to the value, the nearest that reads back. -/
def gridHit? (m : Nat) (q : Int) (places : Int) (count : Nat) : Option (Nat × Int) :=
  let e := places - count
  -- everything in units of 2^(q-2) / 10^e, so that the bounds are whole multiples
  let (p2, r2) := powerPair 2 (q - 2)
  let (p10, r10) := powerPair 10 e
  let unit := p2 * r10
  let grid := p10 * r2
  let value := 4 * m * unit
  let below := if m = Nat.pow 2 52 ∧ q ≠ -1074 then (4 * m - 1) * unit else (4 * m - 2) * unit
  let above := (4 * m + 2) * unit
  let inside (d : Nat) : Bool :=
    if m % 2 = 0 then below ≤ d * grid ∧ d * grid ≤ above
    else below < d * grid ∧ d * grid < above
  let low := value / grid
  let far (d : Nat) : Nat := if d * grid ≤ value then value - d * grid else d * grid - value
  match inside low, inside (low + 1) with
  | true, true =>
    if far low < far (low + 1) ∨ (far low = far (low + 1) ∧ low % 2 = 0) then some (low, e)
    else some (low + 1, e)
  | true, false => some (low, e)
  | false, true => some (low + 1, e)
  | false, false => none

/-- Digits `d` and exponent `e` with `d · 10^e` the shortest decimal of `m · 2^q`. -/
def shortestDigits (m : Nat) (q : Int) : Nat × Int :=
  let (p2, r2) := powerPair 2 q
  let places := decimalPlaces (m * p2) r2
  ((List.range 17).findSome? fun i => gridHit? m q places (i + 1)).getD (m, q)

/-- Trailing zeros moved from the digits into the exponent. -/
def dropZeros : (fuel d : Nat) → (e : Int) → Nat × Int
  | 0, d, e => (d, e)
  | fuel + 1, d, e => if d ≠ 0 ∧ d % 10 = 0 then dropZeros fuel (d / 10) (e + 1) else (d, e)

/-- The text of a finite float; `null` stands for the others. -/
def floatText (x : Float) : List Char :=
  if x.isNaN || x.isInf then ['n', 'u', 'l', 'l']
  else
    let (negative, m, q) := decodeFloat x
    let body :=
      if m = 0 then ['0', '.', '0']
      else
        let (d0, e0) := shortestDigits m q
        let (d, e) := dropZeros 20 d0 e0
        let ds := digits d
        let point : Int := ds.length + e
        if 0 ≤ e ∧ point ≤ 16 then ds ++ List.replicate e.toNat '0' ++ ['.', '0']
        else if 0 < point ∧ point ≤ 16 then ds.take point.toNat ++ '.' :: ds.drop point.toNat
        else if -5 < point ∧ point ≤ 0 then
          '0' :: '.' :: (List.replicate point.natAbs '0' ++ ds)
        else
          let tail := if ds.length = 1 then [] else '.' :: ds.drop 1
          ds.take 1 ++ tail ++ 'e' :: intDigits (point - 1)
    if negative then '-' :: body else body

end GeoReplication.Text
