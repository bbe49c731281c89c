import GeoReplication.Text.Shortest

/-!
# Text/Rounded — binary fractions with fixed places

The exact binary value is rounded to the places asked for, a half to the even neighbour.  The sign
is kept, also that of a zero and of what rounds to zero.
-/

namespace GeoReplication.Text

/-- `num / den` rounded to a whole number, a half to the even neighbour. -/
def roundDiv (num den : Nat) : Nat :=
  let low := num / den
  let twice := 2 * (num % den)
  if twice < den ∨ (twice = den ∧ low % 2 = 0) then low else low + 1

/-- A whole number of the last of `places` decimal places. -/
def placed (places n : Nat) : List Char :=
  digits (n / Nat.pow 10 places) ++
    (if places = 0 then [] else '.' :: fixedDigits places (n % Nat.pow 10 places))

/-- A float with fixed places. -/
def rounded (places : Nat) (x : Float) : String :=
  if x.isNaN then "NaN"
  else
    let (negative, m, q) := decodeFloat x
    let body :=
      if x.isInf then "inf".toList
      else
        let (num, den) := powerPair 2 q
        placed places (roundDiv (m * num * Nat.pow 10 places) den)
    String.ofList (if negative then '-' :: body else body)

end GeoReplication.Text
