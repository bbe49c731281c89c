import GeoReplication.Text.Scan

/-!
# Text/Decimal — whole numbers as text

Numbers are written without leading zeros and read back by `natural?`, which also takes leading
zeros; `natural?_digits` ties the two.  `unsigned?` and `signed?` add the sign and the bounds that
ids, ports and capacities have.
-/

namespace GeoReplication.Text

/-- The largest value of a 64-bit id. -/
def maxId : Int := 9223372036854775807

/-- The smallest value of a 64-bit id. -/
def minId : Int := -9223372036854775808

/-- The largest unsigned 64-bit number. -/
def maxUnsigned : Nat := 18446744073709551615

/-- The decimal digits of `n`, without leading zeros. -/
def digits (n : Nat) : List Char := Nat.toDigits 10 n

/-- A nonempty run of decimal digits and nothing else. -/
def natural? (cs : List Char) : Option Nat :=
  if !cs.isEmpty && cs.all Char.isDigit then some (Nat.ofDigitChars 10 cs 0) else none

/-- A number up to `max`; a plus sign may stand in front. -/
def unsigned? (max : Nat) (cs : List Char) : Option Nat :=
  let body := match cs with
    | '+' :: rest => rest
    | _ => cs
  match natural? body with
  | some n => if n ≤ max then some n else none
  | none => none

/-- A number from `min` to `max`; a plus or minus sign may stand in front. -/
def signed? (min max : Int) (cs : List Char) : Option Int :=
  let value := match cs with
    | '-' :: rest => (natural? rest).map fun n => -(n : Int)
    | '+' :: rest => (natural? rest).map Int.ofNat
    | _ => (natural? cs).map Int.ofNat
  match value with
  | some n => if min ≤ n ∧ n ≤ max then some n else none
  | none => none

/-- A 64-bit id. -/
def id? : List Char → Option Int := signed? minId maxId

/-- The decimal text of an integer: a minus sign if negative, then its digits. -/
def intDigits : Int → List Char
  | .ofNat n => digits n
  | .negSucc n => '-' :: digits (n + 1)

/-- The same as a string. -/
def decimal (n : Int) : String := String.ofList (intDigits n)

theorem isDigit_of_mem_digits {c : Char} {n : Nat} (h : c ∈ digits n) : c.isDigit = true :=
  Nat.isDigit_of_mem_toDigits (by decide) (by decide) h

theorem digits_ne_nil (n : Nat) : digits n ≠ [] := Nat.toDigits_ne_nil

/-- **Reading the digits of a number gives it back.** -/
@[simp] theorem natural?_digits (n : Nat) : natural? (digits n) = some n := by
  have hd : (digits n).all Char.isDigit = true :=
    List.all_eq_true.mpr fun _ hc => isDigit_of_mem_digits hc
  have he : (digits n).isEmpty = false := by
    simpa [List.isEmpty_eq_false_iff] using digits_ne_nil n
  simp only [natural?, hd, he, Bool.not_false, Bool.true_and, if_true, Option.some.injEq]
  exact Nat.ofDigitChars_toDigits (by decide) (by decide)

/-- A digit of a number below ten. -/
def digitOf (n : Nat) : Char := Char.ofNat (48 + n % 10)

/-- The last `width` digits of `n`, zeros in front. -/
def fixedDigits : (width : Nat) → (n : Nat) → List Char
  | 0, _ => []
  | width + 1, n => fixedDigits width (n / 10) ++ [digitOf n]

@[simp] theorem length_fixedDigits (width n : Nat) : (fixedDigits width n).length = width := by
  induction width generalizing n with
  | zero => rfl
  | succ width ih => simp [fixedDigits, ih]

/-- Digits in groups of three, a comma between groups. -/
def grouped (n : Nat) : String :=
  let rec go : List Char → List Char
    | a :: b :: c :: d :: rest => a :: b :: c :: ',' :: go (d :: rest)
    | short => short
  String.ofList (go (digits n).reverse).reverse

end GeoReplication.Text
