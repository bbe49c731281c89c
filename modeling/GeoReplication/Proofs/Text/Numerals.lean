import GeoReplication.Text.Decimal
import Mathlib.Data.List.TakeWhile

/-!
# Proofs/Text/Numerals — numbers read off their texts

    1,234,567        commas left out: 1234567
    42 (2017-05-01)  up to the first character that is no digit: 42

Grouping puts commas between digits and changes nothing else, so without commas a grouped number is
its digits again (`grouped_injective`).  What follows a number is told from it by its first
character, if that is no digit (`takeWhile_digits_append`).
-/

namespace GeoReplication.Text

variable {c : Char} {rest : List Char}

/-! ## Digits -/

theorem digits_injective {m n : Nat} (h : digits m = digits n) : m = n := by
  have hread := congrArg natural? h
  rw [natural?_digits, natural?_digits] at hread
  exact Option.some.inj hread

theorem notMem_digits (hc : c.isDigit = false) (n : Nat) : c ∉ digits n := by
  intro hmem
  exact absurd ((isDigit_of_mem_digits hmem).symm.trans hc) (by decide)

theorem takeWhile_digits_append (n : Nat) (hrest : ∀ c ∈ rest.head?, c.isDigit = false) :
    (digits n ++ rest).takeWhile Char.isDigit = digits n := by
  rw [List.takeWhile_append_of_pos fun _ => isDigit_of_mem_digits]
  cases rest with
  | nil => rw [List.takeWhile_nil, List.append_nil]
  | cons c rest =>
    rw [List.takeWhile_cons_of_neg (by rw [hrest c rfl]; exact Bool.false_ne_true),
      List.append_nil]

theorem dropWhile_digits_append (n : Nat) (hrest : ∀ c ∈ rest.head?, c.isDigit = false) :
    (digits n ++ rest).dropWhile Char.isDigit = rest := by
  rw [List.dropWhile_append_of_pos fun _ => isDigit_of_mem_digits]
  cases rest with
  | nil => rfl
  | cons c rest =>
    exact List.dropWhile_cons_of_neg (by rw [hrest c rfl]; exact Bool.false_ne_true)

/-! ## Integers -/

theorem notMem_intDigits (hminus : c ≠ '-') (hc : c.isDigit = false) (n : Int) :
    c ∉ intDigits n := by
  cases n with
  | ofNat n => exact notMem_digits hc n
  | negSucc n => exact List.not_mem_cons_of_ne_of_not_mem hminus (notMem_digits hc (n + 1))

theorem intDigits_injective {m n : Int} (h : intDigits m = intDigits n) : m = n := by
  have hsign : ∀ i j : Nat, digits i ≠ '-' :: digits j := by
    intro i j hij
    exact notMem_digits (c := '-') (by decide) i (hij ▸ List.mem_cons_self)
  cases m with
  | ofNat m =>
    cases n with
    | ofNat n => exact congrArg Int.ofNat (digits_injective h)
    | negSucc n => exact absurd h (hsign m (n + 1))
  | negSucc m =>
    cases n with
    | ofNat n => exact absurd h.symm (hsign n (m + 1))
    | negSucc n => exact congrArg Int.negSucc (Nat.succ.inj (digits_injective (List.cons.inj h).2))

/-! ## Groups of three -/

theorem toList_grouped (n : Nat) :
    (grouped n).toList = (grouped.go (digits n).reverse).reverse := String.toList_ofList

theorem notMem_groups (hcomma : c ≠ ',') {cs : List Char} (h : c ∉ cs) :
    c ∉ grouped.go cs := by
  fun_induction grouped.go cs with
  | case1 first second third next rest ih =>
    have hparts : c ∉ [first, second, third] ∧ c ∉ next :: rest := by
      rwa [← not_or, ← List.mem_append]
    exact List.not_mem_append hparts.1 (List.not_mem_cons_of_ne_of_not_mem hcomma (ih hparts.2))
  | case2 short => exact h

theorem notMem_grouped (hcomma : c ≠ ',') (hc : c.isDigit = false) (n : Nat) :
    c ∉ (grouped n).toList := by
  rw [toList_grouped, List.mem_reverse]
  exact notMem_groups hcomma fun hmem => notMem_digits hc n (List.mem_reverse.mp hmem)

/-- Grouping puts commas in and changes nothing else. -/
theorem filter_groups (cs : List Char) :
    (grouped.go cs).filter (· ≠ ',') = cs.filter (· ≠ ',') := by
  fun_induction grouped.go cs with
  | case1 first second third next rest ih =>
    have hcomma : (',' :: grouped.go (next :: rest)).filter (· ≠ ',') =
        (next :: rest).filter (· ≠ ',') := by
      rw [List.filter_cons_of_neg (by decide), ih]
    change ([first, second, third] ++ ',' :: grouped.go (next :: rest)).filter _ =
      ([first, second, third] ++ next :: rest).filter _
    rw [List.filter_append, List.filter_append, hcomma]
  | case2 short => rfl

theorem filter_grouped (n : Nat) : (grouped n).toList.filter (· ≠ ',') = digits n := by
  have hdigits : ∀ c ∈ digits n, decide (c ≠ ',') = true := by
    intro c hc
    refine decide_eq_true ?_
    rintro rfl
    exact notMem_digits (by decide) n hc
  rw [toList_grouped, List.filter_reverse, filter_groups, List.filter_reverse,
    List.reverse_reverse, List.filter_eq_self.mpr hdigits]

/-- **Grouped numbers differ where the numbers do.** -/
theorem grouped_injective {m n : Nat} (h : grouped m = grouped n) : m = n := by
  refine digits_injective ?_
  rw [← filter_grouped, h, filter_grouped]

end GeoReplication.Text
