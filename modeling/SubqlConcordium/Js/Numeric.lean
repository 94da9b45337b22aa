import SubqlConcordium.Js.Value
import Mathlib.Data.Int.GCD
import Mathlib.Data.Rat.Lemmas
import Mathlib.Tactic.FieldSimp
import Mathlib.Tactic.Ring

/-!
# Numbers and bigints

The three conversions between JavaScript's number types that an indexer cannot avoid: a bigint
height as a number, a number's remainder, and a string as a bigint.

`Number(n)` rounds above `2 ^ 53`, so it is not a cast. The remainder of two numbers is exact, so
it is one here. `BigInt(s)` is lenient in ways that matter to a filter: blanks around the numeral
are dropped, and a string of blanks alone is zero.

## Numbers are rationals

A finite double is a rational, and where the program only compares numbers or takes remainders,
rationals are exact. Rounding comes in at one place, where a bigint becomes a number. Infinity and
`NaN` are not values here; a remainder by zero, which would be `NaN`, is never taken, since a modulo
of zero counts as no modulo.

## Main definitions

* `toNumber` — `Number(n)` of a non-negative bigint
* `remainder` — `x % y` on numbers
* `stringToBigInt`, `bigIntOfString` — `BigInt(s)`, without and with its exception

## Main results

* `toNumber_of_lt`, `toNumber_lt_iff` — exact below `2 ^ 53`, and only there below it
* `remainder_eq_zero_iff` — zero exactly on integer multiples
* `natCast_isMultiple_iff` — which natural numbers are multiples of a rational
-/

namespace Js

/-! ### Bigints as numbers -/

/-- `Number(n)` of a non-negative bigint: the nearest number with a 53 bit mantissa, ties to
even. -/
def toNumber (n : ℕ) : ℕ :=
  if n < 2 ^ 53 then n
  else
    let e := n.log2 - 52
    let q := n >>> e
    let r := n % 2 ^ e
    if 2 ^ e < 2 * r ∨ (2 * r = 2 ^ e ∧ q % 2 = 1) then (q + 1) <<< e else q <<< e

theorem toNumber_of_lt {n : ℕ} (h : n < 2 ^ 53) : toNumber n = n := if_pos h

/-- What is rounded stays at `2 ^ 53` or above. -/
theorem toNumber_lt_iff {n : ℕ} : toNumber n < 2 ^ 53 ↔ n < 2 ^ 53 := by
  refine ⟨fun h => ?_, fun h => (toNumber_of_lt h).symm ▸ h⟩
  by_contra hlarge
  rw [toNumber, if_neg hlarge] at h
  have hlog : 53 ≤ n.log2 := (Nat.le_log2 (by omega)).mpr (by omega)
  have hexp : 2 ^ 1 ≤ 2 ^ (n.log2 - 52) := Nat.pow_le_pow_right (by decide) (by omega)
  have hmantissa : 2 ^ 52 ≤ n >>> (n.log2 - 52) := by
    rw [Nat.shiftRight_eq_div_pow, Nat.le_div_iff_mul_le (by positivity), ← Nat.pow_add,
      show 52 + (n.log2 - 52) = n.log2 by omega]
    exact Nat.log2_self_le (by omega)
  have hround : 2 ^ 53 ≤ (n >>> (n.log2 - 52)) <<< (n.log2 - 52) := by
    rw [Nat.shiftLeft_eq]
    exact Nat.mul_le_mul hmantissa hexp
  have hup : 2 ^ 53 ≤ (n >>> (n.log2 - 52) + 1) <<< (n.log2 - 52) := by
    rw [Nat.shiftLeft_eq] at hround ⊢
    exact hround.trans (Nat.mul_le_mul_right _ (Nat.le_succ _))
  dsimp only at h
  split_ifs at h <;> omega

example : toNumber (2 ^ 53 + 1) = 2 ^ 53 := by decide

/-! ### Remainders -/

/-- Rounding towards zero. -/
def trunc (x : ℚ) : ℤ := x.num.tdiv x.den

@[simp] theorem trunc_intCast (k : ℤ) : trunc k = k := by
  simp [trunc]

/-- `x % y`. -/
def remainder (x y : ℚ) : ℚ := x - y * trunc (x / y)

/-- **The remainder is zero exactly on integer multiples.** -/
theorem remainder_eq_zero_iff {x y : ℚ} (hy : y ≠ 0) :
    remainder x y = 0 ↔ ∃ k : ℤ, x = k * y := by
  constructor
  · intro h
    refine ⟨trunc (x / y), ?_⟩
    rw [mul_comm]
    exact sub_eq_zero.mp h
  · rintro ⟨k, rfl⟩
    rw [remainder, mul_div_cancel_right₀ _ hy, trunc_intCast]
    ring

/-- The natural multiples of a rational are those of its numerator. -/
theorem natCast_isMultiple_iff {n : ℕ} {y : ℚ} :
    (∃ k : ℤ, (n : ℚ) = k * y) ↔ y.num ∣ (n : ℤ) := by
  have hden : (y.den : ℚ) ≠ 0 := by exact_mod_cast y.den_nz
  have hy : y * y.den = y.num := Rat.mul_den_eq_num y
  constructor
  · rintro ⟨k, hk⟩
    have hmul : (n : ℤ) * y.den = k * y.num := by
      have : (n : ℚ) * y.den = k * y.num := by rw [hk, mul_assoc, hy]
      exact_mod_cast this
    have hcop : Int.gcd y.num y.den = 1 := y.reduced
    exact Int.dvd_of_dvd_mul_left_of_gcd_one ⟨k, by rw [hmul, mul_comm]⟩ hcop
  · rintro ⟨c, hc⟩
    refine ⟨c * y.den, ?_⟩
    have hn : (n : ℚ) = y.num * c := by exact_mod_cast hc
    rw [hn, ← hy]
    push_cast
    ring

/-! ### Strings as bigints -/

/-- The white space and line terminators that `BigInt` strips. -/
def isBlank (c : Char) : Bool :=
  c.toNat ∈ [0x9, 0xa, 0xb, 0xc, 0xd, 0x20, 0xa0, 0x1680, 0x2000, 0x2001, 0x2002, 0x2003, 0x2004,
    0x2005, 0x2006, 0x2007, 0x2008, 0x2009, 0x200a, 0x2028, 0x2029, 0x202f, 0x205f, 0x3000, 0xfeff]

/-- `s` without the blanks at both ends. -/
def trimBlanks (s : List Char) : List Char :=
  ((s.dropWhile isBlank).reverse.dropWhile isBlank).reverse

/-- The value of a digit in any base up to 16. -/
def digitValue (c : Char) : Option ℕ :=
  if '0' ≤ c ∧ c ≤ '9' then some (c.toNat - 48)
  else if 'a' ≤ c ∧ c ≤ 'f' then some (c.toNat - 87)
  else if 'A' ≤ c ∧ c ≤ 'F' then some (c.toNat - 55)
  else none

/-- Digits read onto an accumulator, most significant first. -/
def digitsFrom (base : ℕ) : ℕ → List Char → Option ℕ
  | acc, [] => some acc
  | acc, c :: cs =>
    match digitValue c with
    | some d => if d < base then digitsFrom base (acc * base + d) cs else none
    | none => none

/-- A non-empty string of digits. -/
def digits (base : ℕ) : List Char → Option ℕ
  | [] => none
  | cs => digitsFrom base 0 cs

/-- `StringToBigInt`: blanks are stripped, the empty string is zero, a literal with a base has no
sign. -/
def stringToBigInt (s : String) : Option ℤ :=
  match trimBlanks s.toList with
  | [] => some 0
  | '0' :: 'x' :: cs | '0' :: 'X' :: cs => (digits 16 cs).map (↑·)
  | '0' :: 'o' :: cs | '0' :: 'O' :: cs => (digits 8 cs).map (↑·)
  | '0' :: 'b' :: cs | '0' :: 'B' :: cs => (digits 2 cs).map (↑·)
  | '-' :: cs => (digits 10 cs).map fun n => -(n : ℤ)
  | '+' :: cs => (digits 10 cs).map (↑·)
  | cs => (digits 10 cs).map (↑·)

/-- `BigInt(s)`. -/
def bigIntOfString (s : String) : Except JsError ℤ :=
  match stringToBigInt s with
  | some n => .ok n
  | none => .error ⟨"SyntaxError", s!"Cannot convert {s} to a BigInt", none⟩

example : ["6536", " -5 ", "0x1F", ""].map stringToBigInt =
    [some 6536, some (-5), some 31, some 0] := by
  decide

end Js
