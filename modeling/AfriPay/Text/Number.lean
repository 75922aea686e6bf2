import Mathlib.Data.Int.Log
import Mathlib.Data.Rat.Floor
import Mathlib.Tactic.Linarith
import Mathlib.Tactic.NormNum
import Mathlib.Tactic.Positivity
import AfriPay.Text.Decimal

/-!
# JavaScript numbers

`Number(string)` reads a numeric literal exactly and rounds it to the nearest
binary64 value, ties to even. `toDouble` is that rounding on rationals; two
rationals with the same double are within the sum of their rounding errors of
each other (`abs_sub_le_of_toDouble_eq`), which makes decimals with few digits
distinguishable (`decimal_eq_of_toDouble_eq`).
-/

namespace AfriPay.Text

/-- A JavaScript number. `+0` and `-0` are one value, as `===` has it. -/
inductive JsNumber where
  | nan
  | inf (negative : Bool)
  | finite (q : ℚ)
  deriving DecidableEq

/-- `a === b` on numbers: `NaN` equals nothing. -/
def JsNumber.same : JsNumber → JsNumber → Bool
  | .nan, _ => false
  | a, b => a = b

/-- `a <= 0` -/
def JsNumber.nonpositive : JsNumber → Bool
  | .nan => false
  | .inf negative => negative
  | .finite q => q ≤ 0

/-- The nearest integer, ties to even. -/
def roundHalfEven (q : ℚ) : ℤ :=
  if q - ⌊q⌋ < 1 / 2 then ⌊q⌋
  else if 1 / 2 < q - ⌊q⌋ then ⌊q⌋ + 1
  else if ⌊q⌋ % 2 = 0 then ⌊q⌋ else ⌊q⌋ + 1

/-- The exponent of the last of 53 binary digits of `q`, at least that of the subnormals. -/
def ulpExponent (q : ℚ) : ℤ := max (Int.log 2 |q| - 52) (-1074)

def roundDouble (q : ℚ) : ℚ := roundHalfEven (q / 2 ^ ulpExponent q) * 2 ^ ulpExponent q

/-- The nearest binary64 value. -/
def toDouble (q : ℚ) : JsNumber :=
  if 2 ^ 1024 ≤ |roundDouble q| then .inf (decide (q < 0)) else .finite (roundDouble q)

theorem abs_roundHalfEven_sub_le (q : ℚ) : |roundHalfEven q - q| ≤ 1 / 2 := by
  have lo := Int.floor_le q
  have hi := Int.lt_floor_add_one q
  unfold roundHalfEven
  split_ifs <;> push_cast <;> rw [abs_le] <;> constructor <;> linarith

theorem abs_roundDouble_sub_le (q : ℚ) : |roundDouble q - q| ≤ 2 ^ ulpExponent q / 2 := by
  have pos : (0 : ℚ) < 2 ^ ulpExponent q := zpow_pos (by norm_num) _
  have scaled : roundDouble q - q = (roundHalfEven (q / 2 ^ ulpExponent q) - q / 2 ^ ulpExponent q) * 2 ^ ulpExponent q := by
    rw [roundDouble, sub_mul, div_mul_cancel₀ _ pos.ne']
  rw [scaled, abs_mul, abs_of_pos pos]
  have := abs_roundHalfEven_sub_le (q / 2 ^ ulpExponent q)
  nlinarith

/-- The relative error of a number in the normal range. -/
theorem abs_roundDouble_sub_le_of_normal {q : ℚ} (ne : q ≠ 0) (normal : -1022 ≤ Int.log 2 |q|) :
    |roundDouble q - q| ≤ |q| / 2 ^ 53 := by
  have exp : ulpExponent q = Int.log 2 |q| - 52 := by unfold ulpExponent; omega
  have pow : (2 : ℚ) ^ Int.log 2 |q| ≤ |q| := by
    exact_mod_cast Int.zpow_log_le_self (by norm_num : 1 < 2) (abs_pos.2 ne)
  refine (abs_roundDouble_sub_le q).trans ?_
  rw [exp, zpow_sub₀ (by norm_num : (2 : ℚ) ≠ 0), div_div]
  norm_num
  linarith

/-- Numbers with the same double are close. -/
theorem abs_sub_le_of_toDouble_eq {a b : ℚ} (ha : a ≠ 0) (na : -1022 ≤ Int.log 2 |a|) (hb : b ≠ 0)
    (nb : -1022 ≤ Int.log 2 |b|) (fits : |roundDouble a| < 2 ^ 1024) (same : toDouble a = toDouble b) :
    |a - b| ≤ (|a| + |b|) / 2 ^ 53 := by
  have rounded : roundDouble a = roundDouble b := by
    unfold toDouble at same
    rw [if_neg (not_le.2 fits)] at same
    split at same
    · cases same
    · exact JsNumber.finite.inj same
  have ea := abs_roundDouble_sub_le_of_normal ha na
  have eb := abs_roundDouble_sub_le_of_normal hb nb
  have tri := abs_sub_le a (roundDouble b) b
  rw [abs_sub_comm a (roundDouble b)] at tri
  rw [rounded] at ea
  rw [add_div]
  linarith

theorem roundHalfEven_intCast (z : ℤ) : roundHalfEven z = z := by
  rw [roundHalfEven, Int.floor_intCast, sub_self, if_pos (by norm_num)]

/-- Whole numbers below 2⁵³ are doubles. -/
theorem toDouble_natCast {n : Nat} (small : n < 2 ^ 53) : toDouble n = .finite n := by
  have log : Int.log 2 |(n : ℚ)| ≤ 52 := by
    rw [Nat.abs_cast, Int.log_natCast]
    exact_mod_cast Nat.le_of_lt_succ (Nat.log_lt_of_lt_pow' (by decide) small)
  obtain ⟨j, exponent⟩ : ∃ j : Nat, ulpExponent n = -j := ⟨(-ulpExponent n).toNat, by unfold ulpExponent; omega⟩
  have whole : (n : ℚ) / 2 ^ ulpExponent n = ((n * 2 ^ j : ℤ) : ℚ) := by
    rw [exponent, zpow_neg, div_inv_eq_mul, zpow_natCast]
    push_cast
    rfl
  have same : roundDouble n = n := by
    rw [roundDouble, whole, roundHalfEven_intCast, ← whole, div_mul_cancel₀ _ (zpow_pos (by norm_num) _).ne']
  have bound : ¬(2 : ℚ) ^ 1024 ≤ |roundDouble n| := by
    rw [same, Nat.abs_cast, not_le]
    calc (n : ℚ) < 2 ^ 53 := by exact_mod_cast small
      _ ≤ 2 ^ 1024 := pow_le_pow_right₀ (by norm_num) (by decide)
  rw [toDouble, if_neg bound, same]

theorem log_abs_ge {q : ℚ} (h : 1 / 2 ^ 10 ≤ q) : -1022 ≤ Int.log 2 |q| := by
  have pos : (0 : ℚ) < q := lt_of_lt_of_le (by norm_num) h
  rw [abs_of_pos pos]
  refine (Int.zpow_le_iff_le_log (by decide) pos).1 ?_
  calc ((2 : ℕ) : ℚ) ^ (-1022 : ℤ) ≤ ((2 : ℕ) : ℚ) ^ (-10 : ℤ) := zpow_le_zpow_right₀ (by norm_num) (by decide)
    _ = 1 / 2 ^ 10 := by norm_num
    _ ≤ q := h

/-- Amounts of hundredths below `10¹²` are told apart by their doubles. -/
theorem decimal_eq_of_toDouble_eq {m n : ℕ} (hm : 0 < m) (hm' : m < 10 ^ 14) (hn : 0 < n) (hn' : n < 10 ^ 14)
    (same : toDouble ((m : ℚ) / 100) = toDouble ((n : ℚ) / 100)) : m = n := by
  have bounds : ∀ k : ℕ, 0 < k → k < 10 ^ 14 → (1 : ℚ) / 100 ≤ (k : ℚ) / 100 ∧ (k : ℚ) / 100 < 10 ^ 12 := by
    intro k pos lt
    have one : (1 : ℚ) ≤ k := by exact_mod_cast pos
    have big : (k : ℚ) < 10 ^ 14 := by exact_mod_cast lt
    constructor <;> linarith
  obtain ⟨alo, ahi⟩ := bounds m hm hm'
  obtain ⟨blo, bhi⟩ := bounds n hn hn'
  have apos : (0 : ℚ) < (m : ℚ) / 100 := by linarith
  have bpos : (0 : ℚ) < (n : ℚ) / 100 := by linarith
  have alog := log_abs_ge (q := (m : ℚ) / 100) (by norm_num; linarith)
  have blog := log_abs_ge (q := (n : ℚ) / 100) (by norm_num; linarith)
  have fits : |roundDouble ((m : ℚ) / 100)| < 2 ^ 1024 := by
    have err := abs_roundDouble_sub_le_of_normal apos.ne' alog
    have tri := abs_sub_abs_le_abs_sub (roundDouble ((m : ℚ) / 100)) ((m : ℚ) / 100)
    rw [abs_of_pos apos] at err tri
    calc |roundDouble ((m : ℚ) / 100)| ≤ 2 * 10 ^ 12 := by linarith
      _ < 2 ^ 64 := by norm_num
      _ ≤ 2 ^ 1024 := pow_le_pow_right₀ (by norm_num) (by decide)
  have close := abs_sub_le_of_toDouble_eq apos.ne' alog bpos.ne' blog fits same
  rw [abs_of_pos apos, abs_of_pos bpos, ← sub_div, abs_div] at close
  have : |(m : ℚ) - n| < 1 := by
    rw [abs_of_pos (by norm_num : (0 : ℚ) < 100)] at close
    linarith
  have : |(m : ℤ) - n| < 1 := by exact_mod_cast this
  rw [Int.abs_lt_one_iff] at this
  omega

end AfriPay.Text
