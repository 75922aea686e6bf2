import AfriPay.Text.Doubles

/-!
# The order of doubles

Rounding keeps the order of numbers (`roundDouble_mono`), though not that they
differ: a number that comes out less than another was less (`lt_of_less`).
-/

namespace AfriPay.Text

/-- `a < b` on numbers: `NaN` is neither less nor more than anything. -/
def JsNumber.less : JsNumber → JsNumber → Bool
  | .nan, _ | _, .nan => false
  | .inf negative, .inf negative' => negative && !negative'
  | .inf negative, .finite _ => negative
  | .finite _, .inf negative => !negative
  | .finite a, .finite b => a < b

theorem roundHalfEven_mono {x y : ℚ} (le : x ≤ y) : roundHalfEven x ≤ roundHalfEven y := by
  have hx := abs_le.1 (abs_roundHalfEven_sub_le x)
  have hy := abs_le.1 (abs_roundHalfEven_sub_le y)
  by_contra more
  -- the two are at most one apart, and one apart only where the numbers are the same
  have apart : roundHalfEven y + 1 ≤ roundHalfEven x := by omega
  have apart : (roundHalfEven y : ℚ) + 1 ≤ roundHalfEven x := by exact_mod_cast apart
  obtain rfl : x = y := by
    apply le_antisymm le
    linarith
  exact more le_rfl

theorem ulpExponent_mono {p q : ℚ} (pos : 0 < p) (le : p ≤ q) : ulpExponent p ≤ ulpExponent q := by
  have log := Int.log_mono_right (b := 2) pos le
  unfold ulpExponent
  rw [abs_of_pos pos, abs_of_pos (pos.trans_le le)]
  omega

theorem roundDouble_nonneg {q : ℚ} (nonneg : 0 ≤ q) : 0 ≤ roundDouble q := by
  have pos := ulp_pos (ulpExponent q)
  have scaled := roundHalfEven_mono (div_nonneg nonneg pos.le)
  rw [← Int.cast_zero, roundHalfEven_intCast] at scaled
  exact mul_nonneg (by exact_mod_cast scaled) pos.le

theorem roundDouble_mono {p q : ℚ} (nonneg : 0 ≤ p) (le : p ≤ q) : roundDouble p ≤ roundDouble q := by
  rcases nonneg.eq_or_lt with rfl | pos
  · have zero : roundDouble 0 = 0 := roundDouble_exact (z := 0) (e := 0) (by simp) (by simp) (by norm_num)
    rw [zero]
    exact roundDouble_nonneg le
  rcases (ulpExponent_mono pos le).eq_or_lt with same | less
  · have ulp := ulp_pos (ulpExponent q)
    rw [roundDouble, roundDouble, same]
    have scaled := roundHalfEven_mono (div_le_div_of_nonneg_right le ulp.le)
    exact mul_le_mul_of_nonneg_right (by exact_mod_cast scaled) ulp.le
  · -- between them there is a power of two
    obtain ⟨z, rounded, digits⟩ := roundDouble_multiple p
    have upper : roundDouble p ≤ 2 ^ (ulpExponent p + 53) := by
      have digits : (z : ℚ) ≤ 2 ^ 53 := by exact_mod_cast (le_abs_self z).trans digits
      rw [rounded, add_comm, zpow_add₀ (by norm_num)]
      exact mul_le_mul_of_nonneg_right (by exact_mod_cast digits) (ulp_pos _).le
    have lower : (2 : ℚ) ^ (ulpExponent q + 52) ≤ roundDouble q := by
      have log : ulpExponent q + 52 = Int.log 2 q := by
        unfold ulpExponent at less ⊢
        rw [abs_of_pos (pos.trans_le le)] at less ⊢
        omega
      have size : (2 : ℚ) ^ (ulpExponent q + 52) ≤ q := by
        rw [log]
        exact_mod_cast Int.zpow_log_le_self (by norm_num : 1 < 2) (pos.trans_le le)
      have ulp := ulp_pos (ulpExponent q)
      have scaled : ((2 ^ 52 : ℤ) : ℚ) ≤ q / 2 ^ ulpExponent q := by
        rw [le_div_iff₀ ulp]
        rw [add_comm, zpow_add₀ (by norm_num)] at size
        exact_mod_cast size
      have scaled := roundHalfEven_mono scaled
      rw [roundHalfEven_intCast] at scaled
      rw [roundDouble, add_comm, zpow_add₀ (by norm_num)]
      exact mul_le_mul_of_nonneg_right (by exact_mod_cast scaled) ulp.le
    calc roundDouble p ≤ 2 ^ (ulpExponent p + 53) := upper
      _ ≤ 2 ^ (ulpExponent q + 52) := zpow_le_zpow_right₀ (by norm_num) (by omega)
      _ ≤ roundDouble q := lower

/-- What comes out less was less. -/
theorem lt_of_less {p q : ℚ} (nonneg : 0 ≤ q) (less : (toDouble p).less (toDouble q) = true) : p < q := by
  by_contra ge
  rw [not_lt] at ge
  have mono := roundDouble_mono nonneg ge
  have zero := roundDouble_nonneg nonneg
  have zero' := zero.trans mono
  unfold toDouble at less
  rw [abs_of_nonneg zero, abs_of_nonneg zero'] at less
  split_ifs at less with hp hq hq
  · simp [JsNumber.less] at less
    exact absurd less.1 (not_lt.2 (nonneg.trans ge))
  · have negative : p < 0 := by simpa [JsNumber.less] using less
    linarith
  · exact hp (hq.trans mono)
  · have lt : roundDouble p < roundDouble q := by simpa [JsNumber.less] using less
    linarith

/-- No number down to `2⁻²⁴` is rounded to zero. -/
theorem nonpositive_toDouble {q : ℚ} (large : 1 / 2 ^ 24 ≤ q) : (toDouble q).nonpositive = false := by
  have least : roundDouble (1 / 2 ^ 24) = 1 / 2 ^ 24 := by
    refine roundDouble_exact (z := 1) (e := -24) ?_ (by norm_num) (by norm_num)
    norm_num
  have mono := roundDouble_mono (by norm_num) large
  rw [least] at mono
  have pos : 0 < roundDouble q := lt_of_lt_of_le (by norm_num) mono
  have positive : ¬q < 0 := by
    rw [not_lt]
    exact le_trans (by norm_num) large
  unfold toDouble
  split_ifs
  · simp [JsNumber.nonpositive, positive]
  · simp [JsNumber.nonpositive, pos]

end AfriPay.Text
