import AfriPay.Text.NumberText

/-!
# Seventeen digits

The rationals that are binary64 values, and what rounds to them: whatever lies
closer than half of their last binary digit. A decimal of seventeen digits is
always close enough, so the digits that `String(x)` looks for are found.
-/

namespace AfriPay.Text

/-- The integer closer than a half. -/
theorem roundHalfEven_of_near {x : ℚ} {z : ℤ} (near : |x - z| < 1 / 2) : roundHalfEven x = z := by
  obtain ⟨above, below⟩ := abs_lt.1 near
  have lo := Int.floor_le x
  have hi := Int.lt_floor_add_one x
  have range : z - 1 ≤ ⌊x⌋ ∧ ⌊x⌋ ≤ z := by
    have low : ((z - 1 : ℤ) : ℚ) < (⌊x⌋ + 1 : ℤ) := by push_cast; linarith
    have high : ((⌊x⌋ : ℤ) : ℚ) < (z + 1 : ℤ) := by push_cast; linarith
    have low : z - 1 < ⌊x⌋ + 1 := by exact_mod_cast low
    have high : ⌊x⌋ < z + 1 := by exact_mod_cast high
    omega
  unfold roundHalfEven
  rcases (by omega : ⌊x⌋ = z ∨ ⌊x⌋ = z - 1) with same | less
  · rw [same, if_pos (by linarith)]
  · rw [less]
    push_cast
    rw [if_neg (by linarith), if_pos (by linarith)]
    omega

theorem roundHalfEven_neg (x : ℚ) : roundHalfEven (-x) = -roundHalfEven x := by
  have lo := Int.floor_le x
  have hi := Int.lt_floor_add_one x
  by_cases whole : x = ⌊x⌋
  · have value : roundHalfEven x = ⌊x⌋ := by
      rw [whole, Int.floor_intCast, roundHalfEven_intCast]
    rw [value, whole, Int.floor_intCast]
    have negated : -((⌊x⌋ : ℤ) : ℚ) = ((-⌊x⌋ : ℤ) : ℚ) := by push_cast; rfl
    rw [negated, roundHalfEven_intCast]
  · have floor : ⌊-x⌋ = -(⌊x⌋ + 1) := by
      have apart : (⌊x⌋ : ℚ) < x := lt_of_le_of_ne lo fun same => whole same.symm
      rw [Int.floor_eq_iff]
      constructor <;> push_cast <;> linarith
    unfold roundHalfEven
    rw [floor]
    push_cast
    -- the fraction of `-x` is one less that of `x`
    rcases lt_trichotomy (x - ⌊x⌋) (1 / 2) with less | half | more
    · rw [if_neg (by linarith), if_pos (by linarith), if_pos less]
      omega
    · have below : ¬x - ⌊x⌋ < 1 / 2 := by linarith
      have above : ¬1 / 2 < x - ⌊x⌋ := by linarith
      rw [if_neg (by linarith), if_neg (by linarith), if_neg below, if_neg above]
      split_ifs <;> omega
    · rw [if_pos (by linarith), if_neg (by linarith), if_pos more]

theorem ulpExponent_neg (q : ℚ) : ulpExponent (-q) = ulpExponent q := by
  unfold ulpExponent
  rw [abs_neg]

theorem roundDouble_neg (q : ℚ) : roundDouble (-q) = -roundDouble q := by
  unfold roundDouble
  rw [ulpExponent_neg, neg_div, roundHalfEven_neg]
  push_cast
  rw [neg_mul]

theorem toDouble_eq_finite {p q : ℚ} : toDouble p = .finite q ↔ roundDouble p = q ∧ |q| < 2 ^ 1024 := by
  unfold toDouble
  split
  · rename_i big
    refine iff_of_false nofun ?_
    rintro ⟨rfl, small⟩
    exact absurd big (not_le.2 small)
  · rename_i small
    rw [JsNumber.finite.injEq]
    constructor
    · rintro rfl
      exact ⟨rfl, not_le.1 small⟩
    · exact And.left

theorem toDouble_neg {p q : ℚ} (h : toDouble p = .finite q) : toDouble (-p) = .finite (-q) := by
  obtain ⟨rounded, small⟩ := toDouble_eq_finite.1 h
  refine toDouble_eq_finite.2 ⟨?_, ?_⟩
  · rw [roundDouble_neg, rounded]
  · rw [abs_neg]
    exact small

/-! ## What rounds to a double -/

theorem ulp_pos (e : ℤ) : (0 : ℚ) < 2 ^ e := zpow_pos (by norm_num) e

/-- A number is rounded to a multiple of its last binary digit that is closer than half of it. -/
theorem roundDouble_of_near {p q : ℚ} {z : ℤ} (multiple : q = z * 2 ^ ulpExponent p) (near : |p - q| < 2 ^ ulpExponent p / 2) :
    roundDouble p = q := by
  have pos := ulp_pos (ulpExponent p)
  have scaled : |p / 2 ^ ulpExponent p - z| < 1 / 2 := by
    have shift : p / 2 ^ ulpExponent p - z = (p - q) / 2 ^ ulpExponent p := by
      rw [multiple, sub_div, mul_div_cancel_right₀ _ pos.ne']
    rw [shift, abs_div, abs_of_pos pos, div_lt_iff₀ pos]
    linarith
  rw [roundDouble, roundHalfEven_of_near scaled, ← multiple]

/-- A multiple of a power of two is one of every smaller power. -/
theorem multiple_of_le {q : ℚ} {z e e' : ℤ} (multiple : q = z * 2 ^ e) (le : e' ≤ e) : ∃ z' : ℤ, q = z' * 2 ^ e' := by
  obtain ⟨k, rfl⟩ := Int.exists_add_of_le le
  refine ⟨z * 2 ^ k, ?_⟩
  rw [multiple, zpow_add₀ (by norm_num), zpow_natCast]
  push_cast
  ring

/-- The last binary digit of a number of at most 53 of them. -/
theorem ulpExponent_le {p : ℚ} {e : ℤ} (ne : p ≠ 0) (small : |p| < 2 ^ (e + 53)) (le : -1074 ≤ e) : ulpExponent p ≤ e := by
  have log : Int.log 2 |p| < e + 53 := by
    refine (Int.lt_zpow_iff_log_lt (by decide) (abs_pos.2 ne)).1 ?_
    exact_mod_cast small
  unfold ulpExponent
  omega

theorem lt_ulp (q : ℚ) (ne : q ≠ 0) : |q| < 2 ^ (ulpExponent q + 53) := by
  have log : Int.log 2 |q| < ulpExponent q + 53 := by
    unfold ulpExponent
    omega
  have lt := (Int.lt_zpow_iff_log_lt (b := 2) (by decide) (abs_pos.2 ne)).2 log
  exact_mod_cast lt

/-- The multiple of its last binary digit that a number is rounded to. -/
theorem roundDouble_multiple (p : ℚ) : ∃ z : ℤ, roundDouble p = z * 2 ^ ulpExponent p ∧ |z| ≤ 2 ^ 53 := by
  refine ⟨roundHalfEven (p / 2 ^ ulpExponent p), rfl, ?_⟩
  have pos := ulp_pos (ulpExponent p)
  have size : |p / 2 ^ ulpExponent p| ≤ 2 ^ 53 := by
    rw [abs_div, abs_of_pos pos, div_le_iff₀ pos]
    by_cases zero : p = 0
    · rw [zero, abs_zero]
      exact mul_nonneg (by norm_num) (ulp_pos _).le
    · have lt := lt_ulp p zero
      rw [add_comm, zpow_add₀ (by norm_num)] at lt
      exact_mod_cast lt.le
  have error := abs_roundHalfEven_sub_le (p / 2 ^ ulpExponent p)
  have total := abs_sub_abs_le_abs_sub (roundHalfEven (p / 2 ^ ulpExponent p) : ℚ) (p / 2 ^ ulpExponent p)
  have less : |(roundHalfEven (p / 2 ^ ulpExponent p) : ℚ)| < ((2 ^ 53 + 1 : ℤ) : ℚ) := by
    push_cast
    linarith
  have less : |roundHalfEven (p / 2 ^ ulpExponent p)| < 2 ^ 53 + 1 := by exact_mod_cast less
  omega

/-- A multiple of a power of two, with at most 53 binary digits, is not rounded. -/
theorem roundDouble_exact {q : ℚ} {z e : ℤ} (multiple : q = z * 2 ^ e) (digits : |z| ≤ 2 ^ 53) (le : -1074 ≤ e) : roundDouble q = q := by
  have keep : ∀ {z e : ℤ}, q = z * 2 ^ e → |z| < 2 ^ 53 → -1074 ≤ e → roundDouble q = q := by
    intro z e multiple digits le
    by_cases zero : q = 0
    · refine roundDouble_of_near (z := 0) (by rw [zero]; simp) ?_
      rw [sub_self, abs_zero]
      exact half_pos (ulp_pos _)
    · have small : |q| < 2 ^ (e + 53) := by
        have digits : |(z : ℚ)| < 2 ^ 53 := by exact_mod_cast digits
        rw [multiple, abs_mul, abs_of_pos (ulp_pos e), add_comm, zpow_add₀ (by norm_num)]
        exact mul_lt_mul_of_pos_right (by exact_mod_cast digits) (ulp_pos e)
      obtain ⟨z', multiple'⟩ := multiple_of_le multiple (ulpExponent_le zero small le)
      refine roundDouble_of_near multiple' ?_
      rw [sub_self, abs_zero]
      exact half_pos (ulp_pos _)
  rcases lt_or_eq_of_le digits with less | full
  · exact keep multiple less le
  · -- a power of two has a shorter form
    have short : ∃ z' : ℤ, z = z' * 2 ∧ |z'| < 2 ^ 53 := by
      rcases (abs_eq (by norm_num)).1 full with rfl | rfl
      · exact ⟨2 ^ 52, by norm_num, by norm_num⟩
      · exact ⟨-2 ^ 52, by norm_num, by norm_num⟩
    obtain ⟨z', rfl, less⟩ := short
    refine keep (e := e + 1) ?_ less (by omega)
    rw [multiple, zpow_add₀ (by norm_num)]
    push_cast
    ring

/-- Rounding again changes nothing. -/
theorem roundDouble_roundDouble (p : ℚ) : roundDouble (roundDouble p) = roundDouble p := by
  obtain ⟨z, multiple, digits⟩ := roundDouble_multiple p
  refine roundDouble_exact multiple digits ?_
  unfold ulpExponent
  omega

theorem toDouble_finite {p q : ℚ} (h : toDouble p = .finite q) : toDouble q = .finite q := by
  obtain ⟨rfl, small⟩ := toDouble_eq_finite.1 h
  exact toDouble_eq_finite.2 ⟨roundDouble_roundDouble p, small⟩

/-- What JavaScript has for numbers: a finite one is a double. -/
def Rounded (x : JsNumber) : Prop := ∀ q, x = .finite q → toDouble q = .finite q

theorem rounded_toDouble (p : ℚ) : Rounded (toDouble p) := fun _ => toDouble_finite

theorem rounded_zero : Rounded (.finite 0) := by
  rintro q ⟨⟩
  exact_mod_cast toDouble_natCast (by decide : 0 < 2 ^ 53)

theorem rounded_stringToNumber (s : String) : Rounded (stringToNumber s) := by
  have notNumber : Rounded .nan := nofun
  have radix : ∀ r (cs : List Char), Rounded (((radixLiteral r cs).map toDouble).getD .nan) := by
    intro r cs
    cases radixLiteral r cs with
    | none => exact notNumber
    | some q => exact rounded_toDouble q
  unfold stringToNumber
  dsimp only
  split
  case h_1 => exact rounded_zero
  case h_2 | h_3 | h_10 =>
    split
    · exact nofun
    · split
      · exact rounded_toDouble _
      · exact notNumber
  case h_4 | h_5 => exact radix 16 _
  case h_6 | h_7 => exact radix 8 _
  case h_8 | h_9 => exact radix 2 _

/-- What is off by one in 2 × 10¹⁶ at most is rounded to the double. -/
theorem roundDouble_close {p q : ℚ} (pos : 0 < q) (double : roundDouble q = q) (close : |p - q| ≤ q / (2 * 10 ^ 16)) : roundDouble p = q := by
  obtain ⟨above, below⟩ := abs_le.1 close
  have ppos : 0 < p := by
    have part : q / (2 * 10 ^ 16) < q := div_lt_self pos (by norm_num)
    linarith
  obtain ⟨z, multiple, -⟩ := roundDouble_multiple q
  rw [double] at multiple
  have unit := ulp_pos (ulpExponent q)
  -- `q` has at most 53 binary digits, and so has `p` before its point
  have size : q < 2 ^ 53 * 2 ^ ulpExponent q := by
    have lt := lt_ulp q pos.ne'
    rw [abs_of_pos pos, add_comm, zpow_add₀ (by norm_num)] at lt
    exact_mod_cast lt
  have ulp : p < 2 ^ 53 * 2 ^ ulpExponent p := by
    have lt := lt_ulp p ppos.ne'
    rw [abs_of_pos ppos, add_comm, zpow_add₀ (by norm_num)] at lt
    exact_mod_cast lt
  have whole : z ≤ 2 ^ 53 - 1 := by
    have lt : (z : ℚ) * 2 ^ ulpExponent q < 2 ^ 53 * 2 ^ ulpExponent q := multiple ▸ size
    have lt : (z : ℚ) < ((2 ^ 53 : ℤ) : ℚ) := by exact_mod_cast lt_of_mul_lt_mul_right lt unit.le
    have lt : z < 2 ^ 53 := by exact_mod_cast lt
    omega
  have top : q ≤ (2 ^ 53 - 1) * 2 ^ ulpExponent q :=
    calc q = z * 2 ^ ulpExponent q := multiple
      _ ≤ (2 ^ 53 - 1) * 2 ^ ulpExponent q := mul_le_mul_of_nonneg_right (by exact_mod_cast whole) unit.le
  have le : ulpExponent p ≤ ulpExponent q := by
    refine ulpExponent_le ppos.ne' ?_ (by unfold ulpExponent; omega)
    rw [abs_of_pos ppos, add_comm, zpow_add₀ (by norm_num)]
    generalize (2 : ℚ) ^ ulpExponent q = u at *
    have bound : q / (2 * 10 ^ 16) < u := by
      rw [div_lt_iff₀ (by norm_num)]
      linarith
    norm_num
    linarith
  obtain ⟨z', multiple'⟩ := multiple_of_le multiple le
  refine roundDouble_of_near multiple' ?_
  -- the last binary digit of `p` is more than its 2⁵³rd part
  generalize (2 : ℚ) ^ ulpExponent p = u at *
  linarith

/-! ## Enough decimal digits -/

/-- A decimal of seventeen digits next to a double rounds to it. -/
theorem roundsTo_close {q : ℚ} {m : ℤ} {n : Nat} (pos : 0 < q) (double : toDouble q = .finite q) (digits : 10 ^ 16 * 10 ^ m ≤ q)
    (close : |q / 10 ^ m - n| ≤ 1 / 2) : roundsTo q m n = true := by
  obtain ⟨rounded, small⟩ := toDouble_eq_finite.1 double
  refine decide_eq_true (toDouble_eq_finite.2 ⟨roundDouble_close pos rounded ?_, small⟩)
  have unit : (0 : ℚ) < 10 ^ m := zpow_pos (by norm_num) m
  have scaled : |(n : ℚ) * 10 ^ m - q| = |q / 10 ^ m - n| * 10 ^ m := by
    rw [← abs_of_pos unit, ← abs_mul, abs_of_pos unit, abs_sub_comm, sub_mul, div_mul_cancel₀ _ unit.ne']
  rw [scaled, le_div_iff₀ (by norm_num)]
  nlinarith

theorem roundedDigits_seventeen {q : ℚ} (pos : 0 < q) (double : toDouble q = .finite q) : (roundedDigits q 17).isSome = true := by
  obtain ⟨m, exponent⟩ : ∃ m, Int.log 10 q + 1 - ((17 : Nat) : ℤ) = m := ⟨_, rfl⟩
  have unit : (0 : ℚ) < 10 ^ m := zpow_pos (by norm_num) m
  have digits : 10 ^ 16 * 10 ^ m ≤ q := by
    have log : ((10 : Nat) : ℚ) ^ Int.log 10 q ≤ q := Int.zpow_log_le_self (by decide) pos
    have sum : Int.log 10 q = 16 + m := by omega
    rw [sum] at log
    push_cast at log
    rw [zpow_add₀ (by norm_num)] at log
    exact_mod_cast log
  have lo := Nat.floor_le (div_pos pos unit).le
  have hi := Nat.lt_floor_add_one (q / 10 ^ m)
  unfold roundedDigits
  rw [exponent]
  dsimp only
  by_cases low : q / 10 ^ m - ⌊q / 10 ^ m⌋₊ ≤ 1 / 2
  · rw [if_pos (roundsTo_close pos double digits (by rw [abs_of_nonneg] <;> linarith))]
    rfl
  · have high : roundsTo q m (⌊q / 10 ^ m⌋₊ + 1) = true := by
      refine roundsTo_close pos double digits ?_
      push_cast
      rw [abs_of_nonpos] <;> linarith
    simp only [high, if_true]
    split <;> rfl

/-- The digits of a double round to it. -/
theorem fewestDigits_rounds {q : ℚ} (pos : 0 < q) (double : toDouble q = .finite q) :
    0 < (fewestDigits q).1 ∧ toDouble ((fewestDigits q).1 * 10 ^ (fewestDigits q).2) = .finite q := by
  have found : ((List.range 17).findSome? fun i => roundedDigits q (i + 1)).isSome = true :=
    List.findSome?_isSome_iff.2 ⟨16, List.mem_range.2 (by decide), roundedDigits_seventeen pos double⟩
  obtain ⟨⟨s, m⟩, first⟩ := Option.isSome_iff_exists.1 found
  obtain ⟨i, -, digits⟩ := List.exists_of_findSome?_eq_some first
  have rounds : toDouble (s * 10 ^ m) = .finite q := of_decide_eq_true (roundedDigits_spec digits).2.1
  unfold fewestDigits
  rw [first, Option.getD_some]
  refine ⟨Nat.pos_of_ne_zero ?_, rounds⟩
  rintro rfl
  have zero : toDouble 0 = .finite 0 := by exact_mod_cast toDouble_natCast (by decide : 0 < 2 ^ 53)
  rw [Nat.cast_zero, zero_mul, zero] at rounds
  exact pos.ne (JsNumber.finite.inj rounds)

end AfriPay.Text
