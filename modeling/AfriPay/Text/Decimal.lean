import Mathlib.Algebra.Order.Field.Rat
import Mathlib.Data.List.DropRight
import Mathlib.Data.List.Induction
import Mathlib.Data.List.TakeWhile
import Mathlib.Tactic.Ring
import Mathlib.Tactic.FieldSimp

/-!
# Decimal numerals

Digit strings with at most one point, as the amount patterns
`^\d{1,m}(\.\d{1,n})?$` accept them, their exact value, and their value as a
count of units of `10⁻ᵏ`. Digits are read and written with Lean's own
`Nat.ofDigitChars` and `Nat.toDigits`.
-/

namespace AfriPay.Text

/-- `s.split('.')` for a string with at most one point: the text before the
first point, and the text after it if there is one. -/
def splitPoint (cs : List Char) : List Char × Option (List Char) :=
  (cs.takeWhile (· ≠ '.'), (cs.dropWhile (· ≠ '.')).tail?)

/-- `\d{1,m}` -/
def digitRun (m : Nat) (cs : List Char) : Bool :=
  cs.all Char.isDigit && decide (1 ≤ cs.length) && decide (cs.length ≤ m)

/-- `/^\d{1,m}(\.\d{1,n})?$/.test(s)` (`test_decimalPattern`). -/
def matchesDecimal (m n : Nat) (s : String) : Bool :=
  digitRun m (splitPoint s.toList).1 && (splitPoint s.toList).2.all (digitRun n)

def wholePart (s : String) : List Char := (splitPoint s.toList).1

/-- `const [whole, fraction = ''] = s.split('.')` -/
def fractionPart (s : String) : List Char := (splitPoint s.toList).2.getD []

/-- `cs.padEnd(k, '0')` -/
def padEnd (k : Nat) (cs : List Char) : List Char := cs ++ List.replicate (k - cs.length) '0'

/-- `cs.padStart(k, '0')` -/
def padStart (k : Nat) (cs : List Char) : List Char := List.replicate (k - cs.length) '0' ++ cs

/-- `BigInt(cs)` for a digit string. -/
def digitsValue (cs : List Char) : Nat := Nat.ofDigitChars 10 cs 0

/-- `BigInt(whole) * 10ᵏ + BigInt(fraction.padEnd(k, '0'))` -/
def scaledValue (k : Nat) (s : String) : Nat :=
  digitsValue (wholePart s) * 10 ^ k + digitsValue (padEnd k (fractionPart s))

/-- The number a numeral denotes. -/
def decimalValue (s : String) : ℚ :=
  digitsValue (wholePart s) + digitsValue (fractionPart s) / 10 ^ (fractionPart s).length

/-- `n` units of `10⁻ᵏ`, written with exactly `k` fraction digits. -/
def fixedPoint (k n : Nat) : String :=
  String.ofList (Nat.toDigits 10 (n / 10 ^ k) ++ '.' :: padStart k (Nat.toDigits 10 (n % 10 ^ k)))

theorem digitsValue_append (a b : List Char) :
    digitsValue (a ++ b) = digitsValue a * 10 ^ b.length + digitsValue b := by
  rw [digitsValue, Nat.ofDigitChars_append, Nat.ofDigitChars_eq_ofDigitChars_zero, Nat.mul_comm]
  rfl

@[simp] theorem digitsValue_toDigits (n : Nat) : digitsValue (Nat.toDigits 10 n) = n :=
  Nat.ofDigitChars_ten_toDigits

@[simp] theorem digitsValue_zeros (n : Nat) : digitsValue (List.replicate n '0') = 0 := by
  simp [digitsValue]

theorem digitsValue_padEnd (k : Nat) (cs : List Char) :
    digitsValue (padEnd k cs) = digitsValue cs * 10 ^ (k - cs.length) := by
  simp [padEnd, digitsValue_append]

@[simp] theorem digitsValue_padStart (k : Nat) (cs : List Char) : digitsValue (padStart k cs) = digitsValue cs := by
  simp [padStart, digitsValue_append]

/-- Scaling by `10ᵏ` is exact when there are at most `k` fraction digits. -/
theorem scaledValue_eq {k : Nat} {s : String} (short : (fractionPart s).length ≤ k) :
    (scaledValue k s : ℚ) = decimalValue s * 10 ^ k := by
  have split : (10 : ℚ) ^ k = 10 ^ (fractionPart s).length * 10 ^ (k - (fractionPart s).length) := by
    rw [← pow_add, Nat.add_sub_cancel' short]
  rw [scaledValue, digitsValue_padEnd, decimalValue]
  push_cast
  rw [add_mul, div_mul_eq_mul_div, split]
  field_simp

theorem fractionPart_length_le {m n : Nat} {s : String} (h : matchesDecimal m n s = true) :
    (fractionPart s).length ≤ n := by
  simp only [matchesDecimal, Bool.and_eq_true] at h
  unfold fractionPart
  cases hf : (splitPoint s.toList).2 with
  | none => simp
  | some f =>
    rw [hf] at h
    simp only [Option.all_some, digitRun, Bool.and_eq_true, decide_eq_true_eq] at h
    exact h.2.2

theorem digitRun_mono {m m' : Nat} {cs : List Char} (h : digitRun m cs = true) (le : m ≤ m') : digitRun m' cs = true := by
  simp only [digitRun, Bool.and_eq_true, decide_eq_true_eq] at h ⊢
  exact ⟨h.1, h.2.trans le⟩

/-- A numeral fits a wider pattern. -/
theorem matchesDecimal_mono {m n m' n' : Nat} {s : String} (h : matchesDecimal m n s = true) (hm : m ≤ m') (hn : n ≤ n') :
    matchesDecimal m' n' s = true := by
  simp only [matchesDecimal, Bool.and_eq_true] at h ⊢
  refine ⟨digitRun_mono h.1 hm, ?_⟩
  cases hf : (splitPoint s.toList).2 with
  | none => rfl
  | some f =>
    rw [hf] at h
    exact digitRun_mono h.2 hn

theorem isDigit_iff {c : Char} : c.isDigit = true ↔ 48 ≤ c.toNat ∧ c.toNat ≤ 57 := by
  simp only [Char.isDigit, ge_iff_le, Bool.and_eq_true, decide_eq_true_eq, UInt32.le_iff_toNat_le]
  exact Iff.rfl

/-- A numeral is digits, and perhaps a point and more digits. -/
theorem numeral_chars {m n : Nat} {s : String} (h : matchesDecimal m n s = true) :
    ∃ whole fraction : List Char, whole ≠ [] ∧ (∀ c ∈ whole, c.isDigit = true) ∧ (∀ c ∈ fraction, c.isDigit = true) ∧
      wholePart s = whole ∧ fractionPart s = fraction ∧ (s.toList = whole ∧ fraction = [] ∨ s.toList = whole ++ '.' :: fraction) := by
  have split : s.toList = s.toList.takeWhile (· ≠ '.') ++ s.toList.dropWhile (· ≠ '.') := (List.takeWhile_append_dropWhile).symm
  simp only [matchesDecimal, Bool.and_eq_true, splitPoint] at h
  obtain ⟨whole, fraction⟩ := h
  simp only [digitRun, Bool.and_eq_true, decide_eq_true_eq, List.all_eq_true] at whole
  have nonempty : s.toList.takeWhile (· ≠ '.') ≠ [] := by
    intro empty
    rw [empty] at whole
    exact absurd whole.1.2 (by decide)
  refine ⟨wholePart s, fractionPart s, nonempty, whole.1.1, ?_, rfl, rfl, ?_⟩
  · intro c mem
    unfold fractionPart splitPoint at mem
    cases hf : (s.toList.dropWhile (· ≠ '.')).tail? with
    | none => rw [hf] at mem; cases mem
    | some f =>
      rw [hf] at mem fraction
      simp only [Option.all_some, digitRun, Bool.and_eq_true, List.all_eq_true] at fraction
      exact fraction.1.1 c mem
  · cases hd : s.toList.dropWhile (· ≠ '.') with
    | nil =>
      left
      refine ⟨by rw [wholePart, splitPoint]; rw [hd, List.append_nil] at split; exact split, ?_⟩
      rw [fractionPart, splitPoint, hd]
      rfl
    | cons c rest =>
      right
      have point : c = '.' := by
        have stops := List.head?_dropWhile_not (fun c => decide (c ≠ '.')) s.toList
        rw [hd] at stops
        simpa using stops
      rw [hd, point] at split
      rw [wholePart, fractionPart, splitPoint, hd]
      exact split

theorem digitsValue_lt {cs : List Char} (digits : ∀ c ∈ cs, c.isDigit = true) : digitsValue cs < 10 ^ cs.length := by
  induction cs using List.reverseRecOn with
  | nil => decide
  | append_singleton cs c ih =>
    have shorter := ih fun c' mem => digits c' (List.mem_append_left _ mem)
    have digit : digitsValue [c] < 10 := by
      have := isDigit_iff.1 (digits c (by simp))
      simp only [digitsValue, Nat.ofDigitChars, List.foldl_cons, List.foldl_nil]
      show 10 * 0 + (c.toNat - 48) < 10
      omega
    rw [digitsValue_append, List.length_append, pow_add]
    simp only [List.length_cons, List.length_nil]
    omega

/-- A numeral of at most `m` digits before the point, in units of `10⁻ᵏ`. -/
theorem scaledValue_lt {k m n : Nat} {s : String} (h : matchesDecimal m n s = true) (le : n ≤ k) :
    scaledValue k s < 10 ^ (m + k) := by
  obtain ⟨whole, fraction, -, digits, digits', hw, hf, -⟩ := numeral_chars h
  have short := fractionPart_length_le h
  have length : whole.length ≤ m := by
    simp only [matchesDecimal, digitRun, Bool.and_eq_true, decide_eq_true_eq] at h
    rw [← hw]
    exact h.1.2
  rw [scaledValue, digitsValue_padEnd, hw, hf]
  rw [hf] at short
  have high : digitsValue whole < 10 ^ m := (digitsValue_lt digits).trans_le (Nat.pow_le_pow_right (by decide) length)
  have low : digitsValue fraction * 10 ^ (k - fraction.length) < 10 ^ k := by
    calc digitsValue fraction * 10 ^ (k - fraction.length)
        < 10 ^ fraction.length * 10 ^ (k - fraction.length) :=
          Nat.mul_lt_mul_of_pos_right (digitsValue_lt digits') (Nat.pow_pos (by decide))
      _ = 10 ^ k := by rw [← pow_add, Nat.add_sub_cancel' (by omega)]
  calc digitsValue whole * 10 ^ k + digitsValue fraction * 10 ^ (k - fraction.length)
      < digitsValue whole * 10 ^ k + 10 ^ k := by omega
    _ = (digitsValue whole + 1) * 10 ^ k := by ring
    _ ≤ 10 ^ m * 10 ^ k := Nat.mul_le_mul_right _ high
    _ = 10 ^ (m + k) := (pow_add ..).symm

/-! ## Numerals with a fixed number of fraction digits -/

theorem digits_ne_point {cs : List Char} (h : ∀ c ∈ cs, c.isDigit = true) : ∀ c ∈ cs, (decide (c ≠ '.')) = true := by
  intro c mem
  have digit := h c mem
  simp only [decide_eq_true_eq]
  rintro rfl
  exact absurd digit (by decide)

theorem splitPoint_append {w f : List Char} (h : ∀ c ∈ w, c.isDigit = true) : splitPoint (w ++ '.' :: f) = (w, some f) := by
  have stop := digits_ne_point h
  simp only [splitPoint, Prod.mk.injEq]
  rw [List.takeWhile_append_of_pos stop, List.dropWhile_append_of_pos stop]
  simp

theorem splitPoint_digits {cs : List Char} (digits : ∀ c ∈ cs, c.isDigit = true) : splitPoint cs = (cs, none) := by
  have stop := digits_ne_point digits
  rw [splitPoint, List.takeWhile_eq_self_iff.2 stop, List.dropWhile_eq_nil_iff.2 stop]
  rfl

theorem toDigits_isDigit (n : Nat) : ∀ c ∈ Nat.toDigits 10 n, c.isDigit = true :=
  fun _ => Nat.isDigit_of_mem_toDigits (by decide) (by decide)

theorem splitPoint_fixedPoint (k n : Nat) :
    splitPoint (fixedPoint k n).toList =
      (Nat.toDigits 10 (n / 10 ^ k), some (padStart k (Nat.toDigits 10 (n % 10 ^ k)))) := by
  rw [fixedPoint, String.toList_ofList, splitPoint_append (toDigits_isDigit _)]

theorem fractionPart_fixedPoint (k n : Nat) : fractionPart (fixedPoint k n) = padStart k (Nat.toDigits 10 (n % 10 ^ k)) := by
  rw [fractionPart, splitPoint_fixedPoint]
  rfl

theorem wholePart_fixedPoint (k n : Nat) : wholePart (fixedPoint k n) = Nat.toDigits 10 (n / 10 ^ k) := by
  rw [wholePart, splitPoint_fixedPoint]

theorem length_padStart {k n : Nat} (pos : 0 < k) : (padStart k (Nat.toDigits 10 (n % 10 ^ k))).length = k := by
  have short := (Nat.length_toDigits_le_iff (by decide : 1 < 10) pos).2 (Nat.mod_lt n (Nat.pow_pos (by decide : 0 < 10)))
  simp only [padStart, List.length_append, List.length_replicate]
  omega

/-- Writing and reading back is exact. -/
theorem decimalValue_fixedPoint {k : Nat} (pos : 0 < k) (n : Nat) : decimalValue (fixedPoint k n) = (n : ℚ) / 10 ^ k := by
  rw [decimalValue, fractionPart_fixedPoint, wholePart_fixedPoint, length_padStart pos, digitsValue_padStart,
    digitsValue_toDigits, digitsValue_toDigits]
  have whole : (n : ℚ) = (n / 10 ^ k : ℕ) * 10 ^ k + (n % 10 ^ k : ℕ) := by
    exact_mod_cast (Nat.div_add_mod' n (10 ^ k)).symm
  rw [whole, add_div, mul_div_cancel_right₀ _ (pow_ne_zero k (by norm_num))]

/-- A numeral with exactly `k` fraction digits does not fit a pattern that allows fewer. -/
theorem matchesDecimal_fixedPoint {k m n : Nat} (pos : 0 < k) (more : n < k) (v : Nat) :
    matchesDecimal m n (fixedPoint k v) = false := by
  have long : ¬ (padStart k (Nat.toDigits 10 (v % 10 ^ k))).length ≤ n := by rw [length_padStart pos]; omega
  rw [matchesDecimal, splitPoint_fixedPoint]
  simp [digitRun, long]

theorem padStart_isDigit (k n : Nat) : ∀ c ∈ padStart k (Nat.toDigits 10 n), c.isDigit = true := by
  intro c mem
  rcases List.mem_append.1 mem with zeros | digit
  · rw [List.eq_of_mem_replicate zeros]
    decide
  · exact toDigits_isDigit _ c digit

theorem matchesDecimal_fixedPoint_length {k : Nat} (pos : 0 < k) (n : Nat) :
    matchesDecimal (Nat.toDigits 10 (n / 10 ^ k)).length k (fixedPoint k n) = true := by
  have all := padStart_isDigit k (n % 10 ^ k)
  have some' : 0 < (Nat.toDigits 10 (n / 10 ^ k)).length := Nat.length_toDigits_pos
  have length := length_padStart (n := n) pos
  rw [matchesDecimal, splitPoint_fixedPoint]
  simp only [digitRun, Option.all_some, Bool.and_eq_true, decide_eq_true_eq, List.all_eq_true]
  refine ⟨⟨⟨toDigits_isDigit _, some'⟩, le_refl _⟩, ⟨all, ?_⟩, ?_⟩ <;> omega

/-! ## Zeros at the end of a fraction -/

theorem digitsValue_concat (cs : List Char) (c : Char) : digitsValue (cs ++ [c]) = digitsValue cs * 10 + digitsValue [c] := by
  rw [digitsValue_append, List.length_singleton, pow_one]

theorem digit_eq_zero {c : Char} (digit : c.isDigit = true) (h : digitsValue [c] = 0) : c = '0' := by
  have bounds := isDigit_iff.1 digit
  have value : 10 * 0 + (c.toNat - 48) = 0 := h
  apply Char.toNat_inj.1
  show c.toNat = 48
  omega

/-- Dropping zeros at the end of a fraction leaves its value. -/
theorem digitsValue_rdropWhile (cs : List Char) :
    (digitsValue (cs.rdropWhile (· = '0')) : ℚ) / 10 ^ (cs.rdropWhile (· = '0')).length = digitsValue cs / 10 ^ cs.length := by
  induction cs using List.reverseRecOn with
  | nil => rfl
  | append_singleton cs c ih =>
    by_cases zero : c = '0'
    · subst zero
      have none : digitsValue ['0'] = 0 := by decide
      rw [List.rdropWhile_concat_pos _ _ _ (by decide), ih, digitsValue_concat, none, List.length_append, pow_add]
      push_cast
      rw [add_zero, List.length_singleton, pow_one, mul_div_mul_right _ _ (by norm_num)]
    · rw [List.rdropWhile_concat_neg _ _ _ (by simpa using zero)]

/-- A digit string divisible by `10ʲ` ends in `j` zeros, which are dropped. -/
theorem length_rdropWhile_le {cs : List Char} (digits : ∀ c ∈ cs, c.isDigit = true) {j : Nat} (divides : 10 ^ j ∣ digitsValue cs) :
    (cs.rdropWhile (· = '0')).length ≤ cs.length - j := by
  induction cs using List.reverseRecOn generalizing j with
  | nil => simp
  | append_singleton cs c ih =>
    cases j with
    | zero => exact (List.rdropWhile_prefix _ _).length_le
    | succ j =>
      have digit : c.isDigit = true := digits c (by simp)
      have small : digitsValue [c] < 10 ^ [c].length := digitsValue_lt (by simpa using digit)
      rw [digitsValue_concat] at divides
      have none : digitsValue [c] = 0 := by
        have ten : 10 ∣ digitsValue cs * 10 + digitsValue [c] := (Dvd.intro_left (10 ^ j) (pow_succ 10 j).symm).trans divides
        simp only [List.length_singleton, pow_one] at small
        omega
      have zero := digit_eq_zero digit none
      rw [none, add_zero, pow_succ] at divides
      have shorter := ih (fun c' mem => digits c' (List.mem_append_left _ mem)) (Nat.dvd_of_mul_dvd_mul_right (by decide) divides)
      rw [List.rdropWhile_concat_pos _ _ _ (by simpa using zero), List.length_append, List.length_singleton]
      omega

end AfriPay.Text
