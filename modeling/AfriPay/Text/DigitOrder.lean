import AfriPay.Text.Decimal

/-!
# Comparing digit strings

Numerals are compared digit by digit once they are of one length, which zeros at
the front of the whole part and at the end of the fraction make them.
-/

namespace AfriPay.Text

/-- Digit by digit, the first string comes no later than the second. -/
def comesBy : List Char → List Char → Bool
  | [], _ => true
  | _ :: _, [] => false
  | c :: cs, l :: ls => decide (c.toNat < l.toNat) || (decide (c.toNat = l.toNat) && comesBy cs ls)

theorem digitsValue_cons (c : Char) (cs : List Char) : digitsValue (c :: cs) = (c.toNat - 48) * 10 ^ cs.length + digitsValue cs := by
  have first : digitsValue [c] = c.toNat - 48 := by
    show 10 * 0 + (c.toNat - 48) = _
    omega
  rw [← List.singleton_append, digitsValue_append, first]

/-- Digit strings of one length compare as their values do. -/
theorem comesBy_iff {cs ls : List Char} (length : cs.length = ls.length) (digits : ∀ c ∈ cs, c.isDigit = true)
    (digits' : ∀ c ∈ ls, c.isDigit = true) : comesBy cs ls = true ↔ digitsValue cs ≤ digitsValue ls := by
  induction cs generalizing ls with
  | nil =>
    cases ls with
    | nil => exact ⟨fun _ => le_refl _, fun _ => rfl⟩
    | cons l ls => cases length
  | cons c cs ih =>
    cases ls with
    | nil => cases length
    | cons l ls =>
      have same : cs.length = ls.length := Nat.succ.inj length
      have rest := ih same (fun c mem => digits c (List.mem_cons_of_mem _ mem)) fun c mem => digits' c (List.mem_cons_of_mem _ mem)
      have low : digitsValue cs < 10 ^ ls.length := same ▸ digitsValue_lt fun c mem => digits c (List.mem_cons_of_mem _ mem)
      have low' : digitsValue ls < 10 ^ ls.length := digitsValue_lt fun c mem => digits' c (List.mem_cons_of_mem _ mem)
      have first := isDigit_iff.1 (digits c List.mem_cons_self)
      have first' := isDigit_iff.1 (digits' l List.mem_cons_self)
      rw [digitsValue_cons, digitsValue_cons, same]
      unfold comesBy
      rw [Bool.or_eq_true, Bool.and_eq_true, decide_eq_true_eq, decide_eq_true_eq, rest]
      rcases Nat.lt_trichotomy c.toNat l.toNat with less | equal | greater
      · have step : (c.toNat - 48 + 1) * 10 ^ ls.length ≤ (l.toNat - 48) * 10 ^ ls.length := Nat.mul_le_mul_right _ (by omega)
        rw [Nat.add_mul, Nat.one_mul] at step
        constructor
        · intro
          omega
        · intro
          exact .inl less
      · rw [equal]
        omega
      · have step : (l.toNat - 48 + 1) * 10 ^ ls.length ≤ (c.toNat - 48) * 10 ^ ls.length := Nat.mul_le_mul_right _ (by omega)
        rw [Nat.add_mul, Nat.one_mul] at step
        omega

theorem isDigit_padEnd {k : Nat} {cs : List Char} (digits : ∀ c ∈ cs, c.isDigit = true) : ∀ c ∈ padEnd k cs, c.isDigit = true := by
  intro c mem
  rcases List.mem_append.1 mem with digit | zero
  · exact digits c digit
  · rw [List.eq_of_mem_replicate zero]
    decide

theorem length_padEnd (k : Nat) (cs : List Char) : (padEnd k cs).length = max k cs.length := by
  rw [padEnd, List.length_append, List.length_replicate]
  omega

/-- All the digits of a numeral with `k` fraction digits, filled up to `m` before the point. -/
def allDigits (m k : Nat) (s : String) : List Char := padStart m (wholePart s) ++ padEnd k (fractionPart s)

theorem digitsValue_allDigits {m k : Nat} {s : String} (short : (fractionPart s).length ≤ k) :
    digitsValue (allDigits m k s) = scaledValue k s := by
  have length : (padEnd k (fractionPart s)).length = k := by
    rw [length_padEnd]
    omega
  rw [allDigits, digitsValue_append, length, digitsValue_padStart]
  rfl

theorem length_allDigits {m n k : Nat} {s : String} (fits : matchesDecimal m n s = true) (le : n ≤ k) : (allDigits m k s).length = m + k := by
  have short := fractionPart_length_le fits
  have whole : (wholePart s).length ≤ m := by
    simp only [matchesDecimal, digitRun, Bool.and_eq_true, decide_eq_true_eq] at fits
    exact fits.1.2
  simp only [allDigits, padStart, padEnd, List.length_append, List.length_replicate]
  omega

theorem allDigits_isDigit {m n k : Nat} {s : String} (fits : matchesDecimal m n s = true) : ∀ c ∈ allDigits m k s, c.isDigit = true := by
  obtain ⟨whole, fraction, -, digits, digits', hw, hf, -⟩ := numeral_chars fits
  intro c mem
  unfold allDigits padStart at mem
  rw [hw, hf] at mem
  rcases List.mem_append.1 mem with front | back
  · rcases List.mem_append.1 front with zeros | digit
    · rw [List.eq_of_mem_replicate zeros]
      decide
    · exact digits c digit
  · exact isDigit_padEnd digits' c back

end AfriPay.Text
