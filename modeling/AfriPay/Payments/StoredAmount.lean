import AfriPay.Payments.Records
import AfriPay.Text.Canonical
import AfriPay.Text.Patterns

/-!
# Amounts as they are read back

PostgreSQL writes a `NUMERIC(30, 12)` with twelve decimals, and
`PaymentIntentStore.intent` takes the zeros away again, with two expressions.
-/

namespace AfriPay.Payments
open Text Stellar

/-- `amount.replace(/(\.\d*?)0+$/, '$1').replace(/\.$/, '')` -/
def normalised (amount : String) : String :=
  String.ofList (lastPoint.replace (fun _ => []) (fractionZeros.replace (·.group) amount.toList))

/-- The text of a number as it is returned from a `NUMERIC(30, 12)` column. -/
structure NumericText (x : ℚ) (text : String) : Prop where
  numeral : isNumeral text = true
  whole : LeastWhole (wholePart text)
  decimals : (fractionPart text).length = 12
  value : decimalValue text = x

/-- There is one such text. -/
theorem numericText_iff {n : Nat} {text : String} : NumericText ((n : ℚ) / 10 ^ 12) text ↔ text = fixedPoint 12 n := by
  constructor
  · intro h
    obtain ⟨whole, fraction, -, -, digits', hw, hf, chars⟩ := numeral_chars h.numeral
    have least := h.whole
    have twelve := h.decimals
    rw [hw] at least
    rw [hf] at twelve
    have units : n = digitsValue whole * 10 ^ 12 + digitsValue fraction := by
      have value := scaledValue_eq (k := 12) (s := text) (by rw [hf, twelve])
      rw [h.value, div_mul_cancel₀ _ (pow_ne_zero 12 (by norm_num)), scaledValue, hw, hf, digitsValue_padEnd, twelve, Nat.sub_self, pow_zero,
        Nat.mul_one] at value
      exact_mod_cast value.symm
    have low : digitsValue fraction < 10 ^ 12 := (digitsValue_lt digits').trans_eq (by rw [twelve])
    have high : n / 10 ^ 12 = digitsValue whole := by omega
    have rest : n % 10 ^ 12 = digitsValue fraction := by omega
    have some' : fraction ≠ [] := List.length_pos_iff.1 (by omega)
    have written := padStart_digitsValue digits' some'
    rw [twelve] at written
    rw [fixedPoint, high, rest, least.toDigits, written, ← String.ofList_toList (s := text)]
    rcases chars with ⟨-, none⟩ | chars
    · exact (some' none).elim
    · rw [chars]
  · rintro rfl
    refine ⟨isNumeral_of_matches (matchesDecimal_fixedPoint_length (by decide) n), ?_, ?_, decimalValue_fixedPoint (by decide) n⟩
    · rw [wholePart_fixedPoint]
      exact leastWhole_toDigits _
    · rw [fractionPart_fixedPoint, length_padStart (by decide)]

/-- What the expressions make of a numeral with a point. -/
theorem normalised_point {s : String} {whole fraction : List Char} (digits : ∀ c ∈ whole, c.isDigit = true)
    (digits' : ∀ c ∈ fraction, c.isDigit = true) (chars : s.toList = whole ++ '.' :: fraction) :
    normalised s = String.ofList (if fraction.rdropWhile (· = '0') = [] then whole else whole ++ '.' :: fraction.rdropWhile (· = '0')) := by
  rw [normalised, chars, replace_fractionZeros digits digits',
    replace_lastPoint digits fun c mem => digits' c ((List.rdropWhile_prefix _ _).subset mem)]

/-- On the text of a column they come to `stripZeros`. -/
theorem normalised_fixedPoint {k : Nat} (n : Nat) : normalised (fixedPoint k n) = stripZeros (fixedPoint k n) := by
  rw [normalised_point (toDigits_isDigit _) (padStart_isDigit k _) (by rw [fixedPoint, String.toList_ofList]), stripZeros, splitPoint_fixedPoint]

/-- What is read back of `n` stroops, stored as `text`. -/
structure ReadBack (n : Nat) (text : String) : Prop where
  value : stroops (normalised text) = .ok n
  /-- The digits before the point are those of the text. -/
  whole : wholePart (normalised text) = wholePart text
  /-- If there is a point, digits follow it, and the last is not zero. -/
  fraction : ∀ kept, (splitPoint (normalised text).toList).2 = some kept → kept ≠ [] ∧ kept.getLast? ≠ some '0'

/-- An accepted amount in units of the column. -/
theorem decimalValue_column {a : String} (fits : matchesDecimal 12 7 a = true) : decimalValue a = (scaledValue 12 a : ℚ) / 10 ^ 12 := by
  rw [scaledValue_eq ((fractionPart_length_le fits).trans (by decide : 7 ≤ 12)), mul_div_cancel_right₀ _ (pow_ne_zero 12 (by norm_num))]

/-- **A stored amount reads back unchanged in value**, in its shortest form. -/
theorem amount_reads_back {a text : String} {n : Nat} (accepted : stroops a = .ok n) (stored : NumericText (decimalValue a) text) :
    ReadBack n text := by
  obtain ⟨fits, -⟩ := stroops_ok accepted
  rw [decimalValue_column fits, numericText_iff] at stored
  subst stored
  have split := splitPoint_stripZeros 12 (scaledValue 12 a)
  constructor
  · rw [normalised_fixedPoint, stroops_stored fits, accepted]
  · rw [normalised_fixedPoint, wholePart, split, wholePart_fixedPoint]
  · intro kept point
    rw [normalised_fixedPoint, split] at point
    split at point
    · cases point
    · rename_i some'
      obtain rfl := Option.some.inj point
      refine ⟨some', ?_⟩
      rw [keptFraction]
      exact getLast?_dropZeros _

theorem amount_reads_back_sample : NumericText (decimalValue "0100.50") "100.500000000000" ∧ ReadBack 1005000000 "100.500000000000" := by
  have stored : NumericText (decimalValue "0100.50") "100.500000000000" := by
    rw [decimalValue_column (by decide +kernel), numericText_iff]
    decide +kernel
  exact ⟨stored, amount_reads_back (a := "0100.50") (by decide +kernel) stored⟩

end AfriPay.Payments
