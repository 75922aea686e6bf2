import AfriPay.Stellar.PaymentValidation
import AfriPay.Text.Canonical
import AfriPay.Text.Patterns
import AfriPay.Wallet.Format

/-!
# Amounts are shown canonically

`formatAmount` with the expressions it is written with, and what the texts it
makes of numerals have in common: there is one for each number, so two amounts
are shown alike if and only if they are the same number of stroops.
-/

namespace AfriPay.Wallet
open Text Stellar

/-- `formatAmount`, step by step. -/
def formatText (value : String) : String :=
  if value = "" ∨ numeralPattern.test value.toList = false then "0.00"
  else
    let whole := leadingZeros.replace (fun _ => []) (wholePart (withoutSign value))
    let trimmed := padEnd 2 (trailingZeros.replace (fun _ => []) (fractionPart (withoutSign value)))
    let grouped := thousands.replaceAll (fun _ => [',']) whole
    (if isNegative value then "-" else "") ++ String.ofList (grouped ++ '.' :: trimmed)

theorem withoutSign_cons {value : String} {cs : List Char} (front : value.toList = '-' :: cs) : withoutSign value = String.ofList cs := by
  rw [withoutSign, front]
  rfl

/-- The test lets a numeral through, with a sign or without. -/
theorem test_numeral (value : String) : numeralPattern.test value.toList = isNumeral (withoutSign value) := by
  rw [Bool.eq_iff_iff, test_numeralPattern]
  constructor
  · rintro (numeral | ⟨rest, front, numeral⟩)
    · rw [withoutSign_numeral numeral]
      exact numeral
    · rw [withoutSign_cons front]
      exact numeral
  · intro numeral
    by_cases sign : ∃ cs, value.toList = '-' :: cs
    · obtain ⟨cs, front⟩ := sign
      rw [withoutSign_cons front] at numeral
      exact .inr ⟨cs, front, numeral⟩
    · have plain : withoutSign value = value := by
        unfold withoutSign
        split
        · rename_i cs front
          exact (sign ⟨cs, front⟩).elim
        · rfl
      rw [plain] at numeral
      exact .inl numeral

/-- The replacements come to what `formatAmount` says. -/
theorem formatText_eq (value : String) : formatText value = formatAmount (some value) := by
  simp only [formatText, test_numeral, replace_leadingZeros, replace_trailingZeros, replaceAll_thousands, formatAmount, shownNumeral]
  by_cases numeral : isNumeral (withoutSign value) = true
  · have some' : value ≠ "" := by
      rintro rfl
      exact absurd numeral (by decide)
    simp [numeral, some']
  · rw [Bool.not_eq_true] at numeral
    simp [numeral]

/-! ## What is shown of a numeral -/

theorem formatAmount_canonical {s : String} (numeral : isNumeral s = true) : Canonical (formatAmount (some s)) (decimalValue s) := by
  obtain ⟨whole, fraction, nonempty, digits, digits', hw, hf, -⟩ := numeral_chars numeral
  have least := leastWhole_stripZeros digits nonempty
  refine ⟨formatAmount_denotes numeral, insertCommas none (stripZeros whole), padEnd 2 (fraction.rdropWhile (· = '0')), ?_, ?_, ?_, ?_⟩
  · rw [formatAmount_numeral numeral, shownNumeral, String.toList_ofList, hw, hf]
  · exact grouped_insertCommas least.digits least.nonempty
  · rw [filter_insertCommas, digits_ne_comma least.digits]
    exact least
  · exact leastFraction_padEnd digits'

theorem stroopsToXlm_canonical {stroops : String} (digits : isDigits stroops = true) :
    Canonical (stroopsToXlm stroops) ((digitsValue stroops.toList : ℚ) / 10 ^ 7) := by
  obtain ⟨numeral, value⟩ := unitsToDecimal_value (digitsValue stroops.toList)
  rw [stroopsToXlm, if_pos digits, ← value]
  exact formatAmount_canonical numeral

/-- Numerals of an amount are shown alike if they denote the same. -/
theorem formatAmount_eq_iff {s s' : String} (numeral : isNumeral s = true) (numeral' : isNumeral s' = true) :
    formatAmount (some s) = formatAmount (some s') ↔ decimalValue s = decimalValue s' := by
  constructor
  · intro same
    have value := (formatAmount_canonical numeral).denotes.2
    rw [same, (formatAmount_canonical numeral').denotes.2] at value
    exact value.symm
  · intro value
    have shown := formatAmount_canonical numeral'
    rw [← value] at shown
    exact (formatAmount_canonical numeral).unique shown

/-- Amounts are the same in stroops if they denote the same. -/
theorem stroops_eq_iff {s s' : String} (fits : matchesDecimal 12 7 s = true) (fits' : matchesDecimal 12 7 s' = true) :
    stroops s = stroops s' ↔ decimalValue s = decimalValue s' := by
  have exact' : ∀ {s}, matchesDecimal 12 7 s = true → decimalValue s = (scaledValue 7 s : ℚ) / 10 ^ 7 := by
    intro s fits
    rw [scaledValue_eq (fractionPart_length_le fits), mul_div_cancel_right₀ _ (pow_ne_zero 7 (by norm_num))]
  rw [stroops, stroops, if_pos fits, if_pos fits', exact' fits, exact' fits', div_left_inj' (pow_ne_zero 7 (by norm_num))]
  constructor
  · intro same
    exact_mod_cast Except.ok.inj same
  · intro same
    exact congrArg Except.ok (by exact_mod_cast same)

/-- What the display of amounts promises. -/
structure DisplayFaithful : Prop where
  amount : ∀ s, matchesDecimal 12 7 s = true → Canonical (formatAmount (some s)) (decimalValue s)
  injective : ∀ s s', matchesDecimal 12 7 s = true → matchesDecimal 12 7 s' = true →
    (formatAmount (some s) = formatAmount (some s') ↔ stroops s = stroops s')
  units : ∀ s n, isDigits s = true → digitsValue s.toList = n → Canonical (stroopsToXlm s) ((n : ℚ) / 10 ^ 7)

/-- **The display of amounts is faithful and canonical.** -/
theorem display_faithful : DisplayFaithful := by
  refine ⟨?_, ?_, ?_⟩
  · intro s fits
    exact formatAmount_canonical (isNumeral_of_matches fits)
  · intro s s' fits fits'
    rw [formatAmount_eq_iff (isNumeral_of_matches fits) (isNumeral_of_matches fits'), stroops_eq_iff fits fits']
  · rintro s n digits rfl
    exact stroopsToXlm_canonical digits

end AfriPay.Wallet
