import AfriPay.Text.Grouping

/-!
# Display of amounts (`lib/format.ts`)

Amounts stay texts end to end. `formatAmount` rewrites a numeral; the others turn
counts of stroops into numerals first.
-/

namespace AfriPay.Wallet
open Text

/-- `value.replace('-', '')` for a text with a sign at its front at most. -/
def withoutSign (value : String) : String :=
  match value.toList with
  | '-' :: cs => String.ofList cs
  | _ => value

/-- `value.startsWith('-')` -/
def isNegative (value : String) : Bool := value.toList.head? = some '-'

/-- The numeral with grouped digits and at least two decimals. -/
def shownNumeral (value : String) : String :=
  String.ofList (insertCommas none (stripZeros (wholePart value)) ++ '.' :: padEnd 2 ((fractionPart value).rdropWhile (· = '0')))

/-- `formatAmount`. That the expressions of the source do this is `formatText_eq`. -/
def formatAmount (value : Option String) : String :=
  match value with
  | none => "0.00"
  | some value =>
    if !isNumeral (withoutSign value) then "0.00"
    else (if isNegative value then "-" else "") ++ shownNumeral (withoutSign value)

def unitsToDecimal (units : Nat) : String :=
  let padded := padStart 8 (Nat.toDigits 10 units)
  String.ofList (padded.take (padded.length - 7) ++ '.' :: padded.drop (padded.length - 7))

/-- `/^\d+$/.test(s)` (`test_digits`) -/
def isDigits (s : String) : Bool := digitRun s.toList.length s.toList

def stroopsToXlm (stroops : String) : String :=
  if isDigits stroops then formatAmount (some (unitsToDecimal (digitsValue stroops.toList))) else stroops

/-- `None` is the code's `null`. -/
def totalWithFee (amount feeStroops : String) : Option String :=
  if !matchesDecimal 12 7 amount || !isDigits feeStroops then none
  else some (formatAmount (some (unitsToDecimal (scaledValue 7 amount + digitsValue feeStroops.toList))))

/-! ## What is shown -/

/-- A numeral has no sign. -/
theorem isNegative_numeral {s : String} (numeral : isNumeral s = true) : isNegative s = false := by
  obtain ⟨whole, fraction, nonempty, digits, -, -, -, chars⟩ := numeral_chars numeral
  obtain ⟨c, rest, rfl⟩ := List.exists_cons_of_ne_nil nonempty
  have first : s.toList.head? = some c := by
    rcases chars with ⟨chars, -⟩ | chars <;> rw [chars] <;> rfl
  refine decide_eq_false fun sign => ?_
  obtain rfl := Option.some.inj (first.symm.trans sign)
  exact absurd (digits '-' List.mem_cons_self) (by decide)

theorem withoutSign_numeral {s : String} (numeral : isNumeral s = true) : withoutSign s = s := by
  have plain := isNegative_numeral numeral
  unfold withoutSign
  split
  · rename_i cs front
    rw [isNegative, front] at plain
    cases plain
  · rfl

theorem formatAmount_numeral {s : String} (numeral : isNumeral s = true) : formatAmount (some s) = shownNumeral s := by
  simp [formatAmount, withoutSign_numeral numeral, numeral, isNegative_numeral numeral]

/-- **A numeral is shown at its value.** -/
theorem formatAmount_denotes {s : String} (numeral : isNumeral s = true) : Denotes (formatAmount (some s)) (decimalValue s) := by
  obtain ⟨whole, fraction, nonempty, digits, digits', hw, hf, -⟩ := numeral_chars numeral
  have kept : ∀ c ∈ stripZeros whole, c.isDigit = true := fun c mem => digits c ((stripZeros_suffix whole).subset mem)
  have kept' : ∀ c ∈ padEnd 2 (fraction.rdropWhile (· = '0')), c.isDigit = true :=
    isDigit_padEnd fun c mem => digits' c ((List.rdropWhile_prefix _ _).subset mem)
  have two : padEnd 2 (fraction.rdropWhile (· = '0')) ≠ [] := by
    refine List.length_pos_iff.1 ?_
    rw [length_padEnd]
    omega
  have shown := denotes_of_parts ((filter_insertCommas none (stripZeros whole)).trans (digits_ne_comma kept))
    (stripZeros_ne_nil nonempty) two kept kept'
  rw [digitsValue_stripZeros, digitsValue_padEnd_div, digitsValue_rdropWhile] at shown
  rw [formatAmount_numeral numeral, shownNumeral, decimalValue, hw, hf]
  exact shown

/-- A count of units is written as a numeral with seven decimals. -/
theorem unitsToDecimal_value (units : Nat) : isNumeral (unitsToDecimal units) = true ∧
    decimalValue (unitsToDecimal units) = (units : ℚ) / 10 ^ 7 := by
  have digits := padStart_isDigit 8 units
  have value : digitsValue (padStart 8 (Nat.toDigits 10 units)) = units := by rw [digitsValue_padStart, digitsValue_toDigits]
  have long : 8 ≤ (padStart 8 (Nat.toDigits 10 units)).length := by
    rw [padStart, List.length_append, List.length_replicate]
    omega
  unfold unitsToDecimal
  generalize padStart 8 (Nat.toDigits 10 units) = padded at digits value long
  have seven : (padded.drop (padded.length - 7)).length = 7 := by
    rw [List.length_drop]
    omega
  have some' : 0 < (padded.take (padded.length - 7)).length := by
    rw [List.length_take]
    omega
  obtain ⟨numeral, parts⟩ := numeral_of_parts (List.length_pos_iff.1 some') (List.length_pos_iff.1 (by rw [seven]; decide))
    (fun c mem => digits c (List.mem_of_mem_take mem)) fun c mem => digits c (List.mem_of_mem_drop mem)
  refine ⟨numeral, parts.trans ?_⟩
  have sum := digitsValue_append (padded.take (padded.length - 7)) (padded.drop (padded.length - 7))
  rw [List.take_append_drop, value, seven] at sum
  rw [seven, sum, Nat.cast_add, Nat.cast_mul, Nat.cast_pow, Nat.cast_ofNat, add_div, mul_div_cancel_right₀ _ (pow_ne_zero 7 (by norm_num))]

theorem formatAmount_units (units : Nat) : Denotes (formatAmount (some (unitsToDecimal units))) ((units : ℚ) / 10 ^ 7) := by
  obtain ⟨numeral, value⟩ := unitsToDecimal_value units
  rw [← value]
  exact formatAmount_denotes numeral

/-- A digit string of stroops is shown in lumens, however long it is. -/
theorem stroopsToXlm_denotes {stroops : String} (digits : isDigits stroops = true) :
    Denotes (stroopsToXlm stroops) ((digitsValue stroops.toList : ℚ) / 10 ^ 7) := by
  rw [stroopsToXlm, if_pos digits]
  exact formatAmount_units _

/-- The total is shown when the amount and the fee are numerals. -/
theorem totalWithFee_denotes {amount feeStroops : String} (fits : matchesDecimal 12 7 amount = true) (digits : isDigits feeStroops = true) :
    ∃ total, totalWithFee amount feeStroops = some total ∧ Denotes total
      (((scaledValue 7 amount + digitsValue feeStroops.toList : ℕ) : ℚ) / 10 ^ 7) := by
  refine ⟨_, ?_, formatAmount_units _⟩
  simp [totalWithFee, fits, digits]

example : formatAmount (some "001234567.5000000") = "1,234,567.50" := by decide +kernel

example : totalWithFee "0.1" "100" = some "0.10001" := by decide +kernel

end AfriPay.Wallet
