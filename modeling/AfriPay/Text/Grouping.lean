import AfriPay.Text.DigitOrder

/-!
# Numerals as they are shown

The whole part without leading zeros and with a comma before every group of three
digits, as JavaScript's replacements write it, and what such a text denotes once
the commas are gone.
-/

namespace AfriPay.Text

/-- `/^\d+(\.\d+)?$/.test(s)`; no text has more digits than characters (`test_numeralPattern`). -/
def isNumeral (s : String) : Bool := matchesDecimal s.toList.length s.toList.length s

/-- `cs.replace(/^0+(?=\d)/, '')` (`replace_leadingZeros`) -/
def stripZeros : List Char → List Char
  | '0' :: c :: cs => if c.isDigit then stripZeros (c :: cs) else '0' :: c :: cs
  | cs => cs

/-- `\w` -/
def isWord (c : Char) : Bool := c.isAlphanum || c = '_'

/-- `\B` between these characters; the start of a text is no word character. -/
def insideWord (prev : Option Char) (c : Char) : Bool := prev.any isWord == isWord c

/-- `(?=(\d{3})+(?!\d))` -/
def aheadOfTriples (cs : List Char) : Bool :=
  decide (3 ≤ (cs.takeWhile Char.isDigit).length) && decide ((cs.takeWhile Char.isDigit).length % 3 = 0)

/-- `cs.replace(/\B(?=(\d{3})+(?!\d))/g, ',')`, after the character `prev` (`replaceAll_thousands`). -/
def insertCommas (prev : Option Char) : List Char → List Char
  | [] => []
  | c :: cs =>
    if insideWord prev c && aheadOfTriples (c :: cs) then ',' :: c :: insertCommas (some c) cs
    else c :: insertCommas (some c) cs

/-- A text with its commas removed. -/
def withoutCommas (s : String) : String := String.ofList (s.toList.filter (· ≠ ','))

/-- What a text shows is a numeral of this value, apart from its commas. -/
def Denotes (shown : String) (x : ℚ) : Prop := isNumeral (withoutCommas shown) = true ∧ decimalValue (withoutCommas shown) = x

instance (shown : String) (x : ℚ) : Decidable (Denotes shown x) := inferInstanceAs (Decidable (_ ∧ _))

/-! ## What the replacements keep -/

theorem filter_insertCommas (prev : Option Char) (cs : List Char) : (insertCommas prev cs).filter (· ≠ ',') = cs.filter (· ≠ ',') := by
  induction cs generalizing prev with
  | nil => rfl
  | cons c cs ih =>
    unfold insertCommas
    split
    · rw [List.filter_cons_of_neg (by decide), List.filter_cons, List.filter_cons, ih]
    · rw [List.filter_cons, List.filter_cons, ih]

theorem stripZeros_suffix (cs : List Char) : stripZeros cs <:+ cs := by
  fun_induction stripZeros cs with
  | case1 c cs digit ih => exact ih.trans (List.suffix_cons ..)
  | case2 c cs other => exact List.suffix_rfl
  | case3 cs other => exact List.suffix_rfl

theorem stripZeros_ne_nil {cs : List Char} (nonempty : cs ≠ []) : stripZeros cs ≠ [] := by
  fun_induction stripZeros cs with
  | case1 c cs digit ih => exact ih (by simp)
  | case2 c cs other => exact nonempty
  | case3 cs other => exact nonempty

theorem digitsValue_stripZeros (cs : List Char) : digitsValue (stripZeros cs) = digitsValue cs := by
  fun_induction stripZeros cs with
  | case1 c cs digit ih =>
    have zero : '0'.toNat - 48 = 0 := by decide
    rw [ih, digitsValue_cons '0', zero, Nat.zero_mul, Nat.zero_add]
  | case2 c cs other => rfl
  | case3 cs other => rfl

theorem digits_ne_comma {cs : List Char} (digits : ∀ c ∈ cs, c.isDigit = true) : cs.filter (· ≠ ',') = cs := by
  refine List.filter_eq_self.2 fun c mem => ?_
  rw [decide_eq_true_eq]
  rintro rfl
  exact absurd (digits ',' mem) (by decide)

theorem digitRun_of_length {m k : Nat} {cs : List Char} (run : digitRun m cs = true) (le : cs.length ≤ k) : digitRun k cs = true := by
  simp only [digitRun, Bool.and_eq_true, decide_eq_true_eq] at run ⊢
  exact ⟨run.1, le⟩

/-- A numeral within any bounds is a numeral. -/
theorem isNumeral_of_matches {m n : Nat} {s : String} (fits : matchesDecimal m n s = true) : isNumeral s = true := by
  obtain ⟨whole, fraction, -, -, -, hw, hf, chars⟩ := numeral_chars fits
  have length : whole.length ≤ s.toList.length ∧ fraction.length ≤ s.toList.length := by
    rcases chars with ⟨chars, rfl⟩ | chars
    · rw [chars]
      exact ⟨le_refl _, Nat.zero_le _⟩
    · rw [chars, List.length_append, List.length_cons]
      omega
  subst hw hf
  rw [isNumeral, matchesDecimal, Bool.and_eq_true]
  rw [matchesDecimal, Bool.and_eq_true] at fits
  refine ⟨digitRun_of_length fits.1 length.1, ?_⟩
  rw [fractionPart] at length
  cases found : (splitPoint s.toList).2 with
  | none => rfl
  | some f =>
    rw [found] at fits length
    exact digitRun_of_length fits.2 length.2

/-- Digits, a point and digits: a numeral, and its value. -/
theorem numeral_of_parts {whole fraction : List Char} (nonempty : whole ≠ []) (nonempty' : fraction ≠ []) (digits : ∀ c ∈ whole, c.isDigit = true)
    (digits' : ∀ c ∈ fraction, c.isDigit = true) :
    isNumeral (String.ofList (whole ++ '.' :: fraction)) = true ∧
      decimalValue (String.ofList (whole ++ '.' :: fraction)) = digitsValue whole + digitsValue fraction / 10 ^ fraction.length := by
  have split := splitPoint_append (f := fraction) digits
  have fits : matchesDecimal whole.length fraction.length (String.ofList (whole ++ '.' :: fraction)) = true := by
    rw [matchesDecimal, String.toList_ofList, split]
    simp only [digitRun, Option.all_some, Bool.and_eq_true, decide_eq_true_eq, List.all_eq_true]
    exact ⟨⟨⟨digits, List.length_pos_iff.2 nonempty⟩, le_refl _⟩, ⟨digits', List.length_pos_iff.2 nonempty'⟩, le_refl _⟩
  refine ⟨isNumeral_of_matches fits, ?_⟩
  rw [decimalValue, wholePart, fractionPart, String.toList_ofList, split]
  rfl

/-- With commas in the whole part it denotes the same. -/
theorem denotes_of_parts {shown whole fraction : List Char} (commas : shown.filter (· ≠ ',') = whole) (nonempty : whole ≠ [])
    (nonempty' : fraction ≠ []) (digits : ∀ c ∈ whole, c.isDigit = true) (digits' : ∀ c ∈ fraction, c.isDigit = true) :
    Denotes (String.ofList (shown ++ '.' :: fraction)) (digitsValue whole + digitsValue fraction / 10 ^ fraction.length) := by
  have plain : withoutCommas (String.ofList (shown ++ '.' :: fraction)) = String.ofList (whole ++ '.' :: fraction) := by
    rw [withoutCommas, String.toList_ofList, List.filter_append, commas, List.filter_cons_of_pos (by decide), digits_ne_comma digits']
  unfold Denotes
  rw [plain]
  exact numeral_of_parts nonempty nonempty' digits digits'

/-- Zeros at the end of a fraction do not change its value. -/
theorem digitsValue_padEnd_div (k : Nat) (cs : List Char) :
    (digitsValue (padEnd k cs) : ℚ) / 10 ^ (padEnd k cs).length = digitsValue cs / 10 ^ cs.length := by
  rw [digitsValue_padEnd, padEnd, List.length_append, List.length_replicate, pow_add]
  push_cast
  rw [mul_div_mul_right _ _ (pow_ne_zero _ (by norm_num))]

end AfriPay.Text
