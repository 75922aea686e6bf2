import AfriPay.Text.Doubles
import AfriPay.Text.JsonRoundTrip

/-!
# Numbers are read back

The text of a number is a numeral: digits, perhaps a point with more of them, and
perhaps an exponent. `Number(s)` and `JSON.parse` read such a text as the double
nearest to its value, so every double comes back from its text, and every JSON
value from `JSON.stringify`.
-/

namespace AfriPay.Text

/-! ## What an expression may take -/

/-- Wherever `xs` is ahead, `r` may take just that. -/
def Regex.Takes (r : Regex) (xs : List Char) : Prop :=
  ∀ before rest, ⟨xs.reverse ++ before, rest, []⟩ ∈ r.ends ⟨before, xs ++ rest, []⟩

/-- Where just `xs` is ahead, `r` has a match. -/
def Regex.Fits (r : Regex) (xs : List Char) : Prop := ∀ before, (r.first ⟨before, xs, []⟩).isSome = true

namespace Regex.Takes

variable {a b : Regex} {xs ys : List Char} {accepts : Char → Bool} {c : Char}

theorem seq (ha : a.Takes xs) (hb : b.Takes ys) : (Regex.seq a b).Takes (xs ++ ys) := by
  intro before rest
  have first := ha before (ys ++ rest)
  have second := hb (xs.reverse ++ before) rest
  rw [List.append_assoc, List.reverse_append, List.append_assoc]
  exact Regex.mem_ends_seq.2 ⟨_, first, second⟩

theorem one (accepted : accepts c = true) : (Regex.one accepts).Takes [c] :=
  fun _ rest => Regex.mem_ends_one.2 ⟨c, rest, rfl, accepted, rfl⟩

theorem char : (Regex.char c).Takes [c] := one (decide_eq_true rfl)

theorem left (h : a.Takes xs) : (Regex.alt a b).Takes xs := fun before rest => List.mem_append_left _ (h before rest)

theorem right (h : b.Takes xs) : (Regex.alt a b).Takes xs := fun before rest => List.mem_append_right _ (h before rest)

theorem skip : (Regex.opt a).Takes [] := right fun _ _ => List.mem_singleton.2 rfl

theorem star (all : ∀ d ∈ xs, accepts d = true) : (Regex.star true (.one accepts)).Takes xs :=
  fun _ rest => Regex.mem_ends_star.2 ⟨xs, rest, rfl, List.all_eq_true.2 all, rfl⟩

theorem plus (nonempty : xs ≠ []) (all : ∀ d ∈ xs, accepts d = true) : (Regex.plus (.one accepts)).Takes xs := by
  obtain ⟨d, ds, rfl⟩ := List.exists_cons_of_ne_nil nonempty
  exact seq (one (all d List.mem_cons_self)) (star fun e mem => all e (List.mem_cons_of_mem d mem))

theorem fits (ha : a.Takes xs) (hb : b.Fits ys) : (Regex.seq a b).Fits (xs ++ ys) := by
  intro before
  obtain ⟨e, mem⟩ := Regex.first_isSome.1 (hb (xs.reverse ++ before))
  exact Regex.first_isSome.2 ⟨e, Regex.mem_ends_seq.2 ⟨_, ha before ys, mem⟩⟩

end Regex.Takes

theorem Regex.fits_stop : Regex.stop.Fits [] := fun _ => rfl

/-! ## Numerals -/

/-- `whole.fractione±digits`, without the point where there is no fraction. -/
structure Numeral where
  whole : List Char
  fraction : List Char
  exponent : Option (Bool × List Char)

namespace Numeral

/-- What stands behind the digits. -/
def exponentText (n : Numeral) : List Char := n.exponent.elim [] fun e => 'e' :: (if e.1 then '-' else '+') :: e.2

def fractionText (n : Numeral) : List Char := if n.fraction = [] then [] else '.' :: n.fraction

def text (n : Numeral) : List Char := n.whole ++ (n.fractionText ++ n.exponentText)

def exponentValue (n : Numeral) : ℤ := n.exponent.elim 0 fun e => if e.1 then -digitsValue e.2 else digitsValue e.2

def value (n : Numeral) : ℚ := (digitsValue n.whole + digitsValue n.fraction / 10 ^ n.fraction.length) * 10 ^ n.exponentValue

/-- What JSON asks of a numeral. -/
structure Proper (n : Numeral) : Prop where
  whole : LeastWhole n.whole
  fraction : ∀ c ∈ n.fraction, c.isDigit = true
  exponent : ∀ e, n.exponent = some e → e.2 ≠ [] ∧ ∀ c ∈ e.2, c.isDigit = true

variable {n : Numeral}

theorem exponentPart_text (proper : n.Proper) : exponentPart n.exponentText = some n.exponentValue := by
  unfold exponentText exponentValue
  cases exponent : n.exponent with
  | none => rfl
  | some e =>
    obtain ⟨nonempty, digits⟩ := proper.exponent e exponent
    have all : e.2.all Char.isDigit = true := List.all_eq_true.2 digits
    obtain ⟨negative, ds⟩ := e
    cases negative <;> simp only [Option.elim_some, exponentPart, Bool.false_eq_true, if_false, if_true] <;>
      rw [if_neg (by simp), if_pos ⟨nonempty, all⟩]

/-- No digit follows the whole part, and none the fraction. -/
theorem exponentText_digits (n : Numeral) : n.exponentText.takeWhile Char.isDigit = [] ∧ n.exponentText.dropWhile Char.isDigit = n.exponentText := by
  unfold exponentText
  cases n.exponent <;> exact ⟨rfl, rfl⟩

theorem takeWhile_digits {ds rest : List Char} (digits : ∀ c ∈ ds, c.isDigit = true) (end' : rest.takeWhile Char.isDigit = []) :
    (ds ++ rest).takeWhile Char.isDigit = ds := by
  rw [List.takeWhile_append_of_pos digits, end', List.append_nil]

theorem dropWhile_digits {ds rest : List Char} (digits : ∀ c ∈ ds, c.isDigit = true) (end' : rest.dropWhile Char.isDigit = rest) :
    (ds ++ rest).dropWhile Char.isDigit = rest := by
  rw [List.dropWhile_append_of_pos digits, end']

/-- A numeral is read as its value. -/
theorem decimalLiteral_text (proper : n.Proper) : decimalLiteral n.text = some n.value := by
  have nonempty := proper.whole.nonempty
  obtain ⟨none, rest⟩ := n.exponentText_digits
  have stop : (n.fractionText ++ n.exponentText).takeWhile Char.isDigit = [] ∧
      (n.fractionText ++ n.exponentText).dropWhile Char.isDigit = n.fractionText ++ n.exponentText := by
    unfold fractionText
    by_cases whole : n.fraction = []
    · rw [if_pos whole]
      exact ⟨none, rest⟩
    · rw [if_neg whole]
      exact ⟨rfl, rfl⟩
  unfold decimalLiteral text
  rw [takeWhile_digits proper.whole.digits stop.1, dropWhile_digits proper.whole.digits stop.2]
  unfold fractionText
  by_cases whole : n.fraction = []
  · -- what follows is no point
    have plain : ∀ r, n.exponentText ≠ '.' :: r := by
      intro r
      unfold exponentText
      cases n.exponent <;> simp
    rw [if_pos whole, List.nil_append]
    split
    · rename_i fraction rest' is
      split at is
      · rename_i r dot
        exact (plain r dot).elim
      · obtain ⟨rfl, rfl⟩ := Prod.mk.inj is
        rw [if_neg (fun both => nonempty both.1), exponentPart_text proper, value, whole]
        rfl
  · rw [if_neg whole, List.cons_append]
    show (if n.whole = [] ∧ (n.fraction ++ n.exponentText).takeWhile Char.isDigit = [] then Option.none
      else (exponentPart ((n.fraction ++ n.exponentText).dropWhile Char.isDigit)).map fun e =>
        ((digitsValue n.whole : ℚ) + digitsValue ((n.fraction ++ n.exponentText).takeWhile Char.isDigit) /
          10 ^ ((n.fraction ++ n.exponentText).takeWhile Char.isDigit).length) * 10 ^ e) = _
    rw [takeWhile_digits proper.fraction none, dropWhile_digits proper.fraction rest, if_neg (fun both => nonempty both.1),
      exponentPart_text proper]
    rfl

/-- A numeral consists of digits and four other characters, and begins with a digit. -/
theorem text_chars (proper : n.Proper) : ∀ c ∈ n.text, c.isDigit = true ∨ c ∈ ['.', 'e', '+', '-'] := by
  intro c mem
  rcases List.mem_append.1 mem with mem | mem
  · exact .inl (proper.whole.digits c mem)
  rcases List.mem_append.1 mem with mem | mem
  · unfold fractionText at mem
    split at mem
    · cases mem
    · rcases List.mem_cons.1 mem with rfl | mem
      · exact .inr (by simp)
      · exact .inl (proper.fraction c mem)
  · unfold exponentText at mem
    cases exponent : n.exponent with
    | none => simp [exponent] at mem
    | some e =>
      simp only [exponent, Option.elim_some, List.mem_cons] at mem
      rcases mem with rfl | rfl | mem
      · exact .inr (by simp)
      · exact .inr (by split <;> simp)
      · exact .inl ((proper.exponent e exponent).2 c mem)

theorem text_head (proper : n.Proper) : ∃ c cs, n.text = c :: cs ∧ c.isDigit = true := by
  obtain ⟨c, cs, is⟩ := List.exists_cons_of_ne_nil proper.whole.nonempty
  exact ⟨c, cs ++ (n.fractionText ++ n.exponentText), by rw [text, is]; rfl, proper.whole.digits c (by simp [is])⟩

theorem text_plain (proper : n.Proper) : ∀ c ∈ n.text, isJsSpace c = false ∧ isBare c = true ∧
    c ∉ ['x', 'X', 'o', 'O', 'b', 'B', 'I', 'n', 't', 'f'] := by
  intro c mem
  rcases text_chars proper c mem with digit | other
  · refine ⟨isDigit_not_space digit, isBare_digit digit, ?_⟩
    intro bad
    simp only [List.mem_cons, List.not_mem_nil, or_false] at bad
    rcases bad with rfl | rfl | rfl | rfl | rfl | rfl | rfl | rfl | rfl | rfl <;> exact absurd digit (by decide)
  · simp only [List.mem_cons, List.not_mem_nil, or_false] at other
    rcases other with rfl | rfl | rfl | rfl <;> decide

/-- The sign of a text. -/
def signed (negative : Bool) (cs : List Char) : List Char := if negative then '-' :: cs else cs

/-- `Number(s)` of a numeral, with or without a minus, is the double nearest to its value. -/
theorem stringToNumber_text (proper : n.Proper) (negative : Bool) :
    stringToNumber (String.ofList (signed negative n.text)) = toDouble (if negative then -n.value else n.value) := by
  obtain ⟨d, rest, is, digit⟩ := text_head proper
  have plain := text_plain proper
  have literal := decimalLiteral_text proper
  have finite : n.text ≠ "Infinity".toList := by
    intro same
    exact (plain 'I' (by rw [same]; decide)).2.2 (by decide)
  have trimmed : trimChars (signed negative n.text) = signed negative n.text := by
    refine trimChars_numeral fun c mem => ?_
    unfold signed at mem
    split at mem
    · rcases List.mem_cons.1 mem with rfl | mem
      · decide
      · exact (plain c mem).1
    · exact (plain c mem).1
  unfold stringToNumber
  rw [@String.toList_ofList (signed negative n.text), trimmed]
  cases negative with
  | true =>
    show (if n.text = "Infinity".toList then JsNumber.inf true else _) = _
    rw [if_neg finite, literal]
  | false =>
    -- no other reading applies: there is no sign in front and no letter of a radix
    have sign : ∀ c ds, n.text = c :: ds → c ∉ ['+', '-'] := by
      intro c ds same
      obtain ⟨rfl, -⟩ := List.cons.inj (same.symm.trans is)
      intro bad
      simp only [List.mem_cons, List.not_mem_nil, or_false] at bad
      rcases bad with rfl | rfl <;> exact absurd digit (by decide)
    have radix : ∀ c ds, n.text = '0' :: c :: ds → c ∉ ['x', 'X', 'o', 'O', 'b', 'B'] := by
      intro c ds same bad
      refine (plain c (by rw [same]; simp)).2.2 ?_
      simp only [List.mem_cons, List.not_mem_nil, or_false] at bad ⊢
      rcases bad with rfl | rfl | rfl | rfl | rfl | rfl <;> simp
    rw [show signed false n.text = n.text from rfl]
    split
    case h_10 => simp only [if_neg finite, literal]
    case h_1 empty => rw [is] at empty; cases empty
    case h_2 same => exact absurd (by simp) (sign _ _ same)
    case h_3 same => exact absurd (by simp) (sign _ _ same)
    all_goals
      rename_i same
      exact absurd (by simp) (radix _ _ same)

/-- JSON takes a numeral, with or without a minus, as a number. -/
theorem test_text (proper : n.Proper) (negative : Bool) : jsonNumeral.test (signed negative n.text) = true := by
  have sign : (Regex.opt (.char '-')).Takes (if negative then ['-'] else []) := by
    cases negative with
    | true => exact .left .char
    | false => exact .skip
  have whole : (Regex.alt (.char '0') (.seq (.one fun c => '1' ≤ c ∧ c ≤ '9') (.star true digit))).Takes n.whole := by
    obtain ⟨c, cs, is⟩ := List.exists_cons_of_ne_nil proper.whole.nonempty
    have digits := proper.whole.digits
    have least := proper.whole.least
    rw [is] at digits least ⊢
    by_cases zero : c = '0'
    · subst zero
      obtain rfl : cs = [] := by
        rcases least with alone | other
        · exact List.length_eq_zero_iff.1 (Nat.succ.inj alone)
        · exact (other rfl).elim
      exact .left .char
    · have range := isDigit_iff.1 (digits c List.mem_cons_self)
      have other : c.toNat ≠ 48 := fun same => zero (Char.toNat_inj.1 same)
      have first : decide ('1' ≤ c ∧ c ≤ '9') = true := decide_eq_true ⟨show 49 ≤ c.toNat by omega, range.2⟩
      exact .right (.seq (.one first) (.star fun d mem => digits d (List.mem_cons_of_mem c mem)))
  have fraction : (Regex.opt (.seq (.char '.') (.plus digit))).Takes n.fractionText := by
    unfold fractionText
    split
    · exact .skip
    · rename_i nonempty
      exact .left (.seq .char (.plus nonempty proper.fraction))
  have exponent : (Regex.opt (.seq (.one fun c => c = 'e' ∨ c = 'E') (.seq (.opt (.one fun c => c = '+' ∨ c = '-')) (.plus digit)))).Takes
      n.exponentText := by
    unfold exponentText
    cases is : n.exponent with
    | none => exact .skip
    | some e =>
      obtain ⟨nonempty, digits⟩ := proper.exponent e is
      have sign : (Regex.opt (.one fun c => c = '+' ∨ c = '-')).Takes [if e.1 then '-' else '+'] :=
        .left (.one (by split <;> decide))
      exact .left (.seq (.one (by decide)) (.seq sign (.plus nonempty digits)))
  have text : signed negative n.text = (if negative then ['-'] else []) ++ (n.whole ++ (n.fractionText ++ (n.exponentText ++ []))) := by
    rw [List.append_nil]
    cases negative <;> rfl
  rw [text, jsonNumeral, Regex.test_start_seq]
  exact sign.fits (whole.fits (fraction.fits (exponent.fits Regex.fits_stop))) []

/-- Without quotes, a numeral is a number. -/
theorem bareValue_text (proper : n.Proper) (negative : Bool) :
    bareValue (signed negative n.text) = some (.num (toDouble (if negative then -n.value else n.value))) := by
  obtain ⟨c, cs, is, digit⟩ := text_head proper
  -- the words begin with other characters
  have word : ∀ w : List Char, (w.head?.all fun d => !d.isDigit && d ≠ '-') = true → w ≠ [] → signed negative n.text ≠ w := by
    intro w letter nonempty same
    rw [← same] at letter
    cases negative with
    | true => simp [signed] at letter
    | false => simp [signed, is, digit] at letter
  rw [bareValue, if_neg (word _ (by decide) (by decide)), if_neg (word _ (by decide) (by decide)), if_neg (word _ (by decide) (by decide)),
    if_pos (test_text proper negative), stringToNumber_text proper]

end Numeral

/-! ## The text of a number -/

/-- Digits, the first not zero. -/
structure Leading (ds : List Char) : Prop where
  digits : ∀ c ∈ ds, c.isDigit = true
  nonempty : ds ≠ []
  first : ds.head? ≠ some '0'

variable {ds : List Char} {n : ℤ}

theorem leading_toDigits {s : Nat} (pos : 0 < s) : Leading (Nat.toDigits 10 s) := by
  have least := leastWhole_toDigits s
  refine ⟨least.digits, least.nonempty, fun zero => ?_⟩
  rcases least.least with alone | other
  · obtain ⟨c, is⟩ := List.length_eq_one_iff.1 alone
    rw [is, List.head?_cons, Option.some.injEq] at zero
    have value := digitsValue_toDigits s
    rw [is, zero, show digitsValue ['0'] = 0 from rfl] at value
    omega
  · exact other zero

theorem Leading.dropZeros (leading : Leading ds) : Leading (ds.rdropWhile (· = '0')) := by
  obtain ⟨c, cs, rfl⟩ := List.exists_cons_of_ne_nil leading.nonempty
  have other : c ≠ '0' := fun same => leading.first (congrArg some same)
  have kept : (c :: cs).rdropWhile (· = '0') = c :: cs.rdropWhile (· = '0') := by
    rw [rdropWhile_cons, if_neg]
    intro all
    exact other (of_decide_eq_true (List.all_eq_true.1 all c List.mem_cons_self))
  refine ⟨fun d mem => leading.digits d ((List.rdropWhile_prefix _ _).subset mem), ?_, ?_⟩ <;> rw [kept]
  · simp
  · simpa using other

/-- `0.ds × 10ⁿ` as a numeral. -/
def digitsNumeral (ds : List Char) (n : ℤ) : Numeral :=
  if ds.length ≤ n ∧ n ≤ 21 then ⟨ds ++ List.replicate (n - ds.length).toNat '0', [], none⟩
  else if 0 < n ∧ n ≤ 21 then ⟨ds.take n.toNat, ds.drop n.toNat, none⟩
  else if -6 < n ∧ n ≤ 0 then ⟨['0'], List.replicate (-n).toNat '0' ++ ds, none⟩
  else ⟨ds.take 1, ds.drop 1, some (decide (n - 1 < 0), Nat.toDigits 10 (n - 1).natAbs)⟩

theorem digitsNumeral_text (leading : Leading ds) : (digitsNumeral ds n).text = digitsText ds n := by
  have length := List.length_pos_iff.2 leading.nonempty
  unfold digitsNumeral digitsText
  by_cases whole : ds.length ≤ n ∧ n ≤ 21
  · rw [if_pos whole, if_pos whole]
    simp [Numeral.text, Numeral.fractionText, Numeral.exponentText]
  rw [if_neg whole, if_neg whole]
  by_cases point : 0 < n ∧ n ≤ 21
  · -- some digits are behind the point
    have behind : ds.drop n.toNat ≠ [] := by
      rw [Ne, List.drop_eq_nil_iff]
      omega
    rw [if_pos point, if_pos point]
    simp [Numeral.text, Numeral.fractionText, Numeral.exponentText, behind]
  rw [if_neg point, if_neg point]
  by_cases small : -6 < n ∧ n ≤ 0
  · rw [if_pos small, if_pos small]
    simp [Numeral.text, Numeral.fractionText, Numeral.exponentText, leading.nonempty]
  rw [if_neg small, if_neg small]
  have one : ds.drop 1 = [] ↔ ds.length = 1 := by
    rw [List.drop_eq_nil_iff]
    omega
  simp only [Numeral.text, Numeral.fractionText, Numeral.exponentText, one, Option.elim_some, List.append_assoc, decide_eq_true_eq]

theorem leastWhole_take (leading : Leading ds) {k : Nat} (pos : 0 < k) (rest : List Char) (digits : ∀ c ∈ rest, c.isDigit = true) :
    LeastWhole (ds.take k ++ rest) := by
  obtain ⟨c, cs, rfl⟩ := List.exists_cons_of_ne_nil leading.nonempty
  obtain ⟨j, rfl⟩ := Nat.exists_eq_succ_of_ne_zero pos.ne'
  refine ⟨fun d mem => ?_, by simp, .inr (by simpa using leading.first)⟩
  rcases List.mem_append.1 mem with mem | mem
  · exact leading.digits d (List.mem_of_mem_take mem)
  · exact digits d mem

theorem digitsNumeral_proper (leading : Leading ds) : (digitsNumeral ds n).Proper := by
  have zeros : ∀ k, ∀ c ∈ List.replicate k '0', c.isDigit = true := by
    intro k c mem
    rw [List.eq_of_mem_replicate mem]
    rfl
  unfold digitsNumeral
  split_ifs with whole point small
  · refine ⟨?_, List.forall_mem_nil _, nofun⟩
    have all := leastWhole_take leading (List.length_pos_iff.2 leading.nonempty) _ (zeros (n - ds.length).toNat)
    rwa [List.take_length] at all
  · refine ⟨?_, fun c mem => leading.digits c (List.mem_of_mem_drop mem), nofun⟩
    have some' := leastWhole_take leading (by omega : 0 < n.toNat) [] (List.forall_mem_nil _)
    rwa [List.append_nil] at some'
  · exact ⟨⟨by simp, by simp, .inl rfl⟩, List.forall_mem_append.2 ⟨zeros _, leading.digits⟩, nofun⟩
  · refine ⟨?_, fun c mem => leading.digits c (List.mem_of_mem_drop mem), ?_⟩
    · have one := leastWhole_take leading Nat.one_pos [] (List.forall_mem_nil _)
      rwa [List.append_nil] at one
    · rintro e is
      obtain rfl := Option.some.inj is
      exact ⟨(leastWhole_toDigits _).nonempty, (leastWhole_toDigits _).digits⟩

/-- Digits around a point. -/
theorem digitsValue_point (a b : List Char) :
    (digitsValue a + digitsValue b / 10 ^ b.length : ℚ) = digitsValue (a ++ b) / 10 ^ (a ++ b).length * 10 ^ (a.length : ℤ) := by
  rw [digitsValue_append, List.length_append, pow_add, zpow_natCast]
  push_cast
  field_simp

theorem digitsNumeral_value (leading : Leading ds) : (digitsNumeral ds n).value = digitsValue ds / 10 ^ ds.length * 10 ^ n := by
  have length := List.length_pos_iff.2 leading.nonempty
  unfold digitsNumeral
  split_ifs with whole point small <;> unfold Numeral.value Numeral.exponentValue <;>
    simp only [Option.elim_none, Option.elim_some, zpow_zero, mul_one]
  · obtain ⟨k, rfl⟩ : ∃ k : Nat, n = ds.length + k := ⟨(n - ds.length).toNat, by omega⟩
    rw [add_sub_cancel_left, Int.toNat_natCast, digitsValue_append, digitsValue_zeros, List.length_replicate, zpow_add₀ (by norm_num),
      zpow_natCast, zpow_natCast]
    push_cast
    simp only [digitsValue, List.length_nil]
    field_simp
    simp
  · rw [digitsValue_point, List.take_append_drop, List.length_take, min_eq_left (by omega), Int.toNat_of_nonneg (by omega)]
  · obtain ⟨k, rfl⟩ : ∃ k : Nat, n = -k := ⟨(-n).toNat, by omega⟩
    rw [neg_neg, Int.toNat_natCast, digitsValue_append, digitsValue_zeros, List.length_append, List.length_replicate, pow_add,
      zpow_neg, zpow_natCast, show digitsValue ['0'] = 0 from rfl]
    push_cast
    field_simp
    simp
  · have exponent : (if decide (n - 1 < 0) = true then -((digitsValue (Nat.toDigits 10 (n - 1).natAbs) : ℕ) : ℤ)
        else ((digitsValue (Nat.toDigits 10 (n - 1).natAbs) : ℕ) : ℤ)) = n - 1 := by
      rw [digitsValue_toDigits]
      by_cases negative : n - 1 < 0
      · simp only [negative, decide_true, if_true]
        omega
      · simp only [negative, decide_false, Bool.false_eq_true, if_false]
        omega
    rw [exponent, digitsValue_point, List.take_append_drop, List.length_take, min_eq_left (by omega), mul_assoc,
      ← zpow_add₀ (by norm_num)]
    congr 2
    omega

/-- The digits of a positive double are a numeral that rounds to it. -/
theorem positiveText_numeral {q : ℚ} (pos : 0 < q) (double : toDouble q = .finite q) :
    ∃ n : Numeral, n.Proper ∧ positiveText q = n.text ∧ toDouble n.value = .finite q := by
  obtain ⟨some', rounds⟩ := fewestDigits_rounds pos double
  generalize fewest : fewestDigits q = found at some' rounds
  obtain ⟨s, m⟩ := found
  have leading := (leading_toDigits some').dropZeros
  refine ⟨digitsNumeral ((Nat.toDigits 10 s).rdropWhile (· = '0')) (m + (Nat.toDigits 10 s).length), digitsNumeral_proper leading, ?_, ?_⟩
  · rw [digitsNumeral_text leading, positiveText, fewest]
  · rw [digitsNumeral_value leading, digitsValue_rdropWhile, digitsValue_toDigits, zpow_add₀ (by norm_num), zpow_natCast,
      mul_comm (10 ^ m : ℚ), ← mul_assoc, div_mul_cancel₀ _ (pow_ne_zero _ (by norm_num))]
    exact rounds

theorem readable_of_text {n : Numeral} (proper : n.Proper) (negative : Bool) {q : ℚ}
    (text : numberText (.finite q) = String.ofList (Numeral.signed negative n.text))
    (value : toDouble (if negative then -n.value else n.value) = .finite q) : Readable (.finite q) := by
  constructor <;> rw [text, String.toList_ofList]
  · have plain : ∀ c ∈ n.text, isBare c = true := fun c mem => (Numeral.text_plain proper c mem).2.1
    cases negative with
    | true => exact List.forall_mem_cons.2 ⟨by decide, plain⟩
    | false => exact plain
  · rw [Numeral.bareValue_text proper, value]

/-- Every double is read back from its text. -/
theorem readable_double {q : ℚ} (double : toDouble q = .finite q) : Readable (.finite q) := by
  rcases lt_trichotomy q 0 with negative | rfl | pos
  · obtain ⟨n, proper, text, value⟩ := positiveText_numeral (neg_pos.2 negative) (toDouble_neg double)
    refine readable_of_text proper true ?_ ?_
    · rw [numberText, if_neg negative.ne, if_pos negative, text]
      rfl
    · have back := toDouble_neg value
      rwa [neg_neg] at back
  · exact_mod_cast readable_natCast (by decide : 0 < 10 ^ 15)
  · obtain ⟨n, proper, text, value⟩ := positiveText_numeral pos double
    refine readable_of_text proper false ?_ ?_
    · rw [numberText, if_neg pos.ne', if_neg pos.not_gt, text]
      rfl
    · exact value

end AfriPay.Text
