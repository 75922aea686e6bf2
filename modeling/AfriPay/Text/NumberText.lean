import Mathlib.Algebra.Order.Floor.Semifield
import AfriPay.Text.Js

/-!
# Numbers as text

`String(x)`: the fewest digits that still round to the number, and of these the
nearest. A whole number below 10¹⁵ is written with its own digits, and is read back
from them (`numberText_natCast`, `stringToNumber_natCast`).
-/

namespace AfriPay.Text

/-- The nearer of two neighbours, the even one halfway. -/
def nearer (x : ℚ) (n : Nat) : Nat :=
  if x - n < n + 1 - x then n else if n + 1 - x < x - n then n + 1 else if n % 2 = 0 then n else n + 1

/-- `q` is the double nearest to `n × 10ᵐ`. -/
def roundsTo (q : ℚ) (m : ℤ) (n : Nat) : Bool := toDouble (n * 10 ^ m) = .finite q

/-- `k` digits and the power of ten of the last of them, if some such number rounds to `q`. -/
def roundedDigits (q : ℚ) (k : Nat) : Option (Nat × ℤ) :=
  let m : ℤ := Int.log 10 q + 1 - k
  let x := q / 10 ^ m
  if roundsTo q m ⌊x⌋₊ then some (if roundsTo q m (⌊x⌋₊ + 1) then nearer x ⌊x⌋₊ else ⌊x⌋₊, m)
  else if roundsTo q m (⌊x⌋₊ + 1) then some (⌊x⌋₊ + 1, m)
  else none

/-- The fewest digits. Seventeen do for every double. -/
def fewestDigits (q : ℚ) : Nat × ℤ := ((List.range 17).findSome? fun i => roundedDigits q (i + 1)).getD (0, 0)

/-- `0.ds × 10ⁿ`, with a point or an exponent. -/
def digitsText (ds : List Char) (n : ℤ) : List Char :=
  if ds.length ≤ n ∧ n ≤ 21 then ds ++ List.replicate (n - ds.length).toNat '0'
  else if 0 < n ∧ n ≤ 21 then ds.take n.toNat ++ '.' :: ds.drop n.toNat
  else if -6 < n ∧ n ≤ 0 then '0' :: '.' :: List.replicate (-n).toNat '0' ++ ds
  else ds.take 1 ++ (if ds.length = 1 then [] else '.' :: ds.drop 1) ++ 'e' :: (if n - 1 < 0 then '-' else '+') :: Nat.toDigits 10 (n - 1).natAbs

def positiveText (q : ℚ) : List Char :=
  let (s, m) := fewestDigits q
  let ds := Nat.toDigits 10 s
  digitsText (ds.rdropWhile (· = '0')) (m + ds.length)

/-- `String(x)` -/
def numberText : JsNumber → String
  | .nan => "NaN"
  | .inf negative => if negative then "-Infinity" else "Infinity"
  | .finite q =>
    if q = 0 then "0" else if q < 0 then String.ofList ('-' :: positiveText (-q)) else String.ofList (positiveText q)

/-! ## Whole numbers -/

/-- The digits found round to the number, and are its own or the next. -/
theorem roundedDigits_spec {q : ℚ} {k s : Nat} {m : ℤ} (found : roundedDigits q k = some (s, m)) :
    m = Int.log 10 q + 1 - k ∧ roundsTo q m s = true ∧ s ≤ ⌊q / 10 ^ m⌋₊ + 1 := by
  have near : ∀ x n, nearer x n = n ∨ nearer x n = n + 1 := fun x n => by
    unfold nearer
    split_ifs <;> simp
  simp only [roundedDigits] at found
  generalize Int.log 10 q + 1 - (k : ℤ) = e at found
  generalize whole : ⌊q / 10 ^ e⌋₊ = n at found
  split_ifs at found with low high high <;> obtain ⟨rfl, rfl⟩ := Prod.mk.inj (Option.some.inj found) <;> rw [whole]
  · rcases near (q / 10 ^ e) n with is | is <;> rw [is]
    · exact ⟨rfl, low, Nat.le_succ _⟩
    · exact ⟨rfl, high, le_rfl⟩
  · exact ⟨rfl, low, Nat.le_succ _⟩
  · exact ⟨rfl, high, le_rfl⟩

/-- Digits that round to a whole number are that number, if it may have as many. -/
theorem roundedDigits_natCast {n k s : Nat} {m : ℤ} (small : n < 10 ^ 15) (le : k ≤ Nat.log 10 n + 1)
    (found : roundedDigits n k = some (s, m)) : ∃ j : Nat, m = j ∧ s * 10 ^ j = n := by
  obtain ⟨exponent, rounds, near⟩ := roundedDigits_spec found
  rw [Int.log_natCast] at exponent
  obtain ⟨j, rfl⟩ : ∃ j : Nat, m = j := ⟨Nat.log 10 n + 1 - k, by omega⟩
  have few : Nat.log 10 n < 15 := Nat.log_lt_of_lt_pow' (by decide) small
  have unit : 10 ^ j ≤ 10 ^ 15 := Nat.pow_le_pow_right (by decide) (by omega)
  have floor : ⌊(n : ℚ) / 10 ^ (j : ℤ)⌋₊ = n / 10 ^ j := by
    have unit' : (10 : ℚ) ^ (j : ℤ) = ((10 ^ j : ℕ) : ℚ) := by
      rw [zpow_natCast]
      push_cast
      rfl
    rw [unit', Nat.floor_div_eq_div]
  rw [floor] at near
  have bound : s * 10 ^ j < 2 ^ 53 :=
    calc s * 10 ^ j ≤ (n / 10 ^ j + 1) * 10 ^ j := Nat.mul_le_mul_right _ near
      _ = n / 10 ^ j * 10 ^ j + 10 ^ j := Nat.succ_mul _ _
      _ ≤ n + 10 ^ 15 := Nat.add_le_add (Nat.div_mul_le_self _ _) unit
      _ < 2 ^ 53 := by omega
  have exact' := toDouble_natCast bound
  have same := of_decide_eq_true rounds
  rw [zpow_natCast] at same
  push_cast at exact'
  rw [exact', JsNumber.finite.injEq] at same
  exact ⟨j, rfl, by exact_mod_cast same⟩

/-- All its digits are enough for a whole number. -/
theorem roundedDigits_isSome {n : Nat} (small : n < 10 ^ 15) : (roundedDigits n (Nat.log 10 n + 1)).isSome = true := by
  have floor : ⌊(n : ℚ) / 10 ^ (Int.log 10 (n : ℚ) + 1 - ((Nat.log 10 n + 1 : Nat) : ℤ))⌋₊ = n := by
    rw [Int.log_natCast, Nat.cast_succ, sub_self, zpow_zero, div_one, Nat.floor_natCast]
  have rounds : roundsTo n (Int.log 10 (n : ℚ) + 1 - ((Nat.log 10 n + 1 : Nat) : ℤ)) n = true := by
    rw [Int.log_natCast, Nat.cast_succ, sub_self, roundsTo, zpow_zero, mul_one, decide_eq_true_eq]
    exact toDouble_natCast (small.trans (by decide))
  rw [roundedDigits]
  simp only [floor, rounds, if_true]
  rfl

theorem fewestDigits_natCast {n : Nat} (small : n < 10 ^ 15) : ∃ s j : Nat, fewestDigits n = (s, (j : ℤ)) ∧ s * 10 ^ j = n := by
  have few : Nat.log 10 n < 15 := Nat.log_lt_of_lt_pow' (by decide) small
  have range : List.range 17 = List.range (Nat.log 10 n + 1) ++ (List.range (16 - Nat.log 10 n)).map (Nat.log 10 n + 1 + ·) := by
    rw [← List.range_add, show Nat.log 10 n + 1 + (16 - Nat.log 10 n) = 17 by omega]
  have found : ((List.range (Nat.log 10 n + 1)).findSome? fun i => roundedDigits n (i + 1)).isSome = true :=
    List.findSome?_isSome_iff.2 ⟨Nat.log 10 n, List.mem_range.2 (Nat.lt_succ_self _), roundedDigits_isSome small⟩
  obtain ⟨⟨s, m⟩, first⟩ := Option.isSome_iff_exists.1 found
  obtain ⟨i, mem, digits⟩ := List.exists_of_findSome?_eq_some first
  obtain ⟨j, rfl, same⟩ := roundedDigits_natCast small (List.mem_range.1 mem) digits
  refine ⟨s, j, ?_, same⟩
  rw [fewestDigits, range, List.findSome?_append, first]
  rfl

theorem toDigits_mul_pow {s : Nat} (pos : 0 < s) (j : Nat) : Nat.toDigits 10 (s * 10 ^ j) = Nat.toDigits 10 s ++ List.replicate j '0' := by
  induction j with
  | zero => simp
  | succ j ih =>
    have more : 0 < s * 10 ^ j := Nat.mul_pos pos (Nat.pow_pos (by decide))
    have next := Nat.toDigits_append_toDigits (by decide : 1 < 10) more (by decide : 0 < 10)
    rw [Nat.pow_succ, ← Nat.mul_assoc, Nat.mul_comm (s * 10 ^ j), ← Nat.add_zero (10 * _), ← next, ih, List.replicate_succ', List.append_assoc]
    rfl

theorem append_zeros (cs : List Char) : ∃ k, cs = cs.rdropWhile (· = '0') ++ List.replicate k '0' := by
  induction cs using List.reverseRecOn with
  | nil => exact ⟨0, rfl⟩
  | append_singleton cs c ih =>
    by_cases zero : c = '0'
    · obtain ⟨k, ih⟩ := ih
      refine ⟨k + 1, ?_⟩
      rw [zero, List.rdropWhile_concat_pos _ _ _ (by decide), List.replicate_succ', ← List.append_assoc, ← ih]
    · exact ⟨0, by rw [List.rdropWhile_concat_neg _ _ _ (by simpa using zero), List.replicate_zero, List.append_nil]⟩

/-- With the point behind all the digits, only zeros are added. -/
theorem digitsText_whole {ds : List Char} {n : Nat} (le : ds.length ≤ n) (few : n ≤ 21) :
    digitsText ds n = ds ++ List.replicate (n - ds.length) '0' := by
  rw [digitsText, if_pos ⟨by exact_mod_cast le, by exact_mod_cast few⟩]
  congr 2
  omega

/-- A whole number is written with its own digits. -/
theorem numberText_natCast {n : Nat} (small : n < 10 ^ 15) : numberText (.finite n) = String.ofList (Nat.toDigits 10 n) := by
  rcases Nat.eq_zero_or_pos n with rfl | pos
  · rfl
  have nonzero : ¬(n : ℚ) = 0 := by exact_mod_cast pos.ne'
  have nonneg : ¬(n : ℚ) < 0 := by exact_mod_cast Nat.not_lt_zero n
  obtain ⟨s, j, fewest, same⟩ := fewestDigits_natCast small
  have some' : 0 < s := Nat.pos_of_mul_pos_right (same ▸ pos)
  obtain ⟨k, kept⟩ := append_zeros (Nat.toDigits 10 s)
  have written := toDigits_mul_pow some' j
  have length := (Nat.length_toDigits_le_iff (by decide : 1 < 10) (by decide : 0 < 15)).2 small
  rw [same] at written
  rw [written, kept, List.length_append, List.length_append, List.length_replicate, List.length_replicate] at length
  have text : positiveText n = digitsText ((Nat.toDigits 10 s).rdropWhile (· = '0')) ((j + (Nat.toDigits 10 s).length : Nat) : ℤ) := by
    rw [positiveText, fewest]
    push_cast
    rfl
  have total : (Nat.toDigits 10 s).length = ((Nat.toDigits 10 s).rdropWhile (· = '0')).length + k := by
    conv_lhs => rw [kept]
    rw [List.length_append, List.length_replicate]
  rw [numberText, if_neg nonzero, if_neg nonneg, text, total, digitsText_whole (by omega) (by omega), written]
  conv_rhs => rw [kept]
  rw [List.append_assoc, List.replicate_append_replicate]
  congr 3
  omega

/-- And these digits are read as that number. -/
theorem stringToNumber_natCast {n : Nat} (small : n < 10 ^ 15) : stringToNumber (String.ofList (Nat.toDigits 10 n)) = .finite n := by
  have split := splitPoint_digits (toDigits_isDigit n)
  have numeral : matchesDecimal (Nat.toDigits 10 n).length 1 (String.ofList (Nat.toDigits 10 n)) = true := by
    have some' : 1 ≤ (Nat.toDigits 10 n).length := Nat.length_toDigits_pos
    rw [matchesDecimal, String.toList_ofList, split]
    simpa [digitRun, some'] using toDigits_isDigit n
  have value : decimalValue (String.ofList (Nat.toDigits 10 n)) = n := by
    rw [decimalValue, wholePart, fractionPart, String.toList_ofList, split, digitsValue_toDigits]
    simp [digitsValue]
  rw [stringToNumber_numeral numeral, value, toDouble_natCast (small.trans (by decide))]

end AfriPay.Text
