import Mathlib.Algebra.Order.BigOperators.GroupWithZero.List
import Mathlib.Algebra.Order.Ring.Int
import Mathlib.Tactic.Ring

/-!
# Compound interest in whole units

A balance grows by simple interest, rounded down, over each of several spans.
Rounding costs at most one unit a span against simple interest over them all,
and never pays more than compound interest without rounding.
-/

namespace AfriPay.Ledger

/-- A balance after a span, at `rate` parts in `per` a unit of time. -/
def grown (per rate balance : Int) (span : Nat) : Int := balance + balance * rate * span / per

section Grown

variable {per rate balance : Int} {span : Nat}

theorem grown_le (nonneg : 0 ≤ balance) (pays : 0 ≤ rate) (positive : 0 < per) : balance ≤ grown per rate balance span := by
  have interest : 0 ≤ balance * rate * span / per :=
    Int.ediv_nonneg (mul_nonneg (mul_nonneg nonneg pays) (Int.natCast_nonneg span)) positive.le
  unfold grown
  omega

/-- Rounding down is never in favour of the balance. -/
theorem per_mul_grown (positive : 0 < per) : per * grown per rate balance span ≤ balance * (per + rate * span) := by
  have rounded : per * (balance * rate * span / per) ≤ balance * rate * span := Int.mul_ediv_self_le positive.ne'
  calc per * grown per rate balance span = per * balance + per * (balance * rate * span / per) := mul_add ..
    _ ≤ per * balance + balance * rate * span := Int.add_le_add_left rounded _
    _ = balance * (per + rate * span) := by ring

/-- Two quotients rounded down and one of the sum differ by at most one. -/
theorem ediv_add_le (a b : Int) (positive : 0 < per) : (a + b) / per ≤ a / per + b / per + 1 := by
  rw [Int.add_ediv_of_pos positive]
  split <;> omega

/-- A larger balance bears no less interest. -/
theorem interest_mono {larger : Int} (le : balance ≤ larger) (pays : 0 ≤ rate) (positive : 0 < per) :
    balance * rate * span / per ≤ larger * rate * span / per :=
  Int.ediv_le_ediv positive (mul_le_mul_of_nonneg_right (mul_le_mul_of_nonneg_right le pays) (Int.natCast_nonneg span))

end Grown

/-- A balance after several spans. -/
def compounded (per rate : Int) (balance : Int) (spans : List Nat) : Int := spans.foldl (grown per rate) balance

section Compounded

variable {per rate balance : Int} {spans : List Nat}

/-- Each span after the first costs at most one unit against simple interest. -/
theorem compounded_floor {span : Nat} (nonneg : 0 ≤ balance) (pays : 0 ≤ rate) (positive : 0 < per) :
    grown per rate balance (span + spans.sum) ≤ compounded per rate balance (span :: spans) + spans.length := by
  induction spans generalizing balance span with
  | nil =>
    rw [List.sum_nil, add_zero, List.length_nil, Int.natCast_zero, add_zero]
    exact le_refl _
  | cons next spans ih =>
    have larger : balance ≤ grown per rate balance span := grown_le nonneg pays positive
    have later : grown per rate (grown per rate balance span) (next + spans.sum) ≤
        compounded per rate (grown per rate balance span) (next :: spans) + spans.length := ih (le_trans nonneg larger)
    have more : balance * rate * (next + spans.sum : Nat) / per ≤ grown per rate balance span * rate * (next + spans.sum : Nat) / per :=
      interest_mono larger pays positive
    have rounding := ediv_add_le (balance * rate * span) (balance * rate * (next + spans.sum : Nat)) positive
    rw [← mul_add, ← Int.natCast_add] at rounding
    rw [List.sum_cons, List.length_cons]
    change _ ≤ compounded per rate (grown per rate balance span) (next :: spans) + _
    unfold grown at later more ⊢
    omega

/-- Never more than compound interest without rounding. -/
theorem compounded_ceiling (positive : 0 < per) (pays : 0 ≤ rate) :
    per ^ spans.length * compounded per rate balance spans ≤ balance * (spans.map fun span : Nat => per + rate * span).prod := by
  induction spans generalizing balance with
  | nil =>
    rw [List.length_nil, pow_zero, one_mul, List.map_nil, List.prod_nil, mul_one]
    exact le_refl _
  | cons span spans ih =>
    have rest : 0 ≤ (spans.map fun span : Nat => per + rate * span).prod :=
      List.prod_nonneg fun factor mem => by
        obtain ⟨span, -, rfl⟩ := List.mem_map.1 mem
        exact add_nonneg positive.le (mul_nonneg pays (Int.natCast_nonneg span))
    rw [List.length_cons, List.map_cons, List.prod_cons]
    calc per ^ (spans.length + 1) * compounded per rate balance (span :: spans)
        = per * (per ^ spans.length * compounded per rate (grown per rate balance span) spans) := by
          rw [pow_succ', mul_assoc]
          rfl
      _ ≤ per * (grown per rate balance span * (spans.map fun span : Nat => per + rate * span).prod) :=
          mul_le_mul_of_nonneg_left ih positive.le
      _ = per * grown per rate balance span * (spans.map fun span : Nat => per + rate * span).prod := (mul_assoc ..).symm
      _ ≤ balance * (per + rate * span) * (spans.map fun span : Nat => per + rate * span).prod :=
          mul_le_mul_of_nonneg_right (per_mul_grown positive) rest
      _ = balance * ((per + rate * span) * (spans.map fun span : Nat => per + rate * span).prod) := mul_assoc ..

end Compounded

end AfriPay.Ledger
