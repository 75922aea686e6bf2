import Mathlib.Algebra.Order.Ring.Int
import AfriPay.Soroban.Env

/-!
# Arithmetic on `i128`

The checked operations answer `none` outside the range. The operators, built
with overflow checks, trap there.
-/

namespace AfriPay.Soroban

/-- `i128::MAX` -/
def i128Max : Int := 2 ^ 127 - 1

def InI128 (x : Int) : Prop := -2 ^ 127 ≤ x ∧ x ≤ i128Max

instance (x : Int) : Decidable (InI128 x) := inferInstanceAs (Decidable (_ ∧ _))

def checkedAdd (a b : Int) : Option Int := if InI128 (a + b) then some (a + b) else none

def checkedMul (a b : Int) : Option Int := if InI128 (a * b) then some (a * b) else none

variable {ε : Type}

/-- The result of an operator. -/
def trapping (x : Int) : Except (Fault ε) Int := if InI128 x then .ok x else .error .trap

/-- `a / b`, rounded towards zero. -/
def divI128 (a b : Int) : Except (Fault ε) Int := if b = 0 then .error .trap else trapping (a.tdiv b)

theorem checkedAdd_some {a b c : Int} (h : checkedAdd a b = some c) : c = a + b ∧ InI128 c := by
  unfold checkedAdd at h
  split at h
  · rename_i fits
    cases h
    exact ⟨rfl, fits⟩
  · cases h

theorem trapping_of {x : Int} (fits : InI128 x) : (trapping x : Except (Fault ε) Int) = .ok x := if_pos fits

theorem trapping_ok {x y : Int} (h : (trapping x : Except (Fault ε) Int) = .ok y) : y = x := by
  unfold trapping at h
  split at h
  · cases h; rfl
  · cases h

/-- A number in range divided by a positive one. -/
theorem divI128_of {a b : Int} (nonneg : 0 ≤ a) (fits : InI128 a) (positive : 0 < b) : (divI128 a b : Except (Fault ε) Int) = .ok (a / b) := by
  have le : a / b ≤ a := Int.ediv_le_self b nonneg
  have ge : 0 ≤ a / b := Int.ediv_nonneg nonneg positive.le
  have low : (-2 ^ 127 : Int) ≤ 0 := by decide
  unfold divI128
  rw [if_neg positive.ne', Int.tdiv_eq_ediv_of_nonneg nonneg]
  exact trapping_of ⟨le_trans low ge, le_trans le fits.2⟩

theorem inI128_of_nonneg {x : Int} (nonneg : 0 ≤ x) : InI128 x ↔ x ≤ i128Max := by
  have low : (-2 ^ 127 : Int) ≤ 0 := by decide
  exact ⟨fun fits => fits.2, fun le => ⟨le_trans low nonneg, le⟩⟩

end AfriPay.Soroban
