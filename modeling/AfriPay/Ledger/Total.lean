import Mathlib.Algebra.Order.BigOperators.Group.Finset
import AfriPay.Ledger.Register

/-!
# Totals of a register

What the records with keys below a counter weigh together, as records are
revised and new ones opened at the counter.
-/

namespace AfriPay.Ledger.Register
open Finset

variable {ρ M : Type} [AddCommGroup M] {weight : ρ → M} {n k : Nat} {b : Register Nat ρ} {r r' : ρ}

/-- The sum of the weights of the records with keys below `n`. -/
def total (weight : ρ → M) (n : Nat) (b : Register Nat ρ) : M := ∑ k ∈ range n, (b k).elim 0 weight

/-- A revision counts the new record for the old. -/
theorem total_revised (here : b k = some r) (lt : k < n) :
    total weight n (Function.update b k (some r')) = total weight n b - weight r + weight r' := by
  have mem : k ∈ range n := mem_range.2 lt
  have rest : ∑ i ∈ (range n).erase k, (Function.update b k (some r') i).elim 0 weight = ∑ i ∈ (range n).erase k, (b i).elim 0 weight := by
    refine sum_congr rfl fun i other => ?_
    rw [Function.update_of_ne (ne_of_mem_erase other)]
  rw [total, total, ← add_sum_erase _ _ mem, ← add_sum_erase (range n) (fun i => (b i).elim 0 weight) mem, rest,
    Function.update_self, here, Option.elim_some, Option.elim_some, add_sub_cancel_left, add_comm]

/-- A new record adds its weight. -/
theorem total_opened : total weight (n + 1) (Function.update b n (some r)) = total weight n b + weight r := by
  have rest : ∑ i ∈ range n, (Function.update b n (some r) i).elim 0 weight = ∑ i ∈ range n, (b i).elim 0 weight := by
    refine sum_congr rfl fun i mem => ?_
    rw [Function.update_of_ne (mem_range.1 mem).ne]
  rw [total, total, sum_range_succ, rest, Function.update_self, Option.elim_some]

/-- A counter passes a key without a record. -/
theorem total_unused (unused : b n = none) : total weight (n + 1) b = total weight n b := by
  rw [total, total, sum_range_succ, unused, Option.elim_none, add_zero]

theorem total_nonneg [PartialOrder M] [IsOrderedAddMonoid M] (nonneg : ∀ k r, b k = some r → 0 ≤ weight r) :
    0 ≤ total weight n b := by
  refine sum_nonneg fun k _ => ?_
  cases here : b k with
  | none => exact le_refl 0
  | some r => exact nonneg k r here

/-- One record weighs no more than all. -/
theorem weight_le_total [PartialOrder M] [IsOrderedAddMonoid M] (nonneg : ∀ k r, b k = some r → 0 ≤ weight r) (here : b k = some r)
    (lt : k < n) : weight r ≤ total weight n b := by
  have each : ∀ i ∈ range n, 0 ≤ (b i).elim 0 weight := by
    intro i _
    cases there : b i with
    | none => exact le_refl 0
    | some r => exact nonneg i r there
  have le := single_le_sum each (mem_range.2 lt)
  rwa [here] at le

end AfriPay.Ledger.Register
