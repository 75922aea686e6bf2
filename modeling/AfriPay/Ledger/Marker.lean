import Mathlib.Data.Set.Subsingleton

/-!
# A marker for one open item

A cell names the item that is open. It keeps naming it as long as it is written
and emptied only where it is empty or names the item in question.
-/

namespace AfriPay.Ledger

/-- What is open is what the cell names. -/
def Marks {ι : Type} (cell : Option ι) (opened : Set ι) : Prop := ∀ i ∈ opened, cell = some i

/-- The cell may be written and emptied for `i`. -/
def Guards {ι : Type} (cell : Option ι) (i : ι) : Prop := cell = none ∨ cell = some i

instance {ι : Type} [DecidableEq ι] (cell : Option ι) (i : ι) : Decidable (Guards cell i) :=
  inferInstanceAs (Decidable (cell = none ∨ cell = some i))

namespace Marks

variable {ι : Type} {cell : Option ι} {opened opened' : Set ι} {i j : ι}

theorem mono (h : Marks cell opened) (fewer : opened' ⊆ opened) : Marks cell opened' := fun i mem => h i (fewer mem)

/-- No two items are open. -/
theorem subsingleton (h : Marks cell opened) : opened.Subsingleton :=
  fun i mem j mem' => Option.some.inj ((h i mem).symm.trans (h j mem'))

/-- Where the cell is guarded, nothing else is open. -/
theorem eq_of_guards (h : Marks cell opened) (guard : Guards cell i) (mem : j ∈ opened) : j = i := by
  have named := h j mem
  rcases guard with empty | own
  · rw [empty] at named
    cases named
  · exact Option.some.inj (named.symm.trans own)

theorem write (h : Marks cell opened) (guard : Guards cell i) : Marks (some i) (insert i opened) := by
  intro j mem
  rcases Set.mem_insert_iff.1 mem with rfl | old
  · rfl
  · rw [h.eq_of_guards guard old]

theorem clear (h : Marks cell opened) (guard : Guards cell i) (closed : opened' ⊆ opened) (done : i ∉ opened') :
    Marks none opened' := by
  intro j mem
  have same := h.eq_of_guards guard (closed mem)
  exact (done (same ▸ mem)).elim

end Marks

end AfriPay.Ledger
