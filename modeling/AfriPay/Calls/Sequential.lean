import AfriPay.Calls.Program

/-!
# Calls one after the other

With the answers of the outside fixed in advance, calls that do not overlap
are a function of the world: `Prog.run` lets `outside` answer the `n`-th
operation and counts on.
-/

namespace AfriPay.Calls

variable {Op : Type} {Ans : Op → Type} {ε α β W R : Type}

/-- How the outside answers the `n`-th operation, and what becomes of the world. -/
abbrev Outside (Op : Type) (Ans : Op → Type) (W : Type) := Nat → (op : Op) → W → Ans op × W

/-- The result of a call, the number of the next operation, and the world. -/
def Prog.run (outside : Outside Op Ans W) : Prog Op Ans ε α → Nat → W → Except ε α × Nat × W
  | .ret a, n, w => (.ok a, n, w)
  | .fail e, n, w => (.error e, n, w)
  | .act op next, n, w => (next (outside n op w).1).run outside (n + 1) (outside n op w).2

/-- The results of several requests in turn, and the world after them. -/
def serve (outside : Outside Op Ans W) (handle : R → Prog Op Ans ε α) : List R → Nat → W → List (Except ε α) × Nat × W
  | [], n, w => ([], n, w)
  | r :: rs, n, w =>
    let (result, n', w') := (handle r).run outside n w
    let (results, rest) := serve outside handle rs n' w'
    (result :: results, rest)

namespace Prog

variable {outside : Outside Op Ans W}

@[simp] theorem run_ret (a : α) (n : Nat) (w : W) :
    (ret a : Prog Op Ans ε α).run outside n w = (.ok a, n, w) := rfl

@[simp] theorem run_fail (e : ε) (n : Nat) (w : W) :
    (fail e : Prog Op Ans ε α).run outside n w = (.error e, n, w) := rfl

@[simp] theorem run_act (op : Op) (next : Ans op → Prog Op Ans ε α) (n : Nat) (w : W) :
    (act op next).run outside n w = (next (outside n op w).1).run outside (n + 1) (outside n op w).2 := rfl

@[simp] theorem run_ofExcept (x : Except ε α) (n : Nat) (w : W) :
    (ofExcept x : Prog Op Ans ε α).run outside n w = (x, n, w) := by
  cases x <;> rfl

/-- Sequencing: an exception ends the run. -/
theorem run_bind (p : Prog Op Ans ε α) (f : α → Prog Op Ans ε β) (n : Nat) (w : W) :
    (p >>= f).run outside n w =
      match p.run outside n w with
      | (.ok a, n', w') => (f a).run outside n' w'
      | (.error e, n', w') => (.error e, n', w') := by
  induction p generalizing n w with
  | ret a => rfl
  | fail e => rfl
  | act op next ih => exact ih _ _ _

/-- An exception is handled where the run has got to. -/
theorem run_catch (p : Prog Op Ans ε α) (h : ε → Prog Op Ans ε α) (n : Nat) (w : W) :
    (tryCatch p h).run outside n w =
      match p.run outside n w with
      | (.ok a, n', w') => (.ok a, n', w')
      | (.error e, n', w') => (h e).run outside n' w' := by
  induction p generalizing n w with
  | ret a => rfl
  | fail e => rfl
  | act op next ih => exact ih _ _ _

theorem run_map (f : α → β) (p : Prog Op Ans ε α) (n : Nat) (w : W) :
    (f <$> p).run outside n w = ((p.run outside n w).1.map f, (p.run outside n w).2) := by
  rw [← bind_pure_comp, run_bind]
  generalize p.run outside n w = x
  obtain ⟨_ | a, n', w'⟩ := x <;> rfl

end Prog

end AfriPay.Calls
