import Mathlib.Logic.Basic

/-!
# Calls as trees of atomic operations

An `async` call alternates between synchronous code, which nothing interrupts,
and operations it awaits. `Prog` keeps exactly that: `act op next` hands `op`
to the outside and resumes with its answer, `ret` and `fail` end the call. The
synchronous code between two operations is the Lean function `next`.

Nothing here depends on a particular set of operations: the operations, their
answers and the exceptions are parameters.
-/

namespace AfriPay.Calls

/-- A call in progress, over operations `Op` answered in `Ans`, exceptions `ε`
and result `α`. -/
inductive Prog (Op : Type) (Ans : Op → Type) (ε α : Type) where
  | ret (a : α)
  | fail (e : ε)
  | act (op : Op) (next : Ans op → Prog Op Ans ε α)

namespace Prog

variable {Op : Type} {Ans : Op → Type} {ε α β γ : Type}

/-- Sequencing: run `p`, then `f` on its result. -/
def bind (f : α → Prog Op Ans ε β) : Prog Op Ans ε α → Prog Op Ans ε β
  | ret a => f a
  | fail e => fail e
  | act op next => act op fun ans => bind f (next ans)

/-- `try { p } catch (e) { h(e) }`. -/
def catchWith (h : ε → Prog Op Ans ε α) : Prog Op Ans ε α → Prog Op Ans ε α
  | ret a => ret a
  | fail e => h e
  | act op next => act op fun ans => catchWith h (next ans)

instance : Monad (Prog Op Ans ε) where
  pure := ret
  bind p f := bind f p

instance : MonadExceptOf ε (Prog Op Ans ε) where
  throw := fail
  tryCatch p h := catchWith h p

/-- Await one operation. -/
def await (op : Op) : Prog Op Ans ε (Ans op) := act op ret

/-- A call over some operations as a call over more: `inj` names the operation
among the others and `back` reads its answer. -/
def embed {Op' : Type} {Ans' : Op' → Type} (inj : Op → Op') (back : ∀ op, Ans' (inj op) → Ans op) :
    Prog Op Ans ε α → Prog Op' Ans' ε α
  | ret a => ret a
  | fail e => fail e
  | act op next => act (inj op) fun ans => embed inj back (next (back op ans))

/-- Synchronous code that may throw. -/
def ofExcept : Except ε α → Prog Op Ans ε α
  | .ok a => ret a
  | .error e => fail e

@[simp] theorem pure_eq (a : α) : (Pure.pure a : Prog Op Ans ε α) = ret a := rfl
@[simp] theorem ret_bind (a : α) (f : α → Prog Op Ans ε β) : (ret a >>= f) = f a := rfl
@[simp] theorem fail_bind (e : ε) (f : α → Prog Op Ans ε β) : (fail e >>= f) = fail e := rfl
@[simp] theorem act_bind (op : Op) (next : Ans op → Prog Op Ans ε α) (f : α → Prog Op Ans ε β) :
    (act op next >>= f) = act op fun ans => next ans >>= f := rfl
@[simp] theorem await_bind (op : Op) (f : Ans op → Prog Op Ans ε β) : (await op >>= f) = act op f := rfl
@[simp] theorem ofExcept_ok (a : α) : (ofExcept (.ok a) : Prog Op Ans ε α) = ret a := rfl
@[simp] theorem ofExcept_error (e : ε) : (ofExcept (.error e) : Prog Op Ans ε α) = fail e := rfl

/-- Synchronous code runs on in one piece. -/
theorem ofExcept_bind (x : Except ε α) (f : α → Except ε β) :
    (ofExcept (x >>= f) : Prog Op Ans ε β) = ofExcept x >>= fun a => ofExcept (f a) := by
  cases x <;> rfl

@[simp] theorem embed_bind {Op' : Type} {Ans' : Op' → Type} {inj : Op → Op'} {back : ∀ op, Ans' (inj op) → Ans op}
    (p : Prog Op Ans ε α) (f : α → Prog Op Ans ε β) :
    embed inj back (p >>= f) = embed inj back p >>= fun a => embed inj back (f a) := by
  induction p with
  | ret a => rfl
  | fail e => rfl
  | act op next ih => exact congrArg (act (inj op)) (funext fun ans => ih (back op ans))

@[simp] theorem embed_ofExcept {Op' : Type} {Ans' : Op' → Type} {inj : Op → Op'} {back : ∀ op, Ans' (inj op) → Ans op}
    (x : Except ε α) : embed inj back (ofExcept x : Prog Op Ans ε α) = ofExcept x := by
  cases x <;> rfl

theorem bind_ret (p : Prog Op Ans ε α) : (p >>= ret) = p := by
  induction p with
  | ret a => rfl
  | fail e => rfl
  | act op next ih => exact congrArg (act op) (funext ih)

theorem bind_assoc (p : Prog Op Ans ε α) (f : α → Prog Op Ans ε β) (g : β → Prog Op Ans ε γ) :
    (p >>= f >>= g) = p >>= fun a => f a >>= g := by
  induction p with
  | ret a => rfl
  | fail e => rfl
  | act op next ih => exact congrArg (act op) (funext ih)

instance : LawfulMonad (Prog Op Ans ε) :=
  LawfulMonad.mk' _ bind_ret (fun _ _ => rfl) bind_assoc

end Prog

end AfriPay.Calls
