import Mathlib.Algebra.Order.Ring.Int
import Mathlib.Logic.Function.Basic

/-!
# Soroban invocations

What a contract sees of its surroundings in one invocation, and what the host
does with the outcome: an error or a trap undoes everything. Tokens are taken to
move exactly the requested amount or to refuse, which traps. Addresses are a
parameter; storage entries do not expire.
-/

namespace AfriPay.Soroban

/-- Why an invocation fails: with an error of the contract, or in the host (no
authorization, a refused transfer, an overflow). -/
inductive Fault (ε : Type) where
  | error (e : ε)
  | trap
  deriving DecidableEq

/-- A token transfer. Amounts are `i128` and may come as any integer. -/
structure Transfer (Addr : Type) where
  asset : Addr
  source : Addr
  target : Addr
  amount : Int
  deriving DecidableEq

/-- The surroundings of one invocation: the ledger's time, the addresses that
authorized it, and the transfers the tokens agree to. -/
structure Env (Addr : Type) where
  timestamp : Nat
  auth : Addr → Bool
  accepts : Transfer Addr → Bool

variable {Addr ε σ α β : Type}

def ensure (cond : Prop) [Decidable cond] (e : ε) : Except (Fault ε) Unit := if cond then .ok () else .error (.error e)

/-- `address.require_auth()` -/
def requireAuth (env : Env Addr) (address : Addr) : Except (Fault ε) Unit :=
  if env.auth address then .ok () else .error .trap

/-- `n + 1` for a `u64`, built with overflow checks. -/
def checkedSucc (n : Nat) : Except (Fault ε) Nat := if n + 1 < 2 ^ 64 then .ok (n + 1) else .error .trap

/-- A value the contract must find, or its error. -/
def okOr (e : ε) : Option α → Except (Fault ε) α
  | some a => .ok a
  | none => .error (.error e)

/-- The state after an invocation: that of before if it failed. -/
def commit (s : σ) : Except (Fault ε) (α × σ) → σ
  | .ok (_, s') => s'
  | .error _ => s

/-! ## Tokens -/

/-- Balances by asset and holder, and the transfers made, newest first. -/
structure Tokens (Addr : Type) where
  balance : Addr → Addr → Int
  transfers : List (Transfer Addr)

variable [DecidableEq Addr]

/-- What a transfer adds to a balance. -/
def Transfer.delta (t : Transfer Addr) (asset holder : Addr) : Int :=
  (if asset = t.asset ∧ holder = t.target then t.amount else 0) - (if asset = t.asset ∧ holder = t.source then t.amount else 0)

def Tokens.move (tokens : Tokens Addr) (t : Transfer Addr) : Tokens Addr :=
  ⟨fun asset holder => tokens.balance asset holder + t.delta asset holder, t :: tokens.transfers⟩

/-- `token::Client::transfer` -/
def Tokens.transfer (env : Env Addr) (tokens : Tokens Addr) (t : Transfer Addr) : Except (Fault ε) (Tokens Addr) :=
  if env.accepts t then .ok (tokens.move t) else .error .trap

/-- Tokens let the contract's transfers through when it has the funds. -/
def Able (contract : Addr) (tokens : Tokens Addr) (env : Env Addr) : Prop :=
  ∀ t : Transfer Addr, t.source = contract → t.amount ≤ tokens.balance t.asset contract → env.accepts t = true

/-! ## What success says -/

theorem bind_ok {x : Except (Fault ε) α} {f : α → Except (Fault ε) β} {b : β} (h : x >>= f = .ok b) :
    ∃ a, x = .ok a ∧ f a = .ok b := by
  cases x with
  | error e => cases h
  | ok a => exact ⟨a, rfl, h⟩

theorem ensure_ok {cond : Prop} [Decidable cond] {e : ε} {u : Unit} (h : ensure cond e = .ok u) : cond := by
  unfold ensure at h
  split at h
  · rename_i holds; exact holds
  · cases h

omit [DecidableEq Addr] in
theorem requireAuth_ok {env : Env Addr} {address : Addr} {u : Unit}
    (h : (requireAuth env address : Except (Fault ε) Unit) = .ok u) : env.auth address = true := by
  unfold requireAuth at h
  split at h
  · rename_i auth; exact auth
  · cases h

theorem checkedSucc_ok {n m : Nat} (h : (checkedSucc n : Except (Fault ε) Nat) = .ok m) : m = n + 1 := by
  unfold checkedSucc at h
  split at h
  · cases h; rfl
  · cases h

theorem okOr_ok {o : Option α} {e : ε} {a : α} (h : okOr e o = .ok a) : o = some a := by
  cases o with
  | none => cases h
  | some b => cases h; rfl

/-! ## What failure says -/

theorem bind_error {x : Except (Fault ε) α} {f : α → Except (Fault ε) β} {fault : Fault ε} (h : x >>= f = .error fault) :
    x = .error fault ∨ ∃ a, x = .ok a ∧ f a = .error fault := by
  cases x with
  | error e => cases h; exact .inl rfl
  | ok a => exact .inr ⟨a, rfl, h⟩

theorem ensure_untrapped {cond : Prop} [Decidable cond] {e : ε} : ensure cond e ≠ .error .trap := by
  unfold ensure
  split <;> exact nofun

theorem okOr_untrapped {o : Option α} {e : ε} : okOr e o ≠ .error .trap := by
  cases o <;> exact nofun

omit [DecidableEq Addr] in
theorem requireAuth_trapped {env : Env Addr} {address : Addr} (h : (requireAuth env address : Except (Fault ε) Unit) = .error .trap) :
    env.auth address = false := by
  cases auth : env.auth address with
  | false => rfl
  | true =>
    rw [requireAuth, if_pos auth] at h
    cases h

/-! ## Transfers -/

theorem Tokens.transfer_ok {env : Env Addr} {tokens tokens' : Tokens Addr} {t : Transfer Addr}
    (h : (tokens.transfer env t : Except (Fault ε) (Tokens Addr)) = .ok tokens') : tokens' = tokens.move t := by
  unfold Tokens.transfer at h
  split at h
  · cases h; rfl
  · cases h

theorem Tokens.transfer_accepts {env : Env Addr} {tokens tokens' : Tokens Addr} {t : Transfer Addr}
    (h : (tokens.transfer env t : Except (Fault ε) (Tokens Addr)) = .ok tokens') : env.accepts t = true := by
  unfold Tokens.transfer at h
  split at h
  · rename_i accepts; exact accepts
  · cases h

/-! ## What success needs -/

theorem ok_bind (a : α) (f : α → Except (Fault ε) β) : ((.ok a : Except (Fault ε) α) >>= f) = f a := rfl

theorem ensure_of {cond : Prop} [Decidable cond] (holds : cond) (e : ε) : ensure cond e = .ok () := if_pos holds

theorem ensure_not {cond : Prop} [Decidable cond] (fails : ¬cond) (e : ε) : ensure cond e = .error (.error e) := if_neg fails

omit [DecidableEq Addr] in
theorem requireAuth_of {env : Env Addr} {address : Addr} (auth : env.auth address = true) :
    (requireAuth env address : Except (Fault ε) Unit) = .ok () := if_pos auth

theorem okOr_some (e : ε) (a : α) : okOr e (some a) = .ok a := rfl

theorem Tokens.transfer_of {env : Env Addr} {t : Transfer Addr} (tokens : Tokens Addr) (accepts : env.accepts t = true) :
    (tokens.transfer env t : Except (Fault ε) (Tokens Addr)) = .ok (tokens.move t) := if_pos accepts

/-! ## What a transfer moves -/

/-- A transfer to someone else costs its source the amount. -/
theorem Transfer.delta_source {t : Transfer Addr} (other : t.target ≠ t.source) (asset : Addr) :
    t.delta asset t.source = if asset = t.asset then -t.amount else 0 := by
  unfold Transfer.delta
  by_cases same : asset = t.asset <;> simp [same, Ne.symm other]

theorem Transfer.delta_target {t : Transfer Addr} (other : t.source ≠ t.target) (asset : Addr) :
    t.delta asset t.target = if asset = t.asset then t.amount else 0 := by
  unfold Transfer.delta
  by_cases same : asset = t.asset <;> simp [same, Ne.symm other]

/-- A transfer to oneself changes nothing. -/
theorem Transfer.delta_self {t : Transfer Addr} (self : t.target = t.source) (asset holder : Addr) : t.delta asset holder = 0 := by
  unfold Transfer.delta
  rw [self, sub_self]

end AfriPay.Soroban
