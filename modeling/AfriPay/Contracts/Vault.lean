import AfriPay.Soroban.History
import AfriPay.Soroban.I128

/-!
# The vault contract (`contracts/vault/src/lib.rs`)

Balances are kept per user and bear interest at one fixed rate, which is accrued
in every operation before anything else. No tokens move.
-/

namespace AfriPay.VaultContract
open Soroban

inductive Error where
  | alreadyInitialized
  | notInitialized
  | invalidAmount
  | insufficientBalance
  | arithmeticOverflow
  deriving DecidableEq

structure VaultAccount where
  balance : Int
  lastUpdated : Nat
  deriving DecidableEq

/-- The contract's storage. -/
structure State (Addr : Type) where
  yieldRateBps : Option Nat
  accounts : Addr → Option VaultAccount

/-- A contract that has just been deployed. -/
def State.initial {Addr : Type} : State Addr := ⟨none, fun _ => none⟩

def secondsPerYear : Nat := 365 * 24 * 60 * 60

def bpsDenominator : Int := 10000

variable {Addr : Type} [DecidableEq Addr]

/-- `initialize` -/
def initializeContract (yieldRateBps : Nat) (s : State Addr) : Except (Fault Error) (Unit × State Addr) := do
  ensure (s.yieldRateBps = none) .alreadyInitialized
  return ((), { s with yieldRateBps := some yieldRateBps })

def accrue (env : Env Addr) (user : Addr) (s : State Addr) : Except (Fault Error) VaultAccount := do
  let yieldRateBps ← okOr .notInitialized s.yieldRateBps
  let now := env.timestamp
  let account := (s.accounts user).getD { balance := 0, lastUpdated := now }
  -- subtraction on `Nat` saturates as `saturating_sub` does
  let elapsed := now - account.lastUpdated
  if 0 < elapsed ∧ 0 < account.balance then
    let product ← okOr .arithmeticOverflow ((checkedMul account.balance yieldRateBps).bind fun value => checkedMul value elapsed)
    let denominator ← trapping (bpsDenominator * secondsPerYear)
    let interest ← divI128 product denominator
    let balance ← okOr .arithmeticOverflow (checkedAdd account.balance interest)
    return { balance, lastUpdated := now }
  else
    return { account with lastUpdated := now }

def deposit (env : Env Addr) (user : Addr) (amount : Int) (s : State Addr) : Except (Fault Error) (Int × State Addr) := do
  ensure (0 < amount) .invalidAmount
  requireAuth env user
  let account ← accrue env user s
  let balance ← okOr .arithmeticOverflow (checkedAdd account.balance amount)
  let account : VaultAccount := { balance, lastUpdated := env.timestamp }
  return (account.balance, { s with accounts := Function.update s.accounts user (some account) })

def withdraw (env : Env Addr) (user : Addr) (amount : Int) (s : State Addr) : Except (Fault Error) (Int × State Addr) := do
  ensure (0 < amount) .invalidAmount
  requireAuth env user
  let account ← accrue env user s
  ensure (¬account.balance < amount) .insufficientBalance
  let balance ← trapping (account.balance - amount)
  let account : VaultAccount := { balance, lastUpdated := env.timestamp }
  return (account.balance, { s with accounts := Function.update s.accounts user (some account) })

def balanceOf (env : Env Addr) (user : Addr) (s : State Addr) : Except (Fault Error) (Int × State Addr) := do
  let account ← accrue env user s
  return (account.balance, s)

/-! ## Runs -/

inductive Call (Addr : Type) where
  | initializeContract (yieldRateBps : Nat)
  | deposit (user : Addr) (amount : Int)
  | withdraw (user : Addr) (amount : Int)
  | balanceOf (user : Addr)

/-- A call with the balance it returns, if any. -/
def Call.exec (env : Env Addr) (call : Call Addr) (s : State Addr) : Except (Fault Error) (Option Int × State Addr) :=
  match call with
  | .initializeContract yieldRateBps => answering (fun _ => none) (VaultContract.initializeContract yieldRateBps s)
  | .deposit user amount => answering some (VaultContract.deposit env user amount s)
  | .withdraw user amount => answering some (VaultContract.withdraw env user amount s)
  | .balanceOf user => answering some (VaultContract.balanceOf env user s)

abbrev Invocation (Addr : Type) := Soroban.Invocation Addr (Call Addr) (Option Int) (State Addr)

abbrev History (Addr : Type) := Soroban.History Addr (Call Addr) (Option Int) (State Addr)

/-- The history of a contract that was called like this, oldest call first. -/
def run (calls : List (Env Addr × Call Addr)) : History Addr := Soroban.History.run Call.exec ⟨.initial, []⟩ calls

end AfriPay.VaultContract
