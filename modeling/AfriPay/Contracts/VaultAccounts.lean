import Mathlib.Algebra.Order.BigOperators.Group.List
import AfriPay.Contracts.Vault
import AfriPay.Ledger.Trail

/-!
# The accounts of the vault

A balance is what its user deposited, less what they withdrew, plus interest.
Interest is computed by a product of three factors, and where that leaves the
range of `i128` the operation fails.
-/

namespace AfriPay.VaultContract
open Soroban Ledger

variable {Addr : Type}

/-! ## Interest -/

/-- A stored balance; nothing for a user without an account. -/
def balanceIn (s : State Addr) (user : Addr) : Int := (s.accounts user).elim 0 VaultAccount.balance

/-- The balance times the rate times the seconds since the last update. -/
def accrued (s : State Addr) (user : Addr) (now : Nat) : Int :=
  balanceIn s user * (s.yieldRateBps.getD 0 : Nat) * ((s.accounts user).elim 0 fun a => now - a.lastUpdated : Nat)

/-- What accruing adds to a balance. -/
def owed (s : State Addr) (user : Addr) (now : Nat) : Int := accrued s user now / (bpsDenominator * secondsPerYear)

/-- The computation of the interest stays in range. -/
def Fits (s : State Addr) (user : Addr) (now : Nat) : Prop :=
  accrued s user now ≤ i128Max ∧ balanceIn s user + owed s user now ≤ i128Max

instance (s : State Addr) (user : Addr) (now : Nat) : Decidable (Fits s user now) := inferInstanceAs (Decidable (_ ∧ _))

/-- What holds of the stored accounts at a time. -/
def Sane (now : Nat) (s : State Addr) : Prop :=
  ∀ user a, s.accounts user = some a → 0 ≤ a.balance ∧ a.balance ≤ i128Max ∧ a.lastUpdated ≤ now

section Interest

variable {s : State Addr} {user : Addr} {now t : Nat} {env : Env Addr}

theorem Sane.later {t' : Nat} (sane : Sane t s) (le : t ≤ t') : Sane t' s := by
  intro user a here
  obtain ⟨nonneg, top, since⟩ := sane user a here
  exact ⟨nonneg, top, le_trans since le⟩

theorem Sane.balance (sane : Sane t s) : 0 ≤ balanceIn s user ∧ balanceIn s user ≤ i128Max := by
  unfold balanceIn
  cases here : s.accounts user with
  | none => exact ⟨le_refl 0, by decide⟩
  | some a =>
    obtain ⟨nonneg, top, -⟩ := sane user a here
    exact ⟨nonneg, top⟩

theorem Sane.accrued_nonneg (sane : Sane t s) : 0 ≤ accrued s user now :=
  mul_nonneg (mul_nonneg sane.balance.1 (Int.natCast_nonneg _)) (Int.natCast_nonneg _)

theorem yearly_pos : 0 < bpsDenominator * secondsPerYear := by decide

theorem Sane.owed_nonneg (sane : Sane t s) : 0 ≤ owed s user now := Int.ediv_nonneg sane.accrued_nonneg yearly_pos.le

/-- Nothing is owed on an empty balance, or without waiting. -/
theorem Fits.idle (sane : Sane t s) (idle : accrued s user now = 0) : Fits s user now ∧ owed s user now = 0 := by
  have nothing : owed s user now = 0 := by rw [owed, idle, Int.zero_ediv]
  refine ⟨⟨?_, ?_⟩, nothing⟩
  · rw [idle]
    decide
  · rw [nothing, add_zero]
    exact sane.balance.2

/-- The product is computed from left to right; where it fits, so does its first step. -/
theorem product_eq {b : Int} {r e : Nat} (nonneg : 0 ≤ b) (wait : 0 < e) :
    ((checkedMul b r).bind fun value => checkedMul value e) = if b * r * e ≤ i128Max then some (b * r * e) else none := by
  have first : 0 ≤ b * r := mul_nonneg nonneg (Int.natCast_nonneg r)
  have both : 0 ≤ b * r * e := mul_nonneg first (Int.natCast_nonneg e)
  have grows : b * r ≤ b * r * e := le_mul_of_one_le_right first (by omega)
  unfold checkedMul
  by_cases fits : b * r * e ≤ i128Max
  · rw [if_pos fits, if_pos ((inI128_of_nonneg first).2 (le_trans grows fits)), Option.bind_some,
      if_pos ((inI128_of_nonneg both).2 fits)]
  · rw [if_neg fits]
    by_cases start : InI128 (b * r)
    · rw [if_pos start, Option.bind_some, if_neg (fun h => fits h.2)]
    · rw [if_neg start, Option.bind_none]

theorem okOr_ite {ε α : Type} (cond : Prop) [Decidable cond] (a : α) (e : ε) :
    okOr e (if cond then some a else none) = if cond then .ok a else .error (.error e) := by
  split <;> rfl

/-- Interest on a balance that bears some: the sum, or an overflow. -/
theorem bearing {b : Int} {r e now : Nat} (nonneg : 0 ≤ b) (wait : 0 < e) :
    (do
      let product ← okOr Error.arithmeticOverflow ((checkedMul b r).bind fun value => checkedMul value e)
      let denominator ← trapping (bpsDenominator * secondsPerYear)
      let interest ← divI128 product denominator
      let balance ← okOr .arithmeticOverflow (checkedAdd b interest)
      return ({ balance, lastUpdated := now } : VaultAccount)) =
    if b * r * e ≤ i128Max ∧ b + b * r * e / (bpsDenominator * secondsPerYear) ≤ i128Max
      then .ok ⟨b + b * r * e / (bpsDenominator * secondsPerYear), now⟩ else .error (.error .arithmeticOverflow) := by
  have product : 0 ≤ b * r * e := mul_nonneg (mul_nonneg nonneg (Int.natCast_nonneg r)) (Int.natCast_nonneg e)
  have interest : 0 ≤ b * r * e / (bpsDenominator * secondsPerYear) := Int.ediv_nonneg product yearly_pos.le
  rw [product_eq nonneg wait, okOr_ite]
  by_cases fits : b * r * e ≤ i128Max
  · rw [if_pos fits, ok_bind, trapping_of (by decide), ok_bind, divI128_of product ((inI128_of_nonneg product).2 fits) yearly_pos, ok_bind]
    unfold checkedAdd
    rw [okOr_ite]
    have range := inI128_of_nonneg (add_nonneg nonneg interest)
    by_cases top : b + b * r * e / (bpsDenominator * secondsPerYear) ≤ i128Max
    · rw [if_pos (range.2 top), if_pos ⟨fits, top⟩]
      rfl
    · rw [if_neg fun h => top (range.1 h), if_neg fun h => top h.2]
      rfl
  · rw [if_neg fits, if_neg fun h => fits h.1]
    rfl

/-- Accruing adds what is owed, or overflows; it never traps. -/
theorem accrue_eq {r : Nat} (rate : s.yieldRateBps = some r) (sane : Sane t s) (user : Addr) :
    accrue env user s = if Fits s user env.timestamp then .ok ⟨balanceIn s user + owed s user env.timestamp, env.timestamp⟩
      else .error (.error .arithmeticOverflow) := by
  -- the account the contract works on
  obtain ⟨a, given⟩ : ∃ a, (s.accounts user).getD { balance := 0, lastUpdated := env.timestamp } = a := ⟨_, rfl⟩
  have balance : balanceIn s user = a.balance := by
    rw [← given, balanceIn]
    cases s.accounts user <;> rfl
  have elapsed : ((s.accounts user).elim 0 fun a => env.timestamp - a.lastUpdated) = env.timestamp - a.lastUpdated := by
    rw [← given]
    cases s.accounts user with
    | none => exact (Nat.sub_self _).symm
    | some a => rfl
  have product : accrued s user env.timestamp = a.balance * r * (env.timestamp - a.lastUpdated : Nat) := by
    rw [accrued, balance, elapsed, rate]
    rfl
  have nonneg : 0 ≤ a.balance := balance ▸ sane.balance.1
  unfold accrue
  rw [rate, okOr_some, ok_bind]
  dsimp only
  rw [given]
  by_cases active : 0 < env.timestamp - a.lastUpdated ∧ 0 < a.balance
  · simp only [if_pos active, bearing nonneg active.1, Fits, owed, balance, product]
  · have idle : accrued s user env.timestamp = 0 := by
      rw [product]
      rcases not_and_or.1 active with soon | empty
      · rw [Nat.eq_zero_of_not_pos soon, Int.natCast_zero, mul_zero]
      · rw [le_antisymm (not_lt.1 empty) nonneg, zero_mul, zero_mul]
    obtain ⟨fits, nothing⟩ := Fits.idle sane idle
    simp only [if_neg active, if_pos fits, nothing, balance, add_zero]
    rfl

end Interest

/-! ## What operations do -/

/-- The user whose account an invocation changed. -/
def userOf (x : Invocation Addr) : Option Addr :=
  match x.call with
  | .deposit user _ | .withdraw user _ => some user
  | _ => none

def deposited (x : Invocation Addr) : Int :=
  match x.call with
  | .deposit _ amount => amount
  | _ => 0

def withdrawn (x : Invocation Addr) : Int :=
  match x.call with
  | .withdraw _ amount => amount
  | _ => 0

/-- The interest an invocation credited, on the account it found. -/
def interest (x : Invocation Addr) : Int :=
  match x.call with
  | .deposit user _ | .withdraw user _ => owed x.before user x.env.timestamp
  | _ => 0

/-- What a successful invocation makes of an account. -/
def Does (x : Invocation Addr) (o : Option VaultAccount) (a : VaultAccount) : Prop :=
  a.balance = o.elim 0 VaultAccount.balance + deposited x - withdrawn x + interest x

section Operations

variable [DecidableEq Addr] {env : Env Addr} {s s' : State Addr} {user : Addr} {amount b : Int} {t : Nat}

omit [DecidableEq Addr] in
theorem accrue_ok {a : VaultAccount} (sane : Sane t s) (h : accrue env user s = .ok a) :
    s.yieldRateBps ≠ none ∧ Fits s user env.timestamp ∧ a = ⟨balanceIn s user + owed s user env.timestamp, env.timestamp⟩ := by
  cases rate : s.yieldRateBps with
  | none =>
    rw [accrue, rate] at h
    cases h
  | some r =>
    rw [accrue_eq rate sane] at h
    split at h
    · rename_i fits
      cases h
      exact ⟨nofun, fits, rfl⟩
    · cases h

theorem deposit_ok (sane : Sane t s) (h : deposit env user amount s = .ok (b, s')) :
    s.yieldRateBps ≠ none ∧ 0 ≤ b ∧ b ≤ i128Max ∧ b = balanceIn s user + amount + owed s user env.timestamp ∧
      s' = { s with accounts := Function.update s.accounts user (some ⟨b, env.timestamp⟩) } := by
  obtain ⟨_, positive, h⟩ := bind_ok h
  obtain ⟨_, -, h⟩ := bind_ok h
  obtain ⟨a, accrued, h⟩ := bind_ok h
  obtain ⟨rated, -, rfl⟩ := accrue_ok sane accrued
  obtain ⟨sum, added, h⟩ := bind_ok h
  obtain ⟨total, fits⟩ := checkedAdd_some (okOr_ok added)
  cases h
  dsimp only at total fits ⊢
  have positive := ensure_ok positive
  have balance : 0 ≤ balanceIn s user := sane.balance.1
  have interest : 0 ≤ owed s user env.timestamp := sane.owed_nonneg
  exact ⟨rated, by omega, fits.2, by omega, rfl⟩

theorem withdraw_ok (sane : Sane t s) (h : withdraw env user amount s = .ok (b, s')) :
    s.yieldRateBps ≠ none ∧ 0 ≤ b ∧ b ≤ i128Max ∧ b = balanceIn s user - amount + owed s user env.timestamp ∧
      s' = { s with accounts := Function.update s.accounts user (some ⟨b, env.timestamp⟩) } := by
  obtain ⟨_, positive, h⟩ := bind_ok h
  obtain ⟨_, -, h⟩ := bind_ok h
  obtain ⟨a, accrued, h⟩ := bind_ok h
  obtain ⟨rated, fits, rfl⟩ := accrue_ok sane accrued
  obtain ⟨_, enough, h⟩ := bind_ok h
  obtain ⟨rest, left, h⟩ := bind_ok h
  have difference := trapping_ok left
  cases h
  dsimp only at difference enough ⊢
  have positive := ensure_ok positive
  have enough := ensure_ok enough
  have top := fits.2
  exact ⟨rated, by omega, by omega, by omega, rfl⟩

omit [DecidableEq Addr] in
/-- Accruing does not trap. -/
theorem accrue_untrapped (sane : Sane t s) : accrue env user s ≠ .error .trap := by
  intro h
  cases rate : s.yieldRateBps with
  | none =>
    rw [accrue, rate] at h
    cases h
  | some r =>
    rw [accrue_eq rate sane] at h
    split at h <;> cases h

omit [DecidableEq Addr] in
/-- Withdrawing no more than an accrued balance does not leave the range. -/
theorem remainder_fits {a : VaultAccount} (sane : Sane t s) (accrued : accrue env user s = .ok a) (positive : 0 < amount)
    (enough : ¬a.balance < amount) : InI128 (a.balance - amount) := by
  obtain ⟨-, ⟨-, top⟩, rfl⟩ := accrue_ok sane accrued
  dsimp only at enough ⊢
  refine (inI128_of_nonneg ?_).2 ?_ <;> omega

end Operations

/-! ## Runs -/

/-- The sum of what the invocations about a user's account did. -/
def sumOf [DecidableEq Addr] (f : Invocation Addr → Int) (user : Addr) (log : List (Invocation Addr)) : Int :=
  ((about userOf user log).map f).sum

/-- What holds of a history at the time `now`. -/
structure Kept [DecidableEq Addr] (now : Nat) (w : History Addr) : Prop where
  sane : Sane now w.state
  traced : Traced userOf Does w.log w.state.accounts
  fair : ∀ x ∈ w.log, 0 ≤ interest x
  rated : w.state.yieldRateBps = none → ∀ user, w.state.accounts user = none

section Runs

variable [DecidableEq Addr] {w : History Addr} {env : Env Addr} {call : Call Addr} {reply : Option Int} {s : State Addr} {t now : Nat}
  {user : Addr}

omit [DecidableEq Addr] in
/-- A trail sums up what its events did. -/
theorem trail_sum {log : List (Invocation Addr)} {o : Option VaultAccount} (trail : Trail Does log o) :
    o.elim 0 VaultAccount.balance = (log.map deposited).sum - (log.map withdrawn).sum + (log.map interest).sum := by
  induction trail with
  | nil => rfl
  | @cons x log before after earlier does ih =>
    have balance : after.balance = before.elim 0 VaultAccount.balance + deposited x - withdrawn x + interest x := does
    simp only [Option.elim_some, List.map_cons, List.sum_cons]
    omega

theorem Kept.balance (kept : Kept now w) (user : Addr) :
    balanceIn w.state user = sumOf deposited user w.log - sumOf withdrawn user w.log + sumOf interest user w.log :=
  trail_sum (kept.traced user)

theorem Kept.credited_nonneg (kept : Kept now w) (user : Addr) : 0 ≤ sumOf interest user w.log := by
  refine List.sum_nonneg fun i mem => ?_
  obtain ⟨x, member, rfl⟩ := List.mem_map.1 mem
  exact kept.fair x (List.mem_of_mem_filter member)

/-- An account is written at the time of the call. -/
theorem Kept.write {b : Int} (kept : Kept env.timestamp w) (own : userOf (⟨env, call, reply, w.state, s⟩ : Invocation Addr) = some user)
    (fair : interest (⟨env, call, reply, w.state, s⟩ : Invocation Addr) = owed w.state user env.timestamp)
    (rated : w.state.yieldRateBps ≠ none) (nonneg : 0 ≤ b) (top : b ≤ i128Max)
    (does : b = balanceIn w.state user + deposited (⟨env, call, reply, w.state, s⟩ : Invocation Addr)
      - withdrawn (⟨env, call, reply, w.state, s⟩ : Invocation Addr) + owed w.state user env.timestamp)
    (after : s = { w.state with accounts := Function.update w.state.accounts user (some ⟨b, env.timestamp⟩) }) :
    Kept env.timestamp ⟨s, ⟨env, call, reply, w.state, s⟩ :: w.log⟩ := by
  have accounts : s.accounts = Function.update w.state.accounts user (some ⟨b, env.timestamp⟩) := by rw [after]
  have rate : s.yieldRateBps = w.state.yieldRateBps := by rw [after]
  refine ⟨?_, Deals.traced ?_ kept.traced, fun x mem => ?_, fun none => (rated (rate.symm.trans none)).elim⟩
  · unfold Sane
    rw [accounts]
    exact Register.forall_update kept.sane ⟨nonneg, top, le_refl _⟩
  · show Deals _ _ _ _ s.accounts
    rw [accounts]
    refine .does own ?_
    unfold Does
    rw [fair]
    exact does
  · rcases List.mem_cons.1 mem with rfl | mem
    · rw [fair]
      exact kept.sane.owed_nonneg
    · exact kept.fair x mem

theorem Kept.step (kept : Kept env.timestamp w) (h : call.exec env w.state = .ok (reply, s)) :
    Kept env.timestamp ⟨s, ⟨env, call, reply, w.state, s⟩ :: w.log⟩ := by
  -- the calls that write no account
  have still : s.accounts = w.state.accounts → (s.yieldRateBps = none → w.state.yieldRateBps = none) →
      userOf (⟨env, call, reply, w.state, s⟩ : Invocation Addr) = none →
      interest (⟨env, call, reply, w.state, s⟩ : Invocation Addr) = 0 →
      Kept env.timestamp ⟨s, ⟨env, call, reply, w.state, s⟩ :: w.log⟩ := by
    intro same rate idle none
    refine ⟨?_, ?_, fun x mem => ?_, fun h => ?_⟩
    · unfold Sane
      rw [same]
      exact kept.sane
    · refine Deals.traced ?_ kept.traced
      show Deals _ _ _ _ s.accounts
      rw [same]
      exact .idle idle
    · rcases List.mem_cons.1 mem with rfl | mem
      · exact none.ge
      · exact kept.fair x mem
    · rw [same]
      exact kept.rated (rate h)
  cases call with
  | initializeContract rate =>
    obtain ⟨_, ran, rfl⟩ := answering_ok h
    obtain ⟨_, -, ran⟩ := bind_ok ran
    cases ran
    exact still rfl nofun rfl rfl
  | balanceOf user =>
    obtain ⟨_, ran, rfl⟩ := answering_ok h
    obtain ⟨_, -, ran⟩ := bind_ok ran
    cases ran
    exact still rfl (fun h => h) rfl rfl
  | deposit user amount =>
    obtain ⟨b, ran, rfl⟩ := answering_ok h
    obtain ⟨rated, nonneg, top, sum, after⟩ := deposit_ok kept.sane ran
    exact kept.write rfl rfl rated nonneg top (by simp only [deposited, withdrawn]; omega) after
  | withdraw user amount =>
    obtain ⟨b, ran, rfl⟩ := answering_ok h
    obtain ⟨rated, nonneg, top, sum, after⟩ := withdraw_ok kept.sane ran
    exact kept.write rfl rfl rated nonneg top (by simp only [deposited, withdrawn]; omega) after

theorem Kept.later (le : t ≤ now) (kept : Kept t w) : Kept now w := ⟨kept.sane.later le, kept.traced, kept.fair, kept.rated⟩

theorem kept_run {calls : List (Env Addr × Call Addr)} (timely : Timely 0 now calls) : Kept now (run calls) :=
  Soroban.History.run_keeps (fun le kept => kept.later le) (fun kept ran => kept.step ran)
    (⟨fun _ _ => nofun, .initial, fun _ => nofun, fun _ _ => rfl⟩ : Kept 0 ⟨.initial, []⟩) timely (Nat.zero_le now)

omit [DecidableEq Addr] in
theorem answering_error {α R : Type} {reply : α → R} {x : Except (Fault Error) (α × State Addr)} {fault : Fault Error}
    (h : answering reply x = .error fault) : x = .error fault := by
  cases x with
  | error e => cases h; rfl
  | ok x => cases h

/-- No operation traps except for want of authorization. -/
theorem Kept.untrapped (kept : Kept t w) (trapped : call.exec env w.state = .error .trap) :
    ∃ user amount, (call = .deposit user amount ∨ call = .withdraw user amount) ∧ env.auth user = false := by
  cases call with
  | initializeContract rate =>
    rcases bind_error (answering_error trapped) with h | ⟨_, -, ⟨⟩⟩
    exact (ensure_untrapped h).elim
  | balanceOf user =>
    rcases bind_error (answering_error trapped) with h | ⟨_, -, ⟨⟩⟩
    exact (accrue_untrapped kept.sane h).elim
  | deposit user amount =>
    refine ⟨user, amount, .inl rfl, ?_⟩
    rcases bind_error (answering_error trapped) with h | ⟨_, -, h⟩
    · exact (ensure_untrapped h).elim
    rcases bind_error h with h | ⟨_, -, h⟩
    · exact requireAuth_trapped h
    rcases bind_error h with h | ⟨_, -, h⟩
    · exact (accrue_untrapped kept.sane h).elim
    rcases bind_error h with h | ⟨_, -, ⟨⟩⟩
    exact (okOr_untrapped h).elim
  | withdraw user amount =>
    refine ⟨user, amount, .inr rfl, ?_⟩
    rcases bind_error (answering_error trapped) with h | ⟨_, positive, h⟩
    · exact (ensure_untrapped h).elim
    rcases bind_error h with h | ⟨_, -, h⟩
    · exact requireAuth_trapped h
    rcases bind_error h with h | ⟨a, accrued, h⟩
    · exact (accrue_untrapped kept.sane h).elim
    rcases bind_error h with h | ⟨_, enough, h⟩
    · exact (ensure_untrapped h).elim
    rcases bind_error h with h | ⟨_, -, ⟨⟩⟩
    rw [trapping_of (remainder_fits kept.sane accrued (ensure_ok positive) (ensure_ok enough))] at h
    cases h

end Runs

/-- The user whose account a call is by or about. -/
def Call.user : Call Addr → Option Addr
  | .initializeContract _ => none
  | .deposit user _ | .withdraw user _ | .balanceOf user => some user

/-- The accounts of the history `w` at the time `now`. -/
structure Accounts [DecidableEq Addr] (now : Nat) (w : History Addr) : Prop where
  range : ∀ user a, w.state.accounts user = some a → 0 ≤ a.balance ∧ a.balance ≤ i128Max ∧ a.lastUpdated ≤ now
  sum : ∀ user, balanceIn w.state user = sumOf deposited user w.log - sumOf withdrawn user w.log + sumOf interest user w.log
  fair : ∀ x ∈ w.log, 0 ≤ interest x
  floor : ∀ user, sumOf deposited user w.log - sumOf withdrawn user w.log ≤ balanceIn w.state user
  others : ∀ env call user, call.user ≠ some user → (w.invoke Call.exec env call).state.accounts user = w.state.accounts user
  failing : ∀ env call fault, Call.exec env call w.state = .error fault → w.invoke Call.exec env call = w
  reading : ∀ env user, (w.invoke Call.exec env (.balanceOf user)).state = w.state
  /-- Nothing traps but for want of authorization: overflows surface as errors of the contract. -/
  untrapped : ∀ env call, Call.exec env call w.state = .error .trap →
    ∃ user amount, (call = .deposit user amount ∨ call = .withdraw user amount) ∧ env.auth user = false

section Accounts

variable [DecidableEq Addr] {env : Env Addr} {call : Call Addr} {w : History Addr}

/-- A call changes no account but its user's. -/
theorem exec_others {s s' : State Addr} {reply : Option Int} {user : Addr} (other : call.user ≠ some user)
    {t : Nat} (sane : Sane t s) (h : call.exec env s = .ok (reply, s')) : s'.accounts user = s.accounts user := by
  have update : ∀ {user' : Addr} {a : VaultAccount}, call.user = some user' →
      Function.update s.accounts user' (some a) user = s.accounts user := by
    intro user' a own
    have ne : user ≠ user' := by
      rintro rfl
      exact other own
    exact Function.update_of_ne ne ..
  cases call with
  | initializeContract rate =>
    obtain ⟨_, ran, -⟩ := answering_ok h
    obtain ⟨_, -, ran⟩ := bind_ok ran
    cases ran
    rfl
  | balanceOf user =>
    obtain ⟨_, ran, -⟩ := answering_ok h
    obtain ⟨_, -, ran⟩ := bind_ok ran
    cases ran
    rfl
  | deposit user amount =>
    obtain ⟨_, ran, -⟩ := answering_ok h
    obtain ⟨-, -, -, -, rfl⟩ := deposit_ok sane ran
    exact update rfl
  | withdraw user amount =>
    obtain ⟨_, ran, -⟩ := answering_ok h
    obtain ⟨-, -, -, -, rfl⟩ := withdraw_ok sane ran
    exact update rfl

end Accounts

/-- **The vault keeps its accounts right**, at any time from the last call on. -/
theorem vault_accounting [DecidableEq Addr] (now : Nat) (calls : List (Env Addr × Call Addr)) (timely : Timely 0 now calls) :
    Accounts now (run calls) := by
  have kept := kept_run timely
  refine ⟨kept.sane, kept.balance, kept.fair, fun user => ?_, fun env call user other => ?_,
    fun env call fault failed => Soroban.History.invoke_error failed, fun env user => ?_, fun env call trapped => kept.untrapped trapped⟩
  · have balance := kept.balance user
    have credited := kept.credited_nonneg user
    omega
  · cases ran : call.exec env (run calls).state with
    | error fault => rw [Soroban.History.invoke_error ran]
    | ok out =>
      obtain ⟨reply, s⟩ := out
      rw [Soroban.History.invoke_ok ran]
      exact exec_others other kept.sane ran
  · cases ran : Call.exec env (.balanceOf user) (run calls).state with
    | error fault => rw [Soroban.History.invoke_error ran]
    | ok out =>
      obtain ⟨reply, s⟩ := out
      rw [Soroban.History.invoke_ok ran]
      obtain ⟨_, read, -⟩ := answering_ok ran
      obtain ⟨_, -, read⟩ := bind_ok read
      cases read
      rfl

namespace Sample

def env (now : Nat) : Env Nat := ⟨now, fun a => a = 1, fun _ => true⟩

/-- User 1 deposits a million at ten per cent and withdraws half of it half a year later. User 2 does not authorize. -/
def calls : List (Env Nat × Call Nat) :=
  [(env 0, .initializeContract 1000), (env 5, .deposit 1 1000000), (env 7, .deposit 2 10), (env 15768005, .withdraw 1 500000)]

end Sample

theorem vault_accounting_sample : Accounts 15768005 (run Sample.calls) ∧ balanceIn (run Sample.calls).state 1 = 1000000 - 500000 + 50000 :=
  ⟨vault_accounting 15768005 Sample.calls ⟨by decide, by decide, by decide⟩, by decide⟩

end AfriPay.VaultContract
