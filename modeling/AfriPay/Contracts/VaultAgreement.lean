import Mathlib.Algebra.BigOperators.Group.List.Basic
import AfriPay.Contracts.VaultAccounts

/-!
# Reading the vault and writing to it

`balance_of`, `deposit` and `withdraw` all start from the accrued account. The
first discards it; the other two store what they made of it.
-/

namespace AfriPay.VaultContract
open Soroban

variable {Addr : Type}

/-- What a function returns, without the state it leaves. -/
def reply (x : Except (Fault Error) (Int × State Addr)) : Except (Fault Error) Int := x.map Prod.fst

section Save

variable [DecidableEq Addr] {s s' : State Addr} {user : Addr} {env : Env Addr} {a : VaultAccount} {amount c : Int}

/-- An account is stored. -/
def State.save (s : State Addr) (user : Addr) (a : VaultAccount) : State Addr :=
  { s with accounts := Function.update s.accounts user (some a) }

@[simp] theorem State.save_rate (s : State Addr) (user : Addr) (a : VaultAccount) : (s.save user a).yieldRateBps = s.yieldRateBps := rfl

@[simp] theorem State.save_here (s : State Addr) (user : Addr) (a : VaultAccount) : (s.save user a).accounts user = some a :=
  Function.update_self ..

@[simp] theorem State.save_save (s : State Addr) (user : Addr) (a a' : VaultAccount) : (s.save user a).save user a' = s.save user a' := by
  simp only [State.save, Function.update_idem]

omit [DecidableEq Addr] in
/-- Accruing looks at the time alone of all the surroundings. -/
theorem accrue_congr {env' : Env Addr} (same : env.timestamp = env'.timestamp) (user : Addr) (s : State Addr) :
    accrue env user s = accrue env' user s := by
  unfold accrue
  rw [same]

omit [DecidableEq Addr] in
theorem accrue_rated (h : accrue env user s = .ok a) : ∃ r, s.yieldRateBps = some r := by
  obtain ⟨r, rate, -⟩ := bind_ok h
  exact ⟨r, okOr_ok rate⟩

omit [DecidableEq Addr] in
/-- An accrued account is as of now. -/
theorem accrue_stamped (h : accrue env user s = .ok a) : a.lastUpdated = env.timestamp := by
  obtain ⟨r, -, h⟩ := bind_ok h
  dsimp only at h
  split at h
  · obtain ⟨_, -, h⟩ := bind_ok h
    obtain ⟨_, -, h⟩ := bind_ok h
    obtain ⟨_, -, h⟩ := bind_ok h
    obtain ⟨_, -, h⟩ := bind_ok h
    cases h
    rfl
  · cases h
    rfl

/-- An account stored at this very time bears no interest yet. -/
theorem accrue_saved {r : Nat} (rate : s.yieldRateBps = some r) (user : Addr) (b : Int) :
    accrue env user (s.save user ⟨b, env.timestamp⟩) = .ok ⟨b, env.timestamp⟩ := by
  have soon : ¬(0 < env.timestamp - env.timestamp ∧ 0 < b) := by omega
  unfold accrue
  rw [State.save_rate, State.save_here, rate, okOr_some, ok_bind]
  simp only [Option.getD_some, if_neg soon]
  rfl

theorem deposit_does (h : deposit env user amount s = .ok (c, s')) :
    ∃ a, accrue env user s = .ok a ∧ c = a.balance + amount ∧ s' = s.save user ⟨c, env.timestamp⟩ := by
  obtain ⟨_, -, h⟩ := bind_ok h
  obtain ⟨_, -, h⟩ := bind_ok h
  obtain ⟨a, accrued, h⟩ := bind_ok h
  obtain ⟨sum, added, h⟩ := bind_ok h
  obtain ⟨total, -⟩ := checkedAdd_some (okOr_ok added)
  cases h
  exact ⟨a, accrued, total, rfl⟩

theorem withdraw_does (h : withdraw env user amount s = .ok (c, s')) :
    ∃ a, accrue env user s = .ok a ∧ c = a.balance - amount ∧ s' = s.save user ⟨c, env.timestamp⟩ := by
  obtain ⟨_, -, h⟩ := bind_ok h
  obtain ⟨_, -, h⟩ := bind_ok h
  obtain ⟨a, accrued, h⟩ := bind_ok h
  obtain ⟨_, -, h⟩ := bind_ok h
  obtain ⟨rest, left, h⟩ := bind_ok h
  have difference := trapping_ok left
  cases h
  exact ⟨a, accrued, difference, rfl⟩

end Save

/-! ## Reading -/

section Reading

variable [DecidableEq Addr] {s : State Addr} {user : Addr} {env : Env Addr} {b amount : Int} {t : Nat}

omit [DecidableEq Addr] in
theorem reply_balanceOf : reply (balanceOf env user s) = (accrue env user s).map VaultAccount.balance := by
  unfold balanceOf
  cases accrue env user s <;> rfl

/-- The replies to an authorised withdrawal of a positive amount. -/
theorem reply_withdraw (auth : env.auth user = true) (positive : 0 < amount)
    (read : reply (balanceOf env user s) = .ok b) (range : 0 ≤ b ∧ b ≤ i128Max) :
    reply (withdraw env user amount s) = if b < amount then .error (.error .insufficientBalance) else .ok (b - amount) := by
  rw [reply_balanceOf] at read
  unfold withdraw
  rw [ensure_of positive, ok_bind, requireAuth_of auth, ok_bind]
  cases accrued : accrue env user s with
  | error fault =>
    rw [accrued] at read
    cases read
  | ok a =>
    rw [accrued] at read
    cases read
    rw [ok_bind]
    by_cases short : a.balance < amount
    · rw [ensure_not (fun enough => enough short), if_pos short]
      rfl
    · have fits : InI128 (a.balance - amount) := (inI128_of_nonneg (by omega)).2 (by omega)
      rw [ensure_of short, ok_bind, trapping_of fits, if_neg short]
      rfl

theorem reply_deposit (auth : env.auth user = true) (positive : 0 < amount)
    (read : reply (balanceOf env user s) = .ok b) (range : 0 ≤ b ∧ b ≤ i128Max) :
    reply (deposit env user amount s) = if b + amount ≤ i128Max then .ok (b + amount) else .error (.error .arithmeticOverflow) := by
  rw [reply_balanceOf] at read
  unfold deposit
  rw [ensure_of positive, ok_bind, requireAuth_of auth, ok_bind]
  cases accrued : accrue env user s with
  | error fault =>
    rw [accrued] at read
    cases read
  | ok a =>
    rw [accrued] at read
    cases read
    have fits : InI128 (a.balance + amount) ↔ a.balance + amount ≤ i128Max := inI128_of_nonneg (by omega)
    rw [ok_bind, checkedAdd, okOr_ite]
    by_cases top : a.balance + amount ≤ i128Max
    · rw [if_pos (fits.2 top), if_pos top]
      rfl
    · rw [if_neg fun h => top (fits.1 h), if_neg top]
      rfl

/-- Where reading fails, withdrawing fails in the same way. -/
theorem reply_withdraw_unread {fault : Fault Error} (auth : env.auth user = true) (positive : 0 < amount)
    (unread : reply (balanceOf env user s) = .error fault) : reply (withdraw env user amount s) = .error fault := by
  rw [reply_balanceOf] at unread
  unfold withdraw
  rw [ensure_of positive, ok_bind, requireAuth_of auth, ok_bind]
  cases accrued : accrue env user s with
  | error fault' =>
    rw [accrued] at unread
    cases unread
    rfl
  | ok a =>
    rw [accrued] at unread
    cases unread

omit [DecidableEq Addr] in
theorem Sane.read (sane : Sane t s) (read : reply (balanceOf env user s) = .ok b) : 0 ≤ b ∧ b ≤ i128Max := by
  rw [reply_balanceOf] at read
  cases accrued : accrue env user s with
  | error fault =>
    rw [accrued] at read
    cases read
  | ok a =>
    rw [accrued] at read
    cases read
    obtain ⟨-, fits, rfl⟩ := accrue_ok sane accrued
    exact ⟨add_nonneg sane.balance.1 sane.owed_nonneg, fits.2⟩

omit [DecidableEq Addr] in
/-- Reading fails for want of initialization or by an overflow. -/
theorem Sane.unread {fault : Fault Error} (sane : Sane t s) (unread : reply (balanceOf env user s) = .error fault) :
    fault = .error .notInitialized ∨ fault = .error .arithmeticOverflow := by
  rw [reply_balanceOf] at unread
  cases rate : s.yieldRateBps with
  | none =>
    rw [accrue, rate] at unread
    cases unread
    exact .inl rfl
  | some r =>
    rw [accrue_eq rate sane] at unread
    split at unread <;> cases unread
    exact .inr rfl

end Reading

/-- The replies to the writes of `user` are what a balance of `b` makes them. -/
structure Replies [DecidableEq Addr] (env : Env Addr) (user : Addr) (s : State Addr) (b : Int) : Prop where
  withdraws : ∀ amount, InI128 amount → 1 ≤ amount → amount ≤ b → reply (withdraw env user amount s) = .ok (b - amount)
  refuses : ∀ amount, InI128 amount → b < amount → reply (withdraw env user amount s) = .error (.error .insufficientBalance)
  deposits : ∀ amount, InI128 amount → 1 ≤ amount → b + amount ≤ i128Max → reply (deposit env user amount s) = .ok (b + amount)
  overflows : ∀ amount, InI128 amount → 1 ≤ amount → ¬b + amount ≤ i128Max →
    reply (deposit env user amount s) = .error (.error .arithmeticOverflow)

section Replies

variable [DecidableEq Addr] {s : State Addr} {user : Addr} {env : Env Addr} {b : Int} {t : Nat}

theorem Replies.of_read (sane : Sane t s) (auth : env.auth user = true) (read : reply (balanceOf env user s) = .ok b) :
    Replies env user s b := by
  have range := sane.read read
  constructor
  · intro amount _ positive enough
    rw [reply_withdraw auth (by omega) read range, if_neg (by omega)]
  · intro amount _ short
    rw [reply_withdraw auth (by omega) read range, if_pos short]
  · intro amount _ positive fits
    rw [reply_deposit auth (by omega) read range, if_pos fits]
  · intro amount _ positive top
    rw [reply_deposit auth (by omega) read range, if_neg top]

/-- Nothing of a nonpositive amount is withdrawn. -/
theorem withdraw_nonpositive {amount : Int} (nonpositive : amount ≤ 0) :
    reply (withdraw env user amount s) = .error (.error .invalidAmount) := by
  unfold withdraw
  rw [ensure_not (by omega)]
  rfl

/-- A balance that explains the replies to withdrawals is the one read. -/
theorem Replies.read (sane : Sane t s) (auth : env.auth user = true) (replies : Replies env user s b) :
    reply (balanceOf env user s) = .ok b := by
  -- the withdrawal of one unit tells the balance, unless that is nothing
  have one : InI128 1 := by decide
  have nonneg : 0 ≤ b := by
    by_contra negative
    have refused := replies.refuses 0 (by decide) (by omega)
    rw [withdraw_nonpositive (le_refl 0)] at refused
    cases refused
  have answer : reply (withdraw env user 1 s) = if b < 1 then .error (.error .insufficientBalance) else .ok (b - 1) := by
    by_cases empty : b < 1
    · rw [if_pos empty, replies.refuses 1 one empty]
    · rw [if_neg empty, replies.withdraws 1 one (le_refl 1) (by omega)]
  cases read : reply (balanceOf env user s) with
  | error fault =>
    rw [reply_withdraw_unread auth (by decide) read] at answer
    rcases sane.unread read with rfl | rfl <;> split at answer <;> cases answer
  | ok b' =>
    have range := sane.read read
    rw [reply_withdraw auth (by decide) read range] at answer
    by_cases empty : b < 1
    · by_cases empty' : b' < 1
      · rw [show b' = b by omega]
      · rw [if_pos empty, if_neg empty'] at answer
        cases answer
    · by_cases empty' : b' < 1
      · rw [if_neg empty, if_pos empty'] at answer
        cases answer
      · rw [if_neg empty, if_neg empty'] at answer
        have same := Except.ok.inj answer
        rw [show b' = b by omega]

end Replies

/-! ## Several writes at one time -/

section Moves

variable [DecidableEq Addr] {s s' : State Addr} {user : Addr} {env : Env Addr} {call : Call Addr} {calls : List (Env Addr × Call Addr)}

/-- A deposit or a withdrawal of the user. -/
inductive Moves (user : Addr) : Call Addr → Prop where
  | deposit (amount : Int) : Moves user (.deposit user amount)
  | withdraw (amount : Int) : Moves user (.withdraw user amount)

/-- What a call adds to a balance, interest aside. -/
def Call.net : Call Addr → Int
  | .deposit _ amount => amount
  | .withdraw _ amount => -amount
  | _ => 0

/-- Calls that all succeed. -/
def through (calls : List (Env Addr × Call Addr)) (s : State Addr) : Except (Fault Error) (State Addr) :=
  calls.foldlM (fun s c => (c.2.exec c.1 s).map Prod.snd) s

theorem through_cons_ok {c : Env Addr × Call Addr} (h : through (c :: calls) s = .ok s') :
    ∃ reply s₁, c.2.exec c.1 s = .ok (reply, s₁) ∧ through calls s₁ = .ok s' := by
  obtain ⟨s₁, ran, rest⟩ := bind_ok (show (c.2.exec c.1 s).map Prod.snd >>= through calls = _ from h)
  cases first : c.2.exec c.1 s with
  | error fault =>
    rw [first] at ran
    cases ran
  | ok out =>
    rw [first] at ran
    cases ran
    exact ⟨out.1, out.2, rfl, rest⟩

/-- One successful move stores the accrued balance with its amount, and answers it. -/
theorem Moves.exec {answer : Option Int} (moves : Moves user call) (h : call.exec env s = .ok (answer, s')) :
    ∃ a, accrue env user s = .ok a ∧ answer = some (a.balance + call.net) ∧
      s' = s.save user ⟨a.balance + call.net, env.timestamp⟩ := by
  cases moves with
  | deposit amount =>
    obtain ⟨c, ran, rfl⟩ := answering_ok h
    obtain ⟨a, accrued, rfl, stored⟩ := deposit_does ran
    exact ⟨a, accrued, rfl, stored⟩
  | withdraw amount =>
    obtain ⟨c, ran, rfl⟩ := answering_ok h
    obtain ⟨a, accrued, rfl, stored⟩ := withdraw_does ran
    exact ⟨a, accrued, rfl, stored⟩

/-- Moves at the time at which the account was stored only add up. -/
theorem through_now {now r : Nat} {b : Int} (rate : s.yieldRateBps = some r) (moves : ∀ c ∈ calls, Moves user c.2 ∧ c.1.timestamp = now)
    (h : through calls (s.save user ⟨b, now⟩) = .ok s') : s' = s.save user ⟨b + (calls.map fun c => c.2.net).sum, now⟩ := by
  induction calls generalizing b with
  | nil =>
    cases h
    rw [List.map_nil, List.sum_nil, add_zero]
  | cons c calls ih =>
    obtain ⟨answer, s₁, ran, rest⟩ := through_cons_ok h
    obtain ⟨move, rfl⟩ := moves c List.mem_cons_self
    obtain ⟨a, accrued, -, rfl⟩ := move.exec ran
    rw [accrue_saved rate] at accrued
    cases accrued
    rw [State.save_save] at rest
    rw [ih (fun c mem => moves c (List.mem_cons_of_mem _ mem)) rest, List.map_cons, List.sum_cons, add_assoc]

/-- **Moves at one time are one accrual and their sum.** -/
theorem through_moves (nonempty : calls ≠ []) (moves : ∀ c ∈ calls, Moves user c.2 ∧ c.1.timestamp = env.timestamp)
    (h : through calls s = .ok s') :
    ∃ a, accrue env user s = .ok a ∧ s' = s.save user ⟨a.balance + (calls.map fun c => c.2.net).sum, env.timestamp⟩ := by
  cases calls with
  | nil => exact absurd rfl nonempty
  | cons c calls =>
    obtain ⟨answer, s₁, ran, rest⟩ := through_cons_ok h
    obtain ⟨move, now⟩ := moves c List.mem_cons_self
    obtain ⟨a, accrued, -, rfl⟩ := move.exec ran
    rw [accrue_congr now] at accrued
    obtain ⟨r, rate⟩ := accrue_rated accrued
    rw [now] at rest
    refine ⟨a, accrued, ?_⟩
    rw [through_now rate (fun c mem => moves c (List.mem_cons_of_mem _ mem)) rest, List.map_cons, List.sum_cons, add_assoc]

end Moves

/-- What `user` reads in `s` at the time of `env` and what they write agree. -/
structure Agrees [DecidableEq Addr] (env : Env Addr) (user : Addr) (s : State Addr) : Prop where
  /-- The balance is what the replies to authorised writes say it is. -/
  explains : ∀ writer, writer.timestamp = env.timestamp → writer.auth user = true → ∀ b,
    reply (balanceOf env user s) = .ok b ↔ Replies writer user s b
  /-- What a write returned is read right after it. -/
  follows : ∀ writer, writer.timestamp = env.timestamp → ∀ call, Moves user call → ∀ answer s',
    Call.exec writer call s = .ok (answer, s') → ∃ b, answer = some b ∧ balanceOf env user s' = .ok (b, s')
  /-- Writes at one time store a single accrual plus their net sum; without writes, an accrual is all there is. -/
  adds : ∀ calls, (∀ c ∈ calls, Moves user c.2 ∧ c.1.timestamp = env.timestamp) → ∀ s', through calls s = .ok s' →
    (calls = [] ∧ s' = s) ∨ ∃ a, accrue env user s = .ok a ∧ s' = s.save user { a with balance := a.balance + (calls.map fun c => c.2.net).sum }

/-- **The vault's read and write paths agree**, for every user at every time. -/
theorem read_write_agree [DecidableEq Addr] (now : Nat) (calls : List (Env Addr × Call Addr)) (timely : Timely 0 now calls)
    (env : Env Addr) (user : Addr) : Agrees env user (run calls).state := by
  have sane := (kept_run timely).sane
  constructor
  · intro writer same auth b
    have reads : reply (balanceOf env user (run calls).state) = reply (balanceOf writer user (run calls).state) := by
      rw [reply_balanceOf, reply_balanceOf, accrue_congr same]
    rw [reads]
    exact ⟨Replies.of_read sane auth, Replies.read sane auth⟩
  · intro writer same call moves answer s' ran
    obtain ⟨a, accrued, rfl, rfl⟩ := moves.exec ran
    obtain ⟨r, rate⟩ := accrue_rated accrued
    refine ⟨_, rfl, ?_⟩
    unfold balanceOf
    rw [same, accrue_saved rate]
    rfl
  · intro moved moves s' ran
    by_cases none : moved = []
    · subst none
      cases ran
      exact .inl ⟨rfl, rfl⟩
    · obtain ⟨a, accrued, rfl⟩ := through_moves none moves ran
      exact .inr ⟨a, accrued, by rw [accrue_stamped accrued]⟩

theorem read_write_agree_sample : Agrees (Sample.env 15768005) 1 (run Sample.calls).state :=
  read_write_agree 15768005 Sample.calls ⟨by decide, by decide, by decide⟩ (Sample.env 15768005) 1

end AfriPay.VaultContract
