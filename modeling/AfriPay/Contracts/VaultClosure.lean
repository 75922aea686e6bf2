import AfriPay.Contracts.VaultAccounts

/-!
# Accounts that their interest closes

Every operation accrues interest first. Where that overflows, as it does after
long enough on a large enough balance, the account is closed for good.
-/

namespace AfriPay.VaultContract
open Soroban

variable {Addr : Type}

section Closed

variable [DecidableEq Addr] {s : State Addr} {user : Addr} {t t' : Nat} {env : Env Addr}

omit [DecidableEq Addr] in
/-- The longer the wait, the larger the interest. -/
theorem Fits.mono (sane : Sane t s) (le : t ≤ t') (fits : Fits s user t') : Fits s user t := by
  have product : accrued s user t ≤ accrued s user t' := by
    refine mul_le_mul_of_nonneg_left ?_ (mul_nonneg sane.balance.1 (Int.natCast_nonneg _))
    cases s.accounts user with
    | none => exact le_refl _
    | some a => exact Int.ofNat_le.2 (Nat.sub_le_sub_right le a.lastUpdated)
  have interest : owed s user t ≤ owed s user t' := Int.ediv_le_ediv yearly_pos product
  exact ⟨le_trans product fits.1, le_trans (Int.add_le_add_left interest _) fits.2⟩

omit [DecidableEq Addr] in
/-- Once the interest is out of range, nothing can be done with the account ever after. -/
theorem closed_forever {r : Nat} (sane : Sane t s) (rate : s.yieldRateBps = some r) (stuck : ¬Fits s user t) (le : t ≤ env.timestamp) :
    accrue env user s = .error (.error .arithmeticOverflow) := by
  rw [accrue_eq rate sane, if_neg fun fits => stuck (fits.mono sane le)]

theorem withdraw_eq {r : Nat} {amount : Int} (sane : Sane t s) (rate : s.yieldRateBps = some r) (auth : env.auth user = true)
    (positive : 0 < amount) (enough : amount ≤ balanceIn s user) :
    withdraw env user amount s = if Fits s user env.timestamp
      then .ok (balanceIn s user + owed s user env.timestamp - amount,
        ⟨s.yieldRateBps, Function.update s.accounts user (some ⟨balanceIn s user + owed s user env.timestamp - amount, env.timestamp⟩)⟩)
      else .error (.error .arithmeticOverflow) := by
  have interest : 0 ≤ owed s user env.timestamp := sane.owed_nonneg
  unfold withdraw
  rw [ensure_of positive, ok_bind, requireAuth_of auth, ok_bind, accrue_eq rate sane]
  by_cases fits : Fits s user env.timestamp
  · have top := fits.2
    have range : InI128 (balanceIn s user + owed s user env.timestamp - amount) := (inI128_of_nonneg (by omega)).2 (by omega)
    rw [if_pos fits, if_pos fits, ok_bind, ensure_of (by dsimp only; omega), ok_bind, trapping_of range]
    rfl
  · rw [if_neg fits, if_neg fits]
    rfl

end Closed

/-- **An account can be emptied exactly as long as the interest on it stays in range.** -/
theorem emptied_iff [DecidableEq Addr] (now : Nat) (calls : List (Env Addr × Call Addr)) (timely : Timely 0 now calls) (user : Addr)
    (a : VaultAccount) (here : (run calls).state.accounts user = some a) (positive : 0 < a.balance) (env : Env Addr)
    (auth : env.auth user = true) :
    ∃ rate, (run calls).state.yieldRateBps = some rate ∧
      ((∃ b s, withdraw env user a.balance (run calls).state = .ok (b, s)) ↔
        a.balance * rate * (env.timestamp - a.lastUpdated : Nat) ≤ i128Max ∧
        a.balance + a.balance * rate * (env.timestamp - a.lastUpdated : Nat) / (bpsDenominator * secondsPerYear) ≤ i128Max) ∧
      ((¬∃ b s, withdraw env user a.balance (run calls).state = .ok (b, s)) →
        withdraw env user a.balance (run calls).state = .error (.error .arithmeticOverflow)) := by
  have kept := kept_run timely
  cases rate : (run calls).state.yieldRateBps with
  | none =>
    rw [kept.rated rate] at here
    cases here
  | some r =>
    have balance : balanceIn (run calls).state user = a.balance := by rw [balanceIn, here]; rfl
    have product : accrued (run calls).state user env.timestamp = a.balance * r * (env.timestamp - a.lastUpdated : Nat) := by
      rw [accrued, balance, here, rate]
      rfl
    have fits : Fits (run calls).state user env.timestamp ↔ a.balance * r * (env.timestamp - a.lastUpdated : Nat) ≤ i128Max ∧
        a.balance + a.balance * r * (env.timestamp - a.lastUpdated : Nat) / (bpsDenominator * secondsPerYear) ≤ i128Max := by
      rw [Fits, owed, product, balance]
    have outcome := withdraw_eq kept.sane rate auth positive balance.ge
    refine ⟨r, rfl, ?_⟩
    rw [← fits, outcome]
    by_cases within : Fits (run calls).state user env.timestamp
    · rw [if_pos within]
      exact ⟨⟨fun _ => within, fun _ => ⟨_, _, rfl⟩⟩, fun stuck => (stuck ⟨_, _, rfl⟩).elim⟩
    · rw [if_neg within]
      refine ⟨⟨?_, fun h => (within h).elim⟩, fun _ => rfl⟩
      rintro ⟨_, _, ran⟩
      cases ran

namespace Sample

/-- User 1 deposits 2 * 10 ^ 28 at five per cent. -/
def fortune : List (Env Nat × Call Nat) := [(env 0, .initializeContract 500), (env 0, .deposit 1 20000000000000000000000000000)]

theorem timely : Timely 0 0 fortune := ⟨by decide, by decide, by decide⟩

end Sample

theorem emptied_iff_sample : ∃ rate, (run Sample.fortune).state.yieldRateBps = some rate ∧
    ((∃ b s, withdraw (Sample.env 86400) 1 20000000000000000000000000000 (run Sample.fortune).state = .ok (b, s)) ↔
      20000000000000000000000000000 * (rate : Int) * 86400 ≤ i128Max ∧ 20000000000000000000000000000 +
        20000000000000000000000000000 * (rate : Int) * 86400 / (bpsDenominator * secondsPerYear) ≤ i128Max) := by
  obtain ⟨rate, here, iff, -⟩ := emptied_iff 0 Sample.fortune Sample.timely 1 ⟨20000000000000000000000000000, 0⟩ rfl (by decide)
    (Sample.env 86400) rfl
  exact ⟨rate, here, iff⟩

/-- A year later the deposit cannot be withdrawn any more. -/
theorem account_closed : ¬∀ (now : Nat) (calls : List (Env Nat × Call Nat)) (user : Nat) (a : VaultAccount) (env : Env Nat),
    Timely 0 now calls → (run calls).state.accounts user = some a → 0 < a.balance → env.auth user = true → a.lastUpdated ≤ env.timestamp →
    ∃ b s, withdraw env user a.balance (run calls).state = .ok (b, s) := by
  intro all
  obtain ⟨b, s, ran⟩ := all 0 Sample.fortune 1 ⟨20000000000000000000000000000, 0⟩ (Sample.env 31536000) Sample.timely rfl (by decide) rfl
    (by decide)
  have failed : (withdraw (Sample.env 31536000) 1 20000000000000000000000000000 (run Sample.fortune).state).isOk = false := by decide
  rw [ran] at failed
  cases failed

end AfriPay.VaultContract
