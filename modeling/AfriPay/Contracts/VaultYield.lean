import AfriPay.Contracts.VaultAgreement
import AfriPay.Ledger.Compound

/-!
# What interacting with the vault does to the yield

Every write stores the balance with its interest, rounded down. Interacting often
compounds the interest and rounds more often.
-/

namespace AfriPay.VaultContract
open Soroban Ledger

variable {Addr : Type} [DecidableEq Addr]

/-- What a rate in basis points is a part of, over a year in seconds. -/
def yearly : Int := bpsDenominator * secondsPerYear

/-- The accrued account is stored. -/
def persistAccrual (env : Env Addr) (user : Addr) (s : State Addr) : Except (Fault Error) (State Addr) := do
  let account ← accrue env user s
  return s.save user account

/-- An accrual is stored at each of these times. -/
def persisting (user : Addr) (visits : List (Env Addr)) (s : State Addr) : Except (Fault Error) (State Addr) :=
  visits.foldlM (fun s env => persistAccrual env user s) s

/-- The times that pass between visits, the first counted from `t`. -/
def waits : Nat → List (Env Addr) → List Nat
  | _, [] => []
  | t, env :: visits => (env.timestamp - t) :: waits env.timestamp visits

/-- Moves of the user at one time that come to nothing. -/
structure Neutral (user : Addr) (env : Env Addr) (batch : List (Env Addr × Call Addr)) : Prop where
  nonempty : batch ≠ []
  moves : ∀ c ∈ batch, Moves user c.2 ∧ c.1.timestamp = env.timestamp
  zero : (batch.map fun c => c.2.net).sum = 0

section Visits

variable {s s' : State Addr} {user : Addr} {env : Env Addr} {r t : Nat} {b : Int} {visits : List (Env Addr)}

omit [DecidableEq Addr] in
theorem length_waits (t : Nat) (visits : List (Env Addr)) : (waits t visits).length = visits.length := by
  induction visits generalizing t with
  | nil => rfl
  | cons env visits ih => rw [waits, List.length_cons, List.length_cons, ih]

omit [DecidableEq Addr] in
/-- A deposit and a withdrawal of the same amount at the same time. -/
theorem Neutral.pair {later : Env Addr} (same : later.timestamp = env.timestamp) (user : Addr) (amount : Int) :
    Neutral user env [(env, .deposit user amount), (later, .withdraw user amount)] := by
  constructor
  · exact List.cons_ne_nil _ _
  · intro c mem
    rcases List.mem_pair.1 mem with rfl | rfl
    · exact ⟨.deposit amount, rfl⟩
    · exact ⟨.withdraw amount, same⟩
  · simp [Call.net]

/-- Accruing on a stored balance: simple interest, or an overflow. -/
theorem accrue_at (rate : s.yieldRateBps = some r) (nonneg : 0 ≤ b) (env : Env Addr) (user : Addr) (t : Nat) :
    accrue env user (s.save user ⟨b, t⟩) = .ok ⟨grown yearly r b (env.timestamp - t), env.timestamp⟩ ∨
    accrue env user (s.save user ⟨b, t⟩) = .error (.error .arithmeticOverflow) := by
  unfold accrue
  rw [State.save_rate, State.save_here, rate, okOr_some, ok_bind]
  dsimp only [Option.getD_some]
  by_cases active : 0 < env.timestamp - t ∧ 0 < b
  · rw [if_pos active, bearing nonneg active.1]
    split
    · exact .inl rfl
    · exact .inr rfl
  · left
    have idle : grown yearly r b (env.timestamp - t) = b := by
      unfold grown
      rcases not_and_or.1 active with soon | empty
      · rw [Nat.eq_zero_of_not_pos soon, Int.natCast_zero, mul_zero, Int.zero_ediv, add_zero]
      · rw [le_antisymm (not_lt.1 empty) nonneg, zero_mul, zero_mul, Int.zero_ediv, add_zero]
    rw [if_neg active, idle]
    rfl

theorem persistAccrual_saved (rate : s.yieldRateBps = some r) (nonneg : 0 ≤ b) (env : Env Addr) (user : Addr) (t : Nat) :
    persistAccrual env user (s.save user ⟨b, t⟩) = .ok (s.save user ⟨grown yearly r b (env.timestamp - t), env.timestamp⟩) ∨
    persistAccrual env user (s.save user ⟨b, t⟩) = .error (.error .arithmeticOverflow) := by
  unfold persistAccrual
  rcases accrue_at rate nonneg env user t with accrued | overflow
  · rw [accrued, ok_bind, State.save_save]
    exact .inl rfl
  · rw [overflow]
    exact .inr rfl

/-- Stored accruals compound, or one of them overflows. -/
theorem persisting_saved (rate : s.yieldRateBps = some r) (nonneg : 0 ≤ b) (user : Addr) (visits : List (Env Addr)) (t : Nat) :
    persisting user visits (s.save user ⟨b, t⟩) =
        .ok (s.save user ⟨compounded yearly r b (waits t visits), (visits.map Env.timestamp).getLastD t⟩) ∨
      persisting user visits (s.save user ⟨b, t⟩) = .error (.error .arithmeticOverflow) := by
  induction visits generalizing b t with
  | nil => exact .inl rfl
  | cons env visits ih =>
    have unfolded : persisting user (env :: visits) (s.save user ⟨b, t⟩) =
        persistAccrual env user (s.save user ⟨b, t⟩) >>= persisting user visits := rfl
    rw [unfolded]
    rcases persistAccrual_saved rate nonneg env user t with stored | overflow
    · have larger : b ≤ grown yearly r b (env.timestamp - t) := grown_le nonneg (Int.natCast_nonneg r) yearly_pos
      rw [stored, ok_bind, List.map_cons, List.getLastD_cons]
      exact ih (le_trans nonneg larger) env.timestamp
    · rw [overflow]
      exact .inr rfl

/-- A batch of moves that come to nothing stores an accrual. -/
theorem Neutral.persists {batch : List (Env Addr × Call Addr)} (neutral : Neutral user env batch) (ran : through batch s = .ok s') :
    persistAccrual env user s = .ok s' := by
  obtain ⟨a, accrued, rfl⟩ := through_moves neutral.nonempty neutral.moves ran
  rw [neutral.zero, add_zero, ← accrue_stamped accrued]
  unfold persistAccrual
  rw [accrued]
  rfl

theorem Neutral.persisting {batches : List (List (Env Addr × Call Addr))} (neutral : List.Forall₂ (Neutral user) visits batches)
    (ran : through batches.flatten s = .ok s') : VaultContract.persisting user visits s = .ok s' := by
  induction neutral generalizing s with
  | nil => exact ran
  | cons first _ ih =>
    rw [List.flatten_cons] at ran
    obtain ⟨s₁, batch, rest⟩ := bind_ok ((List.foldlM_append ..).symm.trans ran)
    show persistAccrual _ user s >>= VaultContract.persisting user _ = _
    rw [first.persists batch, ok_bind]
    exact ih rest

end Visits

/-- What `n` stored accruals make of the balance `b`, after the elapsed times `waits`. -/
structure YieldBounds (rate : Nat) (b : Int) (waits : List Nat) (B : Int) : Prop where
  /-- At most one unit less than a single accrual for each visit after the first. -/
  floor : b + b * rate * waits.sum / yearly - (waits.length - 1) ≤ B
  /-- No more than compounding without rounding. -/
  ceiling : yearly ^ waits.length * B ≤ b * (waits.map fun e : Nat => yearly + rate * e).prod
  single : waits.length = 1 → B = b + b * rate * waits.sum / yearly

theorem YieldBounds.of_compounded {rate : Nat} {b : Int} {waits : List Nat} (nonneg : 0 ≤ b) (some : waits ≠ []) :
    YieldBounds rate b waits (compounded yearly rate b waits) := by
  cases waits with
  | nil => exact absurd rfl some
  | cons e waits =>
    have pays : (0 : Int) ≤ rate := Int.natCast_nonneg rate
    refine ⟨?_, compounded_ceiling yearly_pos pays, ?_⟩
    · have floor : grown yearly rate b (e + waits.sum) ≤ compounded yearly rate b (e :: waits) + waits.length :=
        compounded_floor nonneg pays yearly_pos
      unfold grown at floor
      rw [List.sum_cons, List.length_cons]
      omega
    · intro alone
      obtain rfl : waits = [] := List.eq_nil_of_length_eq_zero (Nat.succ.inj alone)
      rfl

/-- **The yield depends on the interactions within exact bounds**: for any balance of any
user, whose accruals at any times do not overflow. Batches of moves that come to
nothing do the same, and a read of the untouched balance at the end is what a
single accrual gives. -/
theorem yield_bounds (s : State Addr) (user : Addr) {r t : Nat} {b : Int} (rate : s.yieldRateBps = some r)
    (here : s.accounts user = some ⟨b, t⟩) (positive : 0 < b) (visits : List (Env Addr)) (nonempty : visits ≠ [])
    (fine : persisting user visits s ≠ .error (.error .arithmeticOverflow)) :
    ∃ B, persisting user visits s = .ok (s.save user ⟨B, (visits.map Env.timestamp).getLastD t⟩) ∧
      YieldBounds r b (waits t visits) B ∧
      (∀ batches s', List.Forall₂ (Neutral user) visits batches → through batches.flatten s = .ok s' →
        s'.accounts user = some ⟨B, (visits.map Env.timestamp).getLastD t⟩) ∧
      ∀ env v, env.timestamp = t + (waits t visits).sum → reply (balanceOf env user s) = .ok v → v - (visits.length - 1) ≤ B := by
  have stored : s.save user ⟨b, t⟩ = s := by
    unfold State.save
    rw [← here, Function.update_eq_self]
  have some : waits t visits ≠ [] := by
    rw [← List.length_pos_iff, length_waits]
    exact List.length_pos_iff.2 nonempty
  have bounds : YieldBounds r b (waits t visits) (compounded yearly r b (waits t visits)) := .of_compounded positive.le some
  rcases persisting_saved rate positive.le user visits t with ran | overflow
  · rw [stored] at ran
    refine ⟨compounded yearly r b (waits t visits), ran, bounds, ?_, ?_⟩
    · intro batches s' neutral moved
      rw [Neutral.persisting neutral moved] at ran
      cases ran
      exact State.save_here ..
    · intro env v at_end read
      have single : v = b + b * r * (waits t visits).sum / yearly := by
        rw [reply_balanceOf, ← stored] at read
        rcases accrue_at rate positive.le env user t with accrued | overflow
        · rw [accrued, at_end, Nat.add_sub_cancel_left] at read
          cases read
          rfl
        · rw [overflow] at read
          cases read
      have floor := bounds.floor
      rw [length_waits] at floor
      omega
  · rw [stored] at overflow
    exact absurd overflow fine

namespace Sample

/-- User 1 has a million at ten per cent, from time 5 on. -/
def million : State Nat := State.save ⟨some 1000, fun _ => none⟩ 1 ⟨1000000, 5⟩

/-- Seven units put in and taken out, twice in half a year. -/
def fidgeting : List (List (Env Nat × Call Nat)) :=
  [[(env 7884005, .deposit 1 7), (env 7884005, .withdraw 1 7)], [(env 15768005, .deposit 1 7), (env 15768005, .withdraw 1 7)]]

theorem fidgeting_neutral : List.Forall₂ (Neutral 1) [env 7884005, env 15768005] fidgeting :=
  .cons (Neutral.pair rfl 1 7) (.cons (Neutral.pair rfl 1 7) .nil)

end Sample

theorem yield_bounds_sample : ∃ B, YieldBounds 1000 1000000 [7884000, 7884000] B ∧
    ∀ s', through Sample.fidgeting.flatten Sample.million = .ok s' → balanceIn s' 1 = B := by
  have fine : (persisting 1 [Sample.env 7884005, Sample.env 15768005] Sample.million).isOk = true := by decide +kernel
  obtain ⟨B, -, bounds, batches, -⟩ := yield_bounds Sample.million 1 rfl (State.save_here ..) (by decide)
    [Sample.env 7884005, Sample.env 15768005] (List.cons_ne_nil _ _) (by
      intro overflow
      rw [overflow] at fine
      cases fine)
  refine ⟨B, bounds, fun s' ran => ?_⟩
  rw [balanceIn, batches Sample.fidgeting s' Sample.fidgeting_neutral ran]
  rfl

end AfriPay.VaultContract
