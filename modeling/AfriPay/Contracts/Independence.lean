import AfriPay.Contracts.EscrowHistory
import AfriPay.Contracts.VaultAgreement
import AfriPay.Ledger.Isolation

/-!
# Strangers do not matter

What a user of the vault is answered, and has, depends on its own calls and on
the rate; what becomes of an escrow on the calls for this escrow. What anyone
else calls in between, and whether it succeeds, makes no difference.
-/

namespace AfriPay.Soroban

variable {Addr Call R ε σ : Type} (exec : Env Addr → Call → σ → Except (Fault ε) (R × σ))

/-- An invocation with what its caller gets to see of it, and the state after it. -/
def answered (c : Env Addr × Call) (s : σ) : Except (Fault ε) R × σ :=
  match exec c.1 c.2 s with
  | .ok (reply, s') => (.ok reply, s')
  | .error fault => (.error fault, s)

variable {exec}

theorem answered_eq {c : Env Addr × Call} {s : σ} :
    answered exec c s = ((exec c.1 c.2 s).map Prod.fst, commit s (exec c.1 c.2 s)) := by
  unfold answered
  cases exec c.1 c.2 s <;> rfl

end AfriPay.Soroban

/-! ## The vault -/

namespace AfriPay.VaultContract
open Soroban Ledger

variable {Addr : Type} [DecidableEq Addr]

/-- The call is the user's, or sets the rate. -/
def concerns (user : Addr) (c : Env Addr × Call Addr) : Bool := c.2.user = some user || c.2.user = none

/-- What the contract answers from `s` on. -/
def replies (calls : List (Env Addr × Call Addr)) (s : State Addr) :
    List ((Env Addr × Call Addr) × Except (Fault Error) (Option Int)) × State Addr :=
  answersTo (answered Call.exec) calls s

/-- What a user sees of the contract. -/
def sees (user : Addr) (s : State Addr) : Option Nat × Option VaultAccount := (s.yieldRateBps, s.accounts user)

section Views

variable {s s' : State Addr} {user : Addr} {env : Env Addr} {amount : Int} {call : Call Addr}

omit [DecidableEq Addr] in
theorem accrue_seen (same : sees user s = sees user s') : accrue env user s = accrue env user s' := by
  obtain ⟨rate, account⟩ := Prod.mk.inj same
  unfold accrue
  rw [rate, account]

/-- The new balance of a deposit, given the accrued account. -/
def afterDeposit (env : Env Addr) (user : Addr) (amount : Int) (accrued : Except (Fault Error) VaultAccount) : Except (Fault Error) Int := do
  ensure (0 < amount) .invalidAmount
  requireAuth env user
  let account ← accrued
  okOr .arithmeticOverflow (checkedAdd account.balance amount)

/-- The new balance of a withdrawal. -/
def afterWithdrawal (env : Env Addr) (user : Addr) (amount : Int) (accrued : Except (Fault Error) VaultAccount) :
    Except (Fault Error) Int := do
  ensure (0 < amount) .invalidAmount
  requireAuth env user
  let account ← accrued
  ensure (¬account.balance < amount) .insufficientBalance
  trapping (account.balance - amount)

/-- A new balance is stored, and answered. -/
def storing (env : Env Addr) (user : Addr) (s : State Addr) (balance : Except (Fault Error) Int) : Except (Fault Error) (Int × State Addr) :=
  balance.map fun b => (b, s.save user ⟨b, env.timestamp⟩)

theorem deposit_storing : deposit env user amount s = storing env user s (afterDeposit env user amount (accrue env user s)) := by
  unfold deposit afterDeposit
  cases ensure (0 < amount) Error.invalidAmount with
  | error fault => rfl
  | ok _ =>
    cases (requireAuth env user : Except (Fault Error) Unit) with
    | error fault => rfl
    | ok _ =>
      cases accrue env user s with
      | error fault => rfl
      | ok a =>
        simp only [ok_bind]
        cases okOr Error.arithmeticOverflow (checkedAdd a.balance amount) <;> rfl

theorem withdraw_storing : withdraw env user amount s = storing env user s (afterWithdrawal env user amount (accrue env user s)) := by
  unfold withdraw afterWithdrawal
  cases ensure (0 < amount) Error.invalidAmount with
  | error fault => rfl
  | ok _ =>
    cases (requireAuth env user : Except (Fault Error) Unit) with
    | error fault => rfl
    | ok _ =>
      cases accrue env user s with
      | error fault => rfl
      | ok a =>
        simp only [ok_bind]
        cases ensure (¬a.balance < amount) Error.insufficientBalance with
        | error fault => rfl
        | ok _ =>
          simp only [ok_bind]
          cases (trapping (a.balance - amount) : Except (Fault Error) Int) <;> rfl

/-- What is stored for a user is answered and seen alike wherever the user sees the same. -/
theorem storing_seen (same : sees user s = sees user s') (balance : Except (Fault Error) Int) :
    (answering some (storing env user s balance)).map Prod.fst = (answering some (storing env user s' balance)).map Prod.fst ∧
      sees user (commit s (answering some (storing env user s balance))) =
        sees user (commit s' (answering some (storing env user s' balance))) := by
  obtain ⟨rate, account⟩ := Prod.mk.inj same
  cases balance with
  | error fault => exact ⟨rfl, same⟩
  | ok b =>
    refine ⟨rfl, ?_⟩
    show (s.yieldRateBps, (s.save user _).accounts user) = (s'.yieldRateBps, (s'.save user _).accounts user)
    rw [rate, State.save_here, State.save_here]

/-- What is stored for someone else is not seen. -/
theorem storing_unseen {other : Addr} (ne : user ≠ other) (balance : Except (Fault Error) Int) :
    sees user (commit s (answering some (storing env other s balance))) = sees user s := by
  cases balance with
  | error fault => rfl
  | ok b =>
    show (s.yieldRateBps, Function.update s.accounts other _ user) = _
    rw [Function.update_of_ne ne]
    rfl

end Views

omit [DecidableEq Addr] in
/-- Setting the rate fails, or is seen, alike wherever the same is seen. -/
theorem initialize_seen (same : sees user s = sees user s') (rate : Nat) :
    (answering (fun _ => none) (VaultContract.initializeContract rate s)).map Prod.fst =
        (answering (fun _ => (none : Option Int)) (VaultContract.initializeContract rate s')).map Prod.fst ∧
      sees user (commit s (answering (fun _ => (none : Option Int)) (VaultContract.initializeContract rate s))) =
        sees user (commit s' (answering (fun _ => (none : Option Int)) (VaultContract.initializeContract rate s'))) := by
  obtain ⟨rates, account⟩ := Prod.mk.inj same
  unfold VaultContract.initializeContract
  by_cases unset : s.yieldRateBps = none
  · rw [ensure_of unset, ensure_of (rates ▸ unset)]
    refine ⟨rfl, ?_⟩
    show (some rate, s.accounts user) = (some rate, s'.accounts user)
    rw [account]
  · rw [ensure_not unset, ensure_not (rates ▸ unset)]
    exact ⟨rfl, same⟩

omit [DecidableEq Addr] in
/-- Reading changes nothing. -/
theorem balanceOf_commit (other : Addr) : commit s (answering some (balanceOf env other s)) = s := by
  unfold balanceOf
  cases accrue env other s <;> rfl

/-- A user's view of the vault. -/
def userView (user : Addr) : View (answered (@Call.exec Addr _)) (fun _ => True) (Option Nat × Option VaultAccount) where
  see := sees user
  concerns := concerns user
  inv _ := trivial
  own := by
    rintro ⟨env, call⟩ s s' - - own same
    rw [answered_eq, answered_eq]
    cases call with
    | initializeContract rate => exact initialize_seen same rate
    | deposit user' amount =>
      obtain rfl : user' = user := by simpa [concerns, Call.user] using own
      simp only [Call.exec, deposit_storing, accrue_seen same]
      exact storing_seen same _
    | withdraw user' amount =>
      obtain rfl : user' = user := by simpa [concerns, Call.user] using own
      simp only [Call.exec, withdraw_storing, accrue_seen same]
      exact storing_seen same _
    | balanceOf user' =>
      obtain rfl : user' = user := by simpa [concerns, Call.user] using own
      refine ⟨?_, ?_⟩
      · simp only [Call.exec, balanceOf, accrue_seen same]
        cases accrue env user' s' <;> rfl
      · show sees user' (commit s (answering some _)) = sees user' (commit s' (answering some _))
        rw [balanceOf_commit, balanceOf_commit]
        exact same
  others := by
    rintro ⟨env, call⟩ s - other
    rw [answered_eq]
    cases call with
    | initializeContract rate => simp [concerns, Call.user] at other
    | deposit user' amount =>
      have ne : user ≠ user' := by
        rintro rfl
        simp [concerns, Call.user] at other
      simp only [Call.exec, deposit_storing]
      exact storing_unseen ne _
    | withdraw user' amount =>
      have ne : user ≠ user' := by
        rintro rfl
        simp [concerns, Call.user] at other
      simp only [Call.exec, withdraw_storing]
      exact storing_unseen ne _
    | balanceOf user' =>
      show sees user (commit s (answering some _)) = sees user s
      rw [balanceOf_commit]

/-- To the user, the answers and the account are the same after the one list of calls as after the other. -/
structure Indistinct (user : Addr) (s : State Addr) (calls calls' : List (Env Addr × Call Addr)) : Prop where
  answers : ((replies calls s).1.filter fun a => concerns user a.1) = (replies calls' s).1.filter fun a => concerns user a.1
  account : (replies calls s).2.accounts user = (replies calls' s).2.accounts user
  rate : (replies calls s).2.yieldRateBps = (replies calls' s).2.yieldRateBps

/-- **No user of the vault notices another**: neither the successes nor the failures of a user's calls, nor its account, depend on
what others call in between. -/
theorem users_independent (user : Addr) (s : State Addr) (calls calls' : List (Env Addr × Call Addr))
    (same : calls.filter (concerns user) = calls'.filter (concerns user)) : Indistinct user s calls calls' := by
  obtain ⟨answers, seen⟩ := (userView user).alike (s := s) trivial same
  obtain ⟨rate, account⟩ := Prod.mk.inj seen
  exact ⟨answers, account, rate⟩

namespace Sample

/-- Account 2 overdraws, deposits and withdraws while account 1 deposits and waits. -/
def busy : List (Env Nat × Call Nat) :=
  [(⟨5, fun _ => true, fun _ => true⟩, .initializeContract 500), (⟨5, fun _ => true, fun _ => true⟩, .withdraw 2 10),
    (⟨6, fun a => a = 1, fun _ => true⟩, .deposit 1 1000000), (⟨7, fun a => a = 2, fun _ => true⟩, .deposit 2 70),
    (⟨31536006, fun a => a = 2, fun _ => true⟩, .withdraw 2 70), (⟨31536006, fun a => a = 1, fun _ => true⟩, .withdraw 1 1)]

/-- Account 1 and the rate alone. -/
def quiet : List (Env Nat × Call Nat) :=
  [(⟨5, fun _ => true, fun _ => true⟩, .initializeContract 500), (⟨6, fun a => a = 1, fun _ => true⟩, .deposit 1 1000000),
    (⟨31536006, fun a => a = 1, fun _ => true⟩, .withdraw 1 1)]

end Sample

theorem users_independent_sample : Indistinct 1 State.initial Sample.busy Sample.quiet ∧
    (replies Sample.busy (State.initial : State Nat)).2.accounts 1 = some ⟨1049999, 31536006⟩ :=
  ⟨users_independent 1 .initial Sample.busy Sample.quiet rfl, by decide⟩

end AfriPay.VaultContract

/-! ## The escrow contract -/

namespace AfriPay.EscrowContract
open Soroban Ledger

variable {Addr : Type} [DecidableEq Addr]

/-- An action with what its caller gets to see of it, and the state after it. -/
def Action.answered (contract : Addr) (a : Action Addr) (s : State Addr) : Except (Fault Error) (Option Nat) × State Addr :=
  match a with
  | .invoke env call => Soroban.answered (Call.exec contract) (env, call) s
  | .outside t => (.ok none, { s with tokens := s.tokens.move t })

/-- The action is a call for the escrow `id`. -/
def Action.concerns (id : Nat) : Action Addr → Bool
  | .invoke _ (.fund id') | .invoke _ (.release id') | .invoke _ (.refund id') => id' = id
  | _ => false

/-- What the contract answers from `s` on. -/
def replies (contract : Addr) (actions : List (Action Addr)) (s : State Addr) :
    List (Action Addr × Except (Fault Error) (Option Nat)) × State Addr :=
  answersTo (Action.answered contract) actions s

/-- `id` is an escrow of the contract's. -/
structure Issued (id : Nat) (s : State Addr) : Prop where
  below : Below s
  stored : ∃ e, s.escrows id = some e

section Views

variable {contract : Addr} {s s' : State Addr} {id : Nat} {env : Env Addr} {p : Passage Addr}

/-- The escrow after a passage. -/
def passing (p : Passage Addr) (env : Env Addr) (found : Except (Fault Error) (Escrow Addr)) : Except (Fault Error) (Escrow Addr) := do
  let escrow ← found
  ensure (escrow.status = p.required) .invalidState
  ensure (p.timely env.timestamp escrow.expiresAt = true) .invalidExpiry
  requireAuth env escrow.sender
  if env.accepts (p.transfer escrow) then return { escrow with status := p.next } else .error .trap

/-- A passage is answered according to the escrow, and stores what becomes of it. -/
theorem pass_passing :
    (pass p env id s).map (fun out => out.2.escrows id) = (passing p env (loadEscrow s id)).map some := by
  unfold pass passing
  cases loadEscrow s id with
  | error fault => rfl
  | ok e =>
    simp only [ok_bind]
    cases ensure (e.status = p.required) Error.invalidState with
    | error fault => rfl
    | ok _ =>
      simp only [ok_bind]
      cases ensure (p.timely env.timestamp e.expiresAt = true) Error.invalidExpiry with
      | error fault => rfl
      | ok _ =>
        simp only [ok_bind]
        cases (requireAuth env e.sender : Except (Fault Error) Unit) with
        | error fault => rfl
        | ok _ =>
          simp only [ok_bind, Tokens.transfer]
          split
          · exact congrArg Except.ok (Function.update_self ..)
          · rfl

/-- Where the escrow is the same, so is what a passage answers and makes of it. -/
theorem pass_seen (reply : Unit → Option Nat) (same : s.escrows id = s'.escrows id) :
    (answering reply (pass p env id s)).map Prod.fst = (answering reply (pass p env id s')).map Prod.fst ∧
      (commit s (answering reply (pass p env id s))).escrows id = (commit s' (answering reply (pass p env id s'))).escrows id := by
  have alike : (pass p env id s).map (fun out => out.2.escrows id) = (pass p env id s').map fun out => out.2.escrows id := by
    rw [pass_passing, pass_passing, loadEscrow, loadEscrow, same]
  generalize pass p env id s = x at alike ⊢
  generalize pass p env id s' = x' at alike ⊢
  match x, x' with
  | .ok out, .ok out' => exact ⟨rfl, Except.ok.inj alike⟩
  | .error fault, .error fault' =>
    obtain rfl : fault = fault' := Except.error.inj alike
    exact ⟨rfl, same⟩
  | .ok out, .error fault => cases alike
  | .error fault, .ok out => cases alike

theorem Issued.exec {call : Call Addr} {r : Option Nat} (issued : Issued id s) (ran : call.exec contract env s = .ok (r, s')) : Issued id s' := by
  have writes := exec_writes issued.below ran
  obtain ⟨e, here⟩ := issued.stored
  obtain ⟨e', here', -⟩ := writes.deals.le Escrow.SameTerms.refl (fun _ _ does => does.same_terms) id e here
  exact ⟨writes.below, e', here'⟩

theorem Issued.next (issued : Issued id s) (a : Action Addr) : Issued id (a.answered contract s).2 := by
  cases a with
  | outside t => exact ⟨issued.below, issued.stored⟩
  | invoke env call =>
    simp only [Action.answered, answered_eq]
    cases ran : call.exec contract env s with
    | error fault => exact issued
    | ok out => exact issued.exec ran

/-- Nothing but its own calls touches an escrow. -/
theorem Issued.unseen (issued : Issued id s) {a : Action Addr} (other : a.concerns id = false) :
    (a.answered contract s).2.escrows id = s.escrows id := by
  cases a with
  | outside t => rfl
  | invoke env call =>
    simp only [Action.answered, answered_eq]
    cases ran : call.exec contract env s with
    | error fault => rfl
    | ok out =>
      obtain ⟨r, s'⟩ := out
      refine (exec_writes issued.below ran).deals.other fun own => ?_
      cases call with
      | createPayment amount sender recipient => cases own
      | createEscrow asset amount sender recipient expiresAt =>
        -- a new escrow has an id of its own
        obtain ⟨new, made, rfl⟩ := answering_ok ran
        obtain rfl : new = id := Option.some.inj own
        obtain ⟨-, -, -, rfl, -⟩ := createEscrow_ok made
        obtain ⟨e, here⟩ := issued.stored
        exact lt_irrefl _ (issued.below _ e here)
      | fund id' | release id' | refund id' =>
        obtain rfl : id' = id := Option.some.inj own
        simp [Action.concerns] at other

end Views

/-- What is seen of the contract by those who deal with the escrow `id`. -/
def escrowView (contract : Addr) (id : Nat) : View (Action.answered contract) (Issued id) (Option (Escrow Addr)) where
  see s := s.escrows id
  concerns := Action.concerns id
  inv issued := issued.next _
  own := by
    intro a s s' _ _ own same
    cases a with
    | outside t => simp [Action.concerns] at own
    | invoke env call =>
      simp only [Action.answered, answered_eq]
      cases call with
      | createPayment amount sender recipient => simp [Action.concerns] at own
      | createEscrow asset amount sender recipient expiresAt => simp [Action.concerns] at own
      | fund id' | release id' | refund id' =>
        obtain rfl : id' = id := by simpa [Action.concerns] using own
        exact pass_seen _ same
  others issued other := issued.unseen other

/-- To those who deal with the escrow `id`, the answers and the escrow are the same after the one list of actions as after the other. -/
structure Indistinct (contract : Addr) (id : Nat) (s : State Addr) (actions actions' : List (Action Addr)) : Prop where
  answers : ((replies contract actions s).1.filter fun a => a.1.concerns id) = (replies contract actions' s).1.filter fun a => a.1.concerns id
  escrow : (replies contract actions s).2.escrows id = (replies contract actions' s).2.escrows id

/-- **No escrow notices another**: once it exists, what its calls are answered and what becomes of it depends on its own calls. -/
theorem escrows_independent (contract : Addr) (start : Addr → Addr → Int) (past actions actions' : List (Action Addr)) (id : Nat)
    (there : ((run contract (.initial start) past).escrows id).isSome)
    (same : actions.filter (Action.concerns id) = actions'.filter (Action.concerns id)) :
    Indistinct contract id (run contract (.initial start) past) actions actions' := by
  have initial : Told contract ⟨State.initial start, []⟩ := ⟨nofun, Traced.initial, nofun⟩
  have below := ((initial.run past).1).below
  rw [record_state] at below
  have issued : Issued id (run contract (.initial start) past) := ⟨below, Option.isSome_iff_exists.1 there⟩
  obtain ⟨answers, escrow⟩ := (escrowView contract id).alike issued same
  exact ⟨answers, escrow⟩

namespace Sample

/-- Account 1 opens an escrow for 2. -/
def opened : List (Action Nat) := [.outside ⟨7, 3, 1, 100⟩, .invoke ⟨5, fun a => a = 1, fun _ => true⟩ (.createEscrow 7 60 1 2 10)]

/-- It is funded, too late for a release, and refunded. -/
def own : List (Action Nat) :=
  [.invoke ⟨6, fun a => a = 1, fun _ => true⟩ (.fund 0), .invoke ⟨10, fun a => a = 1, fun _ => true⟩ (.release 0),
    .invoke ⟨11, fun a => a = 1, fun _ => true⟩ (.refund 0)]

/-- Meanwhile another escrow opens, and fails to be funded. -/
def among : List (Action Nat) :=
  [.invoke ⟨6, fun a => a = 1, fun _ => true⟩ (.fund 0), .invoke ⟨7, fun a => a = 3, fun _ => true⟩ (.createEscrow 7 5 3 1 90),
    .invoke ⟨10, fun a => a = 1, fun _ => true⟩ (.release 0), .invoke ⟨10, fun a => a = 3, fun _ => false⟩ (.fund 1),
    .outside ⟨7, 2, 3, 1⟩, .invoke ⟨11, fun a => a = 1, fun _ => true⟩ (.refund 0)]

end Sample

theorem escrows_independent_sample : Indistinct 0 0 (run 0 (.initial fun _ _ => 0) Sample.opened) Sample.among Sample.own :=
  escrows_independent 0 _ Sample.opened Sample.among Sample.own 0 rfl rfl

end AfriPay.EscrowContract
