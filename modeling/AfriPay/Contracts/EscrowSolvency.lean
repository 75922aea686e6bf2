import AfriPay.Contracts.Escrow
import AfriPay.Ledger.Total

/-!
# The escrow contract is solvent

At any time the contract holds of each asset what it started with, what others
have sent it, what its funded escrows hold, and what it has released to itself.
-/

namespace AfriPay.EscrowContract
open Soroban Ledger

variable {Addr : Type} [DecidableEq Addr]

/-- What an escrow adds to a total of one asset. -/
def share (counts : Escrow Addr → Bool) (asset : Addr) (e : Escrow Addr) : Int :=
  if e.asset = asset ∧ counts e then e.amount else 0

/-- The sum of the amounts, in one asset, of the escrows that count. -/
def total (counts : Escrow Addr → Bool) (asset : Addr) (s : State Addr) : Int :=
  Register.total (share counts asset) (s.nextEscrowId.getD 0) s.escrows

def isFunded (e : Escrow Addr) : Bool := e.status = .funded

def isReleasedTo (contract : Addr) (e : Escrow Addr) : Bool := e.status = .released && e.recipient = contract

/-- What outside transfers have brought the contract. -/
def received (contract asset : Addr) (actions : List (Action Addr)) : Int :=
  (actions.map fun
    | .outside t => if t.asset = asset ∧ t.target = contract then t.amount else 0
    | .invoke .. => 0).sum

/-- The contract authorizes no invocation as sender, and nobody else moves its tokens. -/
def Action.Legit (contract : Addr) : Action Addr → Prop
  | .invoke env _ => env.auth contract = false
  | .outside t => t.source ≠ contract ∧ 0 ≤ t.amount

/-- The balance equation of the state `s` reached by `actions`. -/
structure Solvent (contract : Addr) (start : Addr → Addr → Int) (actions : List (Action Addr)) (s : State Addr) : Prop where
  balance : ∀ asset, s.tokens.balance asset contract =
    start asset contract + received contract asset actions + total isFunded asset s + total (isReleasedTo contract) asset s
  covered : ∀ asset, 0 ≤ start asset contract → total isFunded asset s ≤ s.tokens.balance asset contract
  /-- The sums leave no escrow out. -/
  stored : ∀ id e, s.escrows id = some e → id < s.nextEscrowId.getD 0

/-- What holds of every stored escrow. -/
structure Proper (contract : Addr) (next id : Nat) (e : Escrow Addr) : Prop where
  below : id < next
  positive : 0 < e.amount
  sender : e.sender ≠ contract

/-- What holds between two actions. -/
structure Inv (contract : Addr) (start : Addr → Addr → Int) (gift : Addr → Int) (s : State Addr) : Prop where
  escrows : ∀ id e, s.escrows id = some e → Proper contract (s.nextEscrowId.getD 0) id e
  balance : ∀ asset, s.tokens.balance asset contract =
    start asset contract + gift asset + total isFunded asset s + total (isReleasedTo contract) asset s

/-! ## Totals -/

/-- A total after an escrow has been saved. -/
theorem total_save {counts : Escrow Addr → Bool} {asset : Addr} {s : State Addr} {tokens : Tokens Addr} {id : Nat}
    {e e' : Escrow Addr} (here : s.escrows id = some e) (lt : id < s.nextEscrowId.getD 0) :
    total counts asset (saveEscrow { s with tokens } id e') = total counts asset s - share counts asset e + share counts asset e' :=
  Register.total_revised here lt

/-- A new escrow that does not count yet. -/
theorem total_create {counts : Escrow Addr → Bool} {asset : Addr} {s s' : State Addr} {e : Escrow Addr}
    (escrows : s'.escrows = Function.update s.escrows (s.nextEscrowId.getD 0) (some e))
    (next : s'.nextEscrowId = some (s.nextEscrowId.getD 0 + 1)) (new : counts e = false) :
    total counts asset s' = total counts asset s := by
  have nothing : share counts asset e = 0 := by simp [share, new]
  unfold total
  rw [escrows, next, Option.getD_some, Register.total_opened, nothing, add_zero]

theorem total_nonneg {counts : Escrow Addr → Bool} {asset : Addr} {s : State Addr}
    (positive : ∀ id e, s.escrows id = some e → 0 < e.amount) : 0 ≤ total counts asset s := by
  refine Register.total_nonneg fun id e here => ?_
  have := positive id e here
  unfold share
  split <;> omega

/-! ## One action -/

section Step

variable {contract : Addr} {start : Addr → Addr → Int} {gift : Addr → Int} {env : Env Addr} {s s' : State Addr}

theorem Inv.createPayment {amount : Int} {sender recipient : Addr} {id : Nat} (inv : Inv contract start gift s)
    (h : createPayment env amount sender recipient s = .ok (id, s')) : Inv contract start gift s' := by
  obtain ⟨escrows, next, tokens⟩ := createPayment_ok h
  refine ⟨?_, fun asset => ?_⟩
  · rw [escrows, next]
    exact inv.escrows
  · simp only [total, escrows, next, tokens]
    exact inv.balance asset

theorem Inv.createEscrow {asset : Addr} {amount : Int} {sender recipient : Addr} {expiresAt id : Nat}
    (inv : Inv contract start gift s) (own : env.auth contract = false)
    (h : createEscrow env asset amount sender recipient expiresAt s = .ok (id, s')) : Inv contract start gift s' := by
  obtain ⟨positive, -, auth, rfl, after⟩ := createEscrow_ok h
  have other : sender ≠ contract := by
    rintro rfl
    rw [auth] at own
    cases own
  refine ⟨?_, fun a => ?_⟩
  · rw [after]
    refine Register.forall_update (fun i e here => ?_) ⟨Nat.lt_succ_self _, positive, other⟩
    have proper := inv.escrows i e here
    exact ⟨Nat.lt_succ_of_lt proper.below, proper.positive, proper.sender⟩
  · have kept : ∀ counts : Escrow Addr → Bool, counts ⟨asset, sender, recipient, amount, expiresAt, .created⟩ = false →
        total counts a s' = total counts a s := by
      rw [after]
      exact fun counts new => total_create rfl rfl new
    have tokens : s'.tokens = s.tokens := by rw [after]
    rw [kept isFunded rfl, kept (isReleasedTo contract) rfl, tokens]
    exact inv.balance a

/-- The accounting of a passage: what it moves into the contract is what it adds to the two totals. -/
theorem Inv.pass {p : Passage Addr} {id : Nat} (inv : Inv contract start gift s)
    (h : pass p env id s = .ok ((), s'))
    (balanced : ∀ e, s.escrows id = some e → e.status = p.required → ∀ asset,
      (p.transfer e).delta asset contract = share isFunded asset { e with status := p.next } - share isFunded asset e
        + (share (isReleasedTo contract) asset { e with status := p.next } - share (isReleasedTo contract) asset e)) :
    Inv contract start gift s' := by
  obtain ⟨e, here, required, -, -, rfl⟩ := pass_ok h
  have proper := inv.escrows id e here
  refine ⟨?_, ?_⟩
  · exact Register.forall_update inv.escrows ⟨proper.below, proper.positive, proper.sender⟩
  · intro asset
    have balance := inv.balance asset
    have delta := balanced e here required asset
    rw [total_save here proper.below, total_save here proper.below]
    simp only [saveEscrow, Tokens.move]
    omega

theorem Inv.fund {id : Nat} (inv : Inv contract start gift s) (h : EscrowContract.pass (fund contract) env id s = .ok ((), s')) :
    Inv contract start gift s' := by
  refine inv.pass h fun e here required asset => ?_
  have created : e.status = .created := required
  have delta := Transfer.delta_target (t := (EscrowContract.fund contract).transfer e) (inv.escrows id e here).sender asset
  simp only [EscrowContract.fund] at delta ⊢
  rw [delta]
  by_cases same : asset = e.asset
  · simp [share, isFunded, isReleasedTo, created, same]
  · have other : ¬e.asset = asset := fun h => same h.symm
    simp [share, same, other]

theorem Inv.release {id : Nat} (inv : Inv contract start gift s) (h : EscrowContract.pass (release contract) env id s = .ok ((), s')) :
    Inv contract start gift s' := by
  refine inv.pass h fun e here required asset => ?_
  have funded : e.status = .funded := required
  simp only [EscrowContract.release]
  by_cases own : e.recipient = contract
  · rw [Transfer.delta_self own]
    simp [share, isFunded, isReleasedTo, funded, own]
  · have delta := Transfer.delta_source (t := (EscrowContract.release contract).transfer e) own asset
    simp only [EscrowContract.release] at delta
    rw [delta]
    by_cases same : asset = e.asset
    · simp [share, isFunded, isReleasedTo, funded, own, same]
    · have other : ¬e.asset = asset := fun h => same h.symm
      simp [share, same, other]

theorem Inv.refund {id : Nat} (inv : Inv contract start gift s) (h : EscrowContract.pass (refund contract) env id s = .ok ((), s')) :
    Inv contract start gift s' := by
  refine inv.pass h fun e here required asset => ?_
  have funded : e.status = .funded := required
  have delta := Transfer.delta_source (t := (EscrowContract.refund contract).transfer e) (inv.escrows id e here).sender asset
  simp only [EscrowContract.refund] at delta ⊢
  rw [delta]
  by_cases same : asset = e.asset
  · simp [share, isFunded, isReleasedTo, funded, same]
  · have other : ¬e.asset = asset := fun h => same h.symm
    simp [share, same, other]

/-- A failed invocation changes nothing. -/
theorem Inv.commit {α : Type} {r : Except (Fault Error) (α × State Addr)} (inv : Inv contract start gift s)
    (ok : ∀ a s', r = .ok (a, s') → Inv contract start gift s') : Inv contract start gift (commit s r) := by
  cases r with
  | error e => exact inv
  | ok r => exact ok r.1 r.2 rfl

theorem Inv.apply {a : Action Addr} (inv : Inv contract start gift s) (legit : a.Legit contract) :
    Inv contract start (fun asset => gift asset + received contract asset [a]) (a.apply contract s) := by
  cases a with
  | outside t =>
    refine ⟨inv.escrows, fun asset => ?_⟩
    have other : contract ≠ t.source := fun h => legit.1 h.symm
    have balance := inv.balance asset
    have delta : t.delta asset contract = if t.asset = asset ∧ t.target = contract then t.amount else 0 := by
      simp [Transfer.delta, other, eq_comm]
    show s.tokens.balance asset contract + t.delta asset contract = _
    rw [delta, balance]
    simp only [received, List.map_cons, List.map_nil, List.sum_cons, List.sum_nil]
    show _ = start asset contract + _ + total isFunded asset s + total (isReleasedTo contract) asset s
    omega
  | invoke env call =>
    have same : (fun asset => gift asset + received contract asset [Action.invoke env call]) = gift := by
      funext asset
      simp [received]
    rw [same]
    cases call with
    | createPayment amount sender recipient => exact inv.commit fun _ _ h => inv.createPayment h
    | createEscrow asset amount sender recipient expiresAt => exact inv.commit fun _ _ h => inv.createEscrow legit h
    | fund id => exact inv.commit fun _ _ h => inv.fund h
    | release id => exact inv.commit fun _ _ h => inv.release h
    | refund id => exact inv.commit fun _ _ h => inv.refund h

end Step

/-! ## Runs -/

theorem received_cons (contract asset : Addr) (a : Action Addr) (actions : List (Action Addr)) :
    received contract asset (a :: actions) = received contract asset [a] + received contract asset actions := by
  simp [received]

theorem Inv.run {contract : Addr} {start : Addr → Addr → Int} {gift : Addr → Int} {s : State Addr} {actions : List (Action Addr)}
    (inv : Inv contract start gift s) (legit : ∀ a ∈ actions, a.Legit contract) :
    Inv contract start (fun asset => gift asset + received contract asset actions) (EscrowContract.run contract s actions) := by
  induction actions generalizing s gift with
  | nil =>
    simp only [received, List.map_nil, List.sum_nil, add_zero]
    exact inv
  | cons a actions ih =>
    have step := inv.apply (legit a List.mem_cons_self)
    have rest := ih step fun b mem => legit b (List.mem_cons_of_mem a mem)
    simp only [received_cons contract _ a actions, ← add_assoc]
    exact rest

theorem received_nonneg {contract asset : Addr} {actions : List (Action Addr)} (legit : ∀ a ∈ actions, a.Legit contract) :
    0 ≤ received contract asset actions := by
  refine List.sum_nonneg fun x mem => ?_
  obtain ⟨a, member, rfl⟩ := List.mem_map.1 mem
  cases a with
  | invoke env call => exact le_refl 0
  | outside t =>
    have sent : t.source ≠ contract ∧ 0 ≤ t.amount := legit _ member
    simp only
    split <;> omega

theorem Inv.initial (contract : Addr) (start : Addr → Addr → Int) : Inv contract start (fun _ => 0) (State.initial start) :=
  ⟨by rintro id e ⟨⟩, fun asset => by simp [total, Register.total, State.initial]⟩

/-- **The escrow contract is solvent**, after any actions. -/
theorem solvency (contract : Addr) (start : Addr → Addr → Int) (actions : List (Action Addr)) (legit : ∀ a ∈ actions, a.Legit contract) :
    Solvent contract start actions (run contract (.initial start) actions) := by
  have inv := (Inv.initial contract start).run legit
  simp only [zero_add] at inv
  refine ⟨inv.balance, fun asset funds => ?_, fun id e here => (inv.escrows id e here).below⟩
  have balance := inv.balance asset
  have gifts : 0 ≤ received contract asset actions := received_nonneg legit
  have released : 0 ≤ total (isReleasedTo contract) asset _ := total_nonneg fun id e here => (inv.escrows id e here).positive
  omega

namespace Sample

/-- Account 1 funds an escrow for 2 in asset 7, releases it, funds another for the contract (0) and releases it too. -/
def actions : List (Action Nat) :=
  let env : Env Nat := ⟨5, fun a => a = 1, fun _ => true⟩
  [.outside ⟨7, 3, 1, 100⟩, .invoke env (.createEscrow 7 60 1 2 10), .invoke env (.fund 0), .invoke env (.release 0),
    .invoke env (.createEscrow 7 30 1 0 10), .invoke env (.fund 1), .invoke env (.release 1), .outside ⟨7, 2, 0, 5⟩,
    .invoke env (.createEscrow 7 10 1 2 10), .invoke env (.fund 2)]

theorem legit : ∀ a ∈ actions, a.Legit 0 := by
  simp [actions, Action.Legit]

end Sample

theorem solvency_sample : Solvent 0 (fun _ _ => 0) Sample.actions (run 0 (.initial fun _ _ => 0) Sample.actions) ∧
    (run 0 (.initial fun _ _ => 0) Sample.actions).tokens.balance 7 0 = 0 + 5 + 10 + 30 :=
  ⟨solvency 0 _ _ Sample.legit, by decide⟩

end AfriPay.EscrowContract
