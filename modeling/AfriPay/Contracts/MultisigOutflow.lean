import AfriPay.Contracts.MultisigConsent
import AfriPay.Ledger.Total

/-!
# What the multisig pays out

The contract's balance of an asset is what it started with and received, less
the amounts of its executed asset transfers to others.
-/

namespace AfriPay.MultisigContract
open Soroban Ledger

variable {Addr : Type} [DecidableEq Addr]

/-- What an executed proposal has taken out of the contract's balance of an asset. -/
def cost (contract asset : Addr) : {kind : Kind} → Proposal Addr kind → Int
  | .transaction, _ => 0
  | .assetTransfer, p =>
    if p.executed ∧ AssetTransfer.asset p.details = asset ∧ AssetTransfer.target p.details ≠ contract then AssetTransfer.amount p.details else 0

/-- The amounts, in one asset, of the executed asset transfers to others. -/
def outflow (contract asset : Addr) (s : State Addr) : Int :=
  Register.total (cost contract asset) (s.nextProposalId.getD 0) (s.proposals .assetTransfer)

/-- What outside transfers have brought the contract. -/
def received {contract : Addr} (asset : Addr) (actions : List (Action contract)) : Int :=
  (actions.map fun
    | .outside t _ => if t.asset = asset ∧ t.target = contract then t.amount else 0
    | .invoke .. => 0).sum

/-- The proposal `id` was made once, with the details it has. -/
def Proposed {kind : Kind} (log : List (Entry Addr)) (id : Nat) (p : Proposal Addr kind) : Prop :=
  ∃ x proposer, (about (Ballot.keyOf (Entry.deed kind)) id log).filter (Ballot.opening (Entry.deed kind)) = [x] ∧
    x.deed kind = some (id, .opened p.details proposer)

/-- The one way tokens move: `call` executes an asset transfer, for the first and last time. -/
def Pays (contract : Addr) (call : Call Addr) (s s' : State Addr) : Prop :=
  ∃ id p t, call = .executeAssetTransfer id ∧ s.proposals .assetTransfer id = some p ∧ p.executed = false ∧
    p.details.payout contract = some t ∧ s'.tokens = s.tokens.move t ∧ s'.proposals .assetTransfer id = some { p with executed := true }

/-- The accounts of the world `w` reached by `actions`. -/
structure Accounted (contract : Addr) (start : Addr → Addr → Int) (actions : List (Action contract)) (w : World Addr) : Prop where
  balance : ∀ asset, w.state.tokens.balance asset contract = start asset contract + received asset actions - outflow contract asset w.state
  /-- The sum leaves no proposal out. -/
  stored : ∀ kind id p, w.state.proposals kind id = some p → id < w.state.nextProposalId.getD 0 ∧ Proposed w.log id p
  /-- Every payout is that of an executed asset transfer, and no two are of the same. -/
  paidOnce : ∃ ids : List Nat, ids.Nodup ∧ List.Forall₂ (Paid contract w.state) (payouts contract w.state) ids
  moves : ∀ env call, (Action.apply w (.invoke env call : Action contract)).state.tokens = w.state.tokens ∨
    Pays contract call w.state (Action.apply w (.invoke env call : Action contract)).state
  failing : ∀ env id fault, executeAssetTransfer contract env id w.state = .error fault →
    Action.apply w (.invoke env (.executeAssetTransfer id) : Action contract) = w
  refused : ∀ env id p t, w.state.proposals .assetTransfer id = some p → p.details.payout contract = some t → env.accepts t = false →
    ∃ fault, executeAssetTransfer contract env id w.state = .error fault

/-! ## What a successful call does -/

/-- What a successful invocation `e` does to the state. -/
inductive Effect (contract : Addr) (e : Entry Addr) (s : State Addr) : State Addr → Prop where
  | founded {S : List Addr} {T : Nat} (first : s.signers = none) (quiet : ∀ kind, e.deed kind = none) :
      Effect contract e s { s with signers := some S, threshold := some T, nextProposalId := some 0 }
  | opened {kind : Kind} {id : Nat} {d : Details Addr kind} {a : Addr} (does : e.Does kind id (.opened d a)) (open' : s.signers ≠ none)
      (next : s.nextProposalId = some id) : Effect contract e s { s.save id ⟨d, [a], false⟩ with nextProposalId := some (id + 1) }
  | approved {kind : Kind} {id : Nat} {p : Proposal Addr kind} {a : Addr} (does : e.Does kind id (.approved a))
      (here : s.proposals kind id = some p) (pending : p.executed = false) :
      Effect contract e s (s.save id { p with approvals := p.approvals ++ [a] })
  | executed {kind : Kind} {id : Nat} {p : Proposal Addr kind} (does : e.Does kind id .executed) (here : s.proposals kind id = some p)
      (pending : p.executed = false) : Effect contract e s
        ({ s with tokens := (p.details.payout contract).elim s.tokens s.tokens.move }.save id { p with executed := true })

theorem exec_effect {contract : Addr} {env : Env Addr} {call : Call Addr} {s s' : State Addr} {r : Option Nat}
    (h : call.exec contract env s = .ok (r, s')) :
    Effect contract ⟨env, call, r⟩ s s' := by
  cases exec_invoked h with
  | initialized is silent ran =>
    obtain ⟨first, -, -, -, -, rfl⟩ := initializeContract_ok ran
    rw [is]
    exact .founded first fun kind => by cases kind <;> rfl
  | proposed ran does =>
    obtain ⟨-, ⟨S, signers, -⟩, next, rfl⟩ := proposeKind_ok ran
    exact .opened does (by rw [signers]; exact nofun) next
  | approved ran does =>
    obtain ⟨p, -, -, here, pending, -, rfl⟩ := approveKind_ok ran
    exact .approved does here pending
  | executed ran does =>
    obtain ⟨p, _, here, pending, -, -, rfl⟩ := executeKind_ok ran
    exact .executed does here pending

/-! ## The accounts through one action -/

/-- What holds between two actions. -/
structure Booked (contract : Addr) (start : Addr → Addr → Int) (gift : Addr → Int) (w : World Addr) : Prop where
  balance : ∀ asset, w.state.tokens.balance asset contract = start asset contract + gift asset - outflow contract asset w.state
  below : ∀ kind id p, w.state.proposals kind id = some p → id < w.state.nextProposalId.getD 0
  closed : w.state.signers = none → ∀ kind id, w.state.proposals kind id = none
  traced : ∀ kind, Traced (Ballot.keyOf (Entry.deed kind)) (Ballot.Handles (Entry.deed kind)) w.log (w.state.proposals kind)

section Step

variable {contract asset : Addr} {start : Addr → Addr → Int} {gift : Addr → Int} {s : State Addr} {w : World Addr} {e : Entry Addr}
  {kind : Kind} {id : Nat} {p p' : Proposal Addr kind}

theorem outflow_saved (here : s.proposals kind id = some p) (lt : id < s.nextProposalId.getD 0) (tokens : Tokens Addr) :
    outflow contract asset ({ s with tokens }.save id p') =
      outflow contract asset s - cost contract asset p + cost contract asset p' := by
  cases kind with
  | transaction =>
    simp only [cost, sub_zero, add_zero]
    exact congrArg (Register.total _ _) (save_other (by decide))
  | assetTransfer =>
    refine (congrArg (Register.total _ _) save_here).trans ?_
    exact Register.total_revised here lt

theorem outflow_opened {d : Details Addr kind} {a : Addr} (next : s.nextProposalId = some id) (unused : ∀ kind, s.proposals kind id = none) :
    outflow contract asset { s.save id ⟨d, [a], false⟩ with nextProposalId := some (id + 1) } = outflow contract asset s := by
  have counter : outflow contract asset s = Register.total (cost contract asset) id (s.proposals .assetTransfer) := by
    rw [outflow, next]
    rfl
  rw [counter]
  cases kind with
  | transaction =>
    have same : (s.save id ⟨d, [a], false⟩).proposals .assetTransfer = s.proposals .assetTransfer := save_other (by decide)
    show Register.total _ (id + 1) _ = _
    rw [same]
    exact Register.total_unused (unused _)
  | assetTransfer =>
    have nothing : cost contract asset (⟨d, [a], false⟩ : Proposal Addr .assetTransfer) = 0 := by simp [cost]
    show Register.total _ (id + 1) ((s.save id ⟨d, [a], false⟩).proposals _) = _
    rw [save_here, Register.total_opened, nothing, add_zero]

/-- What a payout takes from the contract is the cost of the proposal. -/
theorem payout_cost (pending : p.executed = false) (tokens : Tokens Addr) :
    ((p.details.payout contract).elim tokens tokens.move).balance asset contract =
      tokens.balance asset contract + cost contract asset p - cost contract asset { p with executed := true } := by
  cases kind with
  | transaction => simp [Details.payout, cost]
  | assetTransfer =>
    have before : cost contract asset p = 0 := by simp [cost, pending]
    show tokens.balance asset contract + Transfer.delta ⟨AssetTransfer.asset p.details, contract,
      AssetTransfer.target p.details, _⟩ asset contract = _
    rw [before]
    by_cases own : AssetTransfer.target p.details = contract
    · rw [Transfer.delta_self own]
      simp [cost, own]
    · have delta := Transfer.delta_source (t := ⟨AssetTransfer.asset p.details, contract, AssetTransfer.target p.details,
        AssetTransfer.amount p.details⟩) own asset
      simp only at delta
      rw [delta]
      by_cases same : asset = AssetTransfer.asset p.details
      · simp [cost, own, same]
        omega
      · have other : ¬AssetTransfer.asset p.details = asset := fun h => same h.symm
        simp [cost, same, other]

omit [DecidableEq Addr] in
/-- What an invocation does to one proposal it does to the register of its kind. -/
theorem traced_saved {d : Deed (Details Addr kind) Addr} (does : e.Does kind id d)
    (handles : Ballot.Handles (Entry.deed kind) e (s.proposals kind id) p')
    {log : List (Entry Addr)}
    (traced : ∀ kind, Traced (Ballot.keyOf (Entry.deed kind)) (Ballot.Handles (Entry.deed kind)) log (s.proposals kind)) (k : Kind) :
    Traced (Ballot.keyOf (Entry.deed k)) (Ballot.Handles (Entry.deed k)) (e :: log) ((s.save id p').proposals k) := by
  refine Deals.traced ?_ (traced k)
  by_cases same : k = kind
  · subst same
    rw [save_here]
    exact .does (by simp [Ballot.keyOf, does.deed]) handles
  · rw [save_other same]
    exact .idle (by simp [Ballot.keyOf, does.others k same])

omit [DecidableEq Addr] in
theorem below_saved (below : ∀ kind id p, s.proposals kind id = some p → id < s.nextProposalId.getD 0) {n : Nat}
    (le : s.nextProposalId.getD 0 ≤ n) (lt : id < n) (k : Kind) (i : Nat) (q : Proposal Addr k)
    (after : (s.save id p').proposals k i = some q) : i < n := by
  by_cases same : k = kind
  · subst same
    rw [save_here] at after
    exact Register.forall_update (P := fun i _ => i < n) (fun i q here => lt_of_lt_of_le (below k i q here) le) lt i q after
  · rw [save_other same] at after
    exact lt_of_lt_of_le (below k i q after) le

theorem Booked.effect {s' : State Addr} (booked : Booked contract start gift w) (effect : Effect contract e w.state s') :
    Booked contract start gift ⟨s', e :: w.log⟩ := by
  cases effect with
  | founded first quiet =>
    have none := booked.closed first
    have empty : ∀ asset n, Register.total (cost contract asset) n (w.state.proposals .assetTransfer) = 0 := by
      intro asset n
      simp [Register.total, none .assetTransfer]
    refine ⟨fun asset => ?_, fun kind id p here => ?_, fun _ => none, fun kind => ?_⟩
    · have balance := booked.balance asset
      rw [outflow, empty] at balance
      rw [outflow, empty]
      exact balance
    · have here : w.state.proposals kind id = some p := here
      rw [none] at here
      cases here
    · exact Deals.traced (.idle (by simp [Ballot.keyOf, quiet])) (booked.traced kind)
  | @opened kind id d a does open' next =>
    have counter : w.state.nextProposalId.getD 0 = id := by rw [next]; rfl
    have unused : ∀ kind, w.state.proposals kind id = none := by
      intro kind
      cases here : w.state.proposals kind id with
      | none => rfl
      | some p =>
        have lt := booked.below kind id p here
        omega
    refine ⟨fun asset => ?_, fun kind i p here => ?_, fun first => (open' first).elim, fun kind => ?_⟩
    · rw [outflow_opened next unused]
      exact booked.balance asset
    · exact below_saved booked.below (n := id + 1) (by omega) (Nat.lt_succ_self id) kind i p here
    · refine traced_saved does ?_ booked.traced kind
      rw [unused]
      exact .opened does.deed
  | @approved kind id p a does here pending =>
    have lt := booked.below kind id p here
    have costs : ∀ asset, cost contract asset { p with approvals := p.approvals ++ [a] } = cost contract asset p := by
      intro asset
      cases kind <;> rfl
    refine ⟨fun asset => ?_, fun kind i q after => ?_, fun first => ?_, fun kind => ?_⟩
    · have saved : outflow contract asset (w.state.save id { p with approvals := p.approvals ++ [a] }) =
          outflow contract asset w.state - cost contract asset p + cost contract asset { p with approvals := p.approvals ++ [a] } :=
        outflow_saved here lt w.state.tokens
      rw [saved, costs, sub_add_cancel]
      exact booked.balance asset
    · exact below_saved booked.below (le_refl _) lt kind i q after
    · have none := booked.closed first kind id
      rw [here] at none
      cases none
    · refine traced_saved does ?_ booked.traced kind
      rw [here]
      exact .kept does.deed rfl rfl
  | @executed kind id p does here pending =>
    have lt := booked.below kind id p here
    refine ⟨fun asset => ?_, fun kind i q after => ?_, fun first => ?_, fun kind => ?_⟩
    · have balance := booked.balance asset
      rw [outflow_saved here lt]
      refine (payout_cost pending w.state.tokens).trans ?_
      omega
    · exact below_saved booked.below (le_refl _) lt kind i q after
    · have none := booked.closed first kind id
      rw [here] at none
      cases none
    · refine traced_saved does ?_ booked.traced kind
      rw [here]
      exact .kept does.deed rfl rfl

theorem Booked.apply (booked : Booked contract start gift w) (a : Action contract) :
    Booked contract start (fun asset => gift asset + received asset [a]) (a.apply w) := by
  cases a with
  | outside t other =>
    refine ⟨fun asset => ?_, booked.below, booked.closed, booked.traced⟩
    have other : contract ≠ t.source := fun h => other h.symm
    have balance := booked.balance asset
    have delta : t.delta asset contract = if t.asset = asset ∧ t.target = contract then t.amount else 0 := by
      simp [Transfer.delta, other, eq_comm]
    show w.state.tokens.balance asset contract + t.delta asset contract = _
    rw [delta, balance]
    simp only [received, List.map_cons, List.map_nil, List.sum_cons, List.sum_nil]
    show _ = start asset contract + _ - outflow contract asset w.state
    omega
  | invoke env call =>
    have same : (fun asset => gift asset + received asset [(.invoke env call : Action contract)]) = gift := by
      funext asset
      simp [received]
    rw [same]
    cases ran : call.exec contract env w.state with
    | error fault => simpa only [Action.apply, ran] using booked
    | ok out =>
      obtain ⟨r, s⟩ := out
      simp only [Action.apply, ran]
      exact booked.effect (exec_effect ran)

theorem received_cons (asset : Addr) (a : Action contract) (actions : List (Action contract)) :
    received asset (a :: actions) = received asset [a] + received asset actions := by
  simp [received]

theorem Booked.run (booked : Booked contract start gift w) (actions : List (Action contract)) :
    Booked contract start (fun asset => gift asset + received asset actions) (MultisigContract.run w actions) := by
  induction actions generalizing w gift with
  | nil =>
    simp only [received, List.map_nil, List.sum_nil, add_zero]
    exact booked
  | cons a actions ih =>
    have rest := ih (booked.apply a)
    simp only [received_cons _ a actions, ← add_assoc]
    exact rest

end Step

/-! ## Single calls -/

section Calls

variable {contract : Addr} {w : World Addr} {env : Env Addr} {call : Call Addr} {fault : Fault Error}

theorem apply_error (failed : call.exec contract env w.state = .error fault) : Action.apply w (.invoke env call : Action contract) = w := by
  simp only [Action.apply, failed]

omit [DecidableEq Addr] in
theorem withReply_error {α : Type} {reply : α → Option Nat} {x : Except (Fault Error) (α × State Addr)} (failed : x = .error fault) :
    withReply reply x = .error fault := by
  rw [failed]
  rfl

/-- A proposal is executed only if the token agrees to what it pays. -/
theorem execute_accepts {kind : Kind} {id : Nat} {s s' : State Addr} {p : Proposal Addr kind} {t : Transfer Addr}
    (h : executeKind kind contract env id s = .ok ((), s')) (here : s.proposals kind id = some p)
    (payout : p.details.payout contract = some t) : env.accepts t = true := by
  obtain ⟨p', found, h⟩ := bind_ok h
  obtain ⟨_, -, h⟩ := bind_ok h
  obtain ⟨_, -, h⟩ := bind_ok h
  obtain ⟨_, -, h⟩ := bind_ok h
  obtain ⟨_, paid, -⟩ := bind_ok h
  obtain rfl : p = p' := Option.some.inj (here.symm.trans (okOr_ok found))
  rw [payout] at paid
  exact Tokens.transfer_accepts paid

/-- Only the execution of an asset transfer moves tokens. -/
theorem exec_moves {r : Option Nat} {s' : State Addr} (h : call.exec contract env w.state = .ok (r, s')) :
    s'.tokens = w.state.tokens ∨ Pays contract call w.state s' := by
  cases call with
  | executeAssetTransfer id =>
    obtain ⟨_, ran, -⟩ := withReply_ok h
    obtain ⟨p, _, here, pending, -, -, rfl⟩ := executeKind_ok ran
    refine .inr ⟨id, p, _, rfl, here, pending, rfl, rfl, ?_⟩
    rw [save_here, Function.update_self]
  | initializeContract signers threshold =>
    obtain ⟨_, ran, -⟩ := withReply_ok h
    obtain ⟨-, -, -, -, -, rfl⟩ := initializeContract_ok ran
    exact .inl rfl
  | proposeTransaction | proposeAssetTransfer =>
    obtain ⟨_, ran, -⟩ := withReply_ok h
    obtain ⟨-, -, -, rfl⟩ := proposeKind_ok ran
    exact .inl rfl
  | approve | approveAssetTransfer =>
    obtain ⟨_, ran, -⟩ := withReply_ok h
    obtain ⟨_, -, -, -, -, -, rfl⟩ := approveKind_ok ran
    exact .inl rfl
  | execute id =>
    obtain ⟨_, ran, -⟩ := withReply_ok h
    obtain ⟨_, _, -, -, -, -, rfl⟩ := executeKind_ok ran
    exact .inl rfl

end Calls

/-- **Every token the contract gives away is accounted for by an executed proposal.** -/
theorem outflow_accounting {contract : Addr} (start : Addr → Addr → Int) (actions : List (Action contract)) :
    Accounted contract start actions (run ⟨.initial start, []⟩ actions) := by
  have initial : Booked contract start (fun _ => 0) ⟨State.initial start, []⟩ :=
    ⟨fun asset => by simp [outflow, Register.total, State.initial], fun _ _ _ => nofun, fun _ _ _ => rfl, fun _ => .initial⟩
  have booked := initial.run actions
  simp only [zero_add] at booked
  refine ⟨booked.balance, fun kind id p here => ⟨booked.below kind id p here, ?_⟩, ((Inv.initial contract start).run actions).paid,
    fun env call => ?_, fun env id fault failed => apply_error (withReply_error failed), fun env id p t here payout refuses => ?_⟩
  · exact Ballot.opened_once (booked.traced kind) here
  · cases ran : call.exec contract env (run ⟨State.initial start, []⟩ actions).state with
    | error fault => exact .inl (congrArg (fun w => w.state.tokens) (apply_error ran))
    | ok out =>
      obtain ⟨r, s⟩ := out
      simp only [Action.apply, ran]
      exact exec_moves ran
  · cases ran : executeAssetTransfer contract env id (run ⟨State.initial start, []⟩ actions).state with
    | error fault => exact ⟨fault, rfl⟩
    | ok out =>
      have accepts := execute_accepts ran here payout
      rw [refuses] at accepts
      cases accepts

end AfriPay.MultisigContract
