import AfriPay.Contracts.MultisigConsent

/-!
# The multisig is never deadlocked

The signers are distinct and at least as many as must approve. Those who have
not approved an asset transfer can do so in any order, and it is then executed
if the contract has the funds.
-/

namespace AfriPay.MultisigContract
open Soroban Ledger

variable {Addr : Type} [DecidableEq Addr]

/-- The signers of a list approve an asset transfer, one after another, each in surroundings of its own. -/
def approveAll (host : Addr → Env Addr) (proposalId : Nat) : List Addr → State Addr → Except (Fault Error) (State Addr)
  | [], s => .ok s
  | signer :: rest, s => do
    let (_, s) ← approveAssetTransfer (host signer) signer proposalId s
    approveAll host proposalId rest s

/-- What an asset transfer moves. -/
def transferOf (contract : Addr) (p : Proposal Addr .assetTransfer) : Transfer Addr :=
  ⟨AssetTransfer.asset p.details, contract, AssetTransfer.target p.details, AssetTransfer.amount p.details⟩

/-- What becomes of the asset transfer `p` once all signers `S` have approved it and it is executed. -/
structure Done (S : List Addr) (id : Nat) (p : Proposal Addr .assetTransfer) (tokens : Tokens Addr) (s : State Addr) : Prop where
  stored : ∃ approvals, s.proposals .assetTransfer id = some ⟨p.details, approvals, true⟩ ∧ ∀ a, a ∈ approvals ↔ a ∈ S
  tokens : s.tokens = tokens

/-- The asset transfer `p` stored under `id` can be completed by the signers `S` in any order, and not before `T` have approved. -/
structure Completable (contract : Addr) (S : List Addr) (T id : Nat) (p : Proposal Addr .assetTransfer) (s : State Addr) : Prop where
  early : ∀ env, p.approvals.length < T → executeAssetTransfer contract env id s = .error (.error .thresholdNotMet)
  /-- The state all approvals and the execution lead to depends on their order in the order of approvals only. -/
  anyOrder : AssetTransfer.amount p.details ≤ s.tokens.balance (AssetTransfer.asset p.details) contract → ∃ tokens, ∀ host order,
    (∀ a ∈ S, (host a).auth a = true) → order.Perm (S.filter fun a => a ∉ p.approvals) → ∃ s' s'', approveAll host id order s = .ok s' ∧
      Done S id p tokens s'' ∧ ∀ env, Able contract s'.tokens env → executeAssetTransfer contract env id s' = .ok ((), s'')

/-- Every pending asset transfer can be completed by the signers fixed at initialization. -/
structure Live (contract : Addr) (w : World Addr) : Prop where
  pending : ∀ id p, w.state.proposals .assetTransfer id = some p → p.executed = false →
    ∃ S T, Initialized S T w ∧ Completable contract S T id p w.state

/-! ## Single calls -/

section Calls

variable {contract : Addr} {env : Env Addr} {s : State Addr} {kind : Kind} {id T : Nat} {p : Proposal Addr kind} {S : List Addr}

omit [DecidableEq Addr] in
/-- Once one of the missing signers has approved, the rest are still missing. -/
theorem rest_unapproved {approvals rest : List Addr} {a : Addr} (fresh : a ∉ rest) (first : ∀ b ∈ a :: rest, b ∉ approvals) :
    ∀ b ∈ rest, b ∉ approvals ++ [a] := by
  intro b mem approved
  rcases List.mem_append.1 approved with old | new
  · exact first b (List.mem_cons_of_mem a mem) old
  · rw [List.mem_singleton.1 new] at mem
    exact fresh mem

/-- What an approval needs. -/
theorem approve_succeeds {signer : Addr} (auth : env.auth signer = true) (signers : s.signers = some S) (member : signer ∈ S)
    (here : s.proposals kind id = some p) (pending : p.executed = false) (first : signer ∉ p.approvals) :
    approveKind kind env signer id s = .ok ((), s.save id { p with approvals := p.approvals ++ [signer] }) := by
  unfold approveKind requireSigner getProposal
  rw [requireAuth_of auth, ok_bind, signers, okOr_some, ok_bind, ensure_of member, ok_bind, here, okOr_some, ok_bind,
    ensure_of pending, ok_bind, ensure_of first]
  rfl

/-- An execution before enough have approved. -/
theorem execute_early (here : s.proposals kind id = some p) (pending : p.executed = false) (threshold : s.threshold = some T)
    (early : p.approvals.length < T) : executeKind kind contract env id s = .error (.error .thresholdNotMet) := by
  unfold executeKind getProposal
  rw [here, okOr_some, ok_bind, ensure_of pending, ok_bind, threshold, okOr_some, ok_bind, ensure_not (not_not.2 early)]
  rfl

/-- What the execution of an asset transfer needs. -/
theorem execute_succeeds {p : Proposal Addr .assetTransfer} (here : s.proposals .assetTransfer id = some p)
    (pending : p.executed = false) (threshold : s.threshold = some T) (enough : T ≤ p.approvals.length)
    (accepts : env.accepts (transferOf contract p) = true) : executeAssetTransfer contract env id s =
      .ok ((), { s with tokens := s.tokens.move (transferOf contract p) }.save id { p with executed := true }) := by
  have payout : p.details.payout contract = some (transferOf contract p) := rfl
  unfold executeAssetTransfer executeKind getProposal
  rw [here, okOr_some, ok_bind, ensure_of pending, ok_bind, threshold, okOr_some, ok_bind, ensure_of (not_lt.2 enough), ok_bind,
    payout, pay, Tokens.transfer_of _ accepts]
  rfl

end Calls

/-! ## All calls -/

section Completion

variable {contract : Addr} {s : State Addr} {id T : Nat} {p : Proposal Addr .assetTransfer} {S order : List Addr} {host : Addr → Env Addr}

/-- Signers who have not approved can all do so, and nothing else changes. -/
theorem approveAll_ok (signers : s.signers = some S) (auths : ∀ a ∈ S, (host a).auth a = true)
    (here : s.proposals .assetTransfer id = some p) (pending : p.executed = false) (members : ∀ a ∈ order, a ∈ S)
    (distinct : order.Nodup) (first : ∀ a ∈ order, a ∉ p.approvals) :
    ∃ s', approveAll host id order s = .ok s' ∧ s'.proposals .assetTransfer id = some { p with approvals := p.approvals ++ order } ∧
      s'.threshold = s.threshold ∧ s'.tokens = s.tokens := by
  induction order generalizing s p with
  | nil => exact ⟨s, rfl, by rw [here, List.append_nil], rfl, rfl⟩
  | cons a rest ih =>
    obtain ⟨fresh, distinct⟩ := List.nodup_cons.1 distinct
    have member : a ∈ S := members a List.mem_cons_self
    have step := approve_succeeds (auths a member) signers member here pending (first a List.mem_cons_self)
    have after : (s.save id { p with approvals := p.approvals ++ [a] }).proposals .assetTransfer id =
        some { p with approvals := p.approvals ++ [a] } := by
      rw [save_here, Function.update_self]
    have signers' : (s.save id { p with approvals := p.approvals ++ [a] }).signers = some S := signers
    have first' : ∀ b ∈ rest, b ∉ p.approvals ++ [a] := rest_unapproved fresh first
    obtain ⟨s', ran, there, threshold, tokens⟩ :=
      ih signers' after pending (fun b mem => members b (List.mem_cons_of_mem a mem)) distinct first'
    refine ⟨s', ?_, ?_, threshold, tokens⟩
    · unfold approveAll approveAssetTransfer
      rw [step, ok_bind]
      exact ran
    · rw [there, List.append_assoc, List.singleton_append]

theorem completable (signers : s.signers = some S) (threshold : s.threshold = some T) (distinct : S.Nodup) (reachable : T ≤ S.length)
    (here : s.proposals .assetTransfer id = some p) (pending : p.executed = false) (known : ∀ a ∈ p.approvals, a ∈ S) :
    Completable contract S T id p s := by
  refine ⟨fun env early => execute_early here pending threshold early, fun funds => ?_⟩
  refine ⟨s.tokens.move (transferOf contract p), fun host order auths rest => ?_⟩
  have members : ∀ a ∈ order, a ∈ S := fun a mem => List.mem_of_mem_filter (rest.mem_iff.1 mem)
  have first : ∀ a ∈ order, a ∉ p.approvals := fun a mem => of_decide_eq_true (List.mem_filter.1 (rest.mem_iff.1 mem)).2
  obtain ⟨s', ran, here', threshold', tokens⟩ :=
    approveAll_ok signers auths here pending members (rest.nodup_iff.2 (distinct.filter _)) first
  have all := Ballot.complete known rest
  have enough : T ≤ (p.approvals ++ order).length := Ballot.enough distinct reachable all
  refine ⟨s', { s' with tokens := s'.tokens.move (transferOf contract p) }.save id ⟨p.details, p.approvals ++ order, true⟩, ran,
    ⟨⟨p.approvals ++ order, ?_, all⟩, ?_⟩, fun env able => ?_⟩
  · rw [save_here, Function.update_self]
  · show s'.tokens.move _ = _
    rw [tokens]
  · refine execute_succeeds here' pending (threshold'.trans threshold) enough ?_
    apply able
    · rfl
    · rw [tokens]
      exact funds

end Completion

/-- **No asset transfer is ever deadlocked.** -/
theorem never_deadlocked {contract : Addr} (balance : Addr → Addr → Int) (actions : List (Action contract)) :
    Live contract (run ⟨.initial balance, []⟩ actions) := by
  refine ⟨fun id p here pending => ?_⟩
  rcases (Inv.initial contract balance).run actions with blank | ⟨S, T, f⟩
  · exact (blank.no_proposal here).elim
  · have backed := (f.sound .assetTransfer).backed id p here
    exact ⟨S, T, f.initialized, completable f.initialized.signers f.initialized.threshold f.initialized.distinct
      f.initialized.reachable here pending backed.members⟩

end AfriPay.MultisigContract
