import AfriPay.Contracts.Multisig

/-!
# Nothing leaves the multisig without consent

Each kind of proposal is a vote of the signers fixed at initialization, and what
the contract pays out is what its executed asset transfers propose.
-/

namespace AfriPay.MultisigContract
open Soroban Ledger

variable {Addr : Type} [DecidableEq Addr]

/-! ## What the contract's functions do -/

section Functions

variable {contract : Addr} {env : Env Addr} {s s' : State Addr} {kind : Kind}

theorem checkSigners_ok {unique signers : List Addr} {u : Unit} (h : checkSigners env unique signers = .ok u) :
    (unique.Nodup → (unique ++ signers).Nodup) ∧ ∀ a ∈ signers, env.auth a = true := by
  induction signers generalizing unique with
  | nil => exact ⟨fun distinct => by rwa [List.append_nil], by rintro a ⟨⟩⟩
  | cons signer rest ih =>
    obtain ⟨_, new, h⟩ := bind_ok h
    obtain ⟨_, auth, h⟩ := bind_ok h
    have new : signer ∉ unique := ensure_ok new
    obtain ⟨distinct, auths⟩ := ih h
    constructor
    · intro before
      have longer : (unique ++ [signer]).Nodup := by
        rw [← List.concat_eq_append]
        exact before.concat new
      have all := distinct longer
      rwa [List.append_assoc, List.singleton_append] at all
    · intro a mem
      rcases List.mem_cons.1 mem with rfl | mem
      · exact requireAuth_ok auth
      · exact auths a mem

theorem initializeContract_ok {signers : List Addr} {threshold : Nat} (h : initializeContract env signers threshold s = .ok ((), s')) :
    s.signers = none ∧ 0 < threshold ∧ threshold ≤ signers.length ∧ signers.Nodup ∧ (∀ a ∈ signers, env.auth a = true) ∧
      s' = { s with signers := some signers, threshold := some threshold, nextProposalId := some 0 } := by
  obtain ⟨_, first, h⟩ := bind_ok h
  obtain ⟨_, fits, h⟩ := bind_ok h
  obtain ⟨_, checked, h⟩ := bind_ok h
  cases h
  have fits : ¬(threshold = 0 ∨ signers.length < threshold) := ensure_ok fits
  obtain ⟨distinct, auths⟩ := checkSigners_ok checked
  exact ⟨ensure_ok first, by omega, by omega, distinct List.nodup_nil, auths, rfl⟩

theorem requireSigner_ok {a : Addr} {u : Unit} (h : requireSigner s a = .ok u) : ∃ S, s.signers = some S ∧ a ∈ S := by
  obtain ⟨S, found, h⟩ := bind_ok h
  exact ⟨S, okOr_ok found, ensure_ok h⟩

theorem proposeKind_ok {proposer : Addr} {details : Details Addr kind} {id : Nat}
    (h : proposeKind kind env proposer details s = .ok (id, s')) :
    env.auth proposer = true ∧ (∃ S, s.signers = some S ∧ proposer ∈ S) ∧ s.nextProposalId = some id ∧
      s' = { s.save id ⟨details, [proposer], false⟩ with nextProposalId := some (id + 1) } := by
  obtain ⟨_, -, h⟩ := bind_ok h
  obtain ⟨_, auth, h⟩ := bind_ok h
  obtain ⟨_, signer, h⟩ := bind_ok h
  obtain ⟨id', found, h⟩ := bind_ok h
  obtain ⟨next, succ, h⟩ := bind_ok h
  obtain rfl := checkedSucc_ok succ
  cases h
  exact ⟨requireAuth_ok auth, requireSigner_ok signer, okOr_ok found, rfl⟩

theorem approveKind_ok {signer : Addr} {id : Nat} (h : approveKind kind env signer id s = .ok ((), s')) :
    ∃ p, env.auth signer = true ∧ (∃ S, s.signers = some S ∧ signer ∈ S) ∧ s.proposals kind id = some p ∧ p.executed = false ∧
      signer ∉ p.approvals ∧ s' = s.save id { p with approvals := p.approvals ++ [signer] } := by
  obtain ⟨_, auth, h⟩ := bind_ok h
  obtain ⟨_, member, h⟩ := bind_ok h
  obtain ⟨p, found, h⟩ := bind_ok h
  obtain ⟨_, pending, h⟩ := bind_ok h
  obtain ⟨_, first, h⟩ := bind_ok h
  cases h
  exact ⟨p, requireAuth_ok auth, requireSigner_ok member, okOr_ok found, ensure_ok pending, ensure_ok first, rfl⟩

theorem pay_ok {tokens tokens' : Tokens Addr} {t : Option (Transfer Addr)} (h : pay env tokens t = .ok tokens') :
    tokens' = t.elim tokens tokens.move := by
  cases t with
  | none => cases h; rfl
  | some t => exact Tokens.transfer_ok h

theorem executeKind_ok {id : Nat} (h : executeKind kind contract env id s = .ok ((), s')) :
    ∃ p T, s.proposals kind id = some p ∧ p.executed = false ∧ s.threshold = some T ∧ T ≤ p.approvals.length ∧
      s' = { s with tokens := (p.details.payout contract).elim s.tokens s.tokens.move }.save id { p with executed := true } := by
  obtain ⟨p, found, h⟩ := bind_ok h
  obtain ⟨_, pending, h⟩ := bind_ok h
  obtain ⟨T, threshold, h⟩ := bind_ok h
  obtain ⟨_, enough, h⟩ := bind_ok h
  obtain ⟨tokens, paid, h⟩ := bind_ok h
  obtain rfl := pay_ok paid
  cases h
  exact ⟨p, T, okOr_ok found, ensure_ok pending, okOr_ok threshold, not_lt.1 (ensure_ok enough), rfl⟩

omit [DecidableEq Addr] in
theorem withReply_ok {α : Type} {reply : α → Option Nat} {x : Except (Fault Error) (α × State Addr)} {r : Option Nat}
    (h : withReply reply x = .ok (r, s')) : ∃ a, x = .ok (a, s') ∧ r = reply a := by
  cases x with
  | error fault => cases h
  | ok x => cases h; exact ⟨x.1, rfl, rfl⟩

end Functions

/-! ## The vote -/

/-- Which proposal of a kind an invocation was about, and what it did to it. -/
def Entry.deed : (kind : Kind) → Entry Addr → Option (Nat × Deed (Details Addr kind) Addr)
  | .transaction, ⟨_, .proposeTransaction proposer target amount, some id⟩ => some (id, .opened ⟨target, amount⟩ proposer)
  | .transaction, ⟨_, .approve signer id, _⟩ => some (id, .approved signer)
  | .transaction, ⟨_, .execute id, _⟩ => some (id, .executed)
  | .assetTransfer, ⟨_, .proposeAssetTransfer proposer asset target amount, some id⟩ =>
    some (id, .opened ⟨asset, target, amount⟩ proposer)
  | .assetTransfer, ⟨_, .approveAssetTransfer signer id, _⟩ => some (id, .approved signer)
  | .assetTransfer, ⟨_, .executeAssetTransfer id, _⟩ => some (id, .executed)
  | _, _ => none

def Entry.initializes (e : Entry Addr) : Bool :=
  match e.call with
  | .initializeContract _ _ => true
  | _ => false

/-- The signers `S` vote on the proposals of a kind, `T` approvals being enough. They sign by authorizing. -/
def voting (S : List Addr) (T : Nat) (kind : Kind) : Voting (Entry Addr) Nat (Details Addr kind) Addr :=
  ⟨Entry.deed kind, fun e a => e.env.auth a = true, fun a => a ∈ S, T⟩

/-- What has left the contract, newest first. -/
def payouts (contract : Addr) (s : State Addr) : List (Transfer Addr) := s.tokens.transfers.filter fun t => t.source = contract

/-- `t` is what the executed asset transfer `id` proposes. -/
def Paid (contract : Addr) (s : State Addr) (t : Transfer Addr) (id : Nat) : Prop :=
  ∃ p, s.proposals .assetTransfer id = some p ∧ p.executed = true ∧ p.details.payout contract = some t

/-- The contract was initialized once, with the signers `S` and the threshold `T`. -/
structure Initialized (S : List Addr) (T : Nat) (w : World Addr) : Prop where
  signers : w.state.signers = some S
  threshold : w.state.threshold = some T
  distinct : S.Nodup
  positive : 0 < T
  reachable : T ≤ S.length
  once : ∃ env, (∀ a ∈ S, env.auth a = true) ∧ w.log.filter Entry.initializes = [⟨env, .initializeContract S T, none⟩]

/-- After initialization. -/
structure Founded (contract : Addr) (S : List Addr) (T : Nat) (w : World Addr) : Prop where
  initialized : Initialized S T w
  next : ∃ n, w.state.nextProposalId = some n ∧ ∀ kind id, n ≤ id → w.state.proposals kind id = none
  sound : ∀ kind, (voting S T kind).Sound w.log (w.state.proposals kind)
  paid : List.Forall₂ (Paid contract w.state) (payouts contract w.state) ((voting S T .assetTransfer).executions w.log)

/-- Before initialization. -/
structure Blank (contract : Addr) (w : World Addr) : Prop where
  signers : w.state.signers = none
  proposals : ∀ kind, w.state.proposals kind = fun _ => none
  log : w.log = []
  unpaid : payouts contract w.state = []

def Inv (contract : Addr) (w : World Addr) : Prop := Blank contract w ∨ ∃ S T, Founded contract S T w

/-! ## One action -/

section Step

variable {contract : Addr} {env : Env Addr} {S : List Addr} {T : Nat} {w : World Addr} {s s' : State Addr} {kind : Kind}
  {id : Nat} {e : Entry Addr} {p : Proposal Addr kind}

omit [DecidableEq Addr] in
theorem save_here : (s.save id p).proposals kind = Function.update (s.proposals kind) id (some p) := Function.update_self ..

omit [DecidableEq Addr] in
theorem save_other {k : Kind} (ne : k ≠ kind) : (s.save id p).proposals k = s.proposals k := Function.update_of_ne ne ..

omit [DecidableEq Addr] in
/-- Saving a proposal with an id below `n` leaves the ids from `n` on unused. -/
theorem save_vacant {n : Nat} (vacant : ∀ kind i, n ≤ i → s.proposals kind i = none) (lt : id < n) (k : Kind) (i : Nat) (le : n ≤ i) :
    (s.save id p).proposals k i = none := by
  by_cases same : k = kind
  · subst same
    have ne : i ≠ id := by omega
    rw [save_here, Function.update_of_ne ne]
    exact vacant k i le
  · rw [save_other same]
    exact vacant k i le

/-- What a successful invocation says: it does `d` to a proposal and nothing else. -/
structure Entry.Does (e : Entry Addr) (kind : Kind) (id : Nat) (d : Deed (Details Addr kind) Addr) : Prop where
  deed : e.deed kind = some (id, d)
  others : ∀ k, k ≠ kind → e.deed k = none
  later : e.initializes = false

omit [DecidableEq Addr] in
/-- No asset transfer is executed by anything but its execution. -/
theorem Entry.Does.quiet {d : Deed (Details Addr kind) Addr} (does : e.Does kind id d) (other : kind = .transaction ∨ d.executes = false) :
    (voting S T .assetTransfer).executions (e :: w.log) = (voting S T .assetTransfer).executions w.log := by
  cases kind with
  | transaction =>
    refine Voting.keys_same fun k d here => ?_
    have none := does.others .assetTransfer nofun
    have here : e.deed .assetTransfer = some (k, d) := here
    rw [none] at here
    cases here
  | assetTransfer =>
    rcases other with ⟨⟨⟩⟩ | other
    exact Voting.keys_idle does.deed other

/-- A proposal is saved: what has to be shown for the world after it. -/
theorem Founded.act {d : Deed (Details Addr kind) Addr} (f : Founded contract S T w) (does : e.Does kind id d)
    (step : (voting S T kind).Step e (w.state.proposals kind) (Function.update (w.state.proposals kind) id (some p)))
    (proposals : s'.proposals = (w.state.save id p).proposals) (signers : s'.signers = w.state.signers)
    (threshold : s'.threshold = w.state.threshold)
    (next : ∃ n, s'.nextProposalId = some n ∧ ∀ k i, n ≤ i → (w.state.save id p).proposals k i = none)
    (paid : (∀ t id, Paid contract w.state t id → Paid contract s' t id) →
      List.Forall₂ (Paid contract s') (payouts contract s') ((voting S T .assetTransfer).executions (e :: w.log))) :
    Founded contract S T ⟨s', e :: w.log⟩ := by
  have steps : ∀ k, (voting S T k).Step e (w.state.proposals k) (s'.proposals k) := by
    intro k
    rw [proposals]
    by_cases same : k = kind
    · subst same
      rw [save_here]
      exact step
    · rw [save_other same]
      exact .same (does.others k same)
  refine ⟨?_, ?_, fun k => (steps k).sound (f.sound k), paid ?_⟩
  · obtain ⟨env, auths, once⟩ := f.initialized.once
    refine ⟨signers.trans f.initialized.signers, threshold.trans f.initialized.threshold, f.initialized.distinct,
      f.initialized.positive, f.initialized.reachable, env, auths, ?_⟩
    simpa [does.later] using once
  · obtain ⟨n, next, vacant⟩ := next
    exact ⟨n, next, fun k i le => by rw [proposals]; exact vacant k i le⟩
  · rintro t id ⟨p, here, executed, payout⟩
    exact ⟨p, (steps .assetTransfer).frozen here executed, executed, payout⟩

/-- Ids from the counter on are unused, so a stored proposal has one below it. -/
theorem Founded.next_saved (f : Founded contract S T w) {p₀ : Proposal Addr kind} (here : w.state.proposals kind id = some p₀) :
    ∃ n, w.state.nextProposalId = some n ∧ ∀ k i, n ≤ i → (w.state.save id p).proposals k i = none := by
  obtain ⟨n, next, vacant⟩ := f.next
  refine ⟨n, next, save_vacant vacant ?_⟩
  by_contra le
  rw [vacant kind id (not_lt.1 le)] at here
  cases here

theorem Founded.propose {proposer : Addr} {details : Details Addr kind} (f : Founded contract S T w)
    (h : proposeKind kind e.env proposer details w.state = .ok (id, s')) (does : e.Does kind id (.opened details proposer)) :
    Founded contract S T ⟨s', e :: w.log⟩ := by
  obtain ⟨auth, ⟨S', signers, member⟩, next, rfl⟩ := proposeKind_ok h
  obtain rfl : S = S' := Option.some.inj (f.initialized.signers.symm.trans signers)
  obtain ⟨n, next', vacant⟩ := f.next
  obtain rfl : n = id := Option.some.inj (next'.symm.trans next)
  refine f.act does (.opened does.deed auth member (vacant kind n (le_refl n))) rfl rfl rfl ⟨n + 1, rfl, ?_⟩ fun kept => ?_
  · exact save_vacant (fun k i le => vacant k i (by omega)) (Nat.lt_succ_self n)
  · rw [does.quiet (.inr rfl)]
    exact f.paid.imp kept

theorem Founded.approve {signer : Addr} (f : Founded contract S T w)
    (h : approveKind kind e.env signer id w.state = .ok ((), s')) (does : e.Does kind id (.approved signer)) :
    Founded contract S T ⟨s', e :: w.log⟩ := by
  obtain ⟨p, auth, ⟨S', signers, member⟩, here, pending, first, rfl⟩ := approveKind_ok h
  obtain rfl : S = S' := Option.some.inj (f.initialized.signers.symm.trans signers)
  refine f.act does (.approved does.deed auth member here pending first) rfl rfl rfl (f.next_saved here) fun kept => ?_
  rw [does.quiet (.inr rfl)]
  exact f.paid.imp kept

theorem Founded.execute (f : Founded contract S T w) (h : executeKind kind contract e.env id w.state = .ok ((), s'))
    (does : e.Does kind id .executed) : Founded contract S T ⟨s', e :: w.log⟩ := by
  obtain ⟨p, T', here, pending, threshold, enough, rfl⟩ := executeKind_ok h
  obtain rfl : T = T' := Option.some.inj (f.initialized.threshold.symm.trans threshold)
  refine f.act does (.executed does.deed here pending enough) rfl rfl rfl (f.next_saved here) fun kept => ?_
  cases kind with
  | transaction =>
    rw [does.quiet (.inl rfl)]
    exact f.paid.imp kept
  | assetTransfer =>
    have executions : (voting S T .assetTransfer).executions (e :: w.log) = id :: (voting S T .assetTransfer).executions w.log :=
      Voting.keys_new does.deed rfl
    have paid : payouts contract ({ w.state with tokens := (p.details.payout contract).elim w.state.tokens w.state.tokens.move }.save id
        { p with executed := true }) =
        ⟨AssetTransfer.asset p.details, contract, AssetTransfer.target p.details, AssetTransfer.amount p.details⟩ ::
          payouts contract w.state := List.filter_cons_of_pos (decide_eq_true rfl)
    rw [executions, paid]
    refine .cons ⟨{ p with executed := true }, ?_, rfl, rfl⟩ (f.paid.imp kept)
    rw [save_here, Function.update_self]

omit [DecidableEq Addr] in
/-- An invocation by the transaction functions. -/
theorem Entry.does_transaction {d : Deed (Details Addr .transaction) Addr} (deed : e.deed .transaction = some (id, d))
    (other : e.deed .assetTransfer = none) (later : e.initializes = false) : e.Does .transaction id d := by
  refine ⟨deed, fun k ne => ?_, later⟩
  cases k with
  | transaction => exact (ne rfl).elim
  | assetTransfer => exact other

omit [DecidableEq Addr] in
theorem Entry.does_assetTransfer {d : Deed (Details Addr .assetTransfer) Addr} (deed : e.deed .assetTransfer = some (id, d))
    (other : e.deed .transaction = none) (later : e.initializes = false) : e.Does .assetTransfer id d := by
  refine ⟨deed, fun k ne => ?_, later⟩
  cases k with
  | transaction => exact other
  | assetTransfer => exact (ne rfl).elim

/-- How an invocation succeeds: what ran behind it, and what it did to which proposal. -/
inductive Invoked (contract : Addr) (env : Env Addr) (s : State Addr) (call : Call Addr) (reply : Option Nat) (s' : State Addr) : Prop where
  | initialized {signers : List Addr} {threshold : Nat} (is : call = .initializeContract signers threshold) (silent : reply = none)
      (ran : initializeContract env signers threshold s = .ok ((), s')) : Invoked contract env s call reply s'
  | proposed {kind : Kind} {id : Nat} {proposer : Addr} {details : Details Addr kind} (ran : proposeKind kind env proposer details s = .ok (id, s'))
      (does : Entry.Does ⟨env, call, reply⟩ kind id (.opened details proposer)) : Invoked contract env s call reply s'
  | approved {kind : Kind} {id : Nat} {signer : Addr} (ran : approveKind kind env signer id s = .ok ((), s'))
      (does : Entry.Does ⟨env, call, reply⟩ kind id (.approved signer)) : Invoked contract env s call reply s'
  | executed {kind : Kind} {id : Nat} (ran : executeKind kind contract env id s = .ok ((), s'))
      (does : Entry.Does ⟨env, call, reply⟩ kind id .executed) : Invoked contract env s call reply s'

theorem exec_invoked {call : Call Addr} {reply : Option Nat} (h : call.exec contract env s = .ok (reply, s')) :
    Invoked contract env s call reply s' := by
  cases call with
  | initializeContract signers threshold =>
    obtain ⟨_, ran, rfl⟩ := withReply_ok h
    exact .initialized rfl rfl ran
  | proposeTransaction proposer target amount =>
    obtain ⟨id, ran, rfl⟩ := withReply_ok h
    exact .proposed ran (Entry.does_transaction rfl rfl rfl)
  | approve signer id =>
    obtain ⟨_, ran, rfl⟩ := withReply_ok h
    exact .approved ran (Entry.does_transaction rfl rfl rfl)
  | execute id =>
    obtain ⟨_, ran, rfl⟩ := withReply_ok h
    exact .executed ran (Entry.does_transaction rfl rfl rfl)
  | proposeAssetTransfer proposer asset target amount =>
    obtain ⟨id, ran, rfl⟩ := withReply_ok h
    exact .proposed ran (Entry.does_assetTransfer rfl rfl rfl)
  | approveAssetTransfer signer id =>
    obtain ⟨_, ran, rfl⟩ := withReply_ok h
    exact .approved ran (Entry.does_assetTransfer rfl rfl rfl)
  | executeAssetTransfer id =>
    obtain ⟨_, ran, rfl⟩ := withReply_ok h
    exact .executed ran (Entry.does_assetTransfer rfl rfl rfl)

theorem Founded.invoke {call : Call Addr} {reply : Option Nat} (f : Founded contract S T w)
    (h : call.exec contract env w.state = .ok (reply, s')) : Founded contract S T ⟨s', ⟨env, call, reply⟩ :: w.log⟩ := by
  cases exec_invoked h with
  | initialized _ _ ran =>
    have first := (initializeContract_ok ran).1
    rw [f.initialized.signers] at first
    cases first
  | proposed ran does => exact f.propose ran does
  | approved ran does => exact f.approve ran does
  | executed ran does => exact f.execute ran does

theorem Blank.no_proposal (blank : Blank contract w) : w.state.proposals kind id ≠ some p := by
  rw [blank.proposals]
  exact nofun

theorem Blank.no_propose {proposer : Addr} {details : Details Addr kind} (blank : Blank contract w) :
    proposeKind kind env proposer details w.state ≠ .ok (id, s') := by
  intro ran
  obtain ⟨-, ⟨S, signers, -⟩, -⟩ := proposeKind_ok ran
  rw [blank.signers] at signers
  cases signers

theorem Blank.no_approve {signer : Addr} (blank : Blank contract w) : approveKind kind env signer id w.state ≠ .ok ((), s') := by
  intro ran
  obtain ⟨p, -, -, here, -⟩ := approveKind_ok ran
  exact blank.no_proposal here

theorem Blank.no_execute (blank : Blank contract w) : executeKind kind contract env id w.state ≠ .ok ((), s') := by
  intro ran
  obtain ⟨p, _, here, -⟩ := executeKind_ok ran
  exact blank.no_proposal here

/-- The one initialization. -/
theorem Blank.founded {signers : List Addr} {threshold : Nat} (blank : Blank contract w)
    (h : initializeContract env signers threshold w.state = .ok ((), s')) :
    Founded contract signers threshold ⟨s', ⟨env, .initializeContract signers threshold, none⟩ :: w.log⟩ := by
  obtain ⟨-, positive, reachable, distinct, auths, rfl⟩ := initializeContract_ok h
  refine ⟨⟨rfl, rfl, distinct, positive, reachable, env, auths, ?_⟩, ⟨0, rfl, fun k i _ => ?_⟩, fun k => ?_, ?_⟩
  · rw [blank.log]
    rfl
  · exact congrFun (blank.proposals k) i
  · show Voting.Sound _ _ (w.state.proposals k)
    rw [blank.proposals, blank.log]
    refine .initial fun e mem => ?_
    rw [List.mem_singleton.1 mem]
    cases k <;> rfl
  · show List.Forall₂ _ (payouts contract w.state) _
    rw [blank.unpaid, blank.log]
    exact .nil

/-- Before initialization, nothing else succeeds. -/
theorem Blank.invoke {call : Call Addr} {reply : Option Nat} (blank : Blank contract w)
    (h : call.exec contract env w.state = .ok (reply, s')) : ∃ S T, Founded contract S T ⟨s', ⟨env, call, reply⟩ :: w.log⟩ := by
  cases exec_invoked h with
  | @initialized signers threshold is silent ran =>
    rw [is, silent]
    exact ⟨signers, threshold, blank.founded ran⟩
  | proposed ran _ => exact (blank.no_propose ran).elim
  | approved ran _ => exact (blank.no_approve ran).elim
  | executed ran _ => exact (blank.no_execute ran).elim

theorem payouts_outside {t : Transfer Addr} (other : t.source ≠ contract) :
    payouts contract { s with tokens := s.tokens.move t } = payouts contract s := by
  simp [payouts, Tokens.move, other]

theorem Inv.apply (inv : Inv contract w) (a : Action contract) : Inv contract (a.apply w) := by
  cases a with
  | invoke env call =>
    cases ran : call.exec contract env w.state with
    | error fault =>
      have failed : Action.apply w (.invoke env call : Action contract) = w := by simp [Action.apply, ran]
      rw [failed]
      exact inv
    | ok out =>
      have next : Action.apply w (.invoke env call : Action contract) = ⟨out.2, ⟨env, call, out.1⟩ :: w.log⟩ := by
        simp [Action.apply, ran]
      rw [next]
      rcases inv with blank | ⟨S, T, f⟩
      · exact .inr (blank.invoke ran)
      · exact .inr ⟨S, T, f.invoke ran⟩
  | outside t other =>
    rcases inv with blank | ⟨S, T, f⟩
    · exact .inl ⟨blank.signers, blank.proposals, blank.log, (payouts_outside other).trans blank.unpaid⟩
    · refine .inr ⟨S, T, ⟨f.initialized.signers, f.initialized.threshold, f.initialized.distinct, f.initialized.positive,
        f.initialized.reachable, f.initialized.once⟩, f.next, f.sound, ?_⟩
      show List.Forall₂ _ (payouts contract { w.state with tokens := w.state.tokens.move t }) _
      rw [payouts_outside other]
      exact f.paid

end Step

/-! ## Runs -/

theorem Inv.run {contract : Addr} {w : World Addr} (inv : Inv contract w) (actions : List (Action contract)) :
    Inv contract (run w actions) := by
  induction actions generalizing w with
  | nil => exact inv
  | cons a actions ih => exact ih (inv.apply a)

/-- What was paid out is what executed asset transfers propose, each once. -/
theorem Inv.paid {contract : Addr} {w : World Addr} (inv : Inv contract w) :
    ∃ ids : List Nat, ids.Nodup ∧ List.Forall₂ (Paid contract w.state) (payouts contract w.state) ids := by
  rcases inv with blank | ⟨S, T, f⟩
  · refine ⟨[], List.nodup_nil, ?_⟩
    rw [blank.unpaid]
    exact .nil
  · exact ⟨_, (f.sound .assetTransfer).executedOnce, f.paid⟩

theorem Inv.initial (contract : Addr) (balance : Addr → Addr → Int) : Inv contract ⟨State.initial balance, []⟩ :=
  .inl ⟨rfl, fun _ => rfl, rfl, rfl⟩

/-- What holds of the contract at any time. -/
structure Consensual (contract : Addr) (w : World Addr) : Prop where
  /-- The signers fixed by the one initialization are behind every executed proposal. -/
  executed : ∀ kind id p, w.state.proposals kind id = some p → p.executed = true → ∃ S T, Initialized S T w ∧
    p.approvals.Nodup ∧ (∀ a ∈ p.approvals, a ∈ S) ∧ (voting S T kind).Passed w.log id p
  /-- No id is given twice. -/
  proposed : ∀ S T kind, ((voting S T kind).openings w.log).Nodup
  /-- What was paid out is what executed asset transfers propose, each once. -/
  paid : ∃ ids : List Nat, ids.Nodup ∧ List.Forall₂ (Paid contract w.state) (payouts contract w.state) ids

/-- **Nothing is executed or paid out without the consent of enough signers.** -/
theorem consent {contract : Addr} (balance : Addr → Addr → Int) (actions : List (Action contract)) :
    Consensual contract (run ⟨.initial balance, []⟩ actions) := by
  have inv := (Inv.initial contract balance).run actions
  have paid := inv.paid
  rcases inv with blank | ⟨S, T, f⟩
  · refine ⟨fun kind id p here => ?_, fun S T kind => ?_, paid⟩
    · rw [blank.proposals] at here
      cases here
    · rw [blank.log]
      exact List.nodup_nil
  · refine ⟨fun kind id p here executed => ?_, fun S' T' kind => (f.sound kind).openedOnce, paid⟩
    have backed := (f.sound kind).backed id p here
    exact ⟨S, T, f.initialized, backed.distinct, backed.members, backed.passed executed⟩

/-- Signers 1 and 2 have 30 of asset 7 sent to 5. A second execution fails. -/
example :
    let env : Env Nat := ⟨0, fun a => a = 1 ∨ a = 2, fun _ => true⟩
    let actions : List (Action 0) := [.invoke env (.initializeContract [1, 2] 2), .invoke env (.proposeAssetTransfer 1 7 5 30),
      .invoke env (.executeAssetTransfer 0), .invoke env (.approveAssetTransfer 2 0), .invoke env (.executeAssetTransfer 0),
      .invoke env (.executeAssetTransfer 0)]
    payouts 0 (run ⟨.initial fun _ _ => 0, []⟩ actions).state = [⟨7, 0, 5, 30⟩] := by
  decide

end AfriPay.MultisigContract
