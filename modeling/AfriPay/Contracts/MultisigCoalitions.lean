import AfriPay.Contracts.MultisigLiveness
import AfriPay.Contracts.MultisigOutflow
import AfriPay.Ledger.Coalition

/-!
# What a coalition of signers can do

Only the signers of a coalition still sign, whatever else happens. A pending
proposal can then be executed if the approvals it has and theirs reach the
threshold, and not otherwise; a new one if the coalition alone reaches it. Short
of both, nothing leaves the contract.
-/

namespace AfriPay.MultisigContract
open Soroban Ledger

variable {Addr : Type} [DecidableEq Addr]

/-- Of the signers, only those of the coalition authorize the action. -/
def Action.Within {contract : Addr} (S : List Addr) (coalition : Addr → Bool) : Action contract → Prop
  | .invoke env _ => ∀ a ∈ S, env.auth a = true → coalition a = true
  | .outside _ _ => True

def approval : Kind → Addr → Nat → Call Addr
  | .transaction, signer, id => .approve signer id
  | .assetTransfer, signer, id => .approveAssetTransfer signer id

def execution : Kind → Nat → Call Addr
  | .transaction, id => .execute id
  | .assetTransfer, id => .executeAssetTransfer id

def proposing : (kind : Kind) → Addr → Details Addr kind → Call Addr
  | .transaction, proposer, d => .proposeTransaction proposer (Transaction.target d) (Transaction.amount d)
  | .assetTransfer, proposer, d => .proposeAssetTransfer proposer (AssetTransfer.asset d) (AssetTransfer.target d) (AssetTransfer.amount d)

/-! ## One action -/

section Step

variable {contract : Addr} {env : Env Addr} {S : List Addr} {T : Nat} {coalition : Addr → Bool} {w : World Addr} {s' : State Addr}
  {kind : Kind} {id : Nat} {e : Entry Addr} {p : Proposal Addr kind} {call : Call Addr} {reply : Option Nat}

omit [DecidableEq Addr] in
/-- A saved proposal is a step of its own vote and none of the other. -/
theorem Entry.Does.steps {d : Deed (Details Addr kind) Addr} {s : State Addr} (does : e.Does kind id d)
    (step : (voting S T kind).Step e (s.proposals kind) (Function.update (s.proposals kind) id (some p))) (k : Kind) :
    (voting S T k).Step e (s.proposals k) ((s.save id p).proposals k) := by
  by_cases same : k = kind
  · subst same
    rw [save_here]
    exact step
  · rw [save_other same]
    exact .same (does.others k same)

/-- A successful invocation is a step of both votes. -/
theorem Founded.steps (f : Founded contract S T w) (h : call.exec contract env w.state = .ok (reply, s')) (k : Kind) :
    (voting S T k).Step ⟨env, call, reply⟩ (w.state.proposals k) (s'.proposals k) := by
  have known : ∀ {S'}, w.state.signers = some S' → S' = S := fun signers =>
    Option.some.inj (signers.symm.trans f.initialized.signers)
  cases exec_invoked h with
  | initialized _ _ ran =>
    have first := (initializeContract_ok ran).1
    rw [f.initialized.signers] at first
    cases first
  | @proposed kind id proposer details ran does =>
    obtain ⟨auth, ⟨S', signers, member⟩, next, rfl⟩ := proposeKind_ok ran
    obtain ⟨n, next', vacant⟩ := f.next
    obtain rfl : n = id := Option.some.inj (next'.symm.trans next)
    exact does.steps (.opened does.deed auth (known signers ▸ member) (vacant kind n (le_refl n))) k
  | approved ran does =>
    obtain ⟨p, auth, ⟨S', signers, member⟩, here, pending, first, rfl⟩ := approveKind_ok ran
    exact does.steps (.approved does.deed auth (known signers ▸ member) here pending first) k
  | executed ran does =>
    obtain ⟨p, T', here, pending, threshold, enough, rfl⟩ := executeKind_ok ran
    obtain rfl : T = T' := Option.some.inj (f.initialized.threshold.symm.trans threshold)
    exact does.steps (s := { w.state with tokens := _ }) (.executed does.deed here pending enough) k

theorem apply_ok (ran : call.exec contract env w.state = .ok (reply, s')) :
    Action.apply w (.invoke env call : Action contract) = ⟨s', ⟨env, call, reply⟩ :: w.log⟩ := by
  simp only [Action.apply, ran]

theorem Founded.apply (f : Founded contract S T w) (a : Action contract) : Founded contract S T (a.apply w) := by
  cases a with
  | invoke env call =>
    cases ran : call.exec contract env w.state with
    | error fault => rw [apply_error ran]; exact f
    | ok out => rw [apply_ok ran]; exact f.invoke ran
  | outside t other =>
    refine ⟨⟨f.initialized.signers, f.initialized.threshold, f.initialized.distinct, f.initialized.positive,
      f.initialized.reachable, f.initialized.once⟩, f.next, f.sound, ?_⟩
    show List.Forall₂ _ (payouts contract { w.state with tokens := w.state.tokens.move t }) _
    rw [payouts_outside other]
    exact f.paid

/-- What an action of the coalition makes of the proposals. -/
theorem Founded.supported (f : Founded contract S T w) {a : Action contract} (within : a.Within S coalition) {p : Proposal Addr kind}
    (here : (a.apply w).state.proposals kind id = some p) :
    (voting S T kind).Supported S coalition (w.state.proposals kind id) p := by
  cases a with
  | outside t other => exact .refl here
  | invoke env call =>
    cases ran : call.exec contract env w.state with
    | error fault =>
      rw [apply_error ran] at here
      exact .refl here
    | ok out =>
      rw [apply_ok ran] at here
      exact (f.steps ran kind).support f.initialized.distinct (fun _ => Iff.rfl) within here

/-- A proposal stays. -/
theorem Founded.stays (f : Founded contract S T w) {a : Action contract} (gone : (a.apply w).state.proposals kind id = none) :
    w.state.proposals kind id = none := by
  cases a with
  | outside t other => exact gone
  | invoke env call =>
    cases ran : call.exec contract env w.state with
    | error fault =>
      rw [apply_error ran] at gone
      exact gone
    | ok out =>
      rw [apply_ok ran] at gone
      by_contra present
      obtain ⟨p, here⟩ := Option.ne_none_iff_exists'.1 present
      obtain ⟨p', here'⟩ := (f.steps ran kind).stays here
      rw [gone] at here'
      cases here'

/-- What leaves the contract leaves it by a new execution. -/
theorem payouts_apply (w : World Addr) (a : Action contract) : payouts contract (a.apply w).state = payouts contract w.state ∨
    ∃ id p, w.state.proposals .assetTransfer id = some p ∧ p.executed = false ∧
      (a.apply w).state.proposals .assetTransfer id = some { p with executed := true } := by
  cases a with
  | outside t other => exact .inl (payouts_outside other)
  | invoke env call =>
    cases ran : call.exec contract env w.state with
    | error fault => rw [apply_error ran]; exact .inl rfl
    | ok out =>
      rw [apply_ok ran]
      rcases exec_moves ran with same | ⟨id, p, t, -, here, pending, -, -, after⟩
      · left
        unfold payouts
        rw [same]
      · exact .inr ⟨id, p, here, pending, after⟩

end Step

/-! ## Runs of the coalition -/

section Runs

variable {contract : Addr} {S : List Addr} {T : Nat} {coalition : Addr → Bool} {w : World Addr} {actions : List (Action contract)}
  {kind : Kind} {id : Nat}

theorem Founded.along (f : Founded contract S T w) (actions : List (Action contract)) : Founded contract S T (run w actions) := by
  induction actions generalizing w with
  | nil => exact f
  | cons a actions ih => exact ih (f.apply a)

/-- What a run of the coalition makes of the proposals. -/
theorem Founded.supported_run (f : Founded contract S T w) (within : ∀ a ∈ actions, a.Within S coalition) {p : Proposal Addr kind}
    (here : (run w actions).state.proposals kind id = some p) :
    (voting S T kind).Supported S coalition (w.state.proposals kind id) p := by
  induction actions generalizing w with
  | nil => exact .refl here
  | cons a actions ih =>
    have later := ih (f.apply a) (fun a' mem => within a' (List.mem_cons_of_mem a mem)) here
    refine later.trans (fun r there => ?_) f.stays
    exact f.supported (within a List.mem_cons_self) there

/-- Short of the threshold, the coalition has nothing leave the contract. -/
theorem Founded.payouts_kept (f : Founded contract S T w) (within : ∀ a ∈ actions, a.Within S coalition) (weak : strength S coalition < T)
    (pending : ∀ id (p : Proposal Addr .assetTransfer), w.state.proposals .assetTransfer id = some p → p.executed = false →
      p.support S coalition < T) : payouts contract (run w actions).state = payouts contract w.state := by
  induction actions using List.reverseRecOn with
  | nil => rfl
  | append_singleton actions a ih =>
    have before : ∀ a ∈ actions, a.Within S coalition := fun a' mem => within a' (List.mem_append_left [a] mem)
    have last : run w (actions ++ [a]) = a.apply (run w actions) := List.foldl_concat ..
    rw [last, ← ih before]
    rcases payouts_apply (run w actions) a with same | ⟨id, p, here, waiting, after⟩
    · exact same
    · -- an execution needs more approvals than the coalition can bring about
      have mine : a.Within S coalition := within a (List.mem_append_right actions List.mem_cons_self)
      have enough : T ≤ p.support S coalition := by
        cases (f.along actions).supported mine after with
        | kept here' _ _ _ executed =>
          cases here.symm.trans here'
          rcases executed rfl with done | enough
          · rw [waiting] at done
            cases done
          · exact enough
        | opened gone => rw [here] at gone; cases gone
      cases f.supported_run before here with
      | @kept r there _ same frozen _ =>
        have few := pending id r there (Bool.eq_false_iff.2 fun done => by rw [frozen done] at waiting; cases waiting)
        omega
      | opened _ strong _ => omega

/-! ## What the coalition can do -/

/-- Signers who have not approved a proposal can all do so. -/
theorem run_approvals (contract : Addr) (env : Env Addr) {order : List Addr} {p : Proposal Addr kind} (signers : w.state.signers = some S)
    (auths : ∀ a ∈ order, env.auth a = true) (members : ∀ a ∈ order, a ∈ S) (here : w.state.proposals kind id = some p)
    (pending : p.executed = false) (distinct : order.Nodup) (first : ∀ a ∈ order, a ∉ p.approvals) :
    let w' := MultisigContract.run w (order.map fun a => (.invoke env (approval kind a id) : Action contract))
    w'.state.proposals kind id = some { p with approvals := p.approvals ++ order } ∧ w'.state.threshold = w.state.threshold ∧
      w'.state.tokens = w.state.tokens := by
  induction order generalizing w p with
  | nil => exact ⟨by rw [List.append_nil]; exact here, rfl, rfl⟩
  | cons a rest ih =>
    obtain ⟨fresh, distinct⟩ := List.nodup_cons.1 distinct
    have approved := approve_succeeds (auths a List.mem_cons_self) signers (members a List.mem_cons_self) here pending
      (first a List.mem_cons_self)
    have ran : (approval kind a id).exec contract env w.state =
        .ok (none, w.state.save id { p with approvals := p.approvals ++ [a] }) := by
      cases kind <;> exact congrArg (withReply fun _ => none) approved
    have after : (w.state.save id { p with approvals := p.approvals ++ [a] }).proposals kind id =
        some { p with approvals := p.approvals ++ [a] } := by
      rw [save_here, Function.update_self]
    have first' : ∀ b ∈ rest, b ∉ p.approvals ++ [a] := rest_unapproved fresh first
    let next : World Addr := ⟨w.state.save id { p with approvals := p.approvals ++ [a] }, ⟨env, approval kind a id, none⟩ :: w.log⟩
    have rest' := ih (w := next) signers (fun b mem => auths b (List.mem_cons_of_mem a mem))
      (fun b mem => members b (List.mem_cons_of_mem a mem)) after pending distinct first'
    simp only [List.map_cons, MultisigContract.run, List.foldl_cons, List.append_assoc, List.singleton_append] at rest' ⊢
    rw [apply_ok ran]
    exact rest'

/-- What the execution of a proposal needs. -/
theorem execute_of {env : Env Addr} {s : State Addr} {p : Proposal Addr kind} (here : s.proposals kind id = some p)
    (pending : p.executed = false) (threshold : s.threshold = some T) (enough : T ≤ p.approvals.length)
    (accepts : ∀ t, p.details.payout contract = some t → env.accepts t = true) :
    executeKind kind contract env id s =
      .ok ((), { s with tokens := (p.details.payout contract).elim s.tokens s.tokens.move }.save id { p with executed := true }) := by
  have paid : pay env s.tokens (p.details.payout contract) = .ok ((p.details.payout contract).elim s.tokens s.tokens.move) := by
    cases payout : p.details.payout contract with
    | none => rfl
    | some t => exact Tokens.transfer_of _ (accepts t payout)
  unfold executeKind getProposal
  rw [here, okOr_some, ok_bind, ensure_of pending, ok_bind, threshold, okOr_some, ok_bind, ensure_of (not_lt.2 enough), ok_bind, paid]
  rfl

/-- The calls by which the coalition completes a proposal: its members approve it and it is executed. -/
def completion (S : List Addr) (coalition : Addr → Bool) (kind : Kind) (id : Nat) (approvals : List Addr) : List (Call Addr) :=
  (S.filter fun a => coalition a && !decide (a ∈ approvals)).map (fun a => approval kind a id) ++ [execution kind id]

/-- The proposal has been executed, and what it pays has been paid. -/
structure Settled (contract : Addr) (w : World Addr) (id : Nat) (details : Details Addr kind) (w' : World Addr) : Prop where
  executed : ∃ p, w'.state.proposals kind id = some p ∧ p.executed = true ∧ p.details = details
  paid : w'.state.tokens = (details.payout contract).elim w.state.tokens w.state.tokens.move

/-- A coalition that reaches the threshold has the proposal executed. -/
theorem Founded.settles (f : Founded contract S T w) {env : Env Addr} {p : Proposal Addr kind}
    (auths : ∀ a ∈ S, coalition a = true → env.auth a = true) (here : w.state.proposals kind id = some p) (pending : p.executed = false)
    (enough : T ≤ p.support S coalition) (accepts : ∀ t, p.details.payout contract = some t → env.accepts t = true) :
    Settled contract w id p.details
      (MultisigContract.run w ((completion S coalition kind id p.approvals).map fun call => (.invoke env call : Action contract))) := by
  unfold completion
  obtain ⟨order, is⟩ : ∃ order, order = S.filter fun a => coalition a && !decide (a ∈ p.approvals) := ⟨_, rfl⟩
  rw [← is]
  have chosen : ∀ a ∈ order, a ∈ S ∧ coalition a = true ∧ a ∉ p.approvals := by
    intro a mem
    rw [is] at mem
    simpa using List.mem_filter.1 mem
  have distinct : order.Nodup := is ▸ f.initialized.distinct.filter _
  obtain ⟨there, threshold, tokens⟩ := run_approvals contract env f.initialized.signers
    (fun a mem => auths a (chosen a mem).1 (chosen a mem).2.1) (fun a mem => (chosen a mem).1) here pending distinct
    fun a mem => (chosen a mem).2.2
  have reached : T ≤ (p.approvals ++ order).length := by
    rw [is, Ballot.support_eq_length]
    exact enough
  have done := execute_of there pending (threshold.trans f.initialized.threshold) reached accepts
  have last : ∀ {w₁ : World Addr} {s' : State Addr}, executeKind kind contract env id w₁.state = .ok ((), s') →
      (execution kind id).exec contract env w₁.state = .ok (none, s') := by
    intro w₁ s' done
    cases kind <;> exact congrArg (withReply fun _ => none) done
  rw [List.map_append, List.map_map, MultisigContract.run, List.foldl_append]
  show Settled contract w id p.details (Action.apply (MultisigContract.run w (order.map fun a => .invoke env (approval kind a id)))
    (.invoke env (execution kind id)))
  rw [apply_ok (last done)]
  refine ⟨⟨⟨p.details, p.approvals ++ order, true⟩, ?_, rfl, rfl⟩, ?_⟩
  · rw [save_here, Function.update_self]
  · rw [← tokens]
    rfl

/-- A coalition that reaches the threshold by itself has executed whatever it proposes. -/
theorem Founded.settles_new (f : Founded contract S T w) {env : Env Addr} {n : Nat} {details : Details Addr kind}
    (auths : ∀ a ∈ S, coalition a = true → env.auth a = true) (next : w.state.nextProposalId = some n) (fits : n + 1 < 2 ^ 64)
    (positive : 0 < details.amount) (enough : T ≤ strength S coalition)
    (accepts : ∀ t, details.payout contract = some t → env.accepts t = true) :
    ∃ a ∈ S, coalition a = true ∧ w.state.proposals kind n = none ∧ Settled contract w n details
      (MultisigContract.run w ((proposing kind a details :: completion S coalition kind n [a]).map
        fun call => (.invoke env call : Action contract))) := by
  have some' : 0 < strength S coalition := Nat.lt_of_lt_of_le f.initialized.positive enough
  obtain ⟨a, member, ally⟩ := List.countP_pos_iff.1 some'
  obtain ⟨n', next', vacant⟩ := f.next
  obtain rfl : n' = n := Option.some.inj (next'.symm.trans next)
  refine ⟨a, member, ally, vacant kind n' (le_refl n'), ?_⟩
  have proposed : proposeKind kind env a details w.state =
      .ok (n', { w.state.save n' ⟨details, [a], false⟩ with nextProposalId := some (n' + 1) }) := by
    have succ : (checkedSucc n' : Except (Fault Error) Nat) = .ok (n' + 1) := if_pos fits
    unfold proposeKind requireSigner
    rw [ensure_of positive, ok_bind, requireAuth_of (auths a member ally), ok_bind, f.initialized.signers, okOr_some, ok_bind,
      ensure_of member, ok_bind, next, okOr_some, ok_bind, succ]
    rfl
  have ran : (proposing kind a details).exec contract env w.state =
      .ok (some n', { w.state.save n' ⟨details, [a], false⟩ with nextProposalId := some (n' + 1) }) := by
    cases kind <;> exact congrArg (withReply some) proposed
  have founded := f.invoke ran
  have here : ({ w.state.save n' ⟨details, [a], false⟩ with nextProposalId := some (n' + 1) } : State Addr).proposals kind n' =
      some ⟨details, [a], false⟩ := by
    show (w.state.save n' _).proposals kind n' = _
    rw [save_here, Function.update_self]
  have reached : T ≤ (⟨details, [a], false⟩ : Proposal Addr kind).support S coalition := by
    rw [Ballot.support_opened f.initialized.distinct member ally]
    exact enough
  have settled := founded.settles auths here rfl reached accepts
  rw [List.map_cons]
  show Settled contract w n' details (MultisigContract.run (Action.apply w (.invoke env (proposing kind a details))) _)
  rw [apply_ok ran]
  exact ⟨settled.executed, settled.paid⟩

end Runs

/-- What a coalition of the signers `S` can and cannot do from the world `w` on,
`T` approvals being enough. -/
structure CoalitionPower (contract : Addr) (S : List Addr) (T : Nat) (coalition : Addr → Bool) (w : World Addr) : Prop where
  /-- A pending proposal with too little support is never executed by the coalition. -/
  cannot : ∀ kind id p (actions : List (Action contract)), w.state.proposals kind id = some p → p.executed = false →
    p.support S coalition < T → (∀ a ∈ actions, a.Within S coalition) →
    ∀ p', (run w actions).state.proposals kind id = some p' → p'.executed = false
  /-- Nor is anything proposed later, if the coalition is too small. -/
  cannotNew : ∀ kind id (actions : List (Action contract)), w.state.proposals kind id = none → strength S coalition < T →
    (∀ a ∈ actions, a.Within S coalition) → ∀ p', (run w actions).state.proposals kind id = some p' → p'.executed = false
  /-- Where both are so, nothing leaves the contract. -/
  nothingLeaves : ∀ actions : List (Action contract), (∀ a ∈ actions, a.Within S coalition) → strength S coalition < T →
    (∀ id (p : Proposal Addr .assetTransfer), w.state.proposals .assetTransfer id = some p → p.executed = false → p.support S coalition < T) →
    payouts contract (run w actions).state = payouts contract w.state
  /-- With enough support, the coalition has a pending proposal executed, if the contract has the funds. -/
  can : ∀ kind id p env, w.state.proposals kind id = some p → p.executed = false → T ≤ p.support S coalition →
    (∀ a ∈ S, coalition a = true → env.auth a = true) → Able contract w.state.tokens env →
    (∀ t, p.details.payout contract = some t → t.amount ≤ w.state.tokens.balance t.asset contract) →
    Settled contract w id p.details
      (run w ((completion S coalition kind id p.approvals).map fun call => (.invoke env call : Action contract)))
  /-- If it is large enough, it has executed whatever it proposes, while ids last. -/
  canNew : ∀ kind (details : Details Addr kind) env n, w.state.nextProposalId = some n → n + 1 < 2 ^ 64 → 0 < details.amount →
    T ≤ strength S coalition → (∀ a ∈ S, coalition a = true → env.auth a = true) → Able contract w.state.tokens env →
    (∀ t, details.payout contract = some t → t.amount ≤ w.state.tokens.balance t.asset contract) →
    ∃ a ∈ S, coalition a = true ∧ w.state.proposals kind n = none ∧ Settled contract w n details
      (run w ((proposing kind a details :: completion S coalition kind n [a]).map fun call => (.invoke env call : Action contract)))

omit [DecidableEq Addr] in
theorem payout_source {contract : Addr} {kind : Kind} {details : Details Addr kind} {t : Transfer Addr}
    (payout : details.payout contract = some t) : t.source = contract := by
  cases kind with
  | transaction => cases payout
  | assetTransfer => cases payout; rfl

/-- **What the signers of a coalition can do together, and what they cannot.** -/
theorem coalition_power {contract : Addr} (balance : Addr → Addr → Int) (before : List (Action contract)) (S : List Addr) (T : Nat)
    (initialized : Initialized S T (run ⟨.initial balance, []⟩ before)) (coalition : Addr → Bool) :
    CoalitionPower contract S T coalition (run ⟨.initial balance, []⟩ before) := by
  have f : Founded contract S T (run ⟨.initial balance, []⟩ before) := by
    rcases (Inv.initial contract balance).run before with blank | ⟨S', T', f⟩
    · have none := blank.signers
      rw [initialized.signers] at none
      cases none
    · cases f.initialized.signers.symm.trans initialized.signers
      cases f.initialized.threshold.symm.trans initialized.threshold
      exact f
  refine ⟨?_, ?_, ?_, ?_, ?_⟩
  · intro kind id p actions here pending weak within p' there
    cases f.supported_run within there with
    | @kept r here' _ same _ executed =>
      obtain rfl : p = r := Option.some.inj (here.symm.trans here')
      refine Bool.eq_false_iff.2 fun done => ?_
      rcases executed done with old | enough
      · rw [pending] at old
        cases old
      · have enough : T ≤ p.support S coalition := enough
        omega
    | opened gone => rw [here] at gone; cases gone
  · intro kind id actions gone weak within p' there
    cases f.supported_run within there with
    | kept here => rw [gone] at here; cases here
    | opened _ _ executed =>
      refine Bool.eq_false_iff.2 fun done => ?_
      have enough : T ≤ strength S coalition := executed done
      omega
  · intro actions within weak pending
    exact f.payouts_kept within weak pending
  · intro kind id p env here pending enough auths able funds
    exact f.settles auths here pending enough fun t payout => able t (payout_source payout) (funds t payout)
  · intro kind details env n next fits positive enough auths able funds
    exact f.settles_new auths next fits positive enough fun t payout => able t (payout_source payout) (funds t payout)

/-- Two of three signers must approve. The first has 30 of asset 7 proposed for 5. -/
theorem coalition_power_sample : ∃ before : List (Action (0 : Nat)),
    ((run ⟨.initial fun _ _ => 30, []⟩ before).state.proposals .assetTransfer 0).map (·.approvals) = some [1] ∧
      CoalitionPower 0 [1, 2, 3] 2 (fun a => a = 2) (run ⟨.initial fun _ _ => 30, []⟩ before) := by
  let env : Env Nat := ⟨0, fun _ => true, fun _ => true⟩
  refine ⟨[.invoke env (.initializeContract [1, 2, 3] 2), .invoke env (.proposeAssetTransfer 1 7 5 30)], by decide, ?_⟩
  apply coalition_power
  refine ⟨by decide, by decide, by decide, by decide, by decide, env, by decide, ?_⟩
  rfl

end AfriPay.MultisigContract
