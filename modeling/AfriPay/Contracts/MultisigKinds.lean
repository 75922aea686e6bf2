import AfriPay.Contracts.MultisigOutflow

/-!
# The two kinds of proposals do not mix

One counter gives ids to both kinds, so no id is used twice, and each function
deals with the proposals of its own kind.
-/

namespace AfriPay.MultisigContract
open Soroban Ledger

variable {Addr : Type} [DecidableEq Addr]

/-- The kind of proposals a function is about. -/
def Call.kind : Call Addr → Option Kind
  | .initializeContract _ _ => none
  | .proposeTransaction _ _ _ | .approve _ _ | .execute _ => some .transaction
  | .proposeAssetTransfer _ _ _ _ | .approveAssetTransfer _ _ | .executeAssetTransfer _ => some .assetTransfer

def Call.proposes : Call Addr → Bool
  | .proposeTransaction _ _ _ | .proposeAssetTransfer _ _ _ _ => true
  | _ => false

/-- `a` signed for the asset transfer `id`: by approving that kind of proposal, or by proposing it. -/
def SignedFor (log : List (Entry Addr)) (id : Nat) (a : Addr) : Prop :=
  ∃ e ∈ log, e.env.auth a = true ∧
    (e.call = .approveAssetTransfer a id ∨ ∃ asset target amount, e.call = .proposeAssetTransfer a asset target amount ∧ e.reply = some id)

/-- The kinds of proposals of the world `w` are apart. -/
structure Isolated (contract : Addr) (w : World Addr) : Prop where
  below : ∀ kind id p, w.state.proposals kind id = some p → ∃ n, w.state.nextProposalId = some n ∧ id < n
  apart : ∀ id, w.state.proposals .transaction id = none ∨ w.state.proposals .assetTransfer id = none
  /-- Proposing overwrites nothing. -/
  kept : ∀ env call, call.proposes = true → ∀ kind id p, w.state.proposals kind id = some p →
    (Action.apply w (.invoke env call : Action contract)).state.proposals kind id = some p
  /-- No function touches the other kind's proposals. -/
  frame : ∀ env call kind, call.kind ≠ some kind →
    (Action.apply w (.invoke env call : Action contract)).state.proposals kind = w.state.proposals kind
  /-- Only approvals of asset transfers count towards asset transfers. -/
  counted : ∀ id p a, w.state.proposals .assetTransfer id = some p → a ∈ p.approvals → SignedFor w.log id a

section Step

variable {contract : Addr} {env : Env Addr} {w : World Addr} {s s' : State Addr} {kind : Kind} {id : Nat} {e : Entry Addr}
  {d : Deed (Details Addr kind) Addr}

omit [DecidableEq Addr] in
theorem Entry.kind_of_deed (deed : e.deed kind = some (id, d)) : e.call.kind = some kind := by
  obtain ⟨env, call, reply⟩ := e
  cases kind <;> cases call <;> first | rfl | cases deed

omit [DecidableEq Addr] in
theorem Entry.opens_of_proposes (deed : e.deed kind = some (id, d)) (proposes : e.call.proposes = true) : d.opens = true := by
  obtain ⟨env, call, reply⟩ := e
  cases call with
  | proposeTransaction proposer target amount =>
    cases kind with
    | transaction => cases reply <;> cases deed; rfl
    | assetTransfer => cases deed
  | proposeAssetTransfer proposer asset target amount =>
    cases kind with
    | transaction => cases deed
    | assetTransfer => cases reply <;> cases deed; rfl
  | _ => cases proposes

/-- A function changes proposals of its own kind only. -/
theorem Effect.frame (effect : Effect contract e s s') (other : e.call.kind ≠ some kind) : s'.proposals kind = s.proposals kind := by
  cases effect with
  | founded => rfl
  | opened does open' next =>
    refine save_other ?_
    rintro rfl
    exact other (Entry.kind_of_deed does.deed)
  | approved does here pending =>
    refine save_other ?_
    rintro rfl
    exact other (Entry.kind_of_deed does.deed)
  | executed does here pending =>
    refine save_other ?_
    rintro rfl
    exact other (Entry.kind_of_deed does.deed)

/-- Proposing keeps every proposal there is. -/
theorem Effect.kept {p : Proposal Addr kind} (effect : Effect contract e s s') (proposes : e.call.proposes = true)
    (unused : ∀ n, s.nextProposalId = some n → ∀ kind, s.proposals kind n = none) (here : s.proposals kind id = some p) :
    s'.proposals kind id = some p := by
  cases effect with
  | founded => exact here
  | @opened kind' id' d a does open' next =>
    by_cases same : kind = kind'
    · subst same
      have ne : id ≠ id' := by
        rintro rfl
        rw [unused id next kind] at here
        cases here
      show (s.save id' _).proposals kind id = _
      rw [save_here, Function.update_of_ne ne]
      exact here
    · exact (congrFun (save_other same) id).trans here
  | approved does =>
    cases Entry.opens_of_proposes does.deed proposes
  | executed does =>
    cases Entry.opens_of_proposes does.deed proposes

/-- No id is used by both kinds. -/
def Apart (s : State Addr) : Prop := ∀ kind id, s.proposals kind id ≠ none → ∀ other, other ≠ kind → s.proposals other id = none

omit [DecidableEq Addr] in
/-- Saving under an id that the other kind does not use. -/
theorem Apart.save {p : Proposal Addr kind} (apart : Apart s) (unused : ∀ other, other ≠ kind → s.proposals other id = none) :
    Apart (s.save id p) := by
  intro k i here other ne
  by_cases same : k = kind
  · subst same
    rw [save_here] at here
    rw [save_other ne]
    by_cases at_id : i = id
    · rw [at_id]
      exact unused other ne
    · rw [Function.update_of_ne at_id] at here
      exact apart k i here other ne
  · rw [save_other same] at here
    by_cases mine : other = kind
    · subst mine
      have ne' : i ≠ id := by
        rintro rfl
        exact here (unused k same)
      rw [save_here, Function.update_of_ne ne']
      exact apart k i here other ne
    · rw [save_other mine]
      exact apart k i here other ne

theorem Effect.apart (effect : Effect contract e s s') (apart : Apart s)
    (unused : ∀ n, s.nextProposalId = some n → ∀ kind, s.proposals kind n = none) : Apart s' := by
  have used : ∀ {kind id} {p : Proposal Addr kind}, s.proposals kind id = some p → ∀ other, other ≠ kind → s.proposals other id = none := by
    intro kind id p here
    refine apart kind id ?_
    rw [here]
    exact nofun
  cases effect with
  | founded => exact apart
  | opened does open' next => exact apart.save fun other _ => unused _ next other
  | approved does here pending => exact apart.save (used here)
  | executed does here pending => exact Apart.save (s := { s with tokens := _ }) apart (used here)

/-- The id to be given next is not used. -/
theorem Inv.unused (inv : Inv contract w) (n : Nat) (next : w.state.nextProposalId = some n) (kind : Kind) : w.state.proposals kind n = none := by
  rcases inv with blank | ⟨S, T, f⟩
  · rw [blank.proposals]
  · obtain ⟨n', next', vacant⟩ := f.next
    obtain rfl : n' = n := Option.some.inj (next'.symm.trans next)
    exact vacant kind n' (le_refl n')

theorem Inv.below {p : Proposal Addr kind} (inv : Inv contract w) (here : w.state.proposals kind id = some p) :
    ∃ n, w.state.nextProposalId = some n ∧ id < n := by
  rcases inv with blank | ⟨S, T, f⟩
  · exact (blank.no_proposal here).elim
  · obtain ⟨n, next, vacant⟩ := f.next
    refine ⟨n, next, ?_⟩
    by_contra le
    rw [vacant kind id (not_lt.1 le)] at here
    cases here

/-- Whoever is on record for an asset transfer signed for it. -/
theorem Inv.counted {p : Proposal Addr .assetTransfer} {a : Addr} (inv : Inv contract w) (here : w.state.proposals .assetTransfer id = some p)
    (approved : a ∈ p.approvals) : SignedFor w.log id a := by
  rcases inv with blank | ⟨S, T, f⟩
  · exact (blank.no_proposal here).elim
  · obtain ⟨e, mem, signed, deed⟩ := ((f.sound .assetTransfer).backed id p here).consented a approved
    refine ⟨e, mem, signed, ?_⟩
    generalize p.details = details at deed
    obtain ⟨env, call, reply⟩ := e
    change Entry.deed .assetTransfer ⟨env, call, reply⟩ = _ ∨ Entry.deed .assetTransfer ⟨env, call, reply⟩ = _ at deed
    cases call with
    | proposeAssetTransfer proposer asset target amount =>
      right
      cases reply with
      | none => rcases deed with deed | deed <;> cases deed
      | some i =>
        rcases deed with deed | deed <;> cases deed
        exact ⟨asset, target, amount, rfl, rfl⟩
    | approveAssetTransfer signer i =>
      left
      rcases deed with deed | deed <;> cases deed
      rfl
    | _ => rcases deed with deed | deed <;> cases deed

/-- What an invocation leaves, whether it succeeds or not. -/
theorem apply_invoke {P : State Addr → Prop} {call : Call Addr} (same : P w.state)
    (done : ∀ reply s', Effect contract ⟨env, call, reply⟩ w.state s' → P s') :
    P (Action.apply w (.invoke env call : Action contract)).state := by
  cases ran : call.exec contract env w.state with
  | error fault =>
    have failed : Action.apply w (.invoke env call : Action contract) = w := by simp [Action.apply, ran]
    rw [failed]
    exact same
  | ok out =>
    obtain ⟨reply, s'⟩ := out
    have next : (Action.apply w (.invoke env call : Action contract)).state = s' := by simp [Action.apply, ran]
    rw [next]
    exact done reply s' (exec_effect ran)

theorem Apart.apply (inv : Inv contract w) (apart : Apart w.state) (a : Action contract) : Apart (a.apply w).state := by
  cases a with
  | invoke env call => exact apply_invoke apart fun reply s' effect => effect.apart apart inv.unused
  | outside t other => exact apart

end Step

theorem Apart.run {contract : Addr} {w : World Addr} (inv : Inv contract w) (apart : Apart w.state) (actions : List (Action contract)) :
    Apart (MultisigContract.run w actions).state := by
  induction actions generalizing w with
  | nil => exact apart
  | cons a actions ih => exact ih (inv.apply a) (apart.apply inv a)

/-- **The kinds of proposals are isolated**, whatever has happened to the contract. -/
theorem kinds_isolated {contract : Addr} (balance : Addr → Addr → Int) (actions : List (Action contract)) :
    Isolated contract (run ⟨.initial balance, []⟩ actions) := by
  have inv := (Inv.initial contract balance).run actions
  have apart : Apart (run ⟨.initial balance, []⟩ actions).state :=
    Apart.run (Inv.initial contract balance) (fun _ _ here => absurd rfl here) actions
  constructor
  · intro kind id p here
    exact inv.below here
  · intro id
    by_cases unused : (run ⟨.initial balance, []⟩ actions).state.proposals .transaction id = none
    · exact .inl unused
    · exact .inr (apart .transaction id unused .assetTransfer nofun)
  · intro env call proposes kind id p here
    exact apply_invoke (P := fun s => s.proposals kind id = some p) here fun reply s' effect => effect.kept proposes inv.unused here
  · intro env call kind other
    exact apply_invoke (P := fun s => s.proposals kind = (run ⟨.initial balance, []⟩ actions).state.proposals kind) rfl
      fun reply s' effect => effect.frame other
  · intro id p a here approved
    exact inv.counted here approved

end AfriPay.MultisigContract
