import AfriPay.Contracts.EscrowSolvency

/-!
# Funds leave the escrow contract whenever they may

A funded escrow can be released up to its expiry and refunded from then on. The
contract has the tokens for all exits together, so they may come in any order.
-/

namespace AfriPay.EscrowContract
open Soroban Ledger

variable {Addr : Type} [DecidableEq Addr]

/-- The exit an escrow has at a time. -/
def wayOut (contract : Addr) (now : Nat) (e : Escrow Addr) : Passage Addr :=
  if now < e.expiresAt then release contract else refund contract

/-- Takes the exits of several escrows, one after another, each in the surroundings it then finds. -/
def exitAll (contract : Addr) (host : Nat → Tokens Addr → Env Addr) : List Nat → State Addr → Except (Fault Error) (State Addr)
  | [], s => .ok s
  | id :: rest, s => do
    let e ← loadEscrow s id
    let env := host id s.tokens
    let (_, s) ← pass (wayOut contract env.timestamp e) env id s
    exitAll contract host rest s

/-- The escrow after its exit. -/
def Escrow.exited (now : Nat) (e : Escrow Addr) : Escrow Addr :=
  { e with status := if now < e.expiresAt then .released else .refunded }

def IsFunded (s : State Addr) (id : Nat) : Prop := ∃ e, s.escrows id = some e ∧ e.status = .funded

/-- At the time `now`, the senders of these escrows authorize and the tokens let the contract pay. -/
def Willing (contract : Addr) (now : Nat) (s : State Addr) (host : Nat → Tokens Addr → Env Addr) (ids : List Nat) : Prop :=
  ∀ id ∈ ids, ∀ tokens, (host id tokens).timestamp = now ∧ Able contract tokens (host id tokens) ∧
    ∀ e, s.escrows id = some e → (host id tokens).auth e.sender = true

/-- Every funded escrow has exactly one exit, and exits do not stand in each other's way. -/
structure Open (contract : Addr) (s : State Addr) : Prop where
  before : ∀ id e env, s.escrows id = some e → e.status = .funded → env.auth e.sender = true → Able contract s.tokens env →
    env.timestamp < e.expiresAt →
    (∃ s', pass (release contract) env id s = .ok ((), s')) ∧ pass (refund contract) env id s = .error (.error .invalidExpiry)
  after : ∀ id e env, s.escrows id = some e → e.status = .funded → env.auth e.sender = true → Able contract s.tokens env →
    e.expiresAt ≤ env.timestamp →
    (∃ s', pass (refund contract) env id s = .ok ((), s')) ∧ pass (release contract) env id s = .error (.error .invalidExpiry)
  /-- Whatever their order, all exits succeed and lead to the same escrows and balances. -/
  anyOrder : ∀ now host ids, ids.Nodup → (∀ id ∈ ids, IsFunded s id) → Willing contract now s host ids →
    ∃ escrows balance, (∀ id ∈ ids, escrows id = (s.escrows id).map (Escrow.exited now)) ∧ (∀ id, id ∉ ids → escrows id = s.escrows id) ∧
      ∀ order, order.Perm ids → ∃ s', exitAll contract host order s = .ok s' ∧ s'.escrows = escrows ∧ s'.tokens.balance = balance

/-! ## One exit -/

section Exit

variable {contract : Addr} {start : Addr → Addr → Int} {gift : Addr → Int} {env : Env Addr} {s s' : State Addr} {id now : Nat}
  {e : Escrow Addr} {p : Passage Addr}

/-- What a passage needs. -/
theorem pass_succeeds (here : s.escrows id = some e) (required : e.status = p.required)
    (timely : p.timely env.timestamp e.expiresAt = true) (auth : env.auth e.sender = true) (accepts : env.accepts (p.transfer e) = true) :
    pass p env id s = .ok ((), saveEscrow { s with tokens := s.tokens.move (p.transfer e) } id { e with status := p.next }) := by
  unfold pass loadEscrow
  rw [here, okOr_some, ok_bind, ensure_of required, ok_bind, ensure_of timely, ok_bind, requireAuth_of auth, ok_bind,
    Tokens.transfer_of _ accepts]
  rfl

/-- A passage at the wrong time. -/
theorem pass_untimely (here : s.escrows id = some e) (required : e.status = p.required)
    (untimely : p.timely env.timestamp e.expiresAt = false) : pass p env id s = .error (.error .invalidExpiry) := by
  have late : ¬p.timely env.timestamp e.expiresAt = true := by rw [untimely]; exact Bool.false_ne_true
  unfold pass loadEscrow
  rw [here, okOr_some, ok_bind, ensure_of required, ok_bind, ensure_not late]
  rfl

omit [DecidableEq Addr] in
theorem wayOut_required (contract : Addr) (now : Nat) (e : Escrow Addr) : (wayOut contract now e).required = .funded := by
  unfold wayOut
  split <;> rfl

omit [DecidableEq Addr] in
theorem wayOut_timely (contract : Addr) (now : Nat) (e : Escrow Addr) : (wayOut contract now e).timely now e.expiresAt = true := by
  unfold wayOut
  split
  · rename_i before
    exact decide_eq_true before
  · rename_i after
    exact decide_eq_true (not_lt.1 after)

omit [DecidableEq Addr] in
theorem wayOut_next (contract : Addr) (now : Nat) (e : Escrow Addr) : { e with status := (wayOut contract now e).next } = e.exited now := by
  unfold wayOut Escrow.exited
  split <;> rfl

omit [DecidableEq Addr] in
theorem wayOut_transfer (contract : Addr) (now : Nat) (e : Escrow Addr) :
    ((wayOut contract now e).transfer e).source = contract ∧ ((wayOut contract now e).transfer e).asset = e.asset ∧
      ((wayOut contract now e).transfer e).amount = e.amount := by
  unfold wayOut
  split <;> exact ⟨rfl, rfl, rfl⟩

/-- The contract has the tokens of each funded escrow. -/
theorem Inv.funds (inv : Inv contract start gift s) (nonneg : ∀ asset, 0 ≤ start asset contract + gift asset) (here : s.escrows id = some e)
    (funded : e.status = .funded) : e.amount ≤ s.tokens.balance e.asset contract := by
  have balance := inv.balance e.asset
  have nonneg := nonneg e.asset
  have released : 0 ≤ total (isReleasedTo contract) e.asset s := total_nonneg fun id e here => (inv.escrows id e here).positive
  have own : share isFunded e.asset e = e.amount := by simp [share, isFunded, funded]
  have each : ∀ i r, s.escrows i = some r → 0 ≤ share isFunded e.asset r := by
    intro i r there
    have positive := (inv.escrows i r there).positive
    unfold share
    split <;> omega
  have part : share isFunded e.asset e ≤ total isFunded e.asset s :=
    Register.weight_le_total each here (inv.escrows id e here).below
  omega

theorem Inv.exit (inv : Inv contract start gift s) (nonneg : ∀ asset, 0 ≤ start asset contract + gift asset) (here : s.escrows id = some e)
    (funded : e.status = .funded) (auth : env.auth e.sender = true) (able : Able contract s.tokens env) :
    EscrowContract.pass (wayOut contract env.timestamp e) env id s =
      .ok ((), saveEscrow { s with tokens := s.tokens.move ((wayOut contract env.timestamp e).transfer e) } id (e.exited env.timestamp)) := by
  obtain ⟨source, asset, amount⟩ := wayOut_transfer contract env.timestamp e
  have accepts : env.accepts ((wayOut contract env.timestamp e).transfer e) = true := by
    apply able _ source
    rw [asset, amount]
    exact inv.funds nonneg here funded
  have required : e.status = (wayOut contract env.timestamp e).required := by rw [wayOut_required, funded]
  rw [pass_succeeds here required (wayOut_timely ..) auth accepts, wayOut_next]

theorem Inv.wayOut (inv : Inv contract start gift s) (h : EscrowContract.pass (EscrowContract.wayOut contract now e) env id s = .ok ((), s')) :
    Inv contract start gift s' := by
  unfold EscrowContract.wayOut at h
  split at h
  · exact inv.release h
  · exact inv.refund h

end Exit

/-! ## All exits -/

section Exits

variable {contract : Addr} {start : Addr → Addr → Int} {gift : Addr → Int} {now : Nat} {host : Nat → Tokens Addr → Env Addr}
  {s : State Addr} {ids order : List Nat}

/-- What the exit of an escrow adds to a balance. -/
def paidOut (contract : Addr) (now : Nat) (s : State Addr) (asset holder : Addr) (id : Nat) : Int :=
  (s.escrows id).elim 0 fun e => ((wayOut contract now e).transfer e).delta asset holder

/-- Exits taken one after another all succeed; what they lead to depends on which escrows they are. -/
theorem exitAll_ok (inv : Inv contract start gift s) (nonneg : ∀ asset, 0 ≤ start asset contract + gift asset) (distinct : order.Nodup)
    (funded : ∀ id ∈ order, IsFunded s id) (willing : Willing contract now s host order) :
    ∃ s', exitAll contract host order s = .ok s' ∧
      (∀ id, s'.escrows id = if id ∈ order then (s.escrows id).map (Escrow.exited now) else s.escrows id) ∧
      ∀ asset holder, s'.tokens.balance asset holder = s.tokens.balance asset holder + (order.map (paidOut contract now s asset holder)).sum := by
  induction order generalizing s with
  | nil => exact ⟨s, rfl, fun id => by simp, fun asset holder => by simp⟩
  | cons id rest ih =>
    obtain ⟨fresh, distinct⟩ := List.nodup_cons.1 distinct
    obtain ⟨e, here, isFunded⟩ := funded id List.mem_cons_self
    obtain ⟨time, able, auth⟩ := willing id List.mem_cons_self s.tokens
    have step := inv.exit nonneg here isFunded (auth e here) able
    rw [time] at step
    generalize left : saveEscrow { s with tokens := s.tokens.move ((wayOut contract now e).transfer e) } id (e.exited now) = s₁ at step
    have escrows : s₁.escrows = Function.update s.escrows id (some (e.exited now)) := by rw [← left]; rfl
    have balance : ∀ asset holder, s₁.tokens.balance asset holder = s.tokens.balance asset holder + paidOut contract now s asset holder id := by
      intro asset holder
      rw [← left, paidOut, here]
      rfl
    -- the remaining escrows are as they were
    have others : ∀ i ∈ rest, s₁.escrows i = s.escrows i := by
      intro i mem
      have ne : i ≠ id := by
        rintro rfl
        exact fresh mem
      rw [escrows, Function.update_of_ne ne]
    have funded₁ : ∀ i ∈ rest, IsFunded s₁ i := by
      intro i mem
      unfold IsFunded
      rw [others i mem]
      exact funded i (List.mem_cons_of_mem id mem)
    have willing₁ : Willing contract now s₁ host rest := by
      intro i mem tokens
      obtain ⟨time, able, auth⟩ := willing i (List.mem_cons_of_mem id mem) tokens
      refine ⟨time, able, fun e there => auth e ?_⟩
      rw [← others i mem]
      exact there
    obtain ⟨s', ran, escrows', balance'⟩ := ih (inv.wayOut step) distinct funded₁ willing₁
    refine ⟨s', ?_, fun i => ?_, fun asset holder => ?_⟩
    · unfold exitAll loadEscrow
      rw [here, okOr_some, ok_bind]
      simp only [time, step, ok_bind]
      exact ran
    · rw [escrows']
      by_cases mem : i ∈ rest
      · rw [if_pos mem, if_pos (List.mem_cons_of_mem id mem), others i mem]
      · rw [if_neg mem, escrows]
        by_cases same : i = id
        · subst same
          rw [Function.update_self, if_pos List.mem_cons_self, here, Option.map_some]
        · have absent : i ∉ id :: rest := fun h => (List.mem_cons.1 h).elim same mem
          rw [Function.update_of_ne same, if_neg absent]
    · have same : rest.map (paidOut contract now s₁ asset holder) = rest.map (paidOut contract now s asset holder) := by
        refine List.map_congr_left fun i mem => ?_
        rw [paidOut, paidOut, others i mem]
      rw [balance', balance, same, List.map_cons, List.sum_cons, add_assoc]

theorem Inv.anyOrder (inv : Inv contract start gift s) (nonneg : ∀ asset, 0 ≤ start asset contract + gift asset) (distinct : ids.Nodup)
    (funded : ∀ id ∈ ids, IsFunded s id) (willing : Willing contract now s host ids) :
    ∃ escrows balance, (∀ id ∈ ids, escrows id = (s.escrows id).map (Escrow.exited now)) ∧ (∀ id, id ∉ ids → escrows id = s.escrows id) ∧
      ∀ order, order.Perm ids → ∃ s', exitAll contract host order s = .ok s' ∧ s'.escrows = escrows ∧ s'.tokens.balance = balance := by
  refine ⟨fun id => if id ∈ ids then (s.escrows id).map (Escrow.exited now) else s.escrows id,
    fun asset holder => s.tokens.balance asset holder + (ids.map (paidOut contract now s asset holder)).sum,
    fun id mem => if_pos mem, fun id absent => if_neg absent, fun order perm => ?_⟩
  obtain ⟨s', ran, escrows, balance⟩ := exitAll_ok inv nonneg (perm.nodup_iff.2 distinct)
    (fun id mem => funded id (perm.mem_iff.1 mem)) (fun id mem => willing id (perm.mem_iff.1 mem))
  refine ⟨s', ran, ?_, ?_⟩
  · funext id
    rw [escrows]
    simp only [perm.mem_iff]
  · funext asset holder
    rw [balance, (perm.map _).sum_eq]

end Exits

namespace Sample

/-- Account 1 has funded an escrow that expires at 10 and one that expires at 20. -/
def funded : State Nat :=
  let env : Env Nat := ⟨5, fun a => a = 1, fun _ => true⟩
  run 0 (.initial fun _ _ => 0) [.outside ⟨7, 3, 1, 100⟩, .invoke env (.createEscrow 7 60 1 2 10), .invoke env (.fund 0),
    .invoke env (.createEscrow 7 30 1 2 20), .invoke env (.fund 1)]

/-- Account 1 at the time 10. -/
def host (_ : Nat) (tokens : Tokens Nat) : Env Nat := ⟨10, fun a => a = 1, fun t => t.amount ≤ tokens.balance t.asset t.source⟩

end Sample

end AfriPay.EscrowContract
