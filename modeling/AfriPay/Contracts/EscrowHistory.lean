import AfriPay.Contracts.Escrow
import AfriPay.Ledger.Trail
import AfriPay.Soroban.History

/-!
# The life of an escrow

An escrow is created once and keeps its terms. What the contract transfers for
it is nothing, its deposit, or its deposit and one payment, as its status says.
-/

namespace AfriPay.EscrowContract
open Soroban Ledger

variable {Addr : Type} [DecidableEq Addr]

/-- A call with the id it returns, if any. -/
def Call.exec (contract : Addr) (env : Env Addr) (call : Call Addr) (s : State Addr) : Except (Fault Error) (Option Nat × State Addr) :=
  match call with
  | .createPayment amount sender recipient => answering some (EscrowContract.createPayment env amount sender recipient s)
  | .createEscrow asset amount sender recipient expiresAt =>
    answering some (EscrowContract.createEscrow env asset amount sender recipient expiresAt s)
  | .fund escrowId => answering (fun _ => none) (pass (EscrowContract.fund contract) env escrowId s)
  | .release escrowId => answering (fun _ => none) (pass (EscrowContract.release contract) env escrowId s)
  | .refund escrowId => answering (fun _ => none) (pass (EscrowContract.refund contract) env escrowId s)

abbrev Invocation (Addr : Type) := Soroban.Invocation Addr (Call Addr) (Option Nat) (State Addr)

abbrev History (Addr : Type) := Soroban.History Addr (Call Addr) (Option Nat) (State Addr)

def Action.record (contract : Addr) (w : History Addr) : Action Addr → History Addr
  | .invoke env call => w.invoke (Call.exec contract) env call
  | .outside t => { w with state := { w.state with tokens := w.state.tokens.move t } }

/-- The history after a list of actions, oldest first. -/
def record (contract : Addr) (w : History Addr) (actions : List (Action Addr)) : History Addr :=
  actions.foldl (Action.record contract) w

/-! ## What a history says of an escrow -/

/-- The id of the escrow an invocation created. -/
def created (x : Invocation Addr) : Option Nat :=
  match x.call with
  | .createEscrow .. => x.reply
  | _ => none

/-- The escrow an invocation was about. -/
def escrowOf (x : Invocation Addr) : Option Nat :=
  match x.call with
  | .createPayment .. => none
  | .createEscrow .. => x.reply
  | .fund id | .release id | .refund id => some id

/-- The transfers an invocation made, newest first. -/
def moved (x : Invocation Addr) : List (Transfer Addr) :=
  x.after.tokens.transfers.take (x.after.tokens.transfers.length - x.before.tokens.transfers.length)

/-- The transfers made for an escrow, newest first, each with the surroundings it was made in. -/
def transfersFor (id : Nat) (log : List (Invocation Addr)) : List (Env Addr × Transfer Addr) :=
  (about escrowOf id log).flatMap fun x => (moved x).map fun t => (x.env, t)

/-- A transfer made for an escrow by a passage. -/
structure Made (p : Passage Addr) (e : Escrow Addr) (m : Env Addr × Transfer Addr) : Prop where
  transfer : m.2 = p.transfer e
  timely : p.timely m.1.timestamp e.expiresAt = true
  authorized : m.1.auth e.sender = true

/-- What may have been transferred for an escrow, newest first, by its status. -/
inductive Story (contract : Addr) (e : Escrow Addr) : EscrowStatus → List (Env Addr × Transfer Addr) → Prop where
  | created : Story contract e .created []
  | funded {m : Env Addr × Transfer Addr} (deposit : Made (fund contract) e m) : Story contract e .funded [m]
  | released {m n : Env Addr × Transfer Addr} (deposit : Made (fund contract) e m) (payment : Made (release contract) e n) :
      Story contract e .released [n, m]
  | refunded {m n : Env Addr × Transfer Addr} (deposit : Made (fund contract) e m) (payment : Made (refund contract) e n) :
      Story contract e .refunded [n, m]

/-- The escrow `e` is stored under `id`, and has been since its only creation. -/
structure Lifecycle (contract : Addr) (w : History Addr) (id : Nat) (e : Escrow Addr) : Prop where
  stored : w.state.escrows id = some e
  creation : ∃ x, w.log.filter (fun x => created x = some id) = [x] ∧
    x.call = .createEscrow e.asset e.amount e.sender e.recipient e.expiresAt
  story : Story contract e e.status (transfersFor id w.log)

/-- `e'` is `e` but for its status. -/
def Escrow.SameTerms (e e' : Escrow Addr) : Prop := e' = { e with status := e'.status }

/-- What a successful invocation makes of an escrow. -/
inductive Does (contract : Addr) (x : Invocation Addr) : Option (Escrow Addr) → Escrow Addr → Prop where
  | created {asset sender recipient : Addr} {amount : Int} {expiresAt id : Nat}
      (call : x.call = .createEscrow asset amount sender recipient expiresAt) (reply : x.reply = some id) (still : moved x = []) :
      Does contract x none ⟨asset, sender, recipient, amount, expiresAt, .created⟩
  | passed {p : Passage Addr} {e : Escrow Addr} (passage : p = fund contract ∨ p = release contract ∨ p = refund contract)
      (required : e.status = p.required) (later : created x = none) (moves : moved x = [p.transfer e])
      (made : Made p e (x.env, p.transfer e)) : Does contract x (some e) { e with status := p.next }

/-! ## One record -/

section Record

variable {contract : Addr} {x : Invocation Addr} {log : List (Invocation Addr)} {e : Escrow Addr} {status : EscrowStatus}
  {m : Env Addr × Transfer Addr}

omit [DecidableEq Addr] in
theorem Made.deposit (d : Made (fund contract) e m) : Made (fund contract) { e with status } m := ⟨d.transfer, d.timely, d.authorized⟩

omit [DecidableEq Addr] in
theorem Escrow.SameTerms.refl (e : Escrow Addr) : e.SameTerms e := rfl

omit [DecidableEq Addr] in
theorem Escrow.SameTerms.trans {e₁ e₂ e₃ : Escrow Addr} (h : e₁.SameTerms e₂) (h' : e₂.SameTerms e₃) : e₁.SameTerms e₃ := by
  unfold SameTerms at *
  rw [h', h]

omit [DecidableEq Addr] in
theorem Does.same_terms {e' : Escrow Addr} (does : Does contract x (some e) e') : e.SameTerms e' := by
  cases does with
  | passed => rfl

omit [DecidableEq Addr] in
/-- The transfers of the events about an escrow tell its story. -/
theorem story {o : Option (Escrow Addr)} (trail : Trail (Does contract) log o) (here : o = some e) :
    Story contract e e.status (log.flatMap fun x => (moved x).map fun t => (x.env, t)) := by
  induction trail generalizing e with
  | nil => cases here
  | @cons x log before after earlier does ih =>
    cases here
    rw [List.flatMap_cons]
    cases does with
    | created call reply still =>
      -- a record that is created has no events before
      cases earlier
      rw [still]
      exact .created
    | @passed p e₀ passage required later moves made =>
      have told := ih rfl
      rw [required] at told
      rw [moves]
      rcases passage with rfl | rfl | rfl
      · change Story contract e₀ .created _ at told
        generalize List.flatMap _ log = past at told ⊢
        cases told with
        | created => exact .funded made.deposit
      · change Story contract e₀ .funded _ at told
        generalize List.flatMap _ log = past at told ⊢
        cases told with
        | funded deposit => exact .released deposit.deposit ⟨rfl, made.timely, made.authorized⟩
      · change Story contract e₀ .funded _ at told
        generalize List.flatMap _ log = past at told ⊢
        cases told with
        | funded deposit => exact .refunded deposit.deposit ⟨rfl, made.timely, made.authorized⟩

def creating (x : Invocation Addr) : Bool := (created x).isSome

/-- The call that created an escrow with these terms. -/
def CreatedOn (x : Invocation Addr) (e : Escrow Addr) : Prop :=
  x.call = .createEscrow e.asset e.amount e.sender e.recipient e.expiresAt

omit [DecidableEq Addr] in
/-- It was created by one of them, with the terms it has. -/
theorem creation {o : Option (Escrow Addr)} (trail : Trail (Does contract) log o) (here : o = some e) :
    ∃ x, log.filter creating = [x] ∧ CreatedOn x e := by
  have first : ∀ x e, Does contract x none e → creating x = true ∧ CreatedOn x e := by
    intro x e does
    cases does with
    | created call reply still => exact ⟨by simp [creating, created, call, reply], call⟩
  have later : ∀ x e e', Does contract x (some e) e' → creating x = false ∧ ∀ y, CreatedOn y e → CreatedOn y e' := by
    intro x e e' does
    cases does with
    | passed passage required later moves made => exact ⟨by simp [creating, later], fun _ kept => kept⟩
  exact trail.opening first later here

omit [DecidableEq Addr] in
theorem escrowOf_created {id : Nat} (h : created x = some id) : escrowOf x = some id := by
  unfold created at h
  unfold escrowOf
  split at h
  · rename_i call
    simp only [call]
    exact h
  · cases h

omit [DecidableEq Addr] in
/-- The creations of `id` are the creations among the events about it. -/
theorem created_about (id : Nat) (log : List (Invocation Addr)) :
    log.filter (fun x => created x = some id) = (about escrowOf id log).filter creating := by
  refine filter_about escrowOf id log fun x => ?_
  cases made : created x with
  | none => simp [creating, made]
  | some i => simp [creating, made, escrowOf_created made]

end Record

/-! ## One call -/

section Step

variable {contract : Addr} {env : Env Addr} {call : Call Addr} {s s' : State Addr} {r : Option Nat}

/-- Ids from the counter on are unused. -/
def Below (s : State Addr) : Prop := ∀ id e, s.escrows id = some e → id < s.nextEscrowId.getD 0

/-- What a successful call does to the escrows and the tokens. -/
structure Writes (contract : Addr) (x : Invocation Addr) : Prop where
  deals : Deals escrowOf (Does contract) x x.before.escrows x.after.escrows
  below : Below x.after
  still : escrowOf x = none → moved x = []

omit [DecidableEq Addr] in
theorem moved_nothing (same : s'.tokens = s.tokens) : moved (⟨env, call, r, s, s'⟩ : Invocation Addr) = [] := by
  simp [moved, same]

theorem moved_one {t : Transfer Addr} (tokens : s'.tokens = s.tokens.move t) : moved (⟨env, call, r, s, s'⟩ : Invocation Addr) = [t] := by
  simp [moved, tokens, Tokens.move]

omit [DecidableEq Addr] in
theorem createPayment_writes {amount : Int} {sender recipient : Addr} {id : Nat} (below : Below s)
    (h : createPayment env amount sender recipient s = .ok (id, s')) :
    Writes contract ⟨env, .createPayment amount sender recipient, some id, s, s'⟩ := by
  obtain ⟨escrows, next, tokens⟩ := createPayment_ok h
  refine ⟨?_, ?_, fun _ => moved_nothing tokens⟩
  · show Deals _ _ _ s.escrows s'.escrows
    rw [escrows]
    exact .idle rfl
  · simp only [Below, escrows, next]
    exact below

omit [DecidableEq Addr] in
theorem createEscrow_writes {asset sender recipient : Addr} {amount : Int} {expiresAt id : Nat} (below : Below s)
    (h : createEscrow env asset amount sender recipient expiresAt s = .ok (id, s')) :
    Writes contract ⟨env, .createEscrow asset amount sender recipient expiresAt, some id, s, s'⟩ := by
  obtain ⟨-, -, -, rfl, rfl⟩ := createEscrow_ok h
  have unused : s.escrows (s.nextEscrowId.getD 0) = none := by
    cases here : s.escrows (s.nextEscrowId.getD 0) with
    | none => rfl
    | some e => exact (lt_irrefl _ (below _ e here)).elim
  refine ⟨.does rfl ?_, ?_, fun _ => moved_nothing rfl⟩
  · show Does _ _ (s.escrows _) _
    rw [unused]
    exact .created rfl rfl (moved_nothing rfl)
  · exact Register.forall_update (fun i e here => Nat.lt_succ_of_lt (below i e here)) (Nat.lt_succ_self _)

theorem pass_writes {p : Passage Addr} {id : Nat} (passage : p = fund contract ∨ p = release contract ∨ p = refund contract)
    (which : call = .fund id ∨ call = .release id ∨ call = .refund id) (below : Below s) (h : pass p env id s = .ok ((), s')) :
    Writes contract ⟨env, call, none, s, s'⟩ := by
  obtain ⟨e, here, required, timely, auth, rfl⟩ := pass_ok h
  have own : ∀ s', escrowOf (⟨env, call, none, s, s'⟩ : Invocation Addr) = some id := by
    rcases which with rfl | rfl | rfl <;> exact fun _ => rfl
  have later : ∀ s', created (⟨env, call, none, s, s'⟩ : Invocation Addr) = none := by
    rcases which with rfl | rfl | rfl <;> exact fun _ => rfl
  refine ⟨.does (own _) ?_, ?_, fun none => ?_⟩
  · show Does _ _ (s.escrows id) _
    rw [here]
    exact .passed passage required (later _) (moved_one rfl) ⟨rfl, timely, auth⟩
  · exact Register.forall_update below (below id e here)
  · rw [own] at none
    cases none

theorem exec_writes (below : Below s) (h : call.exec contract env s = .ok (r, s')) : Writes contract ⟨env, call, r, s, s'⟩ := by
  cases call with
  | createPayment amount sender recipient =>
    obtain ⟨id, ran, rfl⟩ := answering_ok h
    exact createPayment_writes below ran
  | createEscrow asset amount sender recipient expiresAt =>
    obtain ⟨id, ran, rfl⟩ := answering_ok h
    exact createEscrow_writes below ran
  | fund id =>
    obtain ⟨_, ran, rfl⟩ := answering_ok h
    exact pass_writes (.inl rfl) (.inl rfl) below ran
  | release id =>
    obtain ⟨_, ran, rfl⟩ := answering_ok h
    exact pass_writes (.inr (.inl rfl)) (.inr (.inl rfl)) below ran
  | refund id =>
    obtain ⟨_, ran, rfl⟩ := answering_ok h
    exact pass_writes (.inr (.inr rfl)) (.inr (.inr rfl)) below ran

end Step

/-! ## Runs -/

/-- What holds of a history at any time. -/
structure Told (contract : Addr) (w : History Addr) : Prop where
  below : Below w.state
  traced : Traced escrowOf (Does contract) w.log w.state.escrows
  others : ∀ x ∈ w.log, escrowOf x = none → moved x = []

section Runs

variable {contract : Addr} {w : History Addr} {id : Nat} {e : Escrow Addr}

theorem Told.record (told : Told contract w) (a : Action Addr) :
    Told contract (a.record contract w) ∧ Register.Le Escrow.SameTerms w.state.escrows (a.record contract w).state.escrows := by
  cases a with
  | outside t => exact ⟨⟨told.below, told.traced, told.others⟩, .refl .refl _⟩
  | invoke env call =>
    refine Soroban.History.invoke_keeps (P := fun w' => Told contract w' ∧ Register.Le Escrow.SameTerms w.state.escrows w'.state.escrows)
      ⟨told, .refl .refl _⟩ fun reply s ran => ?_
    have writes := exec_writes told.below ran
    refine ⟨⟨writes.below, writes.deals.traced told.traced, fun x mem => ?_⟩, ?_⟩
    · rcases List.mem_cons.1 mem with rfl | mem
      · exact writes.still
      · exact told.others x mem
    · exact writes.deals.le Escrow.SameTerms.refl fun _ _ does => does.same_terms

theorem Told.run (told : Told contract w) (actions : List (Action Addr)) :
    Told contract (EscrowContract.record contract w actions) ∧
      Register.Le Escrow.SameTerms w.state.escrows (EscrowContract.record contract w actions).state.escrows := by
  induction actions generalizing w with
  | nil => exact ⟨told, .refl .refl _⟩
  | cons a actions ih =>
    obtain ⟨told', le⟩ := told.record a
    obtain ⟨told'', le'⟩ := ih told'
    exact ⟨told'', .trans (fun h h' => h.trans h') le le'⟩

omit [DecidableEq Addr] in
theorem Told.lifecycle (told : Told contract w) (here : w.state.escrows id = some e) : Lifecycle contract w id e := by
  have trail := told.traced id
  obtain ⟨x, only, call⟩ := creation trail here
  refine ⟨here, ⟨x, ?_, call⟩, story trail here⟩
  rw [created_about]
  exact only

omit [DecidableEq Addr] in
/-- What was created is stored. -/
theorem Told.stored (told : Told contract w) (made : id ∈ w.log.filterMap created) : ∃ e, w.state.escrows id = some e := by
  obtain ⟨x, mem, here⟩ := List.mem_filterMap.1 made
  have member : x ∈ about escrowOf id w.log := List.mem_filter.2 ⟨mem, by simp [escrowOf_created here]⟩
  exact (told.traced id).some (List.ne_nil_of_mem member)

end Runs

/-- The escrow record as the solvency results see it is the state of the history. -/
theorem record_state (contract : Addr) (w : History Addr) (actions : List (Action Addr)) :
    (record contract w actions).state = run contract w.state actions := by
  have one : ∀ (w : History Addr) (a : Action Addr), (a.record contract w).state = a.apply contract w.state := by
    intro w a
    cases a with
    | outside t => rfl
    | invoke env call =>
      refine Soroban.History.invoke_state.trans ?_
      cases call <;> exact commit_answering _
  induction actions generalizing w with
  | nil => rfl
  | cons a actions ih =>
    show (record contract (a.record contract w) actions).state = run contract (a.apply contract w.state) actions
    rw [ih, one]

def Call.creates : Call Addr → Bool
  | .createPayment .. | .createEscrow .. => true
  | _ => false

/-- What holds of a history `w` and of any later one `w'`. -/
structure Lawful (contract : Addr) (w w' : History Addr) : Prop where
  /-- The one escrow of an id keeps its terms, and its transfers tell its status. -/
  lives : ∀ id, id ∈ w.log.filterMap created → ∃ e e', Lifecycle contract w id e ∧ Lifecycle contract w' id e' ∧ e.SameTerms e'
  /-- No creation touches an escrow there is. -/
  undisturbed : ∀ env call r s, call.creates = true → Call.exec contract env call w'.state = .ok (r, s) →
    ∀ id, id ∈ w.log.filterMap created → s.escrows id = w'.state.escrows id
  /-- Nothing is transferred for no escrow. -/
  others : ∀ x ∈ w'.log, escrowOf x = none → moved x = []
  /-- A failed call changes nothing. -/
  failing : ∀ env call fault, Call.exec contract env call w'.state = .error fault → record contract w' [.invoke env call] = w'

theorem Told.undisturbed {contract : Addr} {w : History Addr} {env : Env Addr} {call : Call Addr} {r : Option Nat} {s : State Addr}
    {id : Nat} {e : Escrow Addr} (told : Told contract w) (here : w.state.escrows id = some e) (creates : call.creates = true)
    (ran : call.exec contract env w.state = .ok (r, s)) : s.escrows id = w.state.escrows id := by
  have writes := exec_writes told.below ran
  refine writes.deals.other fun own => ?_
  cases call with
  | createPayment amount sender recipient => cases own
  | createEscrow asset amount sender recipient expiresAt =>
    obtain ⟨new, made, rfl⟩ := answering_ok ran
    obtain rfl : new = id := Option.some.inj own
    obtain ⟨-, -, -, rfl, -⟩ := createEscrow_ok made
    exact lt_irrefl _ (told.below _ e here)
  | fund | release | refund => cases creates

/-- At the second of its expiry an escrow is not released any more, but refunded. -/
example :
    let env : Nat → Env Nat := fun now => ⟨now, fun a => a = 1, fun _ => true⟩
    let w := record 0 ⟨.initial fun _ _ => 0, []⟩
      [.invoke (env 5) (.createEscrow 7 60 1 2 10), .invoke (env 9) (.fund 0), .invoke (env 10) (.release 0), .invoke (env 10) (.refund 0)]
    (transfersFor 0 w.log).map (fun m => (m.1.timestamp, m.2)) = [(10, ⟨7, 0, 1, 60⟩), (9, ⟨7, 1, 0, 60⟩)] := by
  decide

end AfriPay.EscrowContract
