import AfriPay.Soroban.Env

/-!
# The escrow contract (`contracts/escrow/src/lib.rs`)

Escrows are created, funded, and then released to their recipient before they
expire or refunded to their sender afterwards. Funding, release and refund are
one procedure with different parameters. `create_payment` keeps records of its
own and moves nothing.
-/

namespace AfriPay.EscrowContract
open Soroban

structure Payment (Addr : Type) where
  sender : Addr
  recipient : Addr
  amount : Int
  released : Bool

inductive EscrowStatus where
  | created
  | funded
  | released
  | refunded
  deriving DecidableEq

structure Escrow (Addr : Type) where
  asset : Addr
  sender : Addr
  recipient : Addr
  amount : Int
  expiresAt : Nat
  status : EscrowStatus

inductive Error where
  | invalidAmount
  | paymentNotFound
  | alreadyReleased
  | invalidExpiry
  | escrowNotFound
  | invalidState
  deriving DecidableEq

/-- The contract's storage, and the tokens it deals in. Payments and escrows have keys and counters of their own. -/
structure State (Addr : Type) where
  payments : Nat → Option (Payment Addr)
  nextId : Option Nat
  escrows : Nat → Option (Escrow Addr)
  nextEscrowId : Option Nat
  tokens : Tokens Addr

/-- A contract that has just been deployed. -/
def State.initial {Addr : Type} (balance : Addr → Addr → Int) : State Addr :=
  ⟨fun _ => none, none, fun _ => none, none, ⟨balance, []⟩⟩

variable {Addr : Type} [DecidableEq Addr]

def createPayment (env : Env Addr) (amount : Int) (sender recipient : Addr) (s : State Addr) :
    Except (Fault Error) (Nat × State Addr) := do
  ensure (0 < amount) .invalidAmount
  requireAuth env sender
  let paymentId := s.nextId.getD 0
  let next ← checkedSucc paymentId
  let payment : Payment Addr := { sender, recipient, amount, released := false }
  return (paymentId, { s with payments := Function.update s.payments paymentId (some payment), nextId := some next })

def createEscrow (env : Env Addr) (asset : Addr) (amount : Int) (sender recipient : Addr) (expiresAt : Nat) (s : State Addr) :
    Except (Fault Error) (Nat × State Addr) := do
  ensure (0 < amount) .invalidAmount
  ensure (env.timestamp < expiresAt) .invalidExpiry
  requireAuth env sender
  let id := s.nextEscrowId.getD 0
  let next ← checkedSucc id
  let escrow : Escrow Addr := { asset, sender, recipient, amount, expiresAt, status := .created }
  return (id, { s with escrows := Function.update s.escrows id (some escrow), nextEscrowId := some next })

def loadEscrow (s : State Addr) (escrowId : Nat) : Except (Fault Error) (Escrow Addr) :=
  okOr .escrowNotFound (s.escrows escrowId)

/-- `save_escrow`, without the event it publishes. -/
def saveEscrow (s : State Addr) (escrowId : Nat) (escrow : Escrow Addr) : State Addr :=
  { s with escrows := Function.update s.escrows escrowId (some escrow) }

/-- What tells `fund`, `release` and `refund` apart. -/
structure Passage (Addr : Type) where
  required : EscrowStatus
  /-- Whether it may happen at this time, given the expiry. -/
  timely : Nat → Nat → Bool
  transfer : Escrow Addr → Transfer Addr
  next : EscrowStatus

def pass (p : Passage Addr) (env : Env Addr) (escrowId : Nat) (s : State Addr) : Except (Fault Error) (Unit × State Addr) := do
  let escrow ← loadEscrow s escrowId
  ensure (escrow.status = p.required) .invalidState
  ensure (p.timely env.timestamp escrow.expiresAt = true) .invalidExpiry
  requireAuth env escrow.sender
  let tokens ← s.tokens.transfer env (p.transfer escrow)
  return ((), saveEscrow { s with tokens } escrowId { escrow with status := p.next })

/-- From the sender to the contract. -/
def fund (contract : Addr) : Passage Addr :=
  { required := .created, timely := fun now expiry => now < expiry
    transfer := fun e => ⟨e.asset, e.sender, contract, e.amount⟩, next := .funded }

/-- From the contract to the recipient. -/
def release (contract : Addr) : Passage Addr :=
  { required := .funded, timely := fun now expiry => now < expiry
    transfer := fun e => ⟨e.asset, contract, e.recipient, e.amount⟩, next := .released }

/-- From the contract back to the sender. -/
def refund (contract : Addr) : Passage Addr :=
  { required := .funded, timely := fun now expiry => expiry ≤ now
    transfer := fun e => ⟨e.asset, contract, e.sender, e.amount⟩, next := .refunded }

/-! ## What success says -/

section Success

variable {env : Env Addr} {s s' : State Addr}

omit [DecidableEq Addr] in
theorem createPayment_ok {amount : Int} {sender recipient : Addr} {id : Nat} (h : createPayment env amount sender recipient s = .ok (id, s')) :
    s'.escrows = s.escrows ∧ s'.nextEscrowId = s.nextEscrowId ∧ s'.tokens = s.tokens := by
  obtain ⟨_, -, h⟩ := bind_ok h
  obtain ⟨_, -, h⟩ := bind_ok h
  obtain ⟨_, -, h⟩ := bind_ok h
  cases h
  exact ⟨rfl, rfl, rfl⟩

omit [DecidableEq Addr] in
theorem createEscrow_ok {asset sender recipient : Addr} {amount : Int} {expiresAt id : Nat}
    (h : createEscrow env asset amount sender recipient expiresAt s = .ok (id, s')) :
    0 < amount ∧ env.timestamp < expiresAt ∧ env.auth sender = true ∧ id = s.nextEscrowId.getD 0 ∧
      s' = { s with escrows := Function.update s.escrows id (some ⟨asset, sender, recipient, amount, expiresAt, .created⟩),
                    nextEscrowId := some (id + 1) } := by
  obtain ⟨_, positive, h⟩ := bind_ok h
  obtain ⟨_, timely, h⟩ := bind_ok h
  obtain ⟨_, auth, h⟩ := bind_ok h
  obtain ⟨next, succ, h⟩ := bind_ok h
  obtain rfl := checkedSucc_ok succ
  cases h
  exact ⟨ensure_ok positive, ensure_ok timely, requireAuth_ok auth, rfl, rfl⟩

theorem pass_ok {p : Passage Addr} {id : Nat} (h : pass p env id s = .ok ((), s')) :
    ∃ e, s.escrows id = some e ∧ e.status = p.required ∧ p.timely env.timestamp e.expiresAt = true ∧ env.auth e.sender = true ∧
      s' = saveEscrow { s with tokens := s.tokens.move (p.transfer e) } id { e with status := p.next } := by
  obtain ⟨e, loaded, h⟩ := bind_ok h
  obtain ⟨_, required, h⟩ := bind_ok h
  obtain ⟨_, timely, h⟩ := bind_ok h
  obtain ⟨_, auth, h⟩ := bind_ok h
  obtain ⟨tokens, moved, h⟩ := bind_ok h
  obtain rfl := Tokens.transfer_ok moved
  cases h
  exact ⟨e, okOr_ok loaded, ensure_ok required, ensure_ok timely, requireAuth_ok auth, rfl⟩

end Success

/-! ## Runs -/

inductive Call (Addr : Type) where
  | createPayment (amount : Int) (sender recipient : Addr)
  | createEscrow (asset : Addr) (amount : Int) (sender recipient : Addr) (expiresAt : Nat)
  | fund (escrowId : Nat)
  | release (escrowId : Nat)
  | refund (escrowId : Nat)

/-- Something that happens: an invocation of the contract, or a transfer that is none of its business. -/
inductive Action (Addr : Type) where
  | invoke (env : Env Addr) (call : Call Addr)
  | outside (t : Transfer Addr)

def Call.apply (contract : Addr) (env : Env Addr) (s : State Addr) : Call Addr → State Addr
  | .createPayment amount sender recipient => commit s (EscrowContract.createPayment env amount sender recipient s)
  | .createEscrow asset amount sender recipient expiresAt =>
    commit s (EscrowContract.createEscrow env asset amount sender recipient expiresAt s)
  | .fund escrowId => commit s (pass (EscrowContract.fund contract) env escrowId s)
  | .release escrowId => commit s (pass (EscrowContract.release contract) env escrowId s)
  | .refund escrowId => commit s (pass (EscrowContract.refund contract) env escrowId s)

def Action.apply (contract : Addr) (s : State Addr) : Action Addr → State Addr
  | .invoke env call => call.apply contract env s
  | .outside t => { s with tokens := s.tokens.move t }

/-- The state after a list of actions, oldest first. -/
def run (contract : Addr) (s : State Addr) (actions : List (Action Addr)) : State Addr := actions.foldl (Action.apply contract) s

end AfriPay.EscrowContract
