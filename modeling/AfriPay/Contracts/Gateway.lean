import AfriPay.Soroban.History

/-!
# The gateway contract (`contracts/gateway/src/lib.rs`)

Payers record payment intents, and the backend, whose address the contract
keeps, confirms them. The address can be handed on.
-/

namespace AfriPay.GatewayContract
open Soroban

inductive PaymentStatus where
  | pending
  | confirmed
  deriving DecidableEq

structure PaymentIntent (Addr : Type) where
  id : Nat
  payer : Addr
  token : Addr
  amount : Int
  status : PaymentStatus
  createdAt : Nat
  confirmedAt : Nat
  deriving DecidableEq

inductive GatewayError where
  | notInitialized
  | alreadyInitialized
  | notAuthorized
  | intentNotFound
  | alreadyConfirmed
  | invalidAmount
  deriving DecidableEq

/-- The contract's storage. -/
structure State (Addr : Type) where
  confirmer : Option Addr
  intentCounter : Option Nat
  intents : Nat → Option (PaymentIntent Addr)

/-- A contract that has just been deployed. -/
def State.initial {Addr : Type} : State Addr := ⟨none, none, fun _ => none⟩

variable {Addr : Type}

def init [DecidableEq Addr] (env : Env Addr) (confirmer : Addr) (s : State Addr) : Except (Fault GatewayError) (Unit × State Addr) := do
  ensure (s.confirmer = none) .alreadyInitialized
  requireAuth env confirmer
  return ((), { s with confirmer := some confirmer, intentCounter := some 0 })

def setConfirmer (env : Env Addr) (newConfirmer : Addr) (s : State Addr) : Except (Fault GatewayError) (Unit × State Addr) := do
  let current ← okOr .notInitialized s.confirmer
  requireAuth env current
  return ((), { s with confirmer := some newConfirmer })

def createPaymentIntent [DecidableEq Addr] (env : Env Addr) (payer token : Addr) (amount : Int) (s : State Addr) :
    Except (Fault GatewayError) (Nat × State Addr) := do
  ensure (s.confirmer ≠ none) .notInitialized
  ensure (0 < amount) .invalidAmount
  requireAuth env payer
  let id := s.intentCounter.getD 0
  let nextId ← checkedSucc id
  let now := env.timestamp
  let intent : PaymentIntent Addr := { id, payer, token, amount, status := .pending, createdAt := now, confirmedAt := 0 }
  return (id, { s with intentCounter := some nextId, intents := Function.update s.intents id (some intent) })

def confirmPaymentIntent [DecidableEq Addr] (env : Env Addr) (confirmer : Addr) (intentId : Nat) (s : State Addr) :
    Except (Fault GatewayError) (Unit × State Addr) := do
  let authorized ← okOr .notInitialized s.confirmer
  ensure (confirmer = authorized) .notAuthorized
  requireAuth env confirmer
  let intent ← okOr .intentNotFound (s.intents intentId)
  ensure (intent.status ≠ .confirmed) .alreadyConfirmed
  let intent := { intent with status := .confirmed, confirmedAt := env.timestamp }
  return ((), { s with intents := Function.update s.intents intentId (some intent) })

/-! ## What success says -/

section Success

variable [DecidableEq Addr] {env : Env Addr} {s s' : State Addr}

theorem init_ok {confirmer : Addr} (h : init env confirmer s = .ok ((), s')) :
    s.confirmer = none ∧ env.auth confirmer = true ∧ s' = { s with confirmer := some confirmer, intentCounter := some 0 } := by
  obtain ⟨_, first, h⟩ := bind_ok h
  obtain ⟨_, auth, h⟩ := bind_ok h
  cases h
  exact ⟨ensure_ok first, requireAuth_ok auth, rfl⟩

omit [DecidableEq Addr] in
theorem setConfirmer_ok {newConfirmer : Addr} (h : setConfirmer env newConfirmer s = .ok ((), s')) :
    ∃ current, s.confirmer = some current ∧ env.auth current = true ∧ s' = { s with confirmer := some newConfirmer } := by
  obtain ⟨current, found, h⟩ := bind_ok h
  obtain ⟨_, auth, h⟩ := bind_ok h
  cases h
  exact ⟨current, okOr_ok found, requireAuth_ok auth, rfl⟩

theorem createPaymentIntent_ok {payer token : Addr} {amount : Int} {id : Nat}
    (h : createPaymentIntent env payer token amount s = .ok (id, s')) :
    s.confirmer ≠ none ∧ 0 < amount ∧ env.auth payer = true ∧ id = s.intentCounter.getD 0 ∧
      s' = { s with intentCounter := some (id + 1)
                    intents := Function.update s.intents id (some ⟨id, payer, token, amount, .pending, env.timestamp, 0⟩) } := by
  obtain ⟨_, opened, h⟩ := bind_ok h
  obtain ⟨_, positive, h⟩ := bind_ok h
  obtain ⟨_, auth, h⟩ := bind_ok h
  obtain ⟨next, succ, h⟩ := bind_ok h
  obtain rfl := checkedSucc_ok succ
  cases h
  exact ⟨ensure_ok opened, ensure_ok positive, requireAuth_ok auth, rfl, rfl⟩

theorem confirmPaymentIntent_ok {confirmer : Addr} {id : Nat} (h : confirmPaymentIntent env confirmer id s = .ok ((), s')) :
    s.confirmer = some confirmer ∧ env.auth confirmer = true ∧ ∃ i, s.intents id = some i ∧ i.status = .pending ∧
      s' = { s with intents := Function.update s.intents id (some { i with status := .confirmed, confirmedAt := env.timestamp }) } := by
  obtain ⟨authorized, found, h⟩ := bind_ok h
  obtain ⟨_, same, h⟩ := bind_ok h
  obtain ⟨_, auth, h⟩ := bind_ok h
  obtain ⟨i, here, h⟩ := bind_ok h
  obtain ⟨_, pending, h⟩ := bind_ok h
  cases h
  obtain rfl : confirmer = authorized := ensure_ok same
  refine ⟨okOr_ok found, requireAuth_ok auth, i, okOr_ok here, ?_, rfl⟩
  have open' : i.status ≠ .confirmed := ensure_ok pending
  cases status : i.status with
  | pending => rfl
  | confirmed => exact (open' status).elim

end Success

/-! ## Runs -/

inductive Call (Addr : Type) where
  | init (confirmer : Addr)
  | setConfirmer (newConfirmer : Addr)
  | createPaymentIntent (payer token : Addr) (amount : Int)
  | confirmPaymentIntent (confirmer : Addr) (intentId : Nat)

/-- A call with the id it returns, if any. -/
def Call.exec [DecidableEq Addr] (env : Env Addr) (call : Call Addr) (s : State Addr) :
    Except (Fault GatewayError) (Option Nat × State Addr) :=
  match call with
  | .init confirmer => answering (fun _ => none) (GatewayContract.init env confirmer s)
  | .setConfirmer newConfirmer => answering (fun _ => none) (GatewayContract.setConfirmer env newConfirmer s)
  | .createPaymentIntent payer token amount => answering some (GatewayContract.createPaymentIntent env payer token amount s)
  | .confirmPaymentIntent confirmer intentId => answering (fun _ => none) (GatewayContract.confirmPaymentIntent env confirmer intentId s)

abbrev Invocation (Addr : Type) := Soroban.Invocation Addr (Call Addr) (Option Nat) (State Addr)

abbrev History (Addr : Type) := Soroban.History Addr (Call Addr) (Option Nat) (State Addr)

/-- The history of a contract that was called like this, oldest call first. -/
def run [DecidableEq Addr] (calls : List (Env Addr × Call Addr)) : History Addr :=
  Soroban.History.run Call.exec ⟨.initial, []⟩ calls

end AfriPay.GatewayContract
