import AfriPay.Ledger.Ballot
import AfriPay.Soroban.Env

/-!
# The multisig contract (`contracts/multisig/src/lib.rs`)

Signers propose transactions and asset transfers, approve them, and execute
them. The two kinds of proposals have functions and storage keys of their own
and share one counter. They differ in what they propose and in that executing an
asset transfer moves tokens.
-/

namespace AfriPay.MultisigContract
open Soroban Ledger

inductive Error where
  | alreadyInitialized
  | notInitialized
  | invalidThreshold
  | notASigner
  | proposalNotFound
  | alreadyApproved
  | alreadyExecuted
  | thresholdNotMet
  | invalidAmount
  | duplicateSigner
  deriving DecidableEq

inductive Kind where
  | transaction
  | assetTransfer
  deriving DecidableEq

structure Transaction (Addr : Type) where
  target : Addr
  amount : Int

structure AssetTransfer (Addr : Type) where
  asset : Addr
  target : Addr
  amount : Int

def Details (Addr : Type) : Kind → Type
  | .transaction => Transaction Addr
  | .assetTransfer => AssetTransfer Addr

/-- `Proposal` and `TransferProposal` -/
abbrev Proposal (Addr : Type) (kind : Kind) := Ballot (Details Addr kind) Addr

/-- The contract's storage, and the tokens it deals in. Proposals are stored under their kind and id. -/
structure State (Addr : Type) where
  signers : Option (List Addr)
  threshold : Option Nat
  nextProposalId : Option Nat
  proposals : (kind : Kind) → Register Nat (Proposal Addr kind)
  tokens : Tokens Addr

/-- A contract that has just been deployed. -/
def State.initial {Addr : Type} (balance : Addr → Addr → Int) : State Addr :=
  ⟨none, none, none, fun _ _ => none, ⟨balance, []⟩⟩

variable {Addr : Type} [DecidableEq Addr]

def State.save {kind : Kind} (s : State Addr) (proposalId : Nat) (proposal : Proposal Addr kind) : State Addr :=
  { s with proposals := Function.update s.proposals kind (Function.update (s.proposals kind) proposalId (some proposal)) }

/-- The loop of `initialize` below, which has seen `unique` so far. -/
def checkSigners (env : Env Addr) (unique : List Addr) : List Addr → Except (Fault Error) Unit
  | [] => .ok ()
  | signer :: rest => do
    ensure (signer ∉ unique) .duplicateSigner
    requireAuth env signer
    checkSigners env (unique ++ [signer]) rest

/-- `initialize` -/
def initializeContract (env : Env Addr) (signers : List Addr) (threshold : Nat) (s : State Addr) : Except (Fault Error) (Unit × State Addr) := do
  ensure (s.signers = none) .alreadyInitialized
  ensure (¬(threshold = 0 ∨ signers.length < threshold)) .invalidThreshold
  checkSigners env [] signers
  return ((), { s with signers := some signers, threshold := some threshold, nextProposalId := some 0 })

def requireSigner (s : State Addr) (address : Addr) : Except (Fault Error) Unit := do
  let signers ← okOr .notInitialized s.signers
  ensure (address ∈ signers) .notASigner

def getProposal {kind : Kind} (s : State Addr) (proposalId : Nat) : Except (Fault Error) (Proposal Addr kind) :=
  okOr .proposalNotFound (s.proposals kind proposalId)

/-! ## Both kinds of proposals -/

def Details.amount : {kind : Kind} → Details Addr kind → Int
  | .transaction, d => Transaction.amount d
  | .assetTransfer, d => AssetTransfer.amount d

/-- What executing a proposal transfers. -/
def Details.payout (contract : Addr) : {kind : Kind} → Details Addr kind → Option (Transfer Addr)
  | .transaction, _ => none
  | .assetTransfer, d => some ⟨AssetTransfer.asset d, contract, AssetTransfer.target d, AssetTransfer.amount d⟩

def pay (env : Env Addr) (tokens : Tokens Addr) : Option (Transfer Addr) → Except (Fault Error) (Tokens Addr)
  | none => .ok tokens
  | some t => tokens.transfer env t

def proposeKind (kind : Kind) (env : Env Addr) (proposer : Addr) (details : Details Addr kind) (s : State Addr) :
    Except (Fault Error) (Nat × State Addr) := do
  ensure (0 < details.amount) .invalidAmount
  requireAuth env proposer
  requireSigner s proposer
  let proposalId ← okOr .notInitialized s.nextProposalId
  let next ← checkedSucc proposalId
  let proposal : Proposal Addr kind := { details, approvals := [proposer], executed := false }
  return (proposalId, { s.save proposalId proposal with nextProposalId := some next })

def approveKind (kind : Kind) (env : Env Addr) (signer : Addr) (proposalId : Nat) (s : State Addr) :
    Except (Fault Error) (Unit × State Addr) := do
  requireAuth env signer
  requireSigner s signer
  let proposal : Proposal Addr kind ← getProposal s proposalId
  ensure (proposal.executed = false) .alreadyExecuted
  ensure (signer ∉ proposal.approvals) .alreadyApproved
  return ((), s.save proposalId { proposal with approvals := proposal.approvals ++ [signer] })

def executeKind (kind : Kind) (contract : Addr) (env : Env Addr) (proposalId : Nat) (s : State Addr) :
    Except (Fault Error) (Unit × State Addr) := do
  let proposal : Proposal Addr kind ← getProposal s proposalId
  ensure (proposal.executed = false) .alreadyExecuted
  let threshold ← okOr .notInitialized s.threshold
  ensure (¬proposal.approvals.length < threshold) .thresholdNotMet
  let tokens ← pay env s.tokens (proposal.details.payout contract)
  return ((), { s with tokens }.save proposalId { proposal with executed := true })

/-! ## The contract's functions -/

def proposeTransaction (env : Env Addr) (proposer target : Addr) (amount : Int) (s : State Addr) :
    Except (Fault Error) (Nat × State Addr) :=
  proposeKind .transaction env proposer ⟨target, amount⟩ s

def approve (env : Env Addr) (signer : Addr) (proposalId : Nat) (s : State Addr) : Except (Fault Error) (Unit × State Addr) :=
  approveKind .transaction env signer proposalId s

def execute (contract : Addr) (env : Env Addr) (proposalId : Nat) (s : State Addr) : Except (Fault Error) (Unit × State Addr) :=
  executeKind .transaction contract env proposalId s

def proposeAssetTransfer (env : Env Addr) (proposer asset target : Addr) (amount : Int) (s : State Addr) :
    Except (Fault Error) (Nat × State Addr) :=
  proposeKind .assetTransfer env proposer ⟨asset, target, amount⟩ s

def approveAssetTransfer (env : Env Addr) (signer : Addr) (proposalId : Nat) (s : State Addr) :
    Except (Fault Error) (Unit × State Addr) :=
  approveKind .assetTransfer env signer proposalId s

def executeAssetTransfer (contract : Addr) (env : Env Addr) (proposalId : Nat) (s : State Addr) :
    Except (Fault Error) (Unit × State Addr) :=
  executeKind .assetTransfer contract env proposalId s

/-! ## Runs -/

inductive Call (Addr : Type) where
  | initializeContract (signers : List Addr) (threshold : Nat)
  | proposeTransaction (proposer target : Addr) (amount : Int)
  | approve (signer : Addr) (proposalId : Nat)
  | execute (proposalId : Nat)
  | proposeAssetTransfer (proposer asset target : Addr) (amount : Int)
  | approveAssetTransfer (signer : Addr) (proposalId : Nat)
  | executeAssetTransfer (proposalId : Nat)

/-- A successful invocation, with the id it returned, if any. -/
structure Entry (Addr : Type) where
  env : Env Addr
  call : Call Addr
  reply : Option Nat

/-- The contract, with its successful invocations, newest first. -/
structure World (Addr : Type) where
  state : State Addr
  log : List (Entry Addr)

/-- Something that happens: an invocation by anyone, or a transfer that does not touch the contract's own tokens. -/
inductive Action {Addr : Type} (contract : Addr) where
  | invoke (env : Env Addr) (call : Call Addr)
  | outside (t : Transfer Addr) (other : t.source ≠ contract)

def withReply {α : Type} (reply : α → Option Nat) : Except (Fault Error) (α × State Addr) → Except (Fault Error) (Option Nat × State Addr)
  | .ok (a, s) => .ok (reply a, s)
  | .error fault => .error fault

def Call.exec (contract : Addr) (env : Env Addr) (s : State Addr) : Call Addr → Except (Fault Error) (Option Nat × State Addr)
  | .initializeContract signers threshold => withReply (fun _ => none) (MultisigContract.initializeContract env signers threshold s)
  | .proposeTransaction proposer target amount => withReply some (MultisigContract.proposeTransaction env proposer target amount s)
  | .approve signer proposalId => withReply (fun _ => none) (MultisigContract.approve env signer proposalId s)
  | .execute proposalId => withReply (fun _ => none) (MultisigContract.execute contract env proposalId s)
  | .proposeAssetTransfer proposer asset target amount =>
    withReply some (MultisigContract.proposeAssetTransfer env proposer asset target amount s)
  | .approveAssetTransfer signer proposalId => withReply (fun _ => none) (MultisigContract.approveAssetTransfer env signer proposalId s)
  | .executeAssetTransfer proposalId => withReply (fun _ => none) (MultisigContract.executeAssetTransfer contract env proposalId s)

def Action.apply {contract : Addr} (w : World Addr) : Action contract → World Addr
  | .invoke env call =>
    match call.exec contract env w.state with
    | .ok (reply, s) => ⟨s, ⟨env, call, reply⟩ :: w.log⟩
    | .error _ => w
  | .outside t _ => { w with state := { w.state with tokens := w.state.tokens.move t } }

/-- The world after a list of actions, oldest first. -/
def run {contract : Addr} (w : World Addr) (actions : List (Action contract)) : World Addr := actions.foldl Action.apply w

end AfriPay.MultisigContract
