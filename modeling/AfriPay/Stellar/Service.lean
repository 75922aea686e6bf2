import AfriPay.Calls.Program
import AfriPay.Stellar.PaymentValidation

/-!
# The Stellar service (`stellar/stellar.service.ts`)

Building, submitting and verifying payments against Horizon. Horizon is only
ever asked: what it answers is up to it. A transport error and a missing record
are both `none`.
-/

namespace AfriPay.Stellar
open Calls Text

inductive PaymentStatus where
  | pending
  | succeeded
  | failed
  deriving DecidableEq

/-- What `verifyTransaction` reads of a Horizon transaction record. -/
structure TransactionRecord where
  hash : String
  ledger : Option Nat
  successful : Bool
  deriving DecidableEq

/-- A line of `account.balances`. -/
structure Balance where
  native : Bool
  balance : String
  sellingLiabilities : Option String

/-- What the five requests of `buildNativePayment` return. -/
structure PaymentSnapshot where
  sequence : Int
  subentryCount : Nat
  numSponsoring : Option Nat
  numSponsored : Option Nat
  balances : List Balance
  baseReserveInStroops : Nat
  feeP95 : String

inductive HorizonError where
  | notFound
  | other
  deriving DecidableEq

/-- What the service asks of the outside. -/
inductive Request where
  | submitTransaction (tx : Transaction)
  | transaction (hash : Json)
  | paymentSnapshot (sender recipient : String)
  | dateNow

def Request.Answer : Request → Type
  | .submitTransaction _ => Unit
  | .transaction _ => Option TransactionRecord
  | .paymentSnapshot _ _ => Except HorizonError PaymentSnapshot
  | .dateNow => Timestamp

abbrev ServiceProg := Prog Request Request.Answer Exception

namespace Horizon

abbrev submitTransaction (tx : Transaction) : ServiceProg Unit := .await (Request.submitTransaction tx)

abbrev transaction (hash : Json) : ServiceProg (Option TransactionRecord) := .await (Request.transaction hash)

abbrev paymentSnapshot (sender recipient : String) : ServiceProg (Except HorizonError PaymentSnapshot) :=
  .await (Request.paymentSnapshot sender recipient)

abbrev dateNow : ServiceProg Timestamp := .await Request.dateNow

end Horizon

def assertTestnet (network : String) : Except Exception Unit :=
  if network ≠ "testnet" then throw (.badRequest "Only Stellar Testnet is enabled for this application") else return ()

/-- What `verifyTransaction` makes of an answer: only a record of the very same
hash that is in a ledger decides. -/
def verdict (hash : Json) : Option TransactionRecord → PaymentStatus
  | none => .pending
  | some result =>
    if !(Json.str result.hash).same hash || result.ledger.getD 0 = 0 then .pending
    else if result.successful then .succeeded else .failed

/-- The checks of `verifyTransaction`. -/
def checkHash (network : String) (hash : Json) : Except Exception Unit := do
  assertTestnet network
  if !isHashText hash then throw (.badRequest "Invalid transaction hash")

def verifyTransaction (network : String) (hash : Json) : ServiceProg PaymentStatus := do
  .ofExcept (checkHash network hash)
  let answer ← Horizon.transaction hash
  return verdict hash answer

structure Submission where
  hash : String
  explorerUrl : String
  status : PaymentStatus

/-- The envelope checks of `submitSignedTransaction`. -/
def checkSubmission (sdk : Sdk) (network : String) (signedXdr : JsString) (expectedPublicKey : Option String)
    (expected : Option NativePayment) : Except Exception Transaction := do
  assertTestnet network
  if signedXdr.trim = .text "" then throw (.badRequest "signedXdr is required")
  let transaction ← parsePayment sdk signedXdr expected
  if let some publicKey := expectedPublicKey then
    if publicKey ≠ "" ∧ transaction.source ≠ publicKey then
      throw (.badRequest "Transaction source does not match payment sender")
  return transaction

/-- A transport error may come after acceptance: whatever the submission
answers, the same hash is queried. -/
def submitSignedTransaction (sdk : Sdk) (network : String) (signedXdr : JsString) (expectedPublicKey : Option String)
    (expected : Option NativePayment) : ServiceProg Submission := do
  let transaction ← .ofExcept (checkSubmission sdk network signedXdr expectedPublicKey expected)
  let hash := toHex transaction.hash
  Horizon.submitTransaction transaction
  let status ← verifyTransaction network (.str hash)
  return { hash, explorerUrl := "https://stellar.expert/explorer/testnet/tx/" ++ hash, status }

structure UnsignedPayment where
  xdr : String
  network : String
  fee : Nat
  deriving DecidableEq

/-- `String(Math.max(100, Number(p95)))` if it is a run of digits of at most a million. -/
def networkFee (p95 : String) : Option Nat :=
  match stringToNumber p95 with
  | .finite q => if (max 100 q).den = 1 ∧ max 100 q ≤ 1000000 then some (max 100 q).num.toNat else none
  | _ => none

/-- The sender can pay `amount` and the fee and still hold its reserve and liabilities. -/
def checkSpendable (snapshot : PaymentSnapshot) (fee : Nat) (amount : String) : Except Exception Unit := do
  let units : Int := 2 + snapshot.subentryCount + snapshot.numSponsoring.getD 0 - snapshot.numSponsored.getD 0
  let reserve := snapshot.baseReserveInStroops * units
  let some native := snapshot.balances.find? (·.native)
    | throw (.badRequest "Insufficient spendable XLM after reserve, liabilities and fee")
  let balance ← stroops native.balance
  let liabilities ← stroops (native.sellingLiabilities.getD "0")
  if (balance : Int) - liabilities - reserve - fee < (← stroops amount) then
    throw (.badRequest "Insufficient spendable XLM after reserve, liabilities and fee")

/-- What `buildNativePayment` computes from the snapshot. -/
def buildFrom (sdk : Sdk) (payment : NativePayment) (snapshot : PaymentSnapshot) (now : Timestamp) :
    Except Exception UnsignedPayment := do
  let some fee := networkFee snapshot.feeP95 | throw (.badRequest "Network fee exceeds wallet limit; try later")
  checkSpendable snapshot fee payment.amount
  let template : PaymentTemplate :=
    { source := payment.sender, sequence := snapshot.sequence, fee, destination := payment.recipient,
      amount := payment.amount, memo := payment.memo.filter (· ≠ .text ""), now }
  let some xdr := sdk.buildPayment template
    | throw (.serviceUnavailable "Unable to prepare Stellar transaction; retry when Horizon is available")
  return { xdr, network := "testnet", fee }

def buildNativePayment (sdk : Sdk) (network : String) (sender recipient amount : String) (memo : Option JsString) :
    ServiceProg UnsignedPayment := do
  .ofExcept (assertTestnet network)
  let payment : NativePayment := { sender, recipient, amount, asset := "XLM", memo }
  discard (.ofExcept (validatePayment sdk payment.fields))
  let now ← Horizon.dateNow
  match ← Horizon.paymentSnapshot sender recipient with
  | .error .notFound => throw (.badRequest "Sender and destination must be activated on Testnet")
  | .error .other => throw (.serviceUnavailable "Unable to prepare Stellar transaction; retry when Horizon is available")
  | .ok snapshot => .ofExcept (buildFrom sdk payment snapshot now)

theorem networkFee_le {p95 : String} {fee : Nat} (h : networkFee p95 = some fee) : fee ≤ 1000000 := by
  unfold networkFee at h
  split at h
  · rename_i q _
    split at h
    · rename_i limit
      cases h
      have whole : ((max 100 q).num : ℚ) = max 100 q := Rat.coe_int_num_of_den_eq_one limit.1
      have small : ((max 100 q).num : ℚ) ≤ (1000000 : Int) := by
        rw [whole]
        exact_mod_cast limit.2
      have small : (max 100 q).num ≤ 1000000 := by exact_mod_cast small
      omega
    · cases h
  · cases h

/-- What `buildNativePayment` returns is what the SDK has built. -/
theorem buildFrom_ok {sdk : Sdk} {p : NativePayment} {snapshot : PaymentSnapshot} {now : Timestamp} {u : UnsignedPayment}
    (h : buildFrom sdk p snapshot now = .ok u) : u.fee ≤ 1000000 ∧
      sdk.buildPayment ⟨p.sender, snapshot.sequence, u.fee, p.recipient, p.amount, p.memo.filter (· ≠ .text ""), now⟩ = some u.xdr := by
  unfold buildFrom at h
  cases hf : networkFee snapshot.feeP95 with
  | none => rw [hf] at h; cases h
  | some fee =>
  cases hs : checkSpendable snapshot fee p.amount with
  | error e => simp only [hf, hs] at h; cases h
  | ok u =>
  simp only [hf, hs, bind, Except.bind] at h
  split at h
  · rename_i xdr built
    cases h
    exact ⟨networkFee_le hf, built⟩
  · cases h

/-- The transaction `submitSignedTransaction` submits is the one `parsePayment` accepts. -/
theorem checkSubmission_ok {sdk : Sdk} {network : String} {signedXdr : JsString} {expectedPublicKey : Option String}
    {expected : Option NativePayment} {tx : Transaction}
    (h : checkSubmission sdk network signedXdr expectedPublicKey expected = .ok tx) :
    parsePayment sdk signedXdr expected = .ok tx := by
  unfold checkSubmission at h
  cases hn : assertTestnet network with
  | error e => rw [hn] at h; cases h
  | ok u =>
    by_cases blank : signedXdr.trim = .text ""
    · simp only [hn, blank, if_true] at h; cases h
    · cases parsed : parsePayment sdk signedXdr expected with
      | error e => simp only [hn, blank, if_false, parsed] at h; cases h
      | ok transaction =>
        simp only [hn, blank, if_false, parsed, bind, Except.bind] at h
        split at h
        · split at h
          · cases h
          · exact h
        · exact h

theorem assertTestnet_error {network : String} {e : Exception} (h : assertTestnet network = .error e) : e.className = .badRequest := by
  unfold assertTestnet at h
  split at h <;> cases h
  rfl

theorem checkHash_error {network : String} {hash : Json} {e : Exception} (h : checkHash network hash = .error e) :
    e.className = .badRequest := by
  unfold checkHash at h
  cases hn : assertTestnet network with
  | error e' =>
    rw [hn] at h
    cases h
    exact assertTestnet_error hn
  | ok u =>
    simp only [hn, bind, Except.bind] at h
    split at h <;> cases h
    rfl

/-- What else `submitSignedTransaction` checks of an accepted envelope fails as a bad request. -/
theorem checkSubmission_error {sdk : Sdk} {network : String} {signedXdr : JsString} {expectedPublicKey : Option String}
    {expected : Option NativePayment} {tx : Transaction} (parsed : parsePayment sdk signedXdr expected = .ok tx) {e : Exception}
    (h : checkSubmission sdk network signedXdr expectedPublicKey expected = .error e) : e.className = .badRequest := by
  unfold checkSubmission at h
  cases hn : assertTestnet network with
  | error e' =>
    rw [hn] at h
    cases h
    exact assertTestnet_error hn
  | ok u =>
    by_cases blank : signedXdr.trim = .text ""
    · simp only [hn, blank, if_true] at h
      cases h
      rfl
    · simp only [hn, blank, if_false, parsed, bind, Except.bind] at h
      split at h
      · split at h <;> cases h
        rfl
      · cases h

/-- A verdict comes from a record of the queried hash that is in a ledger. -/
theorem verdict_final {hash : Json} {answer : Option TransactionRecord} (final : verdict hash answer ≠ .pending) :
    ∃ result n, answer = some result ∧ (Json.str result.hash).same hash = true ∧ result.ledger = some n ∧ 0 < n ∧
      verdict hash answer = if result.successful then .succeeded else .failed := by
  cases answer with
  | none => exact (final rfl).elim
  | some result =>
    by_cases undecided : (!(Json.str result.hash).same hash || decide (result.ledger.getD 0 = 0)) = true
    · simp [verdict, undecided] at final
    · have value : verdict hash (some result) = if result.successful then .succeeded else .failed := by
        rw [verdict, if_neg undecided]
      simp only [Bool.or_eq_true, Bool.not_eq_true', decide_eq_true_eq, not_or, Bool.not_eq_false] at undecided
      cases inLedger : result.ledger with
      | none => simp [inLedger] at undecided
      | some n =>
        have pos : n ≠ 0 := by simpa [inLedger] using undecided.2
        exact ⟨result, n, rfl, undecided.1, inLedger, Nat.pos_of_ne_zero pos, value⟩

end AfriPay.Stellar
