import AfriPay.Stellar.PaymentValidation
import AfriPay.Storage.Sql
import AfriPay.Wallet.Amount

/-!
# Signing in the wallet (`lib/stellar.ts`)

`signTransactionXdr` decodes an envelope, holds it against the payment the user
has reviewed, and signs it. What the Stellar SDK contributes in the browser is
the parameter `WalletSdk`.
-/

namespace AfriPay.Wallet
open Text Stellar Storage

/-- `PaymentReview` -/
structure PaymentReview where
  recipient : String
  amount : String
  memo : Option JsString
  fee : String

/-- The Stellar SDK in the browser. Its errors carry texts of its own. -/
structure WalletSdk where
  isValidEd25519SecretSeed : String → Bool
  /-- `Keypair.fromSecret(secret).publicKey()` -/
  publicKey : (secret : String) → String
  /-- `TransactionBuilder.fromXDR(xdr, TESTNET_PASSPHRASE)` -/
  fromXDR : JsString → Except String Envelope
  /-- The signature `transaction.sign` adds. -/
  sign : (secret : String) → Hash → List UInt8
  /-- `transaction.toXDR()` -/
  toXDR : Transaction → String

/-- The operation check against the review. -/
def matchesReview (tx : Transaction) (review : PaymentReview) : Except String Bool :=
  match tx.operations with
  | [.payment none destination true amount] =>
    if destination ≠ review.recipient then .ok false
    else do
      let units ← amountUnits amount
      let reviewed ← amountUnits review.amount
      return decide (units = reviewed ∧ 0 < reviewed)
  | _ => .ok false

/-- `new TextDecoder().decode(bytes)` of bytes, and `String(value)` of anything else. -/
def walletMemoText : MemoValue → String
  | .bytes bs => utf8Decode bs
  | .string s => s
  | .null => "null"

/-- The memo check against the review. -/
def memoReviewed (tx : Transaction) (review : PaymentReview) : Bool :=
  let memo := review.memo.getD ""
  if memo ≠ .text "" then tx.memo.type = .text ∧ .text (walletMemoText tx.memo.value) = memo else tx.memo.type = .none

/-- The time check: the clock is read twice, in milliseconds. -/
def hasOpenBounds (tx : Transaction) (now later : Timestamp) : Bool :=
  match tx.timeBounds with
  | some bounds => now < bounds.maxTime * 1000 ∧ bounds.maxTime * 1000 ≤ later + 360 * 1000
  | none => false

/-- `transaction.sign(source)` -/
def signed (sdk : WalletSdk) (secret : String) (tx : Transaction) : Transaction :=
  { tx with signatures := tx.signatures ++ [sdk.sign secret tx.hash] }

/-- `if (refused) throw new Error(message)` -/
def refuse (refused : Bool) (message : String) : Except String Unit := if refused then .error message else .ok ()

/-- A fee-bump envelope has no `source`. -/
def withSource : Envelope → Except String Transaction
  | .transaction tx => .ok tx
  | .feeBump => .error "Transaction source does not match wallet"

def signTransactionXdr (sdk : WalletSdk) (secret : String) (xdr : JsString) (review : PaymentReview) (now later : Timestamp) :
    Except String String := do
  refuse (!sdk.isValidEd25519SecretSeed secret) "Unable to unlock wallet"
  let envelope ← sdk.fromXDR xdr
  let tx ← withSource envelope
  refuse (tx.source ≠ sdk.publicKey secret) "Transaction source does not match wallet"
  let fits ← matchesReview tx review
  refuse (!fits) "Transaction does not match reviewed payment"
  refuse (Nat.repr tx.fee ≠ review.fee ∨ 1000000 < tx.fee) "Unexpected transaction fee"
  refuse (!memoReviewed tx review) "Transaction memo does not match review"
  refuse (!hasOpenBounds tx now later) "Transaction expired or invalid time bounds"
  refuse (tx.signatures ≠ []) "Unexpected existing signatures"
  return sdk.toXDR (signed sdk secret tx)

/-- What the wallet has checked of the transaction it signs. -/
structure Reviewed (sdk : WalletSdk) (secret : String) (xdr : JsString) (review : PaymentReview) (now later : Timestamp) (tx : Transaction) :
    Prop where
  unlocks : sdk.isValidEd25519SecretSeed secret = true
  decoded : sdk.fromXDR xdr = .ok (.transaction tx)
  source : tx.source = sdk.publicKey secret
  payment : matchesReview tx review = .ok true
  fee : Nat.repr tx.fee = review.fee
  limit : tx.fee ≤ 1000000
  memo : memoReviewed tx review = true
  bounds : hasOpenBounds tx now later = true
  unsigned : tx.signatures = []

theorem matchesReview_ok {tx : Transaction} {review : PaymentReview} : matchesReview tx review = .ok true ↔
    ∃ amount units, tx.operations = [.payment none review.recipient true amount] ∧ amountUnits amount = .ok units ∧
      amountUnits review.amount = .ok units ∧ 0 < units := by
  constructor
  · intro h
    unfold matchesReview at h
    split at h
    · rename_i destination amount operations
      split at h
      · cases h
      rename_i same
      rw [not_not] at same
      subst same
      cases ha : amountUnits amount with
      | error e => rw [ha] at h; cases h
      | ok units =>
      cases hr : amountUnits review.amount with
      | error e => rw [ha, hr] at h; cases h
      | ok reviewed =>
      rw [ha, hr] at h
      have checked : decide (units = reviewed ∧ 0 < reviewed) = true := Except.ok.inj h
      obtain ⟨rfl, positive⟩ := of_decide_eq_true checked
      exact ⟨amount, units, operations, ha, rfl, positive⟩
    · cases h
  · rintro ⟨amount, units, operations, ha, hr, positive⟩
    simp [matchesReview, operations, ha, hr, positive, bind, Except.bind]
    rfl

theorem refuse_ok {refused : Bool} {message : String} {u : Unit} : refuse refused message = .ok u ↔ refused = false := by
  cases refused <;> simp [refuse]

/-- **What the wallet signs**: a transaction it has reviewed, and nothing else. -/
theorem signTransactionXdr_ok {sdk : WalletSdk} {secret text : String} {xdr : JsString} {review : PaymentReview} {now later : Timestamp} :
    signTransactionXdr sdk secret xdr review now later = .ok text ↔
      ∃ tx, Reviewed sdk secret xdr review now later tx ∧ text = sdk.toXDR (signed sdk secret tx) := by
  constructor
  · intro h
    obtain ⟨_, unlocks, h⟩ := bind_ok h
    obtain ⟨envelope, decoded, h⟩ := bind_ok h
    obtain ⟨tx, plain, h⟩ := bind_ok h
    obtain ⟨_, source, h⟩ := bind_ok h
    obtain ⟨fits, payment, h⟩ := bind_ok h
    obtain ⟨_, matching, h⟩ := bind_ok h
    obtain ⟨_, fee, h⟩ := bind_ok h
    obtain ⟨_, memo, h⟩ := bind_ok h
    obtain ⟨_, bounds, h⟩ := bind_ok h
    obtain ⟨_, unsigned, h⟩ := bind_ok h
    rw [refuse_ok] at unlocks source matching fee memo bounds unsigned
    rw [Bool.not_eq_false'] at unlocks matching memo bounds
    rw [decide_eq_false_iff_not] at source fee unsigned
    rw [not_or, not_not, Nat.not_lt] at fee
    rw [not_not] at source unsigned
    cases envelope with
    | feeBump => cases plain
    | transaction tx' =>
      obtain rfl : tx' = tx := Except.ok.inj plain
      rw [matching] at payment
      exact ⟨tx', ⟨unlocks, decoded, source, payment, fee.1, fee.2, memo, bounds, unsigned⟩, (Except.ok.inj h).symm⟩
  · rintro ⟨tx, r, rfl⟩
    have fee : ¬ (Nat.repr tx.fee ≠ review.fee ∨ 1000000 < tx.fee) := by
      rw [not_or, not_not, Nat.not_lt]
      exact ⟨r.fee, r.limit⟩
    simp [signTransactionXdr, refuse, r.unlocks, r.decoded, withSource, r.source, r.payment, fee, r.memo, r.bounds, r.unsigned,
      bind, Except.bind, pure, Except.pure]

end AfriPay.Wallet
