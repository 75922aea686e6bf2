import AfriPay.Payments.Completion
import AfriPay.Wallet.SendForm

/-!
# From the form to the settled payment

What a form without errors is for can be paid, whatever state the payment service
is in: the request is accepted, what is built for it is signed on the device after
the review, and what is signed is accepted and can be settled. The memo has to be
one that both decoders read back (`PlainMemo`): the browser's drops a byte order
mark at the front, and neither has half of a surrogate pair.
-/

namespace AfriPay.Wallet
open Calls Text Stellar Storage Payments

variable {d : Deployment} {wallet : WalletSdk} {cfg : PaymentConfig} {secret key : String} {f : SendForm}

/-- A submission of the signed envelope can end with the payment made. -/
def Settles (d : Deployment) (before : PaymentConfig) (f : SendForm) (address id text : String) (tx : Transaction) : Prop :=
  ∃ i s, (payments d).Steps before ⟨s, before.calls ++ [(.submit id text, .ret (.intent (some i)))]⟩ ∧
    s.world.intent d id = some i ∧ i.status = .succeeded ∧ i.transactionHash = some (.str (toHex tx.hash)) ∧
    SameDetails i.toNativePayment (f.payment address)

/-- The payment of a form goes through. -/
structure FormPaid (d : Deployment) (wallet : WalletSdk) (secret key : String) (cfg : PaymentConfig) (f : SendForm) : Prop where
  paid : ∃ i s, (payments d).Steps cfg
      ⟨s, cfg.calls ++ [(.create (f.request (wallet.publicKey secret) key), .ret (.intent (some i)))]⟩ ∧
    Opens d cfg.shared.world key (f.payment (wallet.publicKey secret)) i s.world ∧
    (∀ u, (buildNativePayment d.sdk d.network i.sender i.recipient i.amount i.memo).CanReturn u → DecodersAgree d.sdk u.xdr ∧
      ∃ maxTime, ∀ now later, InWindow maxTime now → InWindow maxTime later → ∃ text,
        signTransactionXdr wallet secret u.xdr (f.review (Nat.repr u.fee)) now later = .ok text) ∧
    ∀ xdr fee now later text, DecodersAgree d.sdk xdr → signTransactionXdr wallet secret xdr (f.review fee) now later = .ok text →
      ∃ tx, parsePayment d.sdk text (some i.toNativePayment) = .ok tx ∧
        (trim text ≠ "" → (∀ j k, cfg.shared.world.intent d j = some k → k.transactionHash ≠ some (.str (toHex tx.hash))) →
          Settles d ⟨s, cfg.calls ++ [(.create (f.request (wallet.publicKey secret) key), .ret (.intent (some i)))]⟩ f
            (wallet.publicKey secret) i.id text tx)

/-- The review of a form is one of its request. -/
theorem reviewOf_form (f : SendForm) (address fee : String) : ReviewOf (f.fields address) (f.review fee) := ⟨rfl, rfl, rfl⟩

/-- A form without errors is for a valid payment. -/
theorem valid_of_clean {sdk : Sdk} {address : String} {xlm : Option String} (own : sdk.isValidEd25519PublicKey address = true)
    (clean : f.errors sdk (some address) xlm = ⟨none, none, none⟩) : validatePayment sdk (f.fields address) = .ok (f.payment address) := by
  obtain ⟨recipient, amount, memo⟩ : f.recipientError sdk (some address) = none ∧ f.amountError xlm = none ∧ f.memoError = none := by
    simpa [SendForm.errors] using clean
  obtain ⟨-, valid, other⟩ := recipientError_none.1 recipient
  exact validatePayment_fields.2 ⟨rfl, memoError_none.1 memo, own, valid, other, (amountError_none.1 amount).1⟩

/-- What is valid can be requested, signed and settled. -/
theorem paid_of_valid (testnet : d.network = "testnet") (agree : SdksAgree d.sdk wallet) (run : Reachable d cfg)
    (unlocks : wallet.isValidEd25519SecretSeed secret = true)
    (valid : validatePayment d.sdk (f.fields (wallet.publicKey secret)) = .ok (f.payment (wallet.publicKey secret)))
    (keyed : idempotencyKeyOf (some (.str key)) = .ok key)
    (memo : PlainMemo f.memo)
    (plain : d.pool = true → ∀ text ∈ [key, wallet.publicKey secret, trim f.recipient, f.memo.toWellFormed], pgText text = true)
    (room : cfg.shared.world.Room) (unused : ∀ id i, cfg.shared.world.intent d id = some i → i.idempotencyKey ≠ key) :
    FormPaid d wallet secret key cfg f := by
  have storable : d.pool = true → (IntentCall.create (f.request (wallet.publicKey secret) key)).Storable d.sdk [] := by
    intro pool payment key' valid' keyed'
    obtain ⟨rfl, -⟩ := validatePayment_fields.1 valid'
    obtain rfl : (key : JsString) = key' := Except.ok.inj (keyed.symm.trans keyed')
    refine ⟨fun text mem => plain pool text ?_, rfl, .inr fun _ same => ?_⟩
    · simpa [SendForm.payment] using mem
    · cases same
      exact keptText_eq_self fun _ => memo.whole
  obtain ⟨i, s, steps, opens⟩ := live_create run room valid keyed storable unused
  have request := validatePayment_ok.1 valid
  have requested := opens.details.requested request
  have checked := requested.checked request
  have sender : i.sender = wallet.publicKey secret := opens.details.sender
  have memos : ∀ m, i.memo = some m → PlainMemo m := by
    intro m stored
    have same := opens.details.memo
    rw [stored] at same
    obtain rfl : m = f.memo := same
    exact memo
  refine ⟨i, s, steps, opens, fun u built => ?_, fun xdr fee now later text alike signs => ?_⟩
  · obtain ⟨tx, maxTime, -, -, reviewed⟩ := reviewed_built agree requested checked (reviewOf_form f _ _) built rfl
      (fun m stored => (memos m stored).decodesBack) unlocks sender
    exact ⟨decodersAgree_built agree checked.lumens memos built, maxTime,
      fun now later window window' => ⟨_, signTransactionXdr_ok.2 ⟨tx, reviewed now later window window', rfl⟩⟩⟩
  · obtain ⟨tx, reviewed, rfl⟩ := signTransactionXdr_ok.1 signs
    have accepted := parsePayment_reviewed agree requested checked (reviewOf_form f _ fee) sender reviewed
      (alike tx ((agree.fromXDR _ _).1 reviewed.decoded))
    refine ⟨_, accepted, fun given free => ?_⟩
    exact live_opened testnet (run.trans steps) opens accepted (fun empty => given (JsString.text.inj empty)) free

end AfriPay.Wallet
