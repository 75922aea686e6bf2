import AfriPay.Wallet.FormPaid
import AfriPay.Wallet.RequestPanel

/-!
# From a payment request to the settled payment

What a requester asks for becomes a link that anyone can open for a day. The form
behind it is filled in as asked, and what is then confirmed pays the requester with
the reference asked for. Only the amount does not come back as it was from a
database.
-/

namespace AfriPay.Wallet
open Calls Text Stellar Storage Payments PaymentIntentService

/-- A link that was returned for a request, in any later state. -/
structure LinkHonoured (d : Deployment) (wallet : WalletSdk) (creator : String) (f : RequestForm) (link : PaymentLink) (cfg : PaymentConfig) :
    Prop where
  /-- It can be opened exactly until it expires. -/
  opens : ∀ expiry now, link.expiresAt = some (.str (d.toISOString expiry)) → ReadsDate d expiry →
    ((getLink d link.id).Can (execAt d now) (fun opened _ => opened = storedLink d link) cfg.shared.world ↔ now < expiry)
  /-- Whoever has opened it has the form filled in. -/
  fills : ∀ (tid : Nat) (opened : PaymentLink), cfg.calls[tid]? = some (.getLink link.id, .ret (.link opened)) →
    SendForm.initial (some (.ofLink opened)) = f.sendForm d creator
  /-- What that form complains of to another account. -/
  errors : ∀ payer xlm, payer ≠ creator → (f.sendForm d creator).errors d.sdk (some payer) xlm = ⟨none,
    if f.amount = "" then some "Enter an amount."
    else if d.pool then some "Use a number with up to 7 decimal places."
    else if exceeds xlm f.amount then some "That’s more than your balance."
    else none, none⟩
  /-- An amount that was asked for cannot be changed, and cannot be paid when it comes from a database. -/
  unpayable : d.pool = true → f.amount ≠ "" → ∀ (tid : Nat) (opened : PaymentLink),
    cfg.calls[tid]? = some (.getLink link.id, .ret (.link opened)) → ∀ amount memo xlm,
      (SendForm.typed (.ofLink opened) amount memo).amountError xlm = some "Use a number with up to 7 decimal places."
  /-- Where the form complains of nothing, the requester is paid as asked: with the amount and
  the reference of the request, or what the payer has typed where it has none. -/
  paid : ∀ (tid : Nat) (opened : PaymentLink), cfg.calls[tid]? = some (.getLink link.id, .ret (.link opened)) →
    ∀ secret key amount memo xlm, wallet.isValidEd25519SecretSeed secret = true →
      d.sdk.isValidEd25519PublicKey (wallet.publicKey secret) = true → idempotencyKeyOf (some (.str key)) = .ok key →
      PlainMemo (SendForm.typed (.ofLink opened) amount memo).memo →
      (d.pool = true → ∀ text ∈ [key, wallet.publicKey secret, creator, (SendForm.typed (.ofLink opened) amount memo).memo.toWellFormed],
        pgText text = true) →
      cfg.shared.world.Room → (∀ id i, cfg.shared.world.intent d id = some i → i.idempotencyKey ≠ key) →
      (SendForm.typed (.ofLink opened) amount memo).errors d.sdk (some (wallet.publicKey secret)) xlm = ⟨none, none, none⟩ →
      (SendForm.typed (.ofLink opened) amount memo).payment (wallet.publicKey secret) =
          ⟨wallet.publicKey secret, creator, if f.amount = "" then amount else f.amount, "XLM",
            some (if f.reference.trim = .text "" then memo else keptText d.pool f.reference.trim)⟩ ∧
        FormPaid d wallet secret key cfg (SendForm.typed (.ofLink opened) amount memo)

/-- A request without errors is honoured. -/
structure RequestHonoured (d : Deployment) (wallet : WalletSdk) (creator : String) (f : RequestForm) (cfg : PaymentConfig) : Prop where
  /-- It is sent, and the backend accepts it. -/
  accepted : f.create (some creator) = some (f.body creator) ∧
    PaymentIntentController.checkLinkBody (some (f.body creator)) = .ok (f.input creator) ∧
    checkLink d.sdk (f.input creator) = .ok (creator, orUndefined "" f.amount, orUndefined (.text "") f.reference.trim)
  /-- A link that is good for a day can be created for it at any time, while identifiers are left. -/
  created : ∀ now, cfg.shared.world.Room → ReadsDate d (now + dayMs) → ∃ link s,
    (payments d).Steps cfg ⟨s, cfg.calls ++ [(.createLink (f.input creator), .ret (.link link))]⟩ ∧
      link.expiresAt = some (.str (d.toISOString (now + dayMs)))
  /-- Whatever happens then, a link that was returned for it is honoured. -/
  honoured : ∀ (cfg' : PaymentConfig) (tid : Nat) (link : PaymentLink), (payments d).Steps cfg cfg' →
    cfg'.calls[tid]? = some (.createLink (f.input creator), .ret (.link link)) → LinkHonoured d wallet creator f link cfg'

section Honoured

variable {d : Deployment} {wallet : WalletSdk} {creator : String} {f : RequestForm} {cfg : PaymentConfig}

/-- The amount of a link over some amount is no amount when it comes from a database. -/
theorem storedAmount_pool (pool : d.pool = true) (given : f.amount ≠ "") :
    (storedAmount d (orUndefined "" f.amount)).getD "" ≠ "" ∧
      matchesAmountPattern ((storedAmount d (orUndefined "" f.amount)).getD "") = false := by
  have same : (storedAmount d (orUndefined "" f.amount)).getD "" = fixedPoint 12 (scaledValue 12 f.amount) := by
    rw [storedAmount, if_pos pool, orUndefined, if_neg given]
    rfl
  rw [same]
  constructor
  · intro empty
    have digits := matchesDecimal_fixedPoint_length (by decide : 0 < 12) (scaledValue 12 f.amount)
    rw [empty] at digits
    simp [matchesDecimal, splitPoint, digitRun] at digits
  · exact matchesDecimal_fixedPoint (by decide) (by decide) _

/-- In memory the amount stays as it was asked for. -/
theorem sendForm_amount (pool : d.pool = false) : (f.sendForm d creator).amount = f.amount := by
  simp [RequestForm.sendForm, storedAmount, pool]

/-- The form behind the link has an amount if one was asked for. -/
theorem sendForm_amount_eq_empty : (f.sendForm d creator).amount = "" ↔ f.amount = "" := by
  constructor
  · intro unset
    by_contra given
    cases pool : d.pool with
    | true => exact (storedAmount_pool pool given).1 unset
    | false => exact given ((sendForm_amount pool).symm.trans unset)
  · intro empty
    have absent : orUndefined "" f.amount = none := if_pos empty
    rw [RequestForm.sendForm, absent, storedAmount]
    cases d.pool <;> rfl

/-- And a memo, if a reference was. -/
theorem sendForm_memo_eq_empty : (f.sendForm d creator).memo = .text "" ↔ f.reference.trim = .text "" := by
  unfold RequestForm.sendForm
  cases d.pool with
  | true => rw [keptText_pool, JsString.text.injEq, JsString.toWellFormed_eq_empty]
  | false => exact Iff.rfl

/-- What the form complains of then, whatever is typed into its other fields. -/
theorem amountError_stored (pool : d.pool = true) (given : f.amount ≠ "") {recipient : String} {memo : JsString} {xlm : Option String} :
    SendForm.amountError ⟨recipient, (f.sendForm d creator).amount, memo⟩ xlm = some "Use a number with up to 7 decimal places." := by
  obtain ⟨some', unfit⟩ := storedAmount_pool pool given
  rw [SendForm.amountError]
  exact (if_neg some').trans (if_pos (by rw [show (f.sendForm d creator).amount = _ from rfl, RequestForm.sendForm, unfit]; rfl))

theorem memoByteLength_kept (pool : Bool) (s : JsString) : memoByteLength (keptText pool s) = memoByteLength s := by
  cases pool <;> rfl

/-- What the form behind the link complains of. -/
theorem errors_sendForm (own : d.sdk.isValidEd25519PublicKey creator = true) (named : creator ≠ "") (bare : trim creator = creator)
    (amountOk : f.amountError = none) (short : memoByteLength f.reference.trim ≤ memoMaxBytes) {payer : String} {xlm : Option String}
    (other : payer ≠ creator) : (f.sendForm d creator).errors d.sdk (some payer) xlm = ⟨none,
      if f.amount = "" then some "Enter an amount."
      else if d.pool then some "Use a number with up to 7 decimal places."
      else if exceeds xlm f.amount then some "That’s more than your balance."
      else none, none⟩ := by
  have recipient : (f.sendForm d creator).recipientError d.sdk (some payer) = none := by
    have trimmed : trim (f.sendForm d creator).recipient = creator := bare
    rw [recipientError_none, trimmed]
    exact ⟨named, own, other⟩
  have memo : (f.sendForm d creator).memoError = none := if_neg (Nat.not_lt.2 ((memoByteLength_kept _ _).trans_le short))
  rw [SendForm.errors, recipient, memo, FormErrors.mk.injEq]
  refine ⟨rfl, ?_, rfl⟩
  by_cases empty : f.amount = ""
  · rw [if_pos empty]
    exact if_pos (sendForm_amount_eq_empty.2 empty)
  · rw [if_neg empty]
    cases pool : d.pool with
    | true =>
      show SendForm.amountError ⟨(f.sendForm d creator).recipient, (f.sendForm d creator).amount, (f.sendForm d creator).memo⟩ _ = _
      exact amountError_stored pool empty
    | false =>
      have same : (f.sendForm d creator).amount = f.amount := sendForm_amount pool
      have positive := requestAmountError_none.1 amountOk f.amount (orUndefined_eq_some.2 ⟨rfl, empty⟩)
      have fits : matchesAmountPattern f.amount = true := by
        by_contra unfit
        exact not_positive unfit positive
      have more := (positive_iff fits).1 positive
      simp [SendForm.amountError, same, empty, fits, more]

theorem getD_filter {α : Type} [DecidableEq α] (o : Option α) (empty a : α) :
    (o.filter (· ≠ empty)).getD a = if o.getD empty = empty then a else o.getD empty := by
  cases o with
  | none => simp
  | some b => by_cases same : b = empty <;> simp [Option.filter, same]

/-- The form as the page fills it in, of a link that was made for the request. -/
theorem initial_ofLink {link : PaymentLink} (account : link.creator = creator) (amountIs : link.amount = orUndefined "" f.amount)
    (referenceIs : link.reference = orUndefined (.text "") f.reference.trim) :
    SendForm.initial (some (.ofLink (storedLink d link))) = f.sendForm d creator := by
  have reference : ((orUndefined (.text "") f.reference.trim).map (keptText d.pool)).getD "" = keptText d.pool f.reference.trim := by
    by_cases empty : f.reference.trim = .text ""
    · rw [orUndefined, if_pos empty, empty, keptText_text]
      rfl
    · rw [orUndefined, if_neg empty]
      rfl
  simp [SendForm.initial, PaymentRequest.ofLink, storedLink, RequestForm.sendForm, account, amountIs, referenceIs, reference]

/-- The form with what was typed into it. -/
theorem typed_of_initial {request : PaymentRequest} {form : SendForm} (filled : SendForm.initial (some request) = form) (amount : String)
    (memo : JsString) : SendForm.typed request amount memo =
      ⟨form.recipient, if form.amount = "" then amount else form.amount, if form.memo = .text "" then memo else form.memo⟩ := by
  rw [← filled, SendForm.typed, getD_filter, getD_filter]
  rfl

end Honoured

/-- Two lumens for the rent. -/
def Sample.requestForm : RequestForm := ⟨"2", " rent"⟩

end AfriPay.Wallet
