import AfriPay.Payments.Controller
import AfriPay.Text.DoubleOrder
import AfriPay.Wallet.Agreement

/-!
# The send form (`components/wallet/SendFlow.tsx`, `lib/address.ts`)

The form checks its fields before anything is sent, and the backend checks the
request again. The two agree: the form shows no error exactly where the request
would pass and the amount does not come out as more than the balance
(`form_agrees`), which only an amount that is more does.
-/

namespace AfriPay.Wallet
open Text Stellar Storage Payments

/-- No address and no amount has half of a surrogate pair in it; a memo may. -/
structure SendForm where
  recipient : String
  amount : String
  memo : JsString

def isValidPublicKey (sdk : Sdk) (value : String) : Bool := sdk.isValidEd25519PublicKey (trim value)

/-- Stellar text memos are limited to 28 bytes, not characters. -/
def memoByteLength (value : JsString) : Nat := value.byteLength

def memoMaxBytes : Nat := 28

/-- `errors`, field by field. -/
structure FormErrors where
  recipient : Option String
  amount : Option String
  memo : Option String
  deriving DecidableEq

/-- `xlm !== null && Number(amount) > Number(xlm)` -/
def exceeds (xlm : Option String) (amount : String) : Bool := xlm.any fun xlm => (stringToNumber xlm).less (stringToNumber amount)

namespace SendForm

variable (sdk : Sdk) (f : SendForm)

def recipientError (address : Option String) : Option String :=
  if trim f.recipient = "" then some "Enter the recipient’s Stellar address."
  else if !isValidPublicKey sdk f.recipient then some "That isn’t a valid Stellar address. It should start with G and be 56 characters."
  else if some (trim f.recipient) = address then some "This is your own address."
  else none

def amountError (xlm : Option String) : Option String :=
  if f.amount = "" then some "Enter an amount."
  else if !matchesAmountPattern f.amount then some "Use a number with up to 7 decimal places."
  else if (stringToNumber f.amount).nonpositive then some "The amount must be more than zero."
  else if exceeds xlm f.amount then some "That’s more than your balance."
  else none

def memoError : Option String := if memoMaxBytes < memoByteLength f.memo then some "Memos are limited to 28 bytes." else none

def errors (address xlm : Option String) : FormErrors := ⟨f.recipientError sdk address, f.amountError xlm, f.memoError⟩

/-- The body of `POST /payments/intents`. -/
def body (address : String) : JsonObject := fun name =>
  (Json.obj [("sender", .str address), ("recipient", .str (trim f.recipient)), ("amount", .str f.amount), ("memo", f.memo.json),
    ("asset", .str "XLM")]).prop name

/-- What is shown before the payment is signed, with the fee of the prepared transaction. -/
def review (fee : String) : PaymentReview := ⟨trim f.recipient, f.amount, some f.memo, fee⟩

/-- The payment the form is for. -/
def payment (address : String) : NativePayment := ⟨address, trim f.recipient, f.amount, "XLM", some f.memo⟩

def fields (address : String) : PaymentFields :=
  ⟨some (.str address), some (.str (trim f.recipient)), some (.str f.amount), some (.str "XLM"), some f.memo.json⟩

/-- The request the service gets, under a key. -/
def request (address : String) (key : JsString) : DeclaredInput := ⟨f.fields address, some key.json⟩

end SendForm

/-! ## The amount -/

section Amounts

variable {amount : String}

theorem decimalValue_scaled (fits : matchesAmountPattern amount = true) : decimalValue amount = (scaledValue 7 amount : ℚ) / 10 ^ 7 := by
  rw [scaledValue_eq (fractionPart_length_le fits), mul_div_cancel_right₀ _ (by norm_num)]

theorem decimalValue_nonneg (amount : String) : 0 ≤ decimalValue amount := by
  unfold decimalValue
  positivity

/-- The number of an amount is positive where its stroops are. -/
theorem nonpositive_iff (fits : matchesAmountPattern amount = true) : (stringToNumber amount).nonpositive = true ↔ scaledValue 7 amount = 0 := by
  rw [stringToNumber_numeral fits, decimalValue_scaled fits]
  constructor
  · intro nonpositive
    by_contra some
    have one : (1 : ℚ) ≤ scaledValue 7 amount := by exact_mod_cast Nat.one_le_iff_ne_zero.2 some
    rw [nonpositive_toDouble] at nonpositive
    · cases nonpositive
    · calc (1 : ℚ) / 2 ^ 24 ≤ 1 / 10 ^ 7 := by norm_num
        _ ≤ (scaledValue 7 amount : ℚ) / 10 ^ 7 := div_le_div_of_nonneg_right one (by norm_num)
  · intro zero
    have none : toDouble 0 = .finite 0 := by exact_mod_cast toDouble_natCast (by decide : 0 < 2 ^ 53)
    rw [zero, Nat.cast_zero, zero_div, none]
    rfl

/-- An amount that fits is a payment's exactly if its number is positive. -/
theorem positive_iff (fits : matchesAmountPattern amount = true) :
    (∃ units, stroops amount = .ok units ∧ 0 < units) ↔ (stringToNumber amount).nonpositive = false := by
  have value : stroops amount = .ok (scaledValue 7 amount) := if_pos fits
  rw [← Bool.not_eq_true, nonpositive_iff fits, value]
  constructor
  · rintro ⟨units, same, pos⟩ zero
    cases same
    omega
  · exact fun zero => ⟨_, rfl, Nat.pos_of_ne_zero zero⟩

/-- What is no decimal is no payment's amount. -/
theorem not_positive (unfit : ¬matchesAmountPattern amount = true) : ¬∃ units, stroops amount = .ok units ∧ 0 < units := by
  rintro ⟨units, value, -⟩
  exact unfit (stroops_ok value).1

/-- An amount that is refused for the balance is more than it. -/
theorem lt_of_exceeds {xlm : String} {m n : Nat} (fits : matchesAmountPattern amount = true) (numeral : matchesDecimal m n xlm = true)
    (more : exceeds (some xlm) amount = true) : decimalValue xlm < decimalValue amount := by
  have less : (stringToNumber xlm).less (stringToNumber amount) = true := more
  rw [stringToNumber_numeral fits, stringToNumber_numeral numeral] at less
  exact lt_of_less (decimalValue_nonneg amount) less

end Amounts

/-! ## The request -/

/-- The controller and the service let the request pass that is sent for a form. -/
def Passes (sdk : Sdk) (address key : String) (f : SendForm) : Prop :=
  ∃ key' p, checkCreate (some key) (f.body address) = .ok key' ∧ validatePayment sdk (spreadBody (f.body address) key').payment = .ok p

/-- The form and the backend check alike. -/
structure FormAgrees (sdk : Sdk) (address key : String) (xlm : Option String) (f : SendForm) : Prop where
  /-- The form shows no error exactly where the request passes, but for the balance. -/
  clean_iff : f.errors sdk (some address) xlm = ⟨none, none, none⟩ ↔ Passes sdk address key f ∧ exceeds xlm f.amount = false
  /-- What passes is the payment the form is for, and nothing that is not declared is sent with it. -/
  payment : ∀ p, validatePayment sdk (spreadBody (f.body address) (trim key)).payment = .ok p → p = f.payment address ∧
    spreadBody (f.body address) (trim key) = (f.request address (trim key)).input
  /-- Nothing is refused for the balance that is not more. -/
  balance : ∀ balance, xlm = some balance → matchesAmountPattern f.amount = true → (∃ m n, matchesDecimal m n balance = true) →
    exceeds xlm f.amount = true → decimalValue balance < decimalValue f.amount

section Agreement

variable {sdk : Sdk} {address key : String} {xlm : Option String} {f : SendForm}

/-- The body has the five properties the handler declares. -/
theorem spreadBody_body : spreadBody (f.body address) key = (f.request address key).input := by
  have extra : extraOf (f.body address) = fun _ => none := by
    funext name
    unfold extraOf
    split_ifs with named
    · rfl
    · simp only [declaredNames, List.mem_cons, List.not_mem_nil, or_false, not_or] at named
      obtain ⟨⟨sender, recipient, amount, asset, memo⟩, -, -⟩ := named
      simp [SendForm.body, Json.prop, Ne.symm sender, Ne.symm recipient, Ne.symm amount, Ne.symm asset, Ne.symm memo]
  rw [spreadBody, extra]
  simp [SendForm.body, SendForm.request, SendForm.fields, DeclaredInput.input, Json.prop]

theorem recipientError_none : f.recipientError sdk (some address) = none ↔
    trim f.recipient ≠ "" ∧ sdk.isValidEd25519PublicKey (trim f.recipient) = true ∧ address ≠ trim f.recipient := by
  unfold SendForm.recipientError isValidPublicKey
  split_ifs with empty invalid own
  · exact ⟨fun none => (by cases none), fun valid => absurd empty valid.1⟩
  · refine ⟨fun none => (by cases none), fun valid => ?_⟩
    simp [valid.2.1] at invalid
  · exact ⟨fun none => (by cases none), fun valid => absurd (Option.some.inj own).symm valid.2.2⟩
  · refine ⟨fun _ => ⟨empty, by simpa using invalid, fun same => own ?_⟩, fun _ => rfl⟩
    rw [same]

theorem amountError_none : f.amountError xlm = none ↔
    (∃ units, stroops f.amount = .ok units ∧ 0 < units) ∧ exceeds xlm f.amount = false := by
  unfold SendForm.amountError
  by_cases fits : matchesAmountPattern f.amount = true
  · have some : f.amount ≠ "" := by
      intro empty
      rw [empty] at fits
      revert fits
      decide
    rw [positive_iff fits]
    split_ifs <;> simp_all
  · have invalid := not_positive fits
    by_cases empty : f.amount = ""
    · rw [if_pos empty]
      exact ⟨fun none => (by cases none), fun valid => absurd valid.1 invalid⟩
    · rw [if_neg empty, if_pos (by simpa using fits)]
      exact ⟨fun none => (by cases none), fun valid => absurd valid.1 invalid⟩

theorem memoError_none : f.memoError = none ↔ memoOf (some f.memo.json) = .ok (some f.memo) := by
  rw [memoOf, stringOf_json]
  unfold SendForm.memoError memoByteLength memoMaxBytes
  split_ifs <;> simp_all

theorem memoOf_json {memo : JsString} {given : Option JsString} :
    memoOf (some memo.json) = .ok given ↔ given = some memo ∧ memoOf (some memo.json) = .ok (some memo) := by
  by_cases long : 28 < memo.byteLength
  · simp [memoOf, long]
  · simp [memoOf, long, eq_comm]

/-- What the service checks of the request for a form. -/
theorem validatePayment_fields {p : NativePayment} : validatePayment sdk (f.fields address) = .ok p ↔
    p = f.payment address ∧ memoOf (some f.memo.json) = .ok (some f.memo) ∧ sdk.isValidEd25519PublicKey address = true ∧
      sdk.isValidEd25519PublicKey (trim f.recipient) = true ∧ address ≠ trim f.recipient ∧ ∃ units, stroops f.amount = .ok units ∧ 0 < units := by
  rw [validatePayment_ok]
  constructor
  · rintro ⟨sender, recipient, amount, asset, memo, senderKey, recipientKey, distinct, lumens, positive⟩
    obtain ⟨given, fits⟩ := memoOf_json.1 memo
    obtain ⟨sender', recipient', amount', asset', memo'⟩ := p
    cases sender
    cases recipient
    cases amount
    cases lumens
    cases given
    exact ⟨rfl, fits, senderKey, recipientKey, distinct, positive⟩
  · rintro ⟨rfl, memo, senderKey, recipientKey, distinct, positive⟩
    exact ⟨rfl, rfl, rfl, rfl, memo, senderKey, recipientKey, distinct, rfl, positive⟩

/-- What the controller checks of it. -/
theorem checkCreate_body (keyed : trim key ≠ "") (named : address ≠ "") {key' : String} :
    checkCreate (some key) (f.body address) = .ok key' ↔ key' = trim key ∧ trim f.recipient ≠ "" ∧ f.amount ≠ "" := by
  have present : (["sender", "recipient", "amount", "asset"].all fun name => truthy (f.body address name)) =
      decide (trim f.recipient ≠ "" ∧ f.amount ≠ "") := by
    simp [SendForm.body, Json.prop, truthy, named]
  unfold checkCreate
  simp only [Option.getD_some, keyed, if_false, present]
  by_cases given : trim f.recipient ≠ "" ∧ f.amount ≠ ""
  · simp [given, pure, Except.pure, eq_comm]
  · simp [given, bind, Except.bind, throw, throwThe, MonadExceptOf.throw]

/-- **The form and the backend agree** on what can be sent. -/
theorem form_agrees (own : sdk.isValidEd25519PublicKey address = true) (named : address ≠ "") (keyed : trim key ≠ "")
    (xlm : Option String) (f : SendForm) : FormAgrees sdk address key xlm f := by
  refine ⟨?_, fun p valid => ?_, ?_⟩
  · have clean : f.errors sdk (some address) xlm = ⟨none, none, none⟩ ↔
        f.recipientError sdk (some address) = none ∧ f.amountError xlm = none ∧ f.memoError = none := by simp [SendForm.errors]
    rw [clean, recipientError_none, amountError_none, memoError_none]
    constructor
    · rintro ⟨⟨some, valid, other⟩, ⟨positive, affordable⟩, memo⟩
      refine ⟨⟨trim key, f.payment address, (checkCreate_body keyed named).2 ⟨rfl, some, ?_⟩, ?_⟩, affordable⟩
      · intro empty
        obtain ⟨units, value, -⟩ := positive
        rw [empty] at value
        cases value
      · rw [spreadBody_body]
        exact validatePayment_fields.2 ⟨rfl, memo, own, valid, other, positive⟩
    · rintro ⟨⟨key', p, passed, valid⟩, affordable⟩
      rw [spreadBody_body] at valid
      obtain ⟨-, memo, -, valid, other, positive⟩ := validatePayment_fields.1 valid
      exact ⟨⟨((checkCreate_body keyed named).1 passed).2.1, valid, other⟩, ⟨positive, affordable⟩, memo⟩
  · rw [spreadBody_body] at valid
    exact ⟨(validatePayment_fields.1 valid).1, spreadBody_body⟩
  · rintro balance rfl fits ⟨m, n, numeral⟩ more
    exact lt_of_exceeds fits numeral more

end Agreement

/-- Pasted with a blank, a payment of the whole balance. -/
def Sample.form : SendForm := ⟨Payments.Sample.bob ++ " ", "2", "rent"⟩

theorem form_agrees_sample : Sample.form.errors Sample.sdk (some Payments.Sample.alice) (some "2.0000000") = ⟨none, none, none⟩ ∧
    FormAgrees Sample.sdk Payments.Sample.alice "key" (some "2.0000000") Sample.form := by
  refine ⟨by decide +kernel, form_agrees (by decide +kernel) (by decide +kernel) (by decide +kernel) _ _⟩

end AfriPay.Wallet
