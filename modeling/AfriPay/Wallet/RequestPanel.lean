import AfriPay.Payments.LinkLife
import AfriPay.Server.App
import AfriPay.Wallet.SendForm

/-!
# Requesting a payment (`components/wallet/ReceivePanel.tsx`, `app/pay/[id]/page.tsx`)

A requester fills in an amount and a reference, or neither, and gets a link. The
page behind the link reads the request back and starts a send form from it.
-/

namespace AfriPay.Wallet
open Text Stellar Storage Payments

/-- What is typed into `PaymentRequestPanel`. -/
structure RequestForm where
  amount : String
  reference : JsString

/-- `PaymentRequest`, as the page of a link reads it. -/
structure PaymentRequest where
  creator : String
  amount : Option String
  reference : Option JsString

/-- The request the page of a link shows. -/
def PaymentRequest.ofLink (link : PaymentLink) : PaymentRequest := ⟨link.creator, link.amount, link.reference⟩

/-- The send form before anything is typed: of a request, or empty. -/
def SendForm.initial (request : Option PaymentRequest) : SendForm :=
  ⟨(request.map (·.creator)).getD "", (request.bind (·.amount)).getD "", (request.bind (·.reference)).getD ""⟩

/-- The send form of a request when something has been typed into the fields it leaves open. There are no others. -/
def SendForm.typed (request : PaymentRequest) (amount : String) (memo : JsString) : SendForm :=
  ⟨request.creator, (request.amount.filter (· ≠ "")).getD amount, (request.reference.filter (· ≠ .text "")).getD memo⟩

/-- `text || undefined` -/
def orUndefined {α : Type} [DecidableEq α] (empty text : α) : Option α := if text = empty then none else some text

/-- A property as `JSON.stringify` writes it: not at all where it is `undefined`. -/
def property (name : JsString) (v : Option Json) : List (JsString × Json) := (v.map (name, ·)).toList

namespace RequestForm

variable (f : RequestForm)

def amountError : Option String :=
  if f.amount ≠ "" ∧ !matchesAmountPattern f.amount then some "Use a number with up to 7 decimal places."
  else if f.amount ≠ "" ∧ (stringToNumber f.amount).nonpositive then some "The amount must be more than zero."
  else none

def referenceError : Option String :=
  if memoMaxBytes < memoByteLength f.reference then some "References are limited to 28 bytes." else none

/-- The body of `POST /payments/links`. -/
def body (address : String) : Json :=
  .obj (property "creator" (some (.str address)) ++ property "asset" (some (.str "XLM")) ++
    property "amount" ((orUndefined "" f.amount).map .str) ++
    property "reference" ((orUndefined (.text "") f.reference.trim).map JsString.json))

/-- `create`: the body that is sent, if one is. -/
def create (address : Option String) : Option Json :=
  match address with
  | none => none
  | some address => if address = "" ∨ f.amountError.isSome ∨ f.referenceError.isSome then none else some (f.body address)

/-- What the backend takes of the body. -/
def input (address : String) : LinkInput :=
  ⟨some (.str address), (orUndefined "" f.amount).map .str, some (.str "XLM"), (orUndefined (.text "") f.reference.trim).map JsString.json, none⟩

/-- The form that opens behind the link. -/
def sendForm (d : Deployment) (address : String) : SendForm :=
  ⟨address, (storedAmount d (orUndefined "" f.amount)).getD "", keptText d.pool f.reference.trim⟩

end RequestForm

theorem orUndefined_eq_some {α : Type} [DecidableEq α] {empty text s : α} : orUndefined empty text = some s ↔ text = s ∧ s ≠ empty := by
  unfold orUndefined
  split_ifs with blank
  · simp only [false_iff, not_and, not_not]
    rintro rfl
    exact blank
  · simp only [Option.some.injEq]
    constructor
    · rintro rfl
      exact ⟨rfl, blank⟩
    · exact And.left

@[simp] theorem getD_orUndefined {α : Type} [DecidableEq α] (empty text : α) : (orUndefined empty text).getD empty = text := by
  unfold orUndefined
  split_ifs with blank
  · exact blank.symm
  · rfl

/-! ## The panel and the backend -/

section Agreement

variable {sdk : Sdk} {address : String} {f : RequestForm}

/-- The handler takes the body apart. -/
theorem checkLinkBody_body (named : address ≠ "") : PaymentIntentController.checkLinkBody (some (f.body address)) = .ok (f.input address) := by
  have creator : bodyProp (some (f.body address)) "creator" = some (.str address) := rfl
  have asset : bodyProp (some (f.body address)) "asset" = some (.str "XLM") := rfl
  have amount : bodyProp (some (f.body address)) "amount" = (orUndefined "" f.amount).map .str := by
    unfold RequestForm.body
    cases orUndefined "" f.amount <;> cases orUndefined (.text "") f.reference.trim <;> rfl
  have reference : bodyProp (some (f.body address)) "reference" = (orUndefined (.text "") f.reference.trim).map JsString.json := by
    unfold RequestForm.body
    cases orUndefined "" f.amount <;> cases orUndefined (.text "") f.reference.trim <;> rfl
  have expiresAt : bodyProp (some (f.body address)) "expiresAt" = none := by
    unfold RequestForm.body
    cases orUndefined "" f.amount <;> cases orUndefined (.text "") f.reference.trim <;> rfl
  have present : truthy (some (.str address)) = true ∧ truthy (some (.str "XLM")) = true := by simp [truthy, named]
  simp only [PaymentIntentController.checkLinkBody, creator, asset, amount, reference, expiresAt, present.1, present.2]
  rfl

/-- The panel accepts the amounts the backend does, and none at all. -/
theorem requestAmountError_none : f.amountError = none ↔ ∀ a, orUndefined "" f.amount = some a → ∃ n, stroops a = .ok n ∧ 0 < n := by
  unfold RequestForm.amountError
  by_cases empty : f.amount = ""
  · simp [empty, orUndefined]
  have given : orUndefined "" f.amount = some f.amount := if_neg empty
  have only : (∀ a, orUndefined "" f.amount = some a → ∃ n, stroops a = .ok n ∧ 0 < n) ↔ ∃ n, stroops f.amount = .ok n ∧ 0 < n := by
    rw [given]
    exact ⟨fun all => all _ rfl, fun valid a same => by cases same; exact valid⟩
  rw [only]
  by_cases fits : matchesAmountPattern f.amount = true
  · rw [positive_iff fits]
    simp [empty, fits]
  · have invalid := not_positive fits
    simp [empty, fits, invalid]

/-- The backend accepts what the panel accepts, and a long reference that is short when trimmed. -/
theorem checkLink_input_iff (own : sdk.isValidEd25519PublicKey address = true) {account : String} {amount : Option String}
    {reference : Option JsString} :
    checkLink sdk (f.input address) = .ok (account, amount, reference) ↔
      (account = address ∧ amount = orUndefined "" f.amount ∧ reference = orUndefined (.text "") f.reference.trim) ∧
        f.amountError = none ∧ memoByteLength f.reference.trim ≤ memoMaxBytes := by
  have strings : Function.Injective (Option.map Json.str) := Option.map_injective fun _ _ => Json.str.inj
  have texts : Function.Injective (Option.map JsString.json) := Option.map_injective fun s t same => by
    exact Option.some.inj ((stringOf_json s).symm.trans ((congrArg (stringOf ∘ some) same).trans (stringOf_json t)))
  rw [checkLink_ok, requestAmountError_none]
  constructor
  · intro checked
    obtain rfl : orUndefined "" f.amount = amount := strings checked.named
    obtain rfl : orUndefined (.text "") f.reference.trim = reference := texts checked.referenced
    obtain rfl : address = account := Json.str.inj (Option.some.inj checked.creator)
    refine ⟨⟨rfl, rfl, rfl⟩, checked.positive, ?_⟩
    by_cases empty : f.reference.trim = .text ""
    · rw [empty]
      decide
    · exact checked.short _ (if_neg empty)
  · rintro ⟨⟨rfl, rfl, rfl⟩, positive, short⟩
    refine ⟨rfl, own, rfl, rfl, positive, rfl, fun m noted => ?_⟩
    obtain ⟨rfl, -⟩ := orUndefined_eq_some.1 noted
    exact short

end Agreement

end AfriPay.Wallet
