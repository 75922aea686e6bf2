import AfriPay.Payments.IntentService

/-!
# The payment controller (`payments/payment-intent.controller.ts`)

Requests as they arrive: a header, and a JSON body that no validation pipe has
looked at. `create` spreads the body into the service's input, so every
property the service does not overwrite travels on.
-/

namespace AfriPay.Payments
open Calls Text Stellar Storage

inductive HttpRequest where
  /-- `POST /payments/intents` -/
  | create (idempotencyKey : Option String) (body : JsonObject)
  /-- `GET /payments/intents/:id` -/
  | get (id : String)
  /-- `POST /payments/intents/:id/transaction` -/
  | buildTransaction (id : String)
  /-- `POST /payments/intents/:id/submit` -/
  | submit (id : String) (signedXdr : Option Json)

inductive Response where
  | intent (intent : Option PaymentIntent)
  | unsigned (payment : UnsignedPayment)

/-- All requests of the controller. -/
inductive Route where
  | intents (request : HttpRequest)
  /-- `GET /payments/intents` -/
  | list (sender : Option QueryValue)
  /-- `POST /payments/links` -/
  | createLink (body : Option Json)
  /-- `GET /payments/links/:id` -/
  | getLink (id : String)

inductive RouteResponse where
  | intents (response : Response)
  | list (intents : List PaymentIntent)
  | link (link : PaymentLink)

/-- The properties of a request body that `CreatePaymentBody` declares. -/
def declaredNames : List JsString := ["sender", "recipient", "amount", "asset", "memo"]

/-- The properties of an intent that controller and service set whatever the body has. -/
def overwrittenNames : List JsString := ["idempotencyKey", "id", "status", "createdAt", "updatedAt"]

/-- The properties of a body that nothing names. -/
def extraOf (body : JsonObject) : JsonObject := fun name =>
  if name ∈ declaredNames ∨ name ∈ overwrittenNames ∨ name = "transactionHash" then none else body name

/-- `{ ...body, idempotencyKey }` -/
def spreadBody (body : JsonObject) (idempotencyKey : JsString) : CreateInput :=
  { payment := ⟨body "sender", body "recipient", body "amount", body "asset", body "memo"⟩
    idempotencyKey := some idempotencyKey.json, transactionHash := body "transactionHash", extra := extraOf body }

/-- The checks of the `create` handler, up to the key it passes on. -/
def checkCreate (idempotencyKey : Option String) (body : JsonObject) : Except Exception String := do
  let key := trim (idempotencyKey.getD "")
  if key = "" then throw (.badRequest "Idempotency-Key header is required")
  if ! ["sender", "recipient", "amount", "asset"].all fun name => truthy (body name) then
    throw (.badRequest "sender, recipient, amount and asset are required")
  return key

namespace PaymentIntentController

variable (d : Deployment)

def create (idempotencyKey : Option String) (body : JsonObject) : PaymentProg PaymentIntent := do
  let key ← .ofExcept (checkCreate idempotencyKey body)
  PaymentIntentService.create d (spreadBody body key)

def get (id : String) : PaymentProg (Option PaymentIntent) := PaymentIntentService.reconcile d id

def buildTransaction (id : String) : PaymentProg UnsignedPayment := do
  let intent ← PaymentIntentService.get d id
  if truthy intent.transactionHash ∨ intent.status ≠ .pending then
    throw (.badRequest "Intent already submitted; check its status")
  else stellar (buildNativePayment d.sdk d.network intent.sender intent.recipient intent.amount intent.memo)

/-- Anything but a string is no envelope: `parsePayment` refuses it once the intent is found. -/
def submit (id : String) (signedXdr : Option Json) : PaymentProg (Option PaymentIntent) :=
  match stringOf signedXdr with
  | some signedXdr => PaymentIntentService.submit d id signedXdr
  | none => do
    discard (PaymentIntentService.get d id)
    throw (.badRequest "Invalid Testnet transaction")

def handle : HttpRequest → PaymentProg Response
  | .create idempotencyKey body => (Response.intent ∘ some) <$> create d idempotencyKey body
  | .get id => .intent <$> get d id
  | .buildTransaction id => .unsigned <$> buildTransaction d id
  | .submit id signedXdr => .intent <$> submit d id signedXdr

def list (sender : Option QueryValue) : PaymentProg (List PaymentIntent) := PaymentIntentService.list d sender

/-- What `createLink` checks of a body it hands on. -/
def checkLinkBody (body : Option Json) : Except Exception LinkInput :=
  let prop := bodyProp body
  if !truthy (prop "creator") || !truthy (prop "asset") then throw (.badRequest "creator and asset are required")
  else return ⟨prop "creator", prop "amount", prop "asset", prop "reference", prop "expiresAt"⟩

def createLink (body : Option Json) : PaymentProg PaymentLink := do
  let input ← .ofExcept (checkLinkBody body)
  PaymentIntentService.createLink d input

def getLink (id : String) : PaymentProg PaymentLink := PaymentIntentService.getLink d id

def route : Route → PaymentProg RouteResponse
  | .intents request => .intents <$> handle d request
  | .list sender => .list <$> list d sender
  | .createLink body => .link <$> createLink d body
  | .getLink id => .link <$> getLink d id

end PaymentIntentController

/-- The controller's requests over the store of a deployment. -/
def routes (d : Deployment) : System Route Op Op.Answer Exception RouteResponse World := ⟨PaymentIntentController.route d, exec d⟩

end AfriPay.Payments
