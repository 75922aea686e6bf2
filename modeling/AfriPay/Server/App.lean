import AfriPay.Auth.ApiKeyGuard
import AfriPay.Calls.Gate
import AfriPay.Momo.Service
import AfriPay.Payments.Controller
import AfriPay.Rates.Serving
import AfriPay.Stellar.Controller
import AfriPay.Ussd.Controller

/-!
# The backend (`app.module.ts` and the controllers' routes)

Every request is counted by the rate limit. Routes of the mobile money, rates and
USSD controllers then ask for the service's key, and the provider's callbacks for
its token; payments and the Stellar relay are open. What passes is a call of one
service. The reconciliation timer calls the mobile money service by itself.
-/

namespace AfriPay.Server
open Calls Text Auth

/-- `handleUssd`, which runs in one piece, and what it reads. -/
structure UssdOp where
  body : Option Ussd.UssdRequestBody

abbrev UssdOp.Answer (_ : UssdOp) : Type := Except Exception String

/-- The sessions, and the time. -/
structure UssdWorld where
  sessions : Ussd.Sessions
  now : Timestamp

/-- The USSD controller. The clock does not go back. -/
def ussd : System (Option Ussd.UssdRequestBody) UssdOp UssdOp.Answer Exception String UssdWorld where
  body body := do
    let answer ← (Prog.await (UssdOp.mk body) : Prog UssdOp UssdOp.Answer Exception (Except Exception String))
    .ofExcept answer
  exec op w ans w' := w.now ≤ w'.now ∧ Ussd.handleUssd op.body w'.now w.sessions = (ans, w'.sessions)

structure Deployment where
  env : Environment
  /-- `MOMO_RECONCILIATION_INTERVAL_MS` -/
  reconciliationIntervalMs : Option String
  momo : Momo.Deployment
  rates : Rates.Deployment
  payments : Payments.Deployment

/-! ## The services -/

inductive Service where
  | momo | rates | ussd | payments | stellar
  deriving DecidableEq

namespace Service

abbrev Call : Service → Type
  | momo => Momo.Call
  | rates => Rates.RatesController.Query
  | ussd => Option Ussd.UssdRequestBody
  | payments => Payments.Route
  | stellar => Stellar.Api.HttpRequest

abbrev Op : Service → Type
  | momo => Momo.Op
  | rates => Rates.Op
  | ussd => UssdOp
  | payments => Payments.Op
  | stellar => Stellar.Api.Op

abbrev Answer : (i : Service) → i.Op → Type
  | momo => Momo.Op.Answer
  | rates => Rates.Op.Answer
  | ussd => UssdOp.Answer
  | payments => Payments.Op.Answer
  | stellar => Stellar.Api.Op.Answer

abbrev Result : Service → Type
  | momo => Momo.Returned
  | rates => Json
  | ussd => String
  | payments => Payments.RouteResponse
  | stellar => Stellar.Api.Response

abbrev World : Service → Type
  | momo => Momo.World
  | rates => Rates.World
  | ussd => UssdWorld
  | payments => Payments.World
  | stellar => Unit

def system (d : Deployment) : (i : Service) → System i.Call i.Op i.Answer Exception i.Result i.World
  | momo => Momo.momo d.momo
  | rates => Rates.rates d.rates
  | ussd => Server.ussd
  | payments => Payments.routes d.payments
  | stellar => Stellar.Api.stellar ⟨d.payments.sdk, d.payments.network⟩

end Service

/-! ## Requests and answers -/

/-- `GET /health`, and the routes of the controllers. -/
inductive Route where
  | health
  | rates (query : Rates.RatesController.Query)
  | ussd (body : Option Ussd.UssdRequestBody)
  /-- `POST /momo/collections` and `POST /momo/disbursements` -/
  | charge (type : Momo.MomoTransactionType) (body : JsonObject)
  /-- `GET /momo/collections/:referenceId` and `GET /momo/disbursements/:referenceId` -/
  | chargeStatus (type : Momo.MomoTransactionType) (referenceId : String)
  /-- `POST /momo/reconcile` -/
  | reconcile
  /-- `POST /momo/webhook/collection` and `POST /momo/webhook/disbursement` -/
  | callback (type : Momo.MomoTransactionType) (token : Option QueryValue) (payload : Json)
  | payments (route : Payments.Route)
  | stellar (request : Stellar.Api.HttpRequest)

/-- What starts a call: a request, or the timer. -/
inductive Trigger where
  | http (client : Auth.Request) (apiKey : Option Header) (route : Route)
  | timer

inductive Answer where
  | health
  | rate (result : Json)
  | text (text : String)
  | record (record : Momo.MomoTransactionRecord)
  | records (records : List Momo.MomoTransactionRecord)
  /-- `{ received: true, referenceId, status }` -/
  | received (referenceId : String) (status : Momo.MomoTransactionStatus)
  | payment (response : Payments.RouteResponse)
  | stellar (response : Stellar.Api.Response)
  /-- The timer has nobody to answer. -/
  | done

/-- The response of a thrown exception; one from upstream has the status it got there. -/
structure Failure where
  message : String
  status : Nat
  upstreamStatus : Option Nat

def Failure.of (e : HttpException) : Failure := ⟨e.message, e.status, none⟩

def fault : Exception → Failure
  | .badRequest message => ⟨message, 400, none⟩
  | .notFound message => ⟨message, 404, none⟩
  | .conflict message => ⟨message, 409, none⟩
  | .serviceUnavailable message => ⟨message, 503, none⟩
  | .badGateway message upstreamStatus => ⟨message, 502, upstreamStatus⟩
  -- what is no `HttpException` is not shown
  | .error _ => ⟨"Internal server error", 500, none⟩

/-- The controllers under `@UseGuards(ApiKeyGuard)`. -/
def Route.guarded : Route → Bool
  | .rates _ | .ussd _ | .charge .. | .chargeStatus .. | .reconcile => true
  | .health | .callback .. | .payments _ | .stellar _ => false

variable (d : Deployment)

/-- `assertWebhookToken`, which reads the configuration first. -/
def assertWebhookToken (token : Option QueryValue) : Except Failure Unit := do
  discard ((Momo.getMomoConfig d.momo).mapError fault)
  if !verifyWebhookToken d.env token then throw (.of (unauthorized "Invalid or missing MTN MoMo webhook token"))

/-- `MomoReconciliationService.onModuleInit` starts the timer. -/
def Deployment.reconciles : Bool :=
  d.env.nodeEnv ≠ some "test" &&
    match d.reconciliationIntervalMs.map stringToNumber with
    | none => true
    | some (.finite q) => 0 < q
    | some _ => false

/-! ## The gate -/

/-- The rate limit's own operation. -/
inductive GuardOp where
  | canActivate (client : Auth.Request)

abbrev GuardOp.Answer (_ : GuardOp) : Type := Except HttpException Bool

/-- The rate limit's state, with what it has handled, and the time. -/
structure GuardWorld where
  guard : Guard
  now : Timestamp

/-- The clock does not go back. -/
def GuardOp.exec : (op : GuardOp) → GuardWorld → op.Answer → GuardWorld → Prop
  | canActivate client, w, ans, w' => w.now ≤ w'.now ∧ w'.guard = w.guard.handle ⟨d.env.apiRateLimit, client, w'.now⟩ ∧
      ans = (Auth.canActivate d.env.apiRateLimit client w'.now w.guard.clients).1

abbrev GateProg := Prog GuardOp GuardOp.Answer Failure

abbrev Outcome := Answer ⊕ Σ i : Service, i.Call

/-- Nest refuses what a guard does not activate. -/
def activated : Except HttpException Bool → Except Failure Unit
  | .error e => .error (.of e)
  | .ok true => .ok ()
  | .ok false => .error ⟨"Forbidden resource", 403, none⟩

/-- The call of the mobile money service a route is. -/
def chargeCall (type : Momo.MomoTransactionType) (body : JsonObject) : Momo.Call :=
  match type with
  | .collection => .requestToPay body
  | .disbursement => .transfer body

def statusCall (type : Momo.MomoTransactionType) (referenceId : String) : Momo.Call :=
  match type with
  | .collection => .getCollectionStatus referenceId
  | .disbursement => .getDisbursementStatus referenceId

def callbackCall (type : Momo.MomoTransactionType) (payload : Json) : Momo.Call :=
  match type with
  | .collection => .collectionCallback payload
  | .disbursement => .disbursementCallback payload

/-- The call of a service that a route stands for. -/
def Route.target : Route → Option (Σ i : Service, i.Call)
  | .health => none
  | .rates query => some ⟨.rates, query⟩
  | .ussd body => some ⟨.ussd, body⟩
  | .charge type body => some ⟨.momo, chargeCall type body⟩
  | .chargeStatus type referenceId => some ⟨.momo, statusCall type referenceId⟩
  | .reconcile => some ⟨.momo, .reconcilePending⟩
  | .callback type _ payload => some ⟨.momo, callbackCall type payload⟩
  | .payments route => some ⟨.payments, route⟩
  | .stellar request => some ⟨.stellar, request⟩

/-- What a handler asks for itself before it calls its service. -/
def assertRoute : Route → Except Failure Unit
  | .callback _ token _ => assertWebhookToken d token
  | _ => .ok ()

def Route.outcome (route : Route) : Outcome :=
  match route.target with
  | some call => .inr call
  | none => .inl .health

/-- The checks after the rate limit, and where they lead. -/
def checked (apiKey : Option Header) (route : Route) : Except Failure Outcome := do
  if route.guarded then activated (ApiKeyGuard.canActivate d.env apiKey)
  assertRoute d route
  return route.outcome

def gate : Trigger → GateProg Outcome
  | .http client apiKey route => do
    let verdict ← (Prog.await (GuardOp.canActivate client) : GateProg (Except HttpException Bool))
    .ofExcept (activated verdict)
    .ofExcept (checked d apiKey route)
  | .timer => .ofExcept (if d.reconciles then .ok (.inr ⟨.momo, .reconcilePending⟩) else .error ⟨"The timer is not running", 500, none⟩)

/-- How the result of a service is answered. -/
def reply : Trigger → (i : Service) → i.Result → Except Failure Answer
  | .timer, _, _ => .ok .done
  | .http _ _ (.callback ..), .momo, .record r => .ok (.received r.referenceId r.status)
  | _, .momo, .record r => .ok (.record r)
  | _, .momo, .records rs => .ok (.records rs)
  -- the store's method has no route
  | _, .momo, .found _ => .error ⟨"Internal server error", 500, none⟩
  | _, .rates, result => .ok (.rate result)
  | _, .ussd, text => .ok (.text text)
  | _, .payments, response => .ok (.payment response)
  | _, .stellar, response => .ok (.stellar response)

def backend : Calls.Server Service.Call Service.Op Service.Answer Exception Service.Result Service.World GuardOp GuardOp.Answer
    Trigger Failure Answer GuardWorld where
  service := Service.system d
  gate := gate d
  reply := reply
  fault := fault
  exec := GuardOp.exec d

/-- What the services hold when the backend starts. -/
structure Start where
  momo : Momo.World
  rates : Rates.World
  ussd : UssdWorld
  payments : Payments.World

def Start.world (s : Start) : (i : Service) → i.World
  | .momo => s.momo
  | .rates => s.rates
  | .ussd => s.ussd
  | .payments => s.payments
  | .stellar => ()

/-- Reachable from a backend that has just started, at any time. -/
def Reachable (start : Start) (cfg : (backend d).Run) : Prop :=
  ∃ now, (backend d).system.Steps (.initial (⟨⟨.empty, []⟩, now⟩, start.world)) cfg

end AfriPay.Server
