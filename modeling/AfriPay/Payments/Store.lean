import AfriPay.Calls.Pool
import AfriPay.Payments.Records

/-!
# The payment store (`payments/payment-intent.store.ts`)

What the payment services do to the world between two awaits, and the methods
of `PaymentIntentStore`. A deployment either has a database pool, shared by any
number of instances, or keeps its records in the memory of one process.
-/

namespace AfriPay.Payments
open Calls Text Stellar Storage

/-- The configuration of a deployment and what it takes from elsewhere: the SDK
and the reading and writing of dates. -/
structure Deployment where
  sdk : Sdk
  /-- Whether `DATABASE_URL` is set. -/
  pool : Bool
  /-- `STELLAR_NETWORK` -/
  network : String
  /-- `PUBLIC_APP_URL` -/
  publicAppUrl : Option String
  /-- `Date.parse`, `none` for `NaN`. -/
  parseDate : Json → Option Int
  /-- `new Date(t).toISOString()` -/
  toISOString : Timestamp → String
  /-- How PostgreSQL reads a timestamp. -/
  pgTime : Json → Option Timestamp

/-- A synchronous segment of the in-memory branch. -/
inductive MemoryOp where
  | findIntent (id : String)
  | createIntent (intent : PaymentIntent)
  | listIntents (sender : Option QueryValue)
  | claimHash (id hash : String) (now : Timestamp)
  | settle (id : String) (hash : Json) (status : PaymentStatus) (now : Timestamp)
  | saveLink (link : PaymentLink)
  | findLink (id : String)

def MemoryOp.Answer : MemoryOp → Type
  | .findIntent _ => Option PaymentIntent
  | .listIntents _ => List PaymentIntent
  | .saveLink _ => Unit
  | .findLink _ => Option PaymentLink
  | _ => PaymentIntent

def MemoryOp.run : (op : MemoryOp) → Memory → Except Exception (op.Answer × Memory)
  | .findIntent id, m => .ok (m.findIntent id, m)
  | .createIntent intent, m => .ok (m.createIntent intent)
  | .listIntents sender, m => .ok (m.listIntents sender, m)
  | .claimHash id hash now, m => m.claimHash id hash now
  | .settle id hash status now, m => m.settle id hash status now
  | .saveLink link, m => .ok ((), m.saveLink link)
  | .findLink id, m => .ok (m.findLink id, m)

inductive Op where
  | randomUUID
  | memory (op : MemoryOp)
  | query (s : Statement)
  | stellar (request : Request)

def Op.Answer : Op → Type
  | .randomUUID => String
  | .memory op => Except Exception op.Answer
  | .query s => Except DbError (List s.Row)
  | .stellar request => request.Answer

structure World where
  memory : Memory
  db : Database
  /-- The identifiers `randomUUID` has returned so far. -/
  issued : List String

def World.empty : World := ⟨.empty, .empty, []⟩

/-- What an operation answers and does to the world. Horizon and the clock may
answer anything; a new identifier is a UUID not seen before. -/
def exec (d : Deployment) : (op : Op) → World → op.Answer → World → Prop
  | .randomUUID, w, id, w' => (isUuid id = true ∧ id ∉ w.issued) ∧ w' = { w with issued := id :: w.issued }
  | .memory op, w, ans, w' => ∃ memory, Segment op.run w.memory ans memory ∧ w' = { w with memory }
  | .query s, w, ans, w' => ∃ db, Queried (s.run d.pgTime) w.db ans db ∧ w' = { w with db }
  | .stellar _, w, _, w' => w' = w

abbrev PaymentProg := Prog Op Op.Answer Exception

def randomUUID : PaymentProg String := .await Op.randomUUID

/-- Code of the Stellar service, run by a payment call. -/
def stellar {α : Type} (p : ServiceProg α) : PaymentProg α :=
  @Prog.embed Request Request.Answer Exception α Op Op.Answer Op.stellar (fun _ ans => ans) p

theorem stellar_bind {α β : Type} (p : ServiceProg α) (f : α → ServiceProg β) :
    stellar (p >>= f) = stellar p >>= fun a => stellar (f a) := Prog.embed_bind p f

theorem stellar_ofExcept {α : Type} (x : Except Exception α) : stellar (.ofExcept x) = .ofExcept x :=
  Prog.embed_ofExcept x

def dateNow : PaymentProg Timestamp := stellar Horizon.dateNow

def inMemory (op : MemoryOp) : PaymentProg op.Answer := do
  let answer ← (Prog.await (Op.memory op) : PaymentProg (Except Exception op.Answer))
  .ofExcept answer

/-- `PaymentIntentStore.query`. -/
def queryError : DbError → Exception
  | .uniqueViolation => .conflict "Payment reference already belongs to another record"
  | .other => .serviceUnavailable "Payment storage unavailable; retry with the same idempotency key"

def query (s : Statement) : PaymentProg (List s.Row) := do
  let answer ← (Prog.await (Op.query s) : PaymentProg (Except DbError (List s.Row)))
  .ofExcept (answer.mapError queryError)

namespace PaymentIntentStore

variable (d : Deployment)

def findIntent (id : String) : PaymentProg (Option PaymentIntent) :=
  if d.pool then do
    let rows ← query (.selectIntent id)
    return (rows : List IntentRow).head?.map IntentRow.intent
  else inMemory (.findIntent id)

/-- The parameters of the `INSERT`. Nothing else of the intent reaches the database. -/
def values (intent : PaymentIntent) : IntentValues :=
  { id := intent.id, idempotencyKey := intent.idempotencyKey, sender := intent.sender, recipient := intent.recipient,
    amount := intent.amount, asset := intent.asset, memo := intent.memo, status := intent.status,
    createdAt := intent.createdAt, updatedAt := intent.updatedAt }

/-- Backslashes and quotes inside an element of an array literal. -/
def escapeElement (s : String) : String :=
  String.ofList (s.toList.flatMap fun c => if c = '\\' ∨ c = '"' then ['\\', c] else [c])

/-- The row a `RETURNING *` statement must have returned. -/
def firstRow : List IntentRow → Except Exception IntentRow
  | row :: _ => .ok row
  | [] => .error (.error "Cannot read properties of undefined (reading 'amount')")

def createIntent (intent : PaymentIntent) : PaymentProg PaymentIntent :=
  if d.pool then do
    let rows ← query (.insertIntent (values intent))
    let row ← .ofExcept (firstRow rows)
    return row.intent
  else inMemory (.createIntent intent)

/-- The parameter node-postgres makes of a query value: of an array the literal of a PostgreSQL array. -/
def senderParam : QueryValue → String
  | .one sender => sender
  | .many senders => "\x7b" ++ ",".intercalate (senders.map fun s => "\"" ++ escapeElement s ++ "\"") ++ "\x7d"

def listIntents (sender : Option QueryValue) : PaymentProg (List PaymentIntent) :=
  if d.pool then do
    let rows ← query (.selectIntents (sender.map senderParam))
    return (rows : List IntentRow).map IntentRow.intent
  else inMemory (.listIntents sender)

def claimHash (id hash : String) : PaymentProg PaymentIntent :=
  if d.pool then do
    let rows ← query (.claimHash id hash)
    match (rows : List IntentRow) with
    | row :: _ => return row.intent
    | [] => throw (.conflict "Intent is already bound to another transaction")
  else do
    let now ← dateNow
    inMemory (.claimHash id hash now)

/-- `settle`. In SQL mode it returns whatever a second statement finds. -/
def settle (id : String) (hash : Json) (status : PaymentStatus) : PaymentProg (Option PaymentIntent) :=
  if d.pool then do
    discard (query (.settle id hash status))
    findIntent d id
  else do
    let now ← dateNow
    some <$> inMemory (.settle id hash status now)

def linkValues (link : PaymentLink) : LinkValues :=
  { id := link.id, creator := link.creator, amount := link.amount, asset := link.asset, reference := link.reference,
    expiresAt := link.expiresAt, createdAt := link.createdAt }

def saveLink (link : PaymentLink) : PaymentProg Unit :=
  if d.pool then discard (query (.insertLink (linkValues link)))
  else inMemory (.saveLink link)

def payUrl (id : String) : String := d.publicAppUrl.getD "http://localhost:3000" ++ "/pay/" ++ id

/-- The link `findLink` makes of a row: the amount is the column's text as it is. -/
def linkOf (row : LinkRow) : PaymentLink :=
  { id := row.id, creator := row.creator, amount := row.amount.map (fixedPoint 12), asset := row.asset,
    reference := row.reference.map .text, expiresAt := row.expiresAt.map fun t => .str (d.toISOString t),
    url := payUrl d row.id, createdAt := row.createdAt }

def findLink (id : String) : PaymentProg (Option PaymentLink) :=
  if d.pool then do
    let rows ← query (.selectLink id)
    return (rows : List LinkRow).head?.map (linkOf d)
  else inMemory (.findLink id)

end PaymentIntentStore

end AfriPay.Payments
