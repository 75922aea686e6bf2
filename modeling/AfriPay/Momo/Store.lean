import AfriPay.Calls.Pool
import AfriPay.Momo.Records

/-!
# The mobile money store

What the mobile money services do to the world between two awaits, and the
methods of `MomoTransactionStore`: in SQL mode each is the statements it sends,
in memory mode the synchronous segments between its awaits. The map that SQL
mode keeps beside the table is never read and is left out.
-/

namespace AfriPay.Momo
open Calls Text Storage

/-- The configuration of a deployment, and how it writes values that are no strings. -/
structure Deployment where
  /-- Whether `DATABASE_URL` is set. -/
  pool : Bool
  /-- `MTN_MOMO_TARGET_ENVIRONMENT` -/
  targetEnvironment : Option String
  /-- `MTN_MOMO_BASE_URL` -/
  baseUrl : Option String
  /-- How the database driver writes a parameter. -/
  paramText : Json → String
  /-- What a template string shows for a value. -/
  templateText : Option Json → String

/-- A query parameter: `undefined` and `null` are null, a string is sent as UTF-8. -/
def Deployment.param (d : Deployment) : Option Json → Option String
  | none | some .null => none
  | some (.str s) => some s
  | some (.lone t) => some (JsString.lone t).toWellFormed
  | some v => some (d.paramText v)

theorem Deployment.param_json (d : Deployment) (s : JsString) : d.param (some s.json) = some s.toWellFormed := by
  cases s <;> rfl

/-- A synchronous segment of memory mode. -/
inductive MemoryOp where
  | find (referenceId : String)
  | findByExternalId (externalId : Option Json) (type : MomoTransactionType)
  | save (record : MomoTransactionRecord)
  | set (referenceId : String) (record : MomoTransactionRecord)
  | listPending

def MemoryOp.Answer : MemoryOp → Type
  | .find _ | .findByExternalId .. => Option MomoTransactionRecord
  | .save _ => MomoTransactionRecord
  | .set .. => Unit
  | .listPending => List MomoTransactionRecord

def MemoryOp.run : (op : MemoryOp) → Memory → Except Exception (op.Answer × Memory)
  | .find referenceId, m => .ok (m.get referenceId, m)
  | .findByExternalId externalId type, m => .ok (m.findByExternalId externalId type, m)
  | .save record, m => m.save record
  | .set referenceId record, m => .ok ((), OrderedMap.set m referenceId record)
  | .listPending, m => .ok (m.listPending, m)

/-- The body and headers of a charge: `party` is the payer of a collection, the payee of a disbursement. -/
structure ChargeRequest where
  type : MomoTransactionType
  url : String
  referenceId : String
  token : String
  amount : String
  currency : String
  externalId : JsString
  partyId : String
  payerMessage : Json
  payeeNote : Json

/-- A status query; the reference is the last part of its path. -/
structure StatusRequest where
  type : MomoTransactionType
  url : String
  referenceId : String
  token : String

/-- What `fetch` comes to: an HTTP status and the parsed body, or no response. -/
structure StatusResponse where
  status : Nat
  json : Option Json

inductive Op where
  | randomUUID
  | dateNow
  | memory (op : MemoryOp)
  | query (s : Statement)
  | getToken (product : MomoTransactionType)
  | post (request : ChargeRequest)
  | get (request : StatusRequest)

def Op.Answer : Op → Type
  | .randomUUID => String
  | .dateNow => Timestamp
  | .memory op => Except Exception op.Answer
  | .query _ => Except DbError (List MomoRow)
  | .getToken _ => Except Exception String
  | .post _ => Option Nat
  | .get _ => Option StatusResponse

structure World where
  memory : Memory
  db : Database
  /-- The identifiers `randomUUID` has returned so far. -/
  issued : List String

def World.empty : World := ⟨.empty, .empty, []⟩

/-- What an operation answers and does to the world. The provider and the clock
may answer anything; a new identifier is a UUID not seen before. -/
def exec : (op : Op) → World → op.Answer → World → Prop
  | .randomUUID, w, id, w' => isUuid id = true ∧ id ∉ w.issued ∧ w' = { w with issued := id :: w.issued }
  | .memory op, w, ans, w' => ∃ memory, Segment op.run w.memory ans memory ∧ w' = { w with memory }
  | .query s, w, ans, w' => ∃ db, Queried (fun _ : Unit => s.run) w.db ans db ∧ w' = { w with db }
  | _, w, _, w' => w' = w

abbrev MomoProg := Prog Op Op.Answer Exception

def randomUUID : MomoProg String := .await Op.randomUUID

def dateNow : MomoProg Timestamp := .await Op.dateNow

def inMemory (op : MemoryOp) : MomoProg op.Answer := do
  let answer ← (Prog.await (Op.memory op) : MomoProg (Except Exception op.Answer))
  .ofExcept answer

/-- `MomoTransactionStore.query`. -/
def queryError : DbError → Exception
  | .uniqueViolation => .conflict "Provider reference already exists; retrieve its status"
  | .other => .serviceUnavailable "MoMo storage unavailable"

def query (s : Statement) : MomoProg (List MomoRow) := do
  let answer ← (Prog.await (Op.query s) : MomoProg (Except DbError (List MomoRow)))
  .ofExcept (answer.mapError queryError)

namespace MomoTransactionStore

variable (d : Deployment)

def find (referenceId : String) : MomoProg (Option MomoTransactionRecord) :=
  if d.pool then do
    let rows ← query (.selectByReference referenceId)
    return rows.head?.map MomoRow.record
  else inMemory (.find referenceId)

def findByExternalId (externalId : Option Json) (type : MomoTransactionType) : MomoProg (Option MomoTransactionRecord) :=
  if d.pool then do
    let rows ← query (.selectByExternalId (d.param externalId) type)
    return rows.head?.map MomoRow.record
  else inMemory (.findByExternalId externalId type)

/-- `findReferenceIdByExternalId`. Memory mode repeats the loop of `findByExternalId`. -/
def findReferenceIdByExternalId (externalId : Option Json) (type : MomoTransactionType) : MomoProg (Option String) := do
  let record ← findByExternalId d externalId type
  return record.map (·.referenceId)

/-- The parameters of `persist`. -/
def values (record : MomoTransactionRecord) : MomoValues :=
  { referenceId := record.referenceId, type := record.type, status := record.status, amount := record.amount,
    currency := record.currency, externalId := record.externalId.toWellFormed, partyId := record.partyId,
    reason := d.param record.reason, createdAt := record.createdAt, updatedAt := record.updatedAt }

def persist (record : MomoTransactionRecord) : MomoProg Unit :=
  if d.pool then discard (query (.persist (values d record))) else return ()

def save (record : MomoTransactionRecord) : MomoProg MomoTransactionRecord :=
  if d.pool then do
    persist d record
    return record
  else inMemory (.save record)

/-- `{ ...existing, ...patch, updatedAt }` for a patch with both a status and a reason. -/
def patched (existing : MomoTransactionRecord) (status : MomoTransactionStatus) (reason : Option Json) (now : Timestamp) :
    MomoTransactionRecord :=
  { existing with status, reason, updatedAt := now }

/-- `upsertStatus`. What is written was decided on the record as it was read. -/
def upsertStatus (referenceId : String) (status : MomoTransactionStatus) (reason : Option Json) :
    MomoProg (Option MomoTransactionRecord) := do
  match ← find d referenceId with
  | none => return none
  | some existing =>
    if existing.status.terminal ∧ status ≠ existing.status then return some existing
    else do
      let now ← dateNow
      let updated := patched existing status reason now
      persist d updated
      if d.pool then find d referenceId
      else do
        discard (inMemory (.set referenceId updated))
        return some updated

def listPending : MomoProg (List MomoTransactionRecord) :=
  if d.pool then do
    let rows ← query .selectPending
    return rows.map MomoRow.record
  else inMemory .listPending

end MomoTransactionStore

end AfriPay.Momo
