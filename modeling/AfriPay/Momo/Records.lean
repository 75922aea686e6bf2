import AfriPay.Exception
import AfriPay.Storage.OrderedMap
import AfriPay.Storage.Sql
import AfriPay.Storage.Table

/-!
# Mobile money records (`momo/momo-transaction.store.ts`)

The records of collections and disbursements, the map that holds them in memory
mode, and the table `momo_transactions` of migration 001 with the statements
sent to it. A status resource, posted by the provider or fetched from it, is
JSON until `validateResource` has accepted it.
-/

namespace AfriPay.Momo
open Text Storage

/-- `MomoTransactionType`; a product is named by the type of its transactions. -/
inductive MomoTransactionType where
  | collection
  | disbursement
  deriving DecidableEq

/-- The product's name, which is the type's in lower case. -/
def MomoTransactionType.product : MomoTransactionType → String
  | .collection => "collection"
  | .disbursement => "disbursement"

inductive MomoTransactionStatus where
  | pending
  | successful
  | failed
  deriving DecidableEq

/-- The status a resource names, if it is one of the three. -/
def statusOf : Option Json → Option MomoTransactionStatus
  | some (.str "PENDING") => some .pending
  | some (.str "SUCCESSFUL") => some .successful
  | some (.str "FAILED") => some .failed
  | _ => none

/-- `existing.status === 'SUCCESSFUL' || existing.status === 'FAILED'` -/
def MomoTransactionStatus.terminal : MomoTransactionStatus → Bool
  | .pending => false
  | .successful | .failed => true

/-- `MomoTransactionRecord`. A reason comes from a resource and is what that had. -/
structure MomoTransactionRecord where
  referenceId : String
  type : MomoTransactionType
  status : MomoTransactionStatus
  amount : String
  currency : String
  externalId : JsString
  partyId : String
  reason : Option Json
  createdAt : Timestamp
  updatedAt : Timestamp

/-- `typeof resource.reason === 'string' ? resource.reason : resource.reason?.message` -/
def reasonOf : Option Json → Option Json
  | some (.str reason) => some (.str reason)
  | some (.lone reason) => some (.lone reason)
  | some reason => reason.prop "message"
  | none => none

/-- Whether a resource names a record: same reference and currency. -/
def sameNames (resource : Json) (existing : MomoTransactionRecord) : Bool :=
  isString existing.externalId (resource.prop "externalId") && isString existing.currency (resource.prop "currency")

/-- Whether a resource speaks of a record: it names it, and has the same number as amount. -/
def sameDetails (resource : Json) (existing : MomoTransactionRecord) : Bool :=
  sameNames resource existing && (toNumber (resource.prop "amount")).same (stringToNumber existing.amount)

/-- `validateResource`, with the status it has accepted. The status is looked at
first, and reading `existing` throws when there is none. The amount is looked at
last, and an object that has no way to be a number throws. -/
def validateResource (resource : Json) (existing : Option MomoTransactionRecord) : Except Exception MomoTransactionStatus :=
  let mismatch : Exception := .badRequest "Provider payment details do not match stored transaction"
  match statusOf (resource.prop "status") with
  | none => .error mismatch
  | some status => match existing with
    | none => .error (.error "Cannot read properties of undefined (reading 'externalId')")
    | some existing =>
      if sameNames resource existing && (resource.prop "amount").any (!·.isPrimitive) then
        .error (.error "Cannot convert object to primitive value")
      else if sameDetails resource existing then .ok status else .error mismatch

/-! ## Memory mode -/

abbrev Memory := OrderedMap String MomoTransactionRecord

namespace Memory

/-- `findByExternalId`. A reference that is no string equals none. -/
def findByExternalId (m : Memory) (externalId : Option Json) (type : MomoTransactionType) : Option MomoTransactionRecord :=
  m.values.find? fun record => isString record.externalId externalId && record.type = type

/-- `save`. The check and the write are one synchronous segment. -/
def save (m : Memory) (record : MomoTransactionRecord) : Except Exception (MomoTransactionRecord × Memory) :=
  if m.values.any fun item => item.type = record.type && item.externalId = record.externalId
      && item.referenceId ≠ record.referenceId then
    .error (.conflict "Provider reference already exists")
  else .ok (record, m.set record.referenceId record)

def listPending (m : Memory) : List MomoTransactionRecord := m.values.filter (·.status = .pending)

end Memory

/-! ## SQL mode -/

/-- A row of `momo_transactions`. The amount, `NUMERIC(30,12)`, counts units of `10⁻¹²`. -/
structure MomoRow where
  referenceId : String
  type : MomoTransactionType
  status : MomoTransactionStatus
  amount : Nat
  currency : String
  externalId : String
  partyId : String
  reason : Option String
  createdAt : Timestamp
  updatedAt : Timestamp

/-- The unique indexes: the primary key, and `UNIQUE (transaction_type, external_id)`. -/
def MomoRow.clash (a b : MomoRow) : Bool :=
  a.referenceId = b.referenceId || (a.type = b.type && a.externalId = b.externalId)

abbrev Database := Table MomoRow MomoRow.clash

/-- The parameters of `persist`. -/
structure MomoValues where
  referenceId : String
  type : MomoTransactionType
  status : MomoTransactionStatus
  amount : String
  currency : String
  externalId : String
  partyId : String
  reason : Option String
  createdAt : Timestamp
  updatedAt : Timestamp

/-- The statements the store sends. A reference to look for may be null. -/
inductive Statement where
  | selectByReference (referenceId : String)
  | selectByExternalId (externalId : Option String) (type : MomoTransactionType)
  | selectPending
  | persist (v : MomoValues)

def MomoValues.texts (v : MomoValues) : List String := [v.externalId, v.partyId] ++ v.reason.toList

def MomoValues.row (v : MomoValues) (amount : Nat) (currency : String) : MomoRow :=
  { referenceId := v.referenceId, type := v.type, status := v.status, amount, currency, externalId := v.externalId,
    partyId := v.partyId, reason := v.reason, createdAt := v.createdAt, updatedAt := v.updatedAt }

namespace Database

def selectByReference (db : Database) (referenceId : String) : Except DbError (List MomoRow × Database) := do
  assertTexts [referenceId]
  return ((db.find (·.referenceId = referenceId)).toList, db)

/-- A null reference is equal to none. -/
def selectByExternalId (db : Database) (externalId : Option String) (type : MomoTransactionType) :
    Except DbError (List MomoRow × Database) := do
  assertTexts externalId.toList
  return ((db.find fun r => externalId = some r.externalId && r.type = type).toList, db)

/-- The row `ON CONFLICT (reference_id) DO UPDATE ... WHERE status = 'PENDING'` writes to. -/
def updatable (referenceId : String) (r : MomoRow) : Bool := r.referenceId = referenceId && r.status = .pending

def setStatus (v : MomoValues) (r : MomoRow) : MomoRow :=
  { r with status := v.status, reason := v.reason, updatedAt := v.updatedAt }

/-- `INSERT ... ON CONFLICT (reference_id) DO UPDATE ...`. The columns are
checked before a conflict is looked for; a conflict on the other index fails. -/
def persist (db : Database) (v : MomoValues) : Except DbError (List MomoRow × Database) := do
  assertUuid v.referenceId
  assertTexts v.texts
  let amount ← pgNumeric v.amount
  let currency ← pgChar 3 v.currency
  checkPositive amount
  match db.find (·.referenceId = v.referenceId) with
  | some _ =>
    let db' ← unique (db.update (updatable v.referenceId) (setStatus v))
    return ([], db')
  | none =>
    let db' ← unique (db.insert (v.row amount currency))
    return ([], db')

end Database

/-- One statement. A refused statement changes nothing. -/
def Statement.run (s : Statement) (db : Database) : Except DbError (List MomoRow × Database) :=
  match s with
  | .selectByReference referenceId => Database.selectByReference db referenceId
  | .selectByExternalId externalId type => Database.selectByExternalId db externalId type
  | .selectPending => .ok (db.rows.filter (·.status = .pending), db)
  | .persist v => Database.persist db v

/-- `fromRow`. An empty reason is dropped. -/
def MomoRow.record (r : MomoRow) : MomoTransactionRecord :=
  { referenceId := r.referenceId, type := r.type, status := r.status, amount := fixedPoint 12 r.amount,
    currency := r.currency, externalId := r.externalId, partyId := r.partyId,
    reason := (r.reason.filter (· ≠ "")).map .str, createdAt := throughDateText r.createdAt,
    updatedAt := throughDateText r.updatedAt }

end AfriPay.Momo
