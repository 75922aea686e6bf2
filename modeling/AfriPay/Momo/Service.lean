import AfriPay.Calls.Replay
import AfriPay.Momo.Store

/-!
# The mobile money service (`momo/momo.service.ts`, `momo/momo.controller.ts`)

Collections and disbursements differ in their product, their paths and the name
of the party's property; each pair of methods is one definition applied to the
type. The calls of any number of clients, of the provider's callbacks and of
the reconciliation timer over one deployment are the system `momo`.
-/

namespace AfriPay.Momo
open Calls Text Storage

/-! ## Configuration and requests -/

structure MomoConfig where
  baseUrl : String
  targetEnvironment : String

/-- An environment variable that is set to something other than `expected`. -/
def isOther (expected : String) (v : Option String) : Bool := v.any fun s => s ≠ "" && s ≠ expected

def sandboxUrl : String := "https://sandbox.momodeveloper.mtn.com"

def getMomoConfig (d : Deployment) : Except Exception MomoConfig :=
  if isOther "sandbox" d.targetEnvironment || isOther sandboxUrl d.baseUrl then
    .error (.error "Only the official MTN MoMo sandbox is enabled")
  else .ok ⟨sandboxUrl, "sandbox"⟩

/-- `RequestToPayDto` and `TransferDto` once they are checked. -/
structure ChargeDto where
  amount : String
  currency : String
  externalId : JsString
  partyId : String
  payerMessage : Option Json
  payeeNote : Option Json

/-- `/^\d{7,15}$/.test(party)` -/
def isMsisdn (party : String) : Bool := digitRun 15 party.toList && decide (7 ≤ party.toList.length)

/-- What `validatePayment` requires of four strings. -/
def validPayment (amount currency : String) (externalId : JsString) (party : String) : Bool :=
  matchesDecimal 12 2 amount && !(stringToNumber amount).nonpositive && decide (currency = "EUR")
    && decide (externalId.trim ≠ "") && decide (utf16Length externalId ≤ 128) && isMsisdn party

/-- `validateRequestToPay` and `validateTransfer`: the properties are there, and `validatePayment` accepts them. -/
def validateCharge (partyName : String) (body : JsonObject) : Except Exception ChargeDto :=
  if ! ["amount", "currency", "externalId", partyName].all fun name => truthy (body name) then
    .error (.badRequest ("amount, currency, externalId and " ++ partyName ++ " are required"))
  else match body "amount", body "currency", stringOf (body "externalId"), body partyName with
    | some (.str amount), some (.str currency), some externalId, some (.str partyId) =>
      if validPayment amount currency externalId partyId then
        .ok { amount, currency, externalId, partyId, payerMessage := body "payerMessage", payeeNote := body "payeeNote" }
      else .error (.badRequest "Invalid sandbox payment: positive EUR amount, reference and MSISDN required")
    | _, _, _, _ => .error (.badRequest "Invalid sandbox payment: positive EUR amount, reference and MSISDN required")

namespace MomoService

variable (d : Deployment)

/-! ## Charges -/

def chargePath : MomoTransactionType → String
  | .collection => "/collection/v1_0/requesttopay"
  | .disbursement => "/disbursement/v1_0/transfer"

/-- What a repeated reference must agree on with the stored record. -/
def checkReuse (existing : MomoTransactionRecord) (dto : ChargeDto) : Except Exception Unit :=
  if !(stringToNumber existing.amount).same (stringToNumber dto.amount) || existing.currency ≠ dto.currency
      || existing.partyId ≠ dto.partyId then
    .error (.conflict "Reference reused with different payment details")
  else .ok ()

def newRecord (type : MomoTransactionType) (dto : ChargeDto) (referenceId : String) (createdAt updatedAt : Timestamp) :
    MomoTransactionRecord :=
  { referenceId, type, status := .pending, amount := dto.amount, currency := dto.currency, externalId := dto.externalId,
    partyId := dto.partyId, reason := none, createdAt, updatedAt }

def chargeRequest (type : MomoTransactionType) (dto : ChargeDto) (url referenceId token : String) : ChargeRequest :=
  { type, url, referenceId, token, amount := dto.amount, currency := dto.currency, externalId := dto.externalId,
    partyId := dto.partyId, payerMessage := dto.payerMessage.getD (.str ""), payeeNote := dto.payeeNote.getD (.str "") }

def unreachable (type : MomoTransactionType) : Exception :=
  .badGateway ("Unable to reach MTN MoMo " ++ type.product ++ " service") none

/-- `callMomo`. Only 202 means that the provider took the request. -/
def callMomo (request : ChargeRequest) : MomoProg Unit := do
  discard (Prog.ofExcept (getMomoConfig d) : MomoProg MomoConfig)
  match ← (Prog.await (Op.post request) : MomoProg (Option Nat)) with
  | none => throw (unreachable request.type)
  | some status =>
    if status ≠ 202 then
      throw (.badGateway ("MTN MoMo " ++ request.type.product ++
        " request rejected; check the existing reference before retrying") (some status))
    else return ()

def getToken (type : MomoTransactionType) : MomoProg String := do
  let token ← (Prog.await (Op.getToken type) : MomoProg (Except Exception String))
  .ofExcept token

/-- `requestToPay` and `transfer`. The record is stored before the provider hears of the charge. -/
def charge (type : MomoTransactionType) (dto : ChargeDto) : MomoProg MomoTransactionRecord := do
  match ← MomoTransactionStore.findByExternalId d (some dto.externalId.json) type with
  | some existing => do
    .ofExcept (checkReuse existing dto)
    return existing
  | none => do
    let referenceId ← randomUUID
    let config ← .ofExcept (getMomoConfig d)
    let createdAt ← dateNow
    let updatedAt ← dateNow
    let reserved ← MomoTransactionStore.save d (newRecord type dto referenceId createdAt updatedAt)
    let token ← getToken type
    callMomo d (chargeRequest type dto (config.baseUrl ++ chargePath type) referenceId token)
    return reserved

def requestToPay (dto : ChargeDto) : MomoProg MomoTransactionRecord := charge d .collection dto

def transfer (dto : ChargeDto) : MomoProg MomoTransactionRecord := charge d .disbursement dto

/-! ## Status updates -/

/-- `${externalId}` in the message for an unknown reference. -/
def unknownReference (type : MomoTransactionType) (externalId : Option Json) : Exception :=
  let shown := match externalId with
    | some (.str s) => s
    | v => d.templateText v
  .notFound ("No matching " ++ type.product ++ " transaction for externalId " ++ shown)

def unknownTransaction (referenceId : String) : Exception := .notFound ("Unknown transaction reference " ++ referenceId)

/-- The synchronous start of `applyCallback`: nothing is read off `null`. -/
def checkPayload : Json → Except Exception Unit
  | .null => .error (.error "Cannot read properties of null (reading 'externalId')")
  | _ => .ok ()

def applyCallback (type : MomoTransactionType) (payload : Json) : MomoProg MomoTransactionRecord := do
  .ofExcept (checkPayload payload)
  match ← MomoTransactionStore.findReferenceIdByExternalId d (payload.prop "externalId") type with
  | none => throw (unknownReference d type (payload.prop "externalId"))
  | some referenceId =>
    if referenceId = "" then throw (unknownReference d type (payload.prop "externalId"))
    else do
      let existing ← MomoTransactionStore.find d referenceId
      let status ← .ofExcept (validateResource payload existing)
      match ← MomoTransactionStore.upsertStatus d referenceId status (reasonOf (payload.prop "reason")) with
      | some updated => return updated
      | none => throw (unknownTransaction referenceId)

def handleCollectionCallback (payload : Json) : MomoProg MomoTransactionRecord := applyCallback d .collection payload

def handleDisbursementCallback (payload : Json) : MomoProg MomoTransactionRecord := applyCallback d .disbursement payload

/-- The resource in a response to a status query. -/
def resourceOf (type : MomoTransactionType) : Option StatusResponse → Except Exception Json
  | none => .error (unreachable type)
  | some response =>
    if response.status < 200 ∨ 299 < response.status then
      .error (.badGateway ("MTN MoMo " ++ type.product ++ " status check failed") (some response.status))
    else match response.json with
      | some resource => .ok resource
      | none => .error (.error "Unexpected token in JSON")

/-- The provider's answer to a status query. -/
def fetchStatus (request : StatusRequest) : MomoProg Json := do
  let response ← (Prog.await (Op.get request) : MomoProg (Option StatusResponse))
  .ofExcept (resourceOf request.type response)

def refreshStatus (product : MomoTransactionType) (referenceId : String) : MomoProg MomoTransactionRecord := do
  match ← MomoTransactionStore.find d referenceId with
  | none => throw (unknownTransaction referenceId)
  | some existing =>
    if existing.type ≠ product then throw (.badRequest "Transaction product mismatch")
    else do
      let config ← .ofExcept (getMomoConfig d)
      let token ← getToken product
      let resource ← fetchStatus ⟨product, config.baseUrl ++ chargePath product ++ "/" ++ referenceId, referenceId, token⟩
      let status ← .ofExcept (validateResource resource (some existing))
      let updated ← MomoTransactionStore.upsertStatus d referenceId status (reasonOf (resource.prop "reason"))
      return updated.getD existing

def getCollectionStatus (referenceId : String) : MomoProg MomoTransactionRecord := refreshStatus d .collection referenceId

def getDisbursementStatus (referenceId : String) : MomoProg MomoTransactionRecord :=
  refreshStatus d .disbursement referenceId

/-- The loop of `reconcilePending`: a refresh that fails is logged and left out. -/
def reconcileEach : List MomoTransactionRecord → List MomoTransactionRecord → MomoProg (List MomoTransactionRecord)
  | [], results => return results
  | record :: pending, results => do
    let refreshed ← tryCatch (some <$> refreshStatus d record.type record.referenceId) fun _ => return none
    reconcileEach pending (results ++ refreshed.toList)

def reconcilePending : MomoProg (List MomoTransactionRecord) := do
  let pending ← MomoTransactionStore.listPending d
  reconcileEach d pending []

end MomoService

/-! ## All calls together -/

inductive Call where
  /-- `POST /momo/collections` -/
  | requestToPay (body : JsonObject)
  /-- `POST /momo/disbursements` -/
  | transfer (body : JsonObject)
  | collectionCallback (payload : Json)
  | disbursementCallback (payload : Json)
  | getCollectionStatus (referenceId : String)
  | getDisbursementStatus (referenceId : String)
  | reconcilePending
  /-- The method of the store, run on its own. -/
  | upsertStatus (referenceId : String) (status : MomoTransactionStatus) (reason : Option Json)

/-- What a call returns: one record, those `reconcilePending` has refreshed, or what `upsertStatus` found. -/
inductive Returned where
  | record (record : MomoTransactionRecord)
  | records (records : List MomoTransactionRecord)
  | found (record : Option MomoTransactionRecord)

def Call.body (d : Deployment) : Call → MomoProg Returned
  | .requestToPay body => do
    let dto ← .ofExcept (validateCharge "payerMsisdn" body)
    .record <$> MomoService.requestToPay d dto
  | .transfer body => do
    let dto ← .ofExcept (validateCharge "payeeMsisdn" body)
    .record <$> MomoService.transfer d dto
  | .collectionCallback payload => .record <$> MomoService.handleCollectionCallback d payload
  | .disbursementCallback payload => .record <$> MomoService.handleDisbursementCallback d payload
  | .getCollectionStatus referenceId => .record <$> MomoService.getCollectionStatus d referenceId
  | .getDisbursementStatus referenceId => .record <$> MomoService.getDisbursementStatus d referenceId
  | .reconcilePending => .records <$> MomoService.reconcilePending d
  | .upsertStatus referenceId status reason => .found <$> MomoTransactionStore.upsertStatus d referenceId status reason

/-- Any number of calls, of any number of clients and instances. -/
def momo (d : Deployment) : System Call Op Op.Answer Exception Returned World := ⟨Call.body d, exec⟩

abbrev MomoRun := Config Call Op Op.Answer Exception Returned World
abbrev MomoEvent := Event Call Op Op.Answer
abbrev MomoState := Shared Call Op Op.Answer World

/-- The record a deployment holds under a reference, as `find` returns it. -/
def World.record (d : Deployment) (w : World) (referenceId : String) : Option MomoTransactionRecord :=
  if d.pool then (w.db.find (·.referenceId = referenceId)).map MomoRow.record else w.memory.get referenceId

/-! ## Chosen runs -/

/-- What the outside may be made to answer in a schedule. -/
inductive Choice where
  | uuid (id : String)
  | now (t : Timestamp)
  | token (result : Except Exception String)
  | posted (status : Option Nat)
  | resource (response : Option StatusResponse)
  | done

/-- The effect of an operation under a choice; segments and statements run to their end. -/
def effect : Effect Op Op.Answer World Choice
  | .uuid id, .randomUUID, w => if isUuid id = true ∧ id ∉ w.issued then some (id, { w with issued := id :: w.issued }) else none
  | .now t, .dateNow, w => some (t, w)
  | .token result, .getToken _, w => some (result, w)
  | .posted status, .post _, w => some (status, w)
  | .resource response, .get _, w => some (response, w)
  | .done, .memory op, w =>
    match op.run w.memory with
    | .ok (a, memory) => some (.ok a, { w with memory })
    | .error e => some (.error e, w)
  | .done, .query s, w =>
    match s.run w.db with
    | .ok (rows, db) => some (.ok rows, { w with db })
    | .error e => some (.error e, w)
  | _, _, _ => none

theorem effect_exec (x : Choice) (op : Op) (w : World) (ans : op.Answer) (w' : World) (h : effect x op w = some (ans, w')) :
    exec op w ans w' := by
  unfold effect at h
  split at h
  · split at h
    · rename_i fresh; cases h; exact ⟨fresh.1, fresh.2, rfl⟩
    · cases h
  · cases h; rfl
  · cases h; rfl
  · cases h; rfl
  · cases h; rfl
  · split at h
    · rename_i ok; cases h; exact ⟨_, .ran ok, rfl⟩
    · rename_i failed; cases h; exact ⟨_, .threw failed, rfl⟩
  · split at h
    · rename_i ok; cases h; exact ⟨_, @Queried.ran Unit _ _ _ _ () _ _ ok, rfl⟩
    · rename_i failed; cases h; exact ⟨_, @Queried.refused Unit _ _ _ _ () _ failed, rfl⟩
  · cases h

/-! A deployment for chosen runs, with one collection of 5 EUR. -/

namespace Sample

def deployment (pool : Bool) : Deployment :=
  { pool, targetEnvironment := none, baseUrl := none, paramText := fun _ => "", templateText := fun _ => "undefined" }

def bodyFor (externalId : JsString) : JsonObject := fun name =>
  if name = "amount" then some (.str "5") else if name = "currency" then some (.str "EUR")
  else if name = "externalId" then some externalId.json else if name = "payerMsisdn" then some (.str "2348012345678")
  else none

def body : JsonObject := bodyFor "order"

/-- The provider's word on the collection. -/
def resource (status : String) : Json :=
  .obj [("amount", .str "5.00"), ("currency", .str "EUR"), ("externalId", .str "order"), ("status", .str status)]

/-- Where a schedule of the sample deployment leads. -/
def run (pool : Bool) (xs : List (Scheduled Call Choice)) : Option MomoRun :=
  (momo (deployment pool)).replay effect xs (.initial .empty)

/-- The identifier the collection gets. -/
def referenceId : String := "9b2d1c7e-5f40-4a8e-b6d3-0c1f2e3a4b5d"

/-- The collection is stored and posted. -/
def charged : List (Scheduled Call Choice) :=
  [.start (.requestToPay body), .act 0 .done, .act 0 (.uuid referenceId), .act 0 (.now 1000), .act 0 (.now 1000), .act 0 .done,
   .act 0 (.token (.ok "token")), .act 0 (.posted (some 202))]

end Sample

end AfriPay.Momo
