import AfriPay.Calls.Replay
import AfriPay.Payments.Store

/-!
# The payment intent service (`payments/payment-intent.service.ts`)

Each method is the tree of its awaited operations; the calls of any number of
clients over one deployment are the system `payments`.
-/

namespace AfriPay.Payments
open Calls Text Stellar Storage

/-- The argument of `create`: a payment, the idempotency key, and whatever else
the request carried, of which `transactionHash` is a property of an intent. -/
structure CreateInput where
  payment : PaymentFields
  idempotencyKey : Option Json
  transactionHash : Option Json
  extra : JsonObject

/-- The argument of `createLink`. -/
structure LinkInput where
  creator : Option Json
  amount : Option Json
  asset : Option Json
  reference : Option Json
  expiresAt : Option Json

/-- The key check of `create`. -/
def idempotencyKeyOf (v : Option Json) : Except Exception JsString :=
  match stringOf v with
  | some key =>
    if key.trim = .text "" ∨ 200 < utf16Length key then throw (.conflict "Invalid idempotency key") else return key
  | none => throw (.conflict "Invalid idempotency key")

/-- What `create` requires of the intent stored under the key. -/
def checkSameDetails (saved input : NativePayment) : Except Exception Unit := do
  let differs : Except Exception Unit := throw (.conflict "Idempotency key reused with different payment details")
  if saved.sender ≠ input.sender ∨ saved.recipient ≠ input.recipient ∨ saved.asset ≠ input.asset then differs
  if (← stroops saved.amount) ≠ (← stroops input.amount) then differs
  if saved.memo.getD "" ≠ input.memo.getD "" then differs

/-- `checkSameDetails` passes: the same payment, however its amount is written. -/
structure SameDetails (saved input : NativePayment) : Prop where
  sender : saved.sender = input.sender
  recipient : saved.recipient = input.recipient
  asset : saved.asset = input.asset
  amount : ∃ units, stroops saved.amount = .ok units ∧ stroops input.amount = .ok units
  memo : saved.memo.getD "" = input.memo.getD ""

theorem checkSameDetails_ok {saved input : NativePayment} : checkSameDetails saved input = .ok () ↔ SameDetails saved input := by
  unfold checkSameDetails
  constructor
  · intro h
    by_cases parties : saved.sender ≠ input.sender ∨ saved.recipient ≠ input.recipient ∨ saved.asset ≠ input.asset
    · simp only [if_pos parties] at h; cases h
    cases hs : stroops saved.amount with
    | error e => simp only [if_neg parties, hs] at h; cases h
    | ok n =>
    cases hi : stroops input.amount with
    | error e => simp only [if_neg parties, hs, hi, bind, Except.bind] at h; cases h
    | ok n' =>
    by_cases units : n ≠ n'
    · simp only [if_neg parties, hs, hi, bind, Except.bind, if_pos units] at h; cases h
    by_cases memo : saved.memo.getD "" ≠ input.memo.getD ""
    · simp only [if_neg parties, hs, hi, bind, Except.bind, if_neg units, if_pos memo] at h; cases h
    simp only [not_or, not_not] at parties units memo
    exact ⟨parties.1, parties.2.1, parties.2.2, ⟨n, hs, by rw [hi, units]⟩, memo⟩
  · rintro ⟨sender, recipient, asset, ⟨units, hs, hi⟩, memo⟩
    simp only [sender, recipient, asset, hs, hi, memo, ne_eq, not_true, or_self, if_false, bind, Except.bind]
    rfl

/-- The payment is the one a request names: an amount is the same in stroops, an
absent memo is an empty one. -/
structure Requested (input : PaymentFields) (p : NativePayment) : Prop where
  sender : input.sender = some (.str p.sender)
  recipient : input.recipient = some (.str p.recipient)
  asset : input.asset = some (.str p.asset)
  amount : ∃ a units, input.amount = some (.str a) ∧ stroops a = .ok units ∧ stroops p.amount = .ok units
  memo : ∃ memo, memoOf input.memo = .ok memo ∧ memo.getD "" = p.memo.getD ""

/-- A payment with the details of a checked request is the one it names. -/
theorem SameDetails.requested {sdk : Sdk} {input : PaymentFields} {saved payment : NativePayment} (same : SameDetails saved payment)
    (valid : Checked sdk input payment) : Requested input saved := by
  obtain ⟨units, hs, hp⟩ := same.amount
  refine ⟨?_, ?_, ?_, ⟨payment.amount, units, valid.amount, hp, hs⟩, ⟨payment.memo, valid.memo, same.memo.symm⟩⟩
  · rw [same.sender, valid.sender]
  · rw [same.recipient, valid.recipient]
  · rw [same.asset, valid.asset]

theorem memoOf_ok {v : Option Json} {memo : Option JsString} (h : memoOf v = .ok memo) :
    v = memo.map JsString.json ∧ ∀ m, memo = some m → m.byteLength ≤ 28 := by
  unfold memoOf at h
  split at h
  · cases h
    exact ⟨rfl, by rintro m ⟨⟩⟩
  · split at h
    · rename_i given
      obtain ⟨short, h⟩ := else_ok h
      cases h
      refine ⟨stringOf_eq_some.1 given, ?_⟩
      rintro m ⟨⟩
      omega
    · cases h

/-- The payment a checked request names passes the checks itself. -/
theorem Requested.checked {sdk : Sdk} {input : PaymentFields} {p q : NativePayment} (requested : Requested input p)
    (valid : Checked sdk input q) : Checked sdk p.fields p := by
  have sender : q.sender = p.sender := Json.str.inj (Option.some.inj (valid.sender.symm.trans requested.sender))
  have recipient : q.recipient = p.recipient := Json.str.inj (Option.some.inj (valid.recipient.symm.trans requested.recipient))
  have asset : q.asset = p.asset := Json.str.inj (Option.some.inj (valid.asset.symm.trans requested.asset))
  refine ⟨rfl, rfl, rfl, rfl, ?memo, sender ▸ valid.senderKey, recipient ▸ valid.recipientKey, ?distinct, asset ▸ valid.lumens, ?positive⟩
  case memo =>
    obtain ⟨memo, given, same⟩ := requested.memo
    obtain ⟨-, short⟩ := memoOf_ok given
    cases hp : p.memo with
    | none => rw [NativePayment.fields, hp]; rfl
    | some m =>
      have fits : m.byteLength ≤ 28 := by
        rw [hp, Option.getD_some] at same
        rw [← same]
        cases memo with
        | none => decide
        | some m' => exact short m' rfl
      rw [NativePayment.fields, hp, Option.map_some, memoOf, stringOf_json]
      exact if_neg (by omega)
  case distinct =>
    rw [← sender, ← recipient]
    exact valid.distinct
  case positive =>
    obtain ⟨a, units, given, ha, hp⟩ := requested.amount
    obtain ⟨units', hq, positive⟩ := valid.positive
    obtain rfl := Json.str.inj (Option.some.inj (given.symm.trans valid.amount))
    obtain rfl : units = units' := Except.ok.inj (ha.symm.trans hq)
    exact ⟨units, hp, positive⟩

theorem idempotencyKeyOf_ok {v : Option Json} {key : JsString} (h : idempotencyKeyOf v = .ok key) : v = some key.json := by
  unfold idempotencyKeyOf at h
  split at h
  · rename_i given
    obtain ⟨-, h⟩ := else_ok h
    cases h
    exact stringOf_eq_some.1 given
  · cases h

/-- `Buffer.byteLength(reference) <= 28` of a string; `none` where the reference is refused. -/
def referenceOf : Option Json → Option (Option JsString)
  | none => some none
  | some v => match stringOf (some v) with
    | some reference => if reference.byteLength ≤ 28 then some (some reference) else none
    | none => none

/-- The amount of a link request: absent, or a positive amount. -/
def linkAmountOf : Option Json → Except Exception (Option String)
  | none => .ok none
  | some v => do
    if (← stroopsOf (some v)) = 0 then throw (.conflict "Invalid XLM payment request")
    return match v with | .str amount => some amount | _ => none

/-- The checks of `createLink` before it looks at the expiry. -/
def checkLink (sdk : Sdk) (input : LinkInput) : Except Exception (String × Option String × Option JsString) := do
  let some creator := publicKeyOf sdk input.creator | throw (.conflict "Invalid XLM payment request")
  if isString "XLM" input.asset = false then throw (.conflict "Invalid XLM payment request")
  let amount ← linkAmountOf input.amount
  let some reference := referenceOf input.reference | throw (.conflict "Invalid XLM payment request")
  return (creator, amount, reference)

namespace PaymentIntentService

variable (d : Deployment)

/-- The intent `create` hands to the store. -/
def newIntent (input : CreateInput) (payment : NativePayment) (idempotencyKey : JsString) (id : String) (now : Timestamp) : PaymentIntent :=
  { payment with id, idempotencyKey, status := .pending, transactionHash := input.transactionHash,
                 createdAt := now, updatedAt := now, extra := input.extra }

def create (input : CreateInput) : PaymentProg PaymentIntent := do
  let payment ← .ofExcept (validatePayment d.sdk input.payment)
  let key ← .ofExcept (idempotencyKeyOf input.idempotencyKey)
  let now ← dateNow
  let id ← randomUUID
  let saved ← PaymentIntentStore.createIntent d (newIntent input payment key id now)
  .ofExcept (checkSameDetails saved.toNativePayment payment)
  return saved

def get (id : String) : PaymentProg PaymentIntent := do
  match ← PaymentIntentStore.findIntent d id with
  | some intent => return intent
  | none => throw (.notFound ("Payment intent " ++ id ++ " was not found"))

def list (sender : Option QueryValue) : PaymentProg (List PaymentIntent) := PaymentIntentStore.listIntents d sender

/-- `submit`. The hash is stored before anything reaches the network. -/
def submit (id : String) (signedXdr : JsString) : PaymentProg (Option PaymentIntent) := do
  let intent ← get d id
  let tx ← .ofExcept (parsePayment d.sdk signedXdr (some intent.toNativePayment))
  let hash := toHex tx.hash
  let claimed ← PaymentIntentStore.claimHash d id hash
  if claimed.status ≠ .pending then return some claimed
  else do
    let result ← stellar (submitSignedTransaction d.sdk d.network signedXdr (some intent.sender) (some intent.toNativePayment))
    PaymentIntentStore.settle d id (.str hash) result.status

def reconcile (id : String) : PaymentProg (Option PaymentIntent) := do
  let intent ← get d id
  match intent.transactionHash with
  | none => return some intent
  | some hash =>
    if truthy (some hash) = false ∨ intent.status ≠ .pending then return some intent
    else do
      let status ← stellar (verifyTransaction d.network hash)
      PaymentIntentStore.settle d id hash status

/-- The expiry check of `createLink`. -/
def checkExpiry (now : Timestamp) : Option Json → Except Exception Unit
  | none => .ok ()
  | some v => match d.parseDate v with
    | none => .error (.conflict "Expiry must be in the future")
    | some t => if t ≤ now then .error (.conflict "Expiry must be in the future") else .ok ()

def dayMs : Nat := 24 * 60 * 60 * 1000

def createLink (input : LinkInput) : PaymentProg PaymentLink := do
  let (creator, amount, reference) ← .ofExcept (checkLink d.sdk input)
  let now ← dateNow
  .ofExcept (checkExpiry d now input.expiresAt)
  let id ← randomUUID
  let createdAt ← dateNow
  let expiresAt := input.expiresAt.getD (.str (d.toISOString (now + dayMs)))
  let link : PaymentLink :=
    { id, creator, amount, asset := "XLM", reference, expiresAt := some expiresAt,
      url := PaymentIntentStore.payUrl d id, createdAt }
  PaymentIntentStore.saveLink d link
  return link

/-- `link.expiresAt && Date.parse(link.expiresAt) <= Date.now()` -/
def hasExpired (link : PaymentLink) (now : Timestamp) : Bool :=
  truthy link.expiresAt && (link.expiresAt.bind d.parseDate).any fun t : Int => t ≤ now

def getLink (id : String) : PaymentProg PaymentLink := do
  match ← PaymentIntentStore.findLink d id with
  | none => throw (.notFound ("Payment link " ++ id ++ " was not found"))
  | some link => do
    let now ← dateNow
    if hasExpired d link now then throw (.conflict "Payment link has expired") else return link

end PaymentIntentService

/-! ## All calls together -/

/-- An input of `create`'s declared type: nothing but a payment and a key. -/
structure DeclaredInput where
  payment : PaymentFields
  idempotencyKey : Option Json

def DeclaredInput.input (i : DeclaredInput) : CreateInput := ⟨i.payment, i.idempotencyKey, none, fun _ => none⟩

inductive Call where
  | create (input : DeclaredInput)
  | get (id : String)
  | submit (id : String) (signedXdr : JsString)
  | reconcile (id : String)
  | createLink (input : LinkInput)
  | getLink (id : String)

/-- What a call returns. -/
inductive Returned where
  | intent (intent : Option PaymentIntent)
  | link (link : PaymentLink)

def Call.body (d : Deployment) : Call → PaymentProg Returned
  | .create input => (Returned.intent ∘ some) <$> PaymentIntentService.create d input.input
  | .get id => (Returned.intent ∘ some) <$> PaymentIntentService.get d id
  | .submit id signedXdr => .intent <$> PaymentIntentService.submit d id signedXdr
  | .reconcile id => .intent <$> PaymentIntentService.reconcile d id
  | .createLink input => .link <$> PaymentIntentService.createLink d input
  | .getLink id => .link <$> PaymentIntentService.getLink d id

/-- Any number of calls of any number of clients. -/
def payments (d : Deployment) : System Call Op Op.Answer Exception Returned World := ⟨Call.body d, exec d⟩

abbrev PaymentConfig := Config Call Op Op.Answer Exception Returned World
abbrev PaymentEvent := Event Call Op Op.Answer
abbrev PaymentState := Shared Call Op Op.Answer World

/-- What the store of a deployment holds under an identifier, as `findIntent` returns it. -/
def World.intent (d : Deployment) (w : World) (id : String) : Option PaymentIntent :=
  if d.pool then (w.db.intents.find (·.id = id)).map IntentRow.intent else w.memory.intents.get id

/-- What it holds of links, as `findLink` returns it. -/
def World.link (d : Deployment) (w : World) (id : String) : Option PaymentLink :=
  if d.pool then (w.db.links.find (·.id = id)).map (PaymentIntentStore.linkOf d) else w.memory.links.get id

/-! ## Chosen runs -/

/-- What the outside may be made to answer in a schedule. -/
inductive Choice where
  | uuid (id : String)
  | now (t : Timestamp)
  | accepted
  | record (result : Option TransactionRecord)
  | done (t : Timestamp)

/-- The effect of an operation under a choice; segments and statements run to their end. -/
def effect (d : Deployment) : Effect Op Op.Answer World Choice
  | .uuid id, .randomUUID, w => if isUuid id = true ∧ id ∉ w.issued then some (id, { w with issued := id :: w.issued }) else none
  | .now t, .stellar .dateNow, w => some (t, w)
  | .accepted, .stellar (.submitTransaction _), w => some ((), w)
  | .record result, .stellar (.transaction _), w => some (result, w)
  | .done _, .memory op, w =>
    match op.run w.memory with
    | .ok (a, memory) => some (.ok a, { w with memory })
    | .error e => some (.error e, w)
  | .done t, .query s, w =>
    match s.run d.pgTime t w.db with
    | .ok (rows, db) => some (.ok rows, { w with db })
    | .error e => some (.error e, w)
  | _, _, _ => none

theorem effect_exec (d : Deployment) (x : Choice) (op : Op) (w : World) (ans : op.Answer) (w' : World)
    (h : effect d x op w = some (ans, w')) : exec d op w ans w' := by
  unfold effect at h
  split at h
  · split at h
    · rename_i fresh; cases h; exact ⟨fresh, rfl⟩
    · cases h
  · cases h; rfl
  · cases h; rfl
  · cases h; rfl
  · split at h
    · rename_i ok; cases h; exact ⟨_, .ran ok, rfl⟩
    · rename_i failed; cases h; exact ⟨_, .threw failed, rfl⟩
  · split at h
    · rename_i ok; cases h; exact ⟨_, .ran ok, rfl⟩
    · rename_i failed; cases h; exact ⟨_, .refused failed, rfl⟩
  · cases h

/-! A deployment for chosen runs: two accounts, one envelope between them. -/

namespace Sample

def intentId : String := "6f9619ff-8b86-4d01-b42d-00cf4fc964ff"
def otherId : String := "7d444840-9dc0-41d1-b245-5ffdce74fad2"
def thirdId : String := "0e37df36-f698-41e6-8dd4-ad47f9bfe1d1"
def linkId : String := "16fd2706-8baf-433b-82eb-8c7fada847da"

def alice : String := "GAAZI4TCR3TY5OJHCTJC2A4QSY6CJWJH5IAJTGKIN2ER7LBNVKOCCWN7"
def bob : String := "GBRPYHIL2CI3FNQ4BXLFMNDLFJUNPU2HY3ZMFSHONUCEOASW7QC7OX2H"

def tx : Transaction :=
  { source := alice, hash := Vector.replicate 32 7, signatures := [[1]],
    operations := [.payment none bob true "2.0000000"], memo := ⟨.none, .null⟩, timeBounds := some ⟨0, 1⟩, fee := 100 }

def sdk : Sdk :=
  { isValidEd25519PublicKey := fun s => s = alice ∨ s = bob
    fromXDR := fun s => if s = "signed" then some (.transaction tx) else none
    fromPublicKey := fun s => s = alice ∨ s = bob
    verify := fun _ _ signature => some (signature = [1])
    buildPayment := fun _ => none }

/-- A day after the epoch. -/
def tomorrow : String := "1970-01-02T00:00:00.000Z"

def deployment (pool : Bool) : Deployment :=
  { sdk, pool, network := "testnet", publicAppUrl := none
    parseDate := fun v => if isString tomorrow (some v) then some 86400000 else none
    toISOString := fun t => if t = 86400000 then tomorrow else "1970-01-01T00:00:00.000Z"
    pgTime := fun v => if isString tomorrow (some v) then some 86400000 else none }

def payment : PaymentFields := ⟨some (.str alice), some (.str bob), some (.str "2"), some (.str "XLM"), none⟩

/-- Where a schedule of the sample deployment leads. -/
def run (pool : Bool) (xs : List (Scheduled Call Choice)) : Option PaymentConfig :=
  (payments (deployment pool)).replay (effect (deployment pool)) xs (.initial .empty)

/-- One payment is created, submitted and found in a ledger. -/
def paid : List (Scheduled Call Choice) :=
  [.start (.create ⟨payment, some (.str "key")⟩), .act 0 (.now 1000), .act 0 (.uuid intentId), .act 0 (.done 0),
   .start (.submit intentId "signed"), .act 1 (.done 0), .act 1 (.now 2000), .act 1 (.done 0), .act 1 .accepted,
   .act 1 (.record (some ⟨toHex tx.hash, some 5, true⟩)), .act 1 (.now 3000), .act 1 (.done 0)]

/-- A link over 5 XLM is created and opened. -/
def linked : List (Scheduled Call Choice) :=
  [.start (.createLink ⟨some (.str alice), some (.str "5"), some (.str "XLM"), none, none⟩), .act 0 (.now 0),
   .act 0 (.uuid linkId), .act 0 (.now 0), .act 0 (.done 0), .start (.getLink linkId), .act 1 (.done 0), .act 1 (.now 1000)]

end Sample

end AfriPay.Payments
