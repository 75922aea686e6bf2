import Mathlib.Data.List.Sort
import AfriPay.Stellar.Service
import AfriPay.Storage.OrderedMap
import AfriPay.Storage.Sql
import AfriPay.Storage.Table

/-!
# Payment records

Payment intents and links as the service passes them around, the maps of the
in-memory branch of `PaymentIntentStore`, and the tables of migrations 001 and
002 with the statements its SQL branch sends to them.

An intent carries the request it was created from: `extra` holds the
properties the service does not know.
-/

namespace AfriPay.Payments
open Text Stellar Storage

/-- `PaymentIntent`. The hash is a string except where a request supplied its own. -/
structure PaymentIntent extends NativePayment where
  id : String
  idempotencyKey : JsString
  status : PaymentStatus
  transactionHash : Option Json
  createdAt : Timestamp
  updatedAt : Timestamp
  extra : JsonObject

/-- `PaymentLink`. The expiry stays as the request wrote it. -/
structure PaymentLink where
  id : String
  creator : String
  amount : Option String
  asset : String
  reference : Option JsString
  expiresAt : Option Json
  url : String
  createdAt : Timestamp

/-! ## The in-memory branch -/

structure Memory where
  intents : OrderedMap String PaymentIntent
  links : OrderedMap String PaymentLink

namespace Memory

def empty : Memory := ⟨.empty, .empty⟩

def findIntent (m : Memory) (id : String) : Option PaymentIntent := m.intents.get id

def createIntent (m : Memory) (intent : PaymentIntent) : PaymentIntent × Memory :=
  match m.intents.values.find? (·.idempotencyKey = intent.idempotencyKey) with
  | some existing => (existing, m)
  | none => (intent, { m with intents := m.intents.set intent.id intent })

/-- `claimHash`. Both checks and the write are one synchronous segment. -/
def claimHash (m : Memory) (id hash : String) (now : Timestamp) : Except Exception (PaymentIntent × Memory) :=
  match m.intents.get id with
  | none => .error (.error "Cannot read properties of undefined (reading 'transactionHash')")
  | some intent =>
    if truthy intent.transactionHash ∧ isString hash intent.transactionHash = false then
      .error (.conflict "Intent is already bound to another transaction")
    else if m.intents.values.any fun item => item.id ≠ id && isString hash item.transactionHash then
      .error (.conflict "Transaction already belongs to another intent")
    else
      let updated := { intent with transactionHash := some (.str hash), updatedAt := now }
      .ok (updated, { m with intents := m.intents.set id updated })

def settle (m : Memory) (id : String) (hash : Json) (status : PaymentStatus) (now : Timestamp) :
    Except Exception (PaymentIntent × Memory) :=
  match m.intents.get id with
  | none => .error (.error "Cannot read properties of undefined (reading 'transactionHash')")
  | some intent =>
    if !intent.transactionHash.any hash.same then .error (.conflict "Settlement hash mismatch")
    else if intent.status ≠ .pending then .ok (intent, m)
    else
      let updated := { intent with status, updatedAt := now }
      .ok (updated, { m with intents := m.intents.set id updated })

/-- `!sender || item.sender === sender`, where an array is no text. -/
def listIntents (m : Memory) (sender : Option QueryValue) : List PaymentIntent :=
  m.intents.values.filter fun item => match sender with
    | none | some (.one "") => true
    | some (.one sender) => item.sender = sender
    | some (.many _) => false

def saveLink (m : Memory) (link : PaymentLink) : Memory := { m with links := m.links.set link.id link }

def findLink (m : Memory) (id : String) : Option PaymentLink := m.links.get id

end Memory

/-! ## The SQL branch -/

/-- A row of `payment_intents`. The amount, `NUMERIC(30,12)`, counts units of `10⁻¹²`. -/
structure IntentRow where
  id : String
  idempotencyKey : String
  sender : String
  recipient : String
  amount : Nat
  asset : String
  memo : Option String
  status : PaymentStatus
  transactionHash : Option String
  createdAt : Timestamp
  updatedAt : Timestamp

/-- A row of `payment_links`. -/
structure LinkRow where
  id : String
  creator : String
  amount : Option Nat
  asset : String
  reference : Option String
  expiresAt : Option Timestamp
  createdAt : Timestamp

/-- The unique indexes of `payment_intents`: the primary key, the idempotency
key, and, by migration 002, the hash where there is one. -/
def IntentRow.clash (a b : IntentRow) : Bool :=
  a.id = b.id || a.idempotencyKey = b.idempotencyKey || (a.transactionHash.isSome && a.transactionHash = b.transactionHash)

def LinkRow.clash (a b : LinkRow) : Bool := a.id = b.id

structure Database where
  intents : Table IntentRow IntentRow.clash
  links : Table LinkRow LinkRow.clash

def Database.empty : Database := ⟨.empty, .empty⟩

/-- The parameters of the `INSERT` into `payment_intents`. -/
structure IntentValues where
  id : String
  idempotencyKey : JsString
  sender : String
  recipient : String
  amount : String
  asset : String
  memo : Option JsString
  status : PaymentStatus
  createdAt : Timestamp
  updatedAt : Timestamp
  deriving DecidableEq

structure LinkValues where
  id : String
  creator : String
  amount : Option String
  asset : String
  reference : Option JsString
  expiresAt : Option Json
  createdAt : Timestamp

/-- The statements the store sends. -/
inductive Statement where
  | selectIntent (id : String)
  | selectIntents (sender : Option String)
  | insertIntent (v : IntentValues)
  | claimHash (id hash : String)
  | settle (id : String) (hash : Json) (status : PaymentStatus)
  | selectLink (id : String)
  | insertLink (v : LinkValues)

/-- The type of the rows a statement returns. -/
def Statement.Row : Statement → Type
  | .selectLink _ | .insertLink _ => LinkRow
  | _ => IntentRow

/-- A `TIMESTAMPTZ` parameter; `pgTime` is how PostgreSQL reads the text. -/
def pgTimestamp (pgTime : Json → Option Timestamp) : Option Json → Except DbError (Option Timestamp)
  | none => .ok none
  | some v => match pgTime v with
    | some t => .ok (some t)
    | none => .error .other

def IntentValues.row (v : IntentValues) (amount : Nat) : IntentRow :=
  { id := v.id, idempotencyKey := v.idempotencyKey.toWellFormed, sender := v.sender, recipient := v.recipient, amount,
    asset := v.asset, memo := v.memo.map JsString.toWellFormed, status := v.status, transactionHash := none,
    createdAt := v.createdAt, updatedAt := v.updatedAt }

def IntentValues.texts (v : IntentValues) : List String :=
  [v.idempotencyKey.toWellFormed, v.sender, v.recipient, v.asset] ++ (v.memo.map JsString.toWellFormed).toList

def LinkValues.texts (v : LinkValues) : List String := [v.creator, v.asset] ++ (v.reference.map JsString.toWellFormed).toList

namespace Database

/-- `INSERT ... ON CONFLICT (idempotency_key) DO UPDATE SET idempotency_key = EXCLUDED.idempotency_key RETURNING *` -/
def insertIntent (db : Database) (v : IntentValues) : Except DbError (List IntentRow × Database) := do
  assertUuid v.id
  assertTexts v.texts
  let amount ← pgNumeric v.amount
  checkPositive amount
  match db.intents.find fun r => r.idempotencyKey = v.idempotencyKey.toWellFormed with
  | some existing => return ([existing], db)
  | none =>
    let intents ← unique (db.intents.insert (v.row amount))
    return ([v.row amount], { db with intents })

/-- The row `UPDATE` of `claimHash` selects. -/
def claimable (id hash : String) (r : IntentRow) : Bool :=
  r.id = id && (r.transactionHash = none || r.transactionHash = some hash)

def setHash (hash : String) (now : Timestamp) (r : IntentRow) : IntentRow :=
  { r with transactionHash := some hash, updatedAt := now }

def claimHash (db : Database) (id hash : String) (now : Timestamp) : Except DbError (List IntentRow × Database) := do
  assertTexts [id, hash]
  let intents ← unique (db.intents.update (claimable id hash) (setHash hash now))
  return ((db.intents.rows.filter (claimable id hash)).map (setHash hash now), { db with intents })

/-- The row `UPDATE` of `settle` selects. -/
def settleable (id : String) (hash : Json) (r : IntentRow) : Bool :=
  r.id = id && r.transactionHash.any (fun h => hash.same (.str h)) && r.status = .pending

def setStatus (status : PaymentStatus) (now : Timestamp) (r : IntentRow) : IntentRow :=
  { r with status, updatedAt := now }

def settle (db : Database) (id : String) (hash : Json) (status : PaymentStatus) (now : Timestamp) :
    Except DbError (List IntentRow × Database) := do
  assertTexts [id]
  let intents ← unique (db.intents.update (settleable id hash) (setStatus status now))
  return ([], { db with intents })

def selectIntent (db : Database) (id : String) : Except DbError (List IntentRow × Database) := do
  assertTexts [id]
  return ((db.intents.find (·.id = id)).toList, db)

/-- `SELECT * ... WHERE ($1::text IS NULL OR sender=$1) ORDER BY created_at DESC LIMIT 100`.
Rows of one time, whose order PostgreSQL leaves open, stay as they are. -/
def selectIntents (db : Database) (sender : Option String) : Except DbError (List IntentRow × Database) := do
  assertTexts sender.toList
  let rows := db.intents.rows.filter fun r => sender.all (r.sender = ·)
  return ((rows.insertionSort fun a b => b.createdAt ≤ a.createdAt).take 100, db)

def insertLink (pgTime : Json → Option Timestamp) (db : Database) (v : LinkValues) :
    Except DbError (List LinkRow × Database) := do
  assertUuid v.id
  assertTexts v.texts
  let amount ← v.amount.mapM pgNumeric
  discard (amount.mapM checkPositive)
  let expiresAt ← pgTimestamp pgTime v.expiresAt
  let row : LinkRow := { id := v.id, creator := v.creator, amount, asset := v.asset,
                         reference := v.reference.map JsString.toWellFormed,
                         expiresAt, createdAt := v.createdAt }
  let links ← unique (db.links.insert row)
  return ([], { db with links })

def selectLink (db : Database) (id : String) : Except DbError (List LinkRow × Database) := do
  assertTexts [id]
  return ((db.links.find (·.id = id)).toList, db)

end Database

/-- One statement, at database time `now`. A refused statement changes nothing. -/
def Statement.run (pgTime : Json → Option Timestamp) :
    (s : Statement) → Timestamp → Database → Except DbError (List s.Row × Database)
  | .selectIntent id, _, db => db.selectIntent id
  | .selectIntents sender, _, db => db.selectIntents sender
  | .insertIntent v, _, db => db.insertIntent v
  | .claimHash id hash, now, db => db.claimHash id hash now
  | .settle id hash status, now, db => db.settle id hash status now
  | .selectLink id, _, db => db.selectLink id
  | .insertLink v, _, db => db.insertLink pgTime v

/-! ## Reading rows -/

/-- `String(amount).replace(/(\.\d*?)0+$/, '$1').replace(/\.$/, '')` on a numeral:
zeros at the end of the fraction go, then a point left without digits
(`normalised_fixedPoint`). -/
def stripZeros (s : String) : String :=
  match splitPoint s.toList with
  | (_, none) => s
  | (whole, some fraction) =>
    let kept := fraction.rdropWhile (· = '0')
    String.ofList (if kept = [] then whole else whole ++ '.' :: kept)

/-- `PaymentIntentStore.intent`. -/
def IntentRow.intent (r : IntentRow) : PaymentIntent :=
  { id := r.id, idempotencyKey := r.idempotencyKey, sender := r.sender, recipient := r.recipient,
    amount := stripZeros (fixedPoint 12 r.amount), asset := r.asset, memo := (r.memo.filter (· ≠ "")).map .text,
    status := r.status, transactionHash := (r.transactionHash.filter (· ≠ "")).map .str,
    createdAt := throughDateText r.createdAt, updatedAt := throughDateText r.updatedAt, extra := fun _ => none }

/-! ## Amounts read back -/

/-- The fraction `stripZeros` keeps of `n` units of `10⁻ᵏ`. -/
def keptFraction (k n : Nat) : List Char := (padStart k (Nat.toDigits 10 (n % 10 ^ k))).rdropWhile (· = '0')

theorem splitPoint_stripZeros (k n : Nat) : splitPoint (stripZeros (fixedPoint k n)).toList =
    (Nat.toDigits 10 (n / 10 ^ k), if keptFraction k n = [] then none else some (keptFraction k n)) := by
  rw [stripZeros, splitPoint_fixedPoint, String.toList_ofList]
  change splitPoint (if keptFraction k n = [] then _ else _ ++ '.' :: keptFraction k n) = _
  split
  · exact splitPoint_digits (toDigits_isDigit _)
  · exact splitPoint_append (toDigits_isDigit _)

/-- The number stays. -/
theorem decimalValue_stripZeros {k : Nat} (pos : 0 < k) (n : Nat) : decimalValue (stripZeros (fixedPoint k n)) = (n : ℚ) / 10 ^ k := by
  have fraction : fractionPart (stripZeros (fixedPoint k n)) = keptFraction k n := by
    rw [fractionPart, splitPoint_stripZeros]
    split
    · rename_i none; rw [none]; rfl
    · rfl
  have whole : wholePart (stripZeros (fixedPoint k n)) = Nat.toDigits 10 (n / 10 ^ k) := by
    rw [wholePart, splitPoint_stripZeros]
  rw [← decimalValue_fixedPoint pos n, decimalValue, decimalValue, fraction, whole, keptFraction, digitsValue_rdropWhile,
    fractionPart_fixedPoint, wholePart_fixedPoint]

/-- It fits a pattern with `n` fraction digits if `n` are enough for it. -/
theorem matchesDecimal_stripZeros {k m n v : Nat} (pos : 0 < k) (most : 0 < m) (le : n ≤ k) (small : v / 10 ^ k < 10 ^ m)
    (divides : 10 ^ (k - n) ∣ v) : matchesDecimal m n (stripZeros (fixedPoint k v)) = true := by
  have part : 10 ^ (k - n) ∣ v % 10 ^ k := by
    exact (Nat.dvd_mod_iff (pow_dvd_pow 10 (Nat.sub_le k n))).2 divides
  have short : (keptFraction k v).length ≤ n := by
    have dropped := length_rdropWhile_le (padStart_isDigit k (v % 10 ^ k)) (j := k - n) (by simpa using part)
    rw [length_padStart pos] at dropped
    rw [keptFraction]
    omega
  have digits : ∀ c ∈ keptFraction k v, c.isDigit = true := fun c mem =>
    padStart_isDigit k (v % 10 ^ k) c ((List.rdropWhile_prefix _ _).subset mem)
  have length := (Nat.length_toDigits_le_iff (by decide : 1 < 10) most).2 small
  rw [matchesDecimal, splitPoint_stripZeros]
  simp only [digitRun, Bool.and_eq_true, decide_eq_true_eq, List.all_eq_true]
  refine ⟨⟨⟨toDigits_isDigit _, Nat.length_toDigits_pos⟩, length⟩, ?_⟩
  split
  · rfl
  · rename_i some'
    rw [Option.all_some, digitRun, Bool.and_eq_true, Bool.and_eq_true, List.all_eq_true, decide_eq_true_eq, decide_eq_true_eq]
    exact ⟨⟨digits, List.length_pos_iff.2 some'⟩, short⟩

/-- `NUMERIC(30,12)` holds an accepted amount exactly. -/
theorem scaledValue_stroops {a : String} (fits : matchesDecimal 12 7 a = true) : scaledValue 12 a = scaledValue 7 a * 10 ^ 5 := by
  have short := fractionPart_length_le fits
  have exact7 := scaledValue_eq short
  have exact12 := scaledValue_eq (short.trans (by decide : 7 ≤ 12))
  have same : (scaledValue 12 a : ℚ) = (scaledValue 7 a * 10 ^ 5 : Nat) := by
    rw [exact12, Nat.cast_mul, exact7, mul_assoc]
    norm_num
  exact_mod_cast same

/-- An amount read back from its column is the amount that went in. -/
theorem stroops_stored {a : String} (fits : matchesDecimal 12 7 a = true) :
    stroops (stripZeros (fixedPoint 12 (scaledValue 12 a))) = stroops a := by
  have small : scaledValue 12 a / 10 ^ 12 < 10 ^ 12 := by
    have bound := scaledValue_lt fits (by decide : 7 ≤ 12)
    omega
  have divides : 10 ^ (12 - 7) ∣ scaledValue 12 a := by
    rw [scaledValue_stroops fits]
    exact Nat.dvd_mul_left _ _
  have fits' := matchesDecimal_stripZeros (by decide) (by decide) (by decide) small divides
  have same : (scaledValue 7 (stripZeros (fixedPoint 12 (scaledValue 12 a))) : ℚ) = scaledValue 7 a := by
    rw [scaledValue_eq (fractionPart_length_le fits'), decimalValue_stripZeros (by decide), scaledValue_eq (fractionPart_length_le fits),
      scaledValue_eq ((fractionPart_length_le fits).trans (by decide : 7 ≤ 12))]
    norm_num
  rw [stroops, stroops, if_pos fits', if_pos fits]
  exact congrArg Except.ok (by exact_mod_cast same)

end AfriPay.Payments
