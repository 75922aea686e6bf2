import AfriPay.Calls.Sequential
import AfriPay.Payments.Controller

/-!
# Undeclared properties of a creation request

Two `POST /payments/intents` requests that differ only in properties
`CreatePaymentBody` does not declare. The in-memory branch stores the spread
body as it is, so such a property stays in the record, and one named
`transactionHash` is taken for the intent's hash from then on. The `INSERT`
statement names its columns, and drops them.
-/

namespace AfriPay.Payments
open Calls Text Stellar Storage

/-- The outside of a deployment: it answers each operation as `exec` allows,
`randomUUID` while there are identifiers left. -/
structure Surroundings (d : Deployment) where
  answer : Outside Op Op.Answer World
  sound : ∀ n op w, op ≠ .randomUUID ∨ w.issued.length < 16 ^ 32 → exec d op w (answer n op w).1 (answer n op w).2
  draws : ∀ n w, (answer n .randomUUID w).2 = { w with issued := (answer n .randomUUID w).1 :: w.issued }

/-- The bodies agree on what `CreatePaymentBody` declares. -/
def SameDeclared (body body' : JsonObject) : Prop := ∀ name ∈ declaredNames, body name = body' name

section

variable {d : Deployment} (around : Surroundings d) (key : Option String)

/-- The number of the next operation and the world after a creation request. -/
def afterCreate (body : JsonObject) (n : Nat) (w : World) : Nat × World :=
  ((PaymentIntentController.create d key body).run around.answer n w).2

/-- Both requests leave the same store, and whatever requests follow get the
same results. Identifiers, times and Horizon's answers are those of `around`. -/
structure Uninfluenced (body body' : JsonObject) (n : Nat) (w : World) : Prop where
  store : (afterCreate around key body n w).2 = (afterCreate around key body' n w).2
  results : ∀ requests : List HttpRequest,
    (serve around.answer (PaymentIntentController.handle d) requests (afterCreate around key body n w).1
      (afterCreate around key body n w).2).1 =
    (serve around.answer (PaymentIntentController.handle d) requests (afterCreate around key body' n w).1
      (afterCreate around key body' n w).2).1

end

/-- The checks of controller and service before anything is stored. -/
def acceptCreate (sdk : Sdk) (key : Option String) (body : JsonObject) : Except Exception (NativePayment × JsString) := do
  let key ← checkCreate key body
  let payment ← validatePayment sdk (spreadBody body key).payment
  let key ← idempotencyKeyOf (some (.str key))
  return (payment, key)

/-- When undeclared properties have no influence: there is a database, the
request is refused, its key is taken, or the bodies agree wherever the service
does not overwrite them. -/
def Harmless (d : Deployment) (key : Option String) (body body' : JsonObject) (w : World) : Prop :=
  d.pool = true ∨
  (∃ e, acceptCreate d.sdk key body = .error e) ∨
  (∃ payment k, acceptCreate d.sdk key body = .ok (payment, k) ∧ ∃ existing ∈ w.memory.intents.values, existing.idempotencyKey = k) ∨
  ∀ name, name ∉ overwrittenNames → body name = body' name

/-- An accepted request: a time, an identifier, the store, and a last check. -/
def createAccepted (d : Deployment) (body : JsonObject) (payment : NativePayment) (k : JsString) : PaymentProg PaymentIntent := do
  let now ← dateNow
  let id ← randomUUID
  let saved ← PaymentIntentStore.createIntent d (PaymentIntentService.newIntent (spreadBody body k) payment k id now)
  .ofExcept (checkSameDetails saved.toNativePayment payment)
  return saved

theorem create_eq (d : Deployment) (key : Option String) (body : JsonObject) :
    PaymentIntentController.create d key body =
      (Prog.ofExcept (acceptCreate d.sdk key body) >>= fun accepted => createAccepted d body accepted.1 accepted.2) := by
  unfold PaymentIntentController.create PaymentIntentService.create acceptCreate
  simp only [Prog.ofExcept_bind, Prog.bind_assoc]
  rfl

/-- The parts of a body the service carries along without declaring them. -/
theorem carried_eq_iff {body body' : JsonObject} (declared : SameDeclared body body') :
    (body "transactionHash" = body' "transactionHash" ∧ extraOf body = extraOf body') ↔
      ∀ name, name ∉ overwrittenNames → body name = body' name := by
  constructor
  · rintro ⟨hash, extra⟩ name kept
    by_cases isDeclared : name ∈ declaredNames
    · exact declared name isDeclared
    · by_cases isHash : name = "transactionHash"
      · rw [isHash]; exact hash
      · have same := congrFun extra name
        simpa [extraOf, isDeclared, kept, isHash] using same
  · intro same
    refine ⟨same _ (by decide), funext fun name => ?_⟩
    unfold extraOf
    split
    · rfl
    · rename_i other
      exact same name fun overwritten => other (.inr (.inl overwritten))

theorem acceptCreate_congr (sdk : Sdk) (key : Option String) {body body' : JsonObject} (declared : SameDeclared body body') :
    acceptCreate sdk key body = acceptCreate sdk key body' := by
  have sender := declared "sender" (by decide)
  have recipient := declared "recipient" (by decide)
  have amount := declared "amount" (by decide)
  have asset := declared "asset" (by decide)
  have memo := declared "memo" (by decide)
  simp [acceptCreate, checkCreate, spreadBody, sender, recipient, amount, asset, memo]

section

variable {d : Deployment} {around : Surroundings d} {key : Option String} {body body' : JsonObject} {n : Nat} {w : World}

theorem afterCreate_refused {e : Exception} (refused : acceptCreate d.sdk key body = .error e) :
    afterCreate around key body n w = (n, w) := by
  rw [afterCreate, create_eq, refused]
  rfl

/-- The intent an accepted request stores, and the number and world at that point. -/
def toStore (around : Surroundings d) (body : JsonObject) (payment : NativePayment) (k : JsString) (n : Nat) (w : World) :
    PaymentIntent × World :=
  let now := around.answer n (.stellar .dateNow) w
  let id := around.answer (n + 1) .randomUUID now.2
  (PaymentIntentService.newIntent (spreadBody body k) payment k id.1 now.1, id.2)

/-- Storing an intent in memory, as `exec` has it. -/
theorem run_inMemory_createIntent (around : Surroundings d) (intent : PaymentIntent) (n : Nat) (w : World) :
    ((inMemory (.createIntent intent)).run around.answer n w) =
      (.ok (w.memory.createIntent intent).1, n + 1, { w with memory := (w.memory.createIntent intent).2 }) := by
  have sound := around.sound n (.memory (.createIntent intent)) w (.inl (by rintro ⟨⟩))
  unfold inMemory
  rw [Prog.await_bind, Prog.run_act]
  generalize around.answer n (.memory (.createIntent intent)) w = effect at sound
  obtain ⟨ans, w'⟩ := effect
  obtain ⟨memory, segment, rfl⟩ := sound
  cases segment with
  | ran ok =>
    have stored := Except.ok.inj ok
    show (Except.ok _, n + 1, _) = _
    rw [stored]
  | threw failed => cases failed

theorem toStore_memory (around : Surroundings d) (body : JsonObject) (payment : NativePayment) (k : JsString) (n : Nat) (w : World) :
    (toStore around body payment k n w).2.memory = w.memory := by
  have clock : (around.answer n (.stellar .dateNow) w).2 = w := around.sound n (.stellar .dateNow) w (.inl (by rintro ⟨⟩))
  have uuid := around.draws (n + 1) w
  simp only [toStore, clock]
  rw [uuid]

/-- What an accepted request does to the in-memory store. -/
theorem afterCreate_memory (pool : d.pool = false) {payment : NativePayment} {k : JsString}
    (accepted : acceptCreate d.sdk key body = .ok (payment, k)) :
    afterCreate around key body n w = (n + 3,
      { (toStore around body payment k n w).2 with
        memory := (w.memory.createIntent (toStore around body payment k n w).1).2 }) := by
  have store : ∀ intent n w, (PaymentIntentStore.createIntent d intent).run around.answer n w =
      (.ok (w.memory.createIntent intent).1, n + 1, { w with memory := (w.memory.createIntent intent).2 }) := by
    intro intent n w
    rw [PaymentIntentStore.createIntent, pool]
    exact run_inMemory_createIntent around intent n w
  rw [afterCreate, create_eq, accepted, ← toStore_memory around body payment k n w]
  show (Prog.run around.answer (PaymentIntentStore.createIntent d (toStore around body payment k n w).1 >>= fun saved =>
    Prog.ofExcept (checkSameDetails saved.toNativePayment payment) >>= fun _ => pure saved) (n + 2)
    (toStore around body payment k n w).2).2 = _
  rw [Prog.run_bind, store]
  simp only [Prog.run_bind, Prog.run_ofExcept]
  cases checkSameDetails _ payment <;> rfl

/-- With a database, or where no carried property differs, both requests are the same call. -/
theorem create_congr (declared : SameDeclared body body')
    (same : d.pool = true ∨ ∀ name, name ∉ overwrittenNames → body name = body' name) :
    PaymentIntentController.create d key body = PaymentIntentController.create d key body' := by
  rw [create_eq, create_eq, acceptCreate_congr d.sdk key declared]
  congr 1
  funext accepted
  unfold createAccepted
  rcases same with pool | same
  · -- the statement's parameters are the declared properties
    simp only [PaymentIntentStore.createIntent, pool]
    rfl
  · obtain ⟨hash, extra⟩ := (carried_eq_iff declared).2 same
    simp only [PaymentIntentService.newIntent, spreadBody, hash, extra]

/-- A record whose carried properties differ is another record. -/
theorem newIntent_inj {payment : NativePayment} {k : JsString} {id : String} {now : Timestamp} (declared : SameDeclared body body')
    (same : PaymentIntentService.newIntent (spreadBody body k) payment k id now =
      PaymentIntentService.newIntent (spreadBody body' k) payment k id now) :
    ∀ name, name ∉ overwrittenNames → body name = body' name := by
  refine (carried_eq_iff declared).1 ⟨?_, ?_⟩
  · exact congrArg PaymentIntent.transactionHash same
  · exact congrArg PaymentIntent.extra same

/-- **When undeclared properties have no influence.** -/
theorem uninfluenced_iff (declared : SameDeclared body body') :
    Uninfluenced around key body body' n w ↔ Harmless d key body body' w := by
  have accept := acceptCreate_congr d.sdk key declared
  constructor
  · intro un
    by_cases pool : d.pool = true
    · exact .inl pool
    rw [Bool.not_eq_true] at pool
    cases accepted : acceptCreate d.sdk key body with
    | error e => exact .inr (.inl ⟨e, accepted⟩)
    | ok pair =>
      obtain ⟨payment, k⟩ := pair
      by_cases taken : ∃ existing ∈ w.memory.intents.values, existing.idempotencyKey = k
      · exact .inr (.inr (.inl ⟨payment, k, accepted, taken⟩))
      -- the key is free: each request has stored its own record under the identifier
      refine .inr (.inr (.inr ?_))
      have stored : ∀ b : JsonObject, acceptCreate d.sdk key b = .ok (payment, k) →
          (afterCreate around key b n w).2.memory.intents.get (toStore around b payment k n w).1.id =
            some (toStore around b payment k n w).1 := by
        intro b accepted
        have free : (w.memory.createIntent (toStore around b payment k n w).1).2.intents =
            w.memory.intents.set (toStore around b payment k n w).1.id (toStore around b payment k n w).1 := by
          have none : w.memory.intents.values.find? (fun existing => existing.idempotencyKey = k) = none := by
            refine List.find?_eq_none.2 fun existing mem => ?_
            simpa using fun same => taken ⟨existing, mem, same⟩
          unfold Memory.createIntent
          rw [show (toStore around b payment k n w).1.idempotencyKey = k from rfl, none]
        rw [afterCreate_memory pool accepted]
        show (w.memory.createIntent (toStore around b payment k n w).1).2.intents.get _ = _
        rw [free, OrderedMap.get_set_self]
      have first := stored body accepted
      rw [un.store] at first
      have same := Option.some.inj (first.symm.trans (stored body' (accept ▸ accepted)))
      exact newIntent_inj declared same
  · intro harmless
    have same : afterCreate around key body n w = afterCreate around key body' n w := by
      rcases harmless with pool | ⟨e, refused⟩ | ⟨payment, k, accepted, taken⟩ | same
      · rw [afterCreate, create_congr declared (.inl pool), afterCreate]
      · rw [afterCreate_refused refused, afterCreate_refused (accept ▸ refused)]
      · by_cases pool : d.pool = true
        · rw [afterCreate, create_congr declared (.inl pool), afterCreate]
        rw [Bool.not_eq_true] at pool
        have bound : ∀ intent : PaymentIntent, intent.idempotencyKey = k → (w.memory.createIntent intent).2 = w.memory := by
          rintro intent rfl
          unfold Memory.createIntent
          split
          · rfl
          · rename_i none
            obtain ⟨existing, mem, same⟩ := taken
            exact absurd same (by simpa using List.find?_eq_none.1 none existing mem)
        rw [afterCreate_memory pool accepted, afterCreate_memory pool (accept ▸ accepted), bound _ rfl, bound _ rfl]
        rfl
      · rw [afterCreate, create_congr declared (.inr same), afterCreate]
    exact ⟨by rw [same], fun requests => by rw [same]⟩

end

/-! ## The sample deployment -/

namespace Sample

/-- Segments and statements run to their end; Horizon is away, and the clock stands still. -/
def answer (pool : Bool) : Outside Op Op.Answer World
  | _, .randomUUID, w => (freshUuid w.issued, { w with issued := freshUuid w.issued :: w.issued })
  | _, .memory op, w =>
    match op.run w.memory with
    | .ok (a, memory) => (.ok a, { w with memory })
    | .error e => (.error e, w)
  | _, .query s, w =>
    match s.run (deployment pool).pgTime 0 w.db with
    | .ok (rows, db) => (.ok rows, { w with db })
    | .error e => (.error e, w)
  | _, .stellar (.submitTransaction _), w => ((), w)
  | _, .stellar (.transaction _), w => ((none : Option TransactionRecord), w)
  | _, .stellar (.paymentSnapshot _ _), w => ((.error .other : Except HorizonError PaymentSnapshot), w)
  | _, .stellar .dateNow, w => ((0 : Timestamp), w)

def around (pool : Bool) : Surroundings (deployment pool) where
  answer := answer pool
  draws _ _ := rfl
  sound n op w room := by
    cases op with
    | randomUUID => exact ⟨freshUuid_spec (room.resolve_left fun other => other rfl), rfl⟩
    | memory op =>
      cases h : op.run w.memory with
      | ok r => obtain ⟨a, m⟩ := r; simp only [answer, h]; exact ⟨m, .ran h, rfl⟩
      | error e => simp only [answer, h]; exact ⟨w.memory, .threw h, rfl⟩
    | query s =>
      cases h : s.run (deployment pool).pgTime 0 w.db with
      | ok r => obtain ⟨rows, db⟩ := r; simp only [answer, h]; exact ⟨db, .ran h, rfl⟩
      | error e => simp only [answer, h]; exact ⟨w.db, .refused h, rfl⟩
    | stellar request => cases request <;> rfl

/-- A request body as declared. -/
def body : JsonObject
  | "sender" => payment.sender
  | "recipient" => payment.recipient
  | "amount" => payment.amount
  | "asset" => payment.asset
  | _ => none

/-- The same body with a transaction hash of its own. -/
def bodyWithHash : JsonObject
  | "transactionHash" => some (.str "0000")
  | name => body name

/-- The errors of the responses to requests after a creation. -/
def laterErrors (pool : Bool) (b : JsonObject) (requests : List HttpRequest) : List (Option Exception) :=
  let created := afterCreate (around pool) (some "key") b 0 .empty
  (serve (around pool).answer (PaymentIntentController.handle (deployment pool)) requests created.1 created.2).1.map fun
    | .ok _ => none
    | .error e => some e

theorem sameDeclared : SameDeclared body bodyWithHash := by
  intro name mem
  simp only [declaredNames, List.mem_cons, List.not_mem_nil, or_false] at mem
  rcases mem with rfl | rfl | rfl | rfl | rfl <;> rfl

end Sample

/-- In memory a request that brings its own `transactionHash` gets an intent
that counts as submitted: no transaction is built for it any more. -/
theorem bodyWithHash_influences : SameDeclared Sample.body Sample.bodyWithHash ∧
    Sample.laterErrors false Sample.bodyWithHash [.buildTransaction (freshUuid [])] =
      [some (.badRequest "Intent already submitted; check its status")] ∧
    Sample.laterErrors false Sample.body [.buildTransaction (freshUuid [])] =
      [some (.serviceUnavailable "Unable to prepare Stellar transaction; retry when Horizon is available")] ∧
    ¬ Uninfluenced (Sample.around false) (some "key") Sample.body Sample.bodyWithHash 0 .empty := by
  have withHash : Sample.laterErrors false Sample.bodyWithHash [.buildTransaction (freshUuid [])] =
      [some (.badRequest "Intent already submitted; check its status")] := by decide +kernel
  have without : Sample.laterErrors false Sample.body [.buildTransaction (freshUuid [])] =
      [some (.serviceUnavailable "Unable to prepare Stellar transaction; retry when Horizon is available")] := by
    decide +kernel
  refine ⟨Sample.sameDeclared, withHash, without, fun un => ?_⟩
  have results := un.results [.buildTransaction (freshUuid [])]
  have same : Sample.laterErrors false Sample.body [.buildTransaction (freshUuid [])] =
      Sample.laterErrors false Sample.bodyWithHash [.buildTransaction (freshUuid [])] := congrArg (List.map _) results
  rw [without, withHash] at same
  exact absurd same (by decide)

theorem uninfluenced_iff_withHash :
    Uninfluenced (Sample.around true) (some "key") Sample.body Sample.bodyWithHash 0 .empty ↔
      Harmless (Sample.deployment true) (some "key") Sample.body Sample.bodyWithHash .empty :=
  uninfluenced_iff Sample.sameDeclared

end AfriPay.Payments
