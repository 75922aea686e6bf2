import AfriPay.Calls.Sequential
import AfriPay.Payments.Branches
import AfriPay.Payments.Creation

/-!
# Calls served in turn

The calls on payment intents served one after the other by one deployment, over
either store, with everything that comes from elsewhere given in advance
(`outcomes`), and what the operations the calls consist of come to in such a
run.
-/

namespace AfriPay.Payments
open Calls Text Stellar Storage

def Deployment.withPool (d : Deployment) (pool : Bool) : Deployment := { d with pool }

/-- The calls on payment intents. -/
inductive IntentCall where
  | create (input : DeclaredInput)
  | get (id : String)
  | submit (id : String) (signedXdr : JsString)
  | reconcile (id : String)

def IntentCall.body (d : Deployment) : IntentCall → PaymentProg (Option PaymentIntent)
  | .create input => some <$> PaymentIntentService.create d input.input
  | .get id => some <$> PaymentIntentService.get d id
  | .submit id signedXdr => PaymentIntentService.submit d id signedXdr
  | .reconcile id => PaymentIntentService.reconcile d id

/-- What comes from elsewhere, with enough identifiers for so many calls. -/
structure Given (calls : Nat) where
  /-- The identifiers `randomUUID` returns, one after the other. -/
  ids : Nat → String
  uuid : ∀ n < calls, isUuid (ids n) = true
  distinct : ∀ m < calls, ∀ n < calls, ids m = ids n → m = n
  /-- What Horizon answers when it is asked for a transaction for the `n`-th time. -/
  records : Nat → Json → Option TransactionRecord
  snapshots : String → String → Except HorizonError PaymentSnapshot

/-- The world, and how often Horizon has been asked for a transaction. -/
structure Scene where
  world : World
  asked : Nat

/-- What is answered to a call. Each segment and each statement runs as a whole,
and no answer is lost. -/
def answers (d : Deployment) {calls : Nat} (given : Given calls) (clock : Nat → Timestamp) : Outside Op Op.Answer Scene
  | _, .randomUUID, s =>
    let id := given.ids s.world.issued.length
    (id, { s with world.issued := id :: s.world.issued })
  | _, .memory op, s =>
    match op.run s.world.memory with
    | .ok (a, memory) => (.ok a, { s with world.memory := memory })
    | .error e => (.error e, s)
  | n, .query q, s =>
    match q.run d.pgTime (clock n) s.world.db with
    | .ok (rows, db) => (.ok rows, { s with world.db := db })
    | .error e => (.error e, s)
  | n, .stellar .dateNow, s => (clock n, s)
  | _, .stellar (.submitTransaction _), s => ((), s)
  | _, .stellar (.transaction hash), s => (given.records s.asked hash, { s with asked := s.asked + 1 })
  | _, .stellar (.paymentSnapshot sender recipient), s => (given.snapshots sender recipient, s)

/-- The identifiers drawn are the first ones. -/
def Given.Drawn {calls : Nat} (given : Given calls) (issued : List String) : Prop :=
  ∀ id ∈ issued, ∃ n < issued.length, id = given.ids n

theorem Given.Drawn.fresh {calls : Nat} {given : Given calls} {issued : List String} (drawn : given.Drawn issued)
    (room : issued.length < calls) : given.ids issued.length ∉ issued := by
  intro mem
  obtain ⟨n, lt, same⟩ := drawn _ mem
  have := given.distinct _ room n (lt.trans room) same
  omega

theorem Given.Drawn.cons {calls : Nat} {given : Given calls} {issued : List String} (drawn : given.Drawn issued) :
    given.Drawn (given.ids issued.length :: issued) := by
  intro id mem
  rw [List.length_cons]
  rcases List.mem_cons.1 mem with rfl | mem
  · exact ⟨_, by omega, rfl⟩
  · obtain ⟨n, lt, same⟩ := drawn id mem
    exact ⟨n, by omega, same⟩

/-- What the calls come to, one after the other, with a database or without one. -/
def outcomes (d : Deployment) (pool : Bool) {count : Nat} (given : Given count) (clock : Nat → Timestamp) (calls : List IntentCall) :
    List (Except Exception (Option PaymentIntent)) :=
  (serve (answers (d.withPool pool) given clock) (IntentCall.body (d.withPool pool)) calls 0 ⟨.empty, 0⟩).1

/-! ## Single operations -/

section Runs

variable {d : Deployment} {calls : Nat} {given : Given calls} {clock : Nat → Timestamp} {n : Nat} {s : Scene}

theorem run_inMemory {op : MemoryOp} {a : op.Answer} {m : Memory} (ran : op.run s.world.memory = .ok (a, m)) :
    (inMemory op).run (answers d given clock) n s = (.ok a, n + 1, { s with world.memory := m }) := by
  simp [inMemory, answers, ran]

theorem run_inMemory_error {op : MemoryOp} {e : Exception} (threw : op.run s.world.memory = .error e) :
    (inMemory op).run (answers d given clock) n s = (.error e, n + 1, s) := by
  simp [inMemory, answers, threw]

theorem run_query {q : Statement} {rows : List q.Row} {db : Database} (ran : q.run d.pgTime (clock n) s.world.db = .ok (rows, db)) :
    (query q).run (answers d given clock) n s = (.ok rows, n + 1, { s with world.db := db }) := by
  simp [query, answers, ran, Except.mapError]

theorem run_query_error {q : Statement} {e : DbError} (failed : q.run d.pgTime (clock n) s.world.db = .error e) :
    (query q).run (answers d given clock) n s = (.error (queryError e), n + 1, s) := by
  simp [query, answers, failed, Except.mapError]

theorem run_findIntent_memory (id : String) :
    (PaymentIntentStore.findIntent (d.withPool false) id).run (answers (d.withPool false) given clock) n s =
      (.ok (s.world.memory.holdings id), n + 1, s) := rfl

theorem run_findIntent_pool {id : String} (plain : pgText id = true) :
    (PaymentIntentStore.findIntent (d.withPool true) id).run (answers (d.withPool true) given clock) n s =
      (.ok (s.world.db.holdings id), n + 1, s) := by
  obtain ⟨rows, ran, first⟩ := s.world.db.selectIntent_spec plain
  have ran : (Statement.selectIntent id).run d.pgTime (clock n) s.world.db = .ok (rows, s.world.db) := ran
  rw [← first]
  show Prog.run _ (query (.selectIntent id) >>= fun rows => .ret ((rows : List IntentRow).head?.map IntentRow.intent)) n s = _
  rw [Prog.run_bind, @run_query (d.withPool true) calls given clock n s _ _ _ ran]
  rfl

theorem run_findIntent_refused {id : String} (nul : pgText id = false) :
    (PaymentIntentStore.findIntent (d.withPool true) id).run (answers (d.withPool true) given clock) n s =
      (.error (queryError .other), n + 1, s) := by
  have failed : (Statement.selectIntent id).run d.pgTime (clock n) s.world.db = .error .other := by
    show s.world.db.selectIntent id = .error .other
    simp [Database.selectIntent, assertTexts, nul]
  show Prog.run _ (query (.selectIntent id) >>= fun rows => .ret ((rows : List IntentRow).head?.map IntentRow.intent)) n s = _
  rw [Prog.run_bind, @run_query_error (d.withPool true) calls given clock n s _ _ failed]

theorem run_get {id : String} {found : Option PaymentIntent} {n' : Nat} {s' : Scene}
    (ran : (PaymentIntentStore.findIntent d id).run (answers d given clock) n s = (.ok found, n', s')) :
    (PaymentIntentService.get d id).run (answers d given clock) n s =
      (found.elim (.error (.notFound ("Payment intent " ++ id ++ " was not found"))) .ok, n', s') := by
  unfold PaymentIntentService.get
  rw [Prog.run_bind, ran]
  cases found <;> rfl

theorem run_storeAndCheck_memory {i saved : PaymentIntent} {m : Memory} (ran : s.world.memory.createIntent i = (saved, m)) :
    (storeAndCheck (d.withPool false) i).run (answers (d.withPool false) given clock) n s =
      (checked i saved, n + 1, { s with world.memory := m }) := by
  have ran : (MemoryOp.createIntent i).run s.world.memory = .ok (saved, m) := congrArg Except.ok ran
  rw [storeAndCheck_memory rfl, Prog.run_act]
  simp only [answers, ran]
  exact Prog.run_ofExcept ..

theorem run_storeAndCheck_pool {i : PaymentIntent} {row : IntentRow} {db : Database}
    (ran : s.world.db.insertIntent (PaymentIntentStore.values i) = .ok ([row], db)) :
    (storeAndCheck (d.withPool true) i).run (answers (d.withPool true) given clock) n s =
      (checked i row.intent, n + 1, { s with world.db := db }) := by
  have ran : (Statement.insertIntent (PaymentIntentStore.values i)).run (d.withPool true).pgTime (clock n) s.world.db = .ok ([row], db) := ran
  rw [storeAndCheck_pool rfl, Prog.run_act]
  simp only [answers, ran]
  exact Prog.run_ofExcept ..

theorem run_storeAndCheck_refused {i : PaymentIntent} {e : DbError}
    (failed : s.world.db.insertIntent (PaymentIntentStore.values i) = .error e) :
    (storeAndCheck (d.withPool true) i).run (answers (d.withPool true) given clock) n s = (.error (queryError e), n + 1, s) := by
  have failed : (Statement.insertIntent (PaymentIntentStore.values i)).run (d.withPool true).pgTime (clock n) s.world.db = .error e := failed
  rw [storeAndCheck_pool rfl, Prog.run_act]
  simp only [answers, failed]
  exact Prog.run_ofExcept ..

/-- An accepted `create` draws an identifier and hands its intent to the store. -/
theorem run_create {input : DeclaredInput} {payment : NativePayment} {key : JsString}
    (valid : validatePayment d.sdk input.payment = .ok payment) (keyed : idempotencyKeyOf input.idempotencyKey = .ok key) :
    (PaymentIntentService.create d input.input).run (answers d given clock) n s =
      (storeAndCheck d (PaymentIntentService.newIntent input.input payment key (given.ids s.world.issued.length) (clock n))).run
        (answers d given clock) (n + 2) { s with world.issued := given.ids s.world.issued.length :: s.world.issued } := by
  have valid : validatePayment d.sdk input.input.payment = .ok payment := valid
  have keyed : idempotencyKeyOf input.input.idempotencyKey = .ok key := keyed
  unfold PaymentIntentService.create
  rw [valid, keyed]
  rfl

theorem run_claimHash_memory {id hash : String} :
    (PaymentIntentStore.claimHash (d.withPool false) id hash).run (answers (d.withPool false) given clock) n s =
      (inMemory (.claimHash id hash (clock n))).run (answers (d.withPool false) given clock) (n + 1) s := rfl

end Runs

end AfriPay.Payments
