import AfriPay.Calls.Lockstep
import AfriPay.Momo.Runs

/-!
# The calls of the mobile money store, served in turn

The methods of `MomoTransactionStore` as calls that do not overlap, over either
store, with the clock given in advance; and what each comes to for a client, so
that the two can be compared.
-/

namespace AfriPay.Momo
open Calls Text Storage MomoTransactionStore

/-- A patch of `upsertStatus`. Its `reason` may be missing, which is not the same as being `undefined`. -/
structure StatusPatch where
  status : MomoTransactionStatus
  reason : Option (Option Json)

/-- The reason in `{ ...existing, ...patch }`. -/
def StatusPatch.reasonFor (patch : StatusPatch) (existing : MomoTransactionRecord) : Option Json := patch.reason.getD existing.reason

/-- `upsertStatus`, for any patch with a status. -/
def upsertPatch (d : Deployment) (referenceId : String) (patch : StatusPatch) : MomoProg (Option MomoTransactionRecord) := do
  match ← find d referenceId with
  | none => return none
  | some existing =>
    if existing.status.terminal ∧ patch.status ≠ existing.status then return some existing
    else do
      let now ← dateNow
      let updated := patched existing patch.status (patch.reasonFor existing) now
      persist d updated
      if d.pool then find d referenceId
      else do
        discard (inMemory (.set referenceId updated))
        return some updated

/-- The service's patches name a reason, be it `undefined`. -/
theorem upsertStatus_eq (d : Deployment) (referenceId : String) (status : MomoTransactionStatus) (reason : Option Json) :
    upsertStatus d referenceId status reason = upsertPatch d referenceId ⟨status, some reason⟩ := rfl

/-- A call of the store. What is saved is what `MomoService` makes of a charge. -/
inductive StoreCall where
  | save (type : MomoTransactionType) (dto : ChargeDto) (referenceId : String) (createdAt updatedAt : Timestamp)
  | upsertStatus (referenceId : String) (patch : StatusPatch)
  | find (referenceId : String)
  | findByExternalId (externalId : JsString) (type : MomoTransactionType)
  | listPending

inductive StoreReply where
  | saved (record : MomoTransactionRecord)
  | found (record : Option MomoTransactionRecord)
  | pending (records : List MomoTransactionRecord)

def StoreCall.body (d : Deployment) : StoreCall → MomoProg StoreReply
  | .save type dto referenceId createdAt updatedAt => .saved <$> MomoTransactionStore.save d
      (MomoService.newRecord type dto referenceId createdAt updatedAt)
  | .upsertStatus referenceId patch => .found <$> upsertPatch d referenceId patch
  | .find referenceId => .found <$> MomoTransactionStore.find d referenceId
  | .findByExternalId externalId type => .found <$> MomoTransactionStore.findByExternalId d (some externalId.json) type
  | .listPending => .pending <$> MomoTransactionStore.listPending d

/-- The reference id a call saves under. -/
def StoreCall.saves : StoreCall → Option String
  | .save _ _ referenceId _ _ => some referenceId
  | _ => none

/-- What `MomoService` has seen to: a checked charge, and a reference id that is a UUID. -/
def StoreCall.Made : StoreCall → Prop
  | .save _ dto referenceId _ _ => dto.Valid ∧ isUuid referenceId = true
  | _ => True

/-! ## Served in turn -/

def Deployment.withPool (d : Deployment) (pool : Bool) : Deployment := { d with pool }

/-- What is answered to a call. Each segment and each statement runs as a whole, no
answer is lost, and the store asks for nothing else than the time. -/
def answers (clock : Nat → Timestamp) (elsewhere : Outside Op Op.Answer World) : Outside Op Op.Answer World
  | n, .dateNow, w => (clock n, w)
  | _, .memory op, w =>
    match op.run w.memory with
    | .ok (a, memory) => (.ok a, { w with memory })
    | .error e => (.error e, w)
  | _, .query s, w =>
    match s.run w.db with
    | .ok (rows, db) => (.ok rows, { w with db })
    | .error e => (.error e, w)
  | n, op, w => elsewhere n op w

/-- What the calls come to, one after the other, with a database or without one. -/
def outcomes (d : Deployment) (pool : Bool) (clock : Nat → Timestamp) (elsewhere : Outside Op Op.Answer World) (calls : List StoreCall) :
    List (Except Exception StoreReply) :=
  (serve (answers clock elsewhere) (StoreCall.body (d.withPool pool)) calls 0 .empty).1

/-! ## What a client can tell apart -/

/-- The same record for a client: the times aside, and however the amount is
written. With `pool`, the second is what a table keeps of the first. -/
structure SameRecord (pool : Bool) (a b : MomoTransactionRecord) : Prop extends SameCharge pool a b where
  status : a.status = b.status
  reason : a.reason = b.reason

/-- Lists of pending records are compared as sets. -/
def SameReply : StoreReply → StoreReply → Prop
  | .saved a, .saved b => SameRecord false a b
  | .found a, .found b => Option.Rel (SameRecord false) a b
  | .pending as, .pending bs => (∀ a ∈ as, ∃ b ∈ bs, SameRecord false a b) ∧ ∀ b ∈ bs, ∃ a ∈ as, SameRecord false a b
  | _, _ => False

/-- The same record, or an exception of the same class. -/
abbrev SameOutcome : Except Exception StoreReply → Except Exception StoreReply → Prop :=
  SameResult SameReply fun e e' => e.className = e'.className

/-! ## Single operations -/

section Runs

variable {d : Deployment} {clock : Nat → Timestamp} {elsewhere : Outside Op Op.Answer World} {n : Nat} {w : World} {referenceId : String}

theorem run_inMemory {op : MemoryOp} {a : op.Answer} {m : Memory} (ran : op.run w.memory = .ok (a, m)) :
    (inMemory op).run (answers clock elsewhere) n w = (.ok a, n + 1, { w with memory := m }) := by
  simp [inMemory, answers, ran]

theorem run_inMemory_error {op : MemoryOp} {e : Exception} (threw : op.run w.memory = .error e) :
    (inMemory op).run (answers clock elsewhere) n w = (.error e, n + 1, w) := by
  simp [inMemory, answers, threw]

theorem run_query {s : Statement} {rows : List MomoRow} {db : Database} (ran : s.run w.db = .ok (rows, db)) :
    (query s).run (answers clock elsewhere) n w = (.ok rows, n + 1, { w with db }) := by
  simp [query, answers, ran, Except.mapError]

theorem run_query_error {s : Statement} {e : DbError} (failed : s.run w.db = .error e) :
    (query s).run (answers clock elsewhere) n w = (.error (queryError e), n + 1, w) := by
  simp [query, answers, failed, Except.mapError]

theorem run_dateNow : dateNow.run (answers clock elsewhere) n w = (.ok (clock n), n + 1, w) := rfl

theorem run_find_memory :
    (find (d.withPool false) referenceId).run (answers clock elsewhere) n w = (.ok (w.memory.get referenceId), n + 1, w) := rfl

theorem run_find_pool (plain : pgText referenceId = true) : (find (d.withPool true) referenceId).run (answers clock elsewhere) n w =
    (.ok ((Database.row w.db referenceId).map MomoRow.record), n + 1, w) := by
  have ran : (Statement.selectByReference referenceId).run w.db = .ok ((Database.row w.db referenceId).toList, w.db) := by
    show (assertTexts [referenceId] >>= _) = _
    rw [show assertTexts [referenceId] = .ok () by simp [assertTexts, plain]]
    rfl
  show Prog.run _ (query (.selectByReference referenceId) >>= fun rows => .ret ((rows : List MomoRow).head?.map MomoRow.record)) n w = _
  rw [Prog.run_bind, run_query ran]
  show (Except.ok ((Database.row w.db referenceId).toList.head?.map MomoRow.record), n + 1, w) = _
  rw [Option.head?_toList]

/-- A statement with a NUL in a text is refused. -/
theorem run_find_refused (nul : pgText referenceId = false) : (find (d.withPool true) referenceId).run (answers clock elsewhere) n w =
    (.error (queryError .other), n + 1, w) := by
  have failed : (Statement.selectByReference referenceId).run w.db = .error .other := by
    show (assertTexts [referenceId] >>= _) = _
    rw [show assertTexts [referenceId] = .error .other by simp [assertTexts, nul]]
    rfl
  show Prog.run _ (query (.selectByReference referenceId) >>= fun rows => .ret ((rows : List MomoRow).head?.map MomoRow.record)) n w = _
  rw [Prog.run_bind, run_query_error failed]

theorem run_persist_pool {record : MomoTransactionRecord} {rows : List MomoRow} {db : Database}
    (ran : Database.persist w.db (values (d.withPool true) record) = .ok (rows, db)) :
    (persist (d.withPool true) record).run (answers clock elsewhere) n w = (.ok (), n + 1, { w with db }) := by
  have ran : (Statement.persist (values (d.withPool true) record)).run w.db = .ok (rows, db) := ran
  show Prog.run _ (query (.persist (values (d.withPool true) record)) >>= fun _ => .ret ()) n w = _
  rw [Prog.run_bind, run_query ran]
  rfl

theorem run_persist_error {record : MomoTransactionRecord} {e : DbError}
    (failed : Database.persist w.db (values (d.withPool true) record) = .error e) :
    (persist (d.withPool true) record).run (answers clock elsewhere) n w = (.error (queryError e), n + 1, w) := by
  have failed : (Statement.persist (values (d.withPool true) record)).run w.db = .error e := failed
  show Prog.run _ (query (.persist (values (d.withPool true) record)) >>= fun _ => .ret ()) n w = _
  rw [Prog.run_bind, run_query_error failed]

theorem run_save_memory {record : MomoTransactionRecord} {memory : Memory} (ran : w.memory.save record = .ok (record, memory)) :
    (save (d.withPool false) record).run (answers clock elsewhere) n w = (.ok record, n + 1, { w with memory }) := by
  have ran : (MemoryOp.save record).run w.memory = .ok (record, memory) := ran
  exact run_inMemory ran

theorem run_save_refused {record : MomoTransactionRecord} {e : Exception} (threw : w.memory.save record = .error e) :
    (save (d.withPool false) record).run (answers clock elsewhere) n w = (.error e, n + 1, w) := by
  have threw : (MemoryOp.save record).run w.memory = .error e := threw
  exact run_inMemory_error threw

theorem run_save_pool {record : MomoTransactionRecord} {rows : List MomoRow} {db : Database}
    (ran : Database.persist w.db (values (d.withPool true) record) = .ok (rows, db)) :
    (save (d.withPool true) record).run (answers clock elsewhere) n w = (.ok record, n + 1, { w with db }) := by
  show Prog.run _ (persist (d.withPool true) record >>= fun _ => .ret record) n w = _
  rw [Prog.run_bind, run_persist_pool ran]
  rfl

theorem run_save_error {record : MomoTransactionRecord} {e : DbError}
    (failed : Database.persist w.db (values (d.withPool true) record) = .error e) :
    (save (d.withPool true) record).run (answers clock elsewhere) n w = (.error (queryError e), n + 1, w) := by
  show Prog.run _ (persist (d.withPool true) record >>= fun _ => .ret record) n w = _
  rw [Prog.run_bind, run_persist_error failed]

/-! ### `upsertStatus` -/

variable {patch : StatusPatch} {existing : MomoTransactionRecord}

/-- The record as `upsertStatus` would write it. -/
def StatusPatch.applied (patch : StatusPatch) (existing : MomoTransactionRecord) (now : Timestamp) : MomoTransactionRecord :=
  patched existing patch.status (patch.reasonFor existing) now

/-- A terminal record does not change its status. -/
def StatusPatch.Refused (patch : StatusPatch) (existing : MomoTransactionRecord) : Prop :=
  existing.status.terminal = true ∧ patch.status ≠ existing.status

theorem run_upsert_unknown {w' : World} {n' : Nat}
    (none : (find d referenceId).run (answers clock elsewhere) n w = (.ok none, n', w')) :
    (upsertPatch d referenceId patch).run (answers clock elsewhere) n w = (.ok Option.none, n', w') := by
  unfold upsertPatch
  rw [Prog.run_bind, none]
  rfl

theorem run_upsert_kept {w' : World} {n' : Nat} (found : (find d referenceId).run (answers clock elsewhere) n w = (.ok (some existing), n', w'))
    (refused : patch.Refused existing) :
    (upsertPatch d referenceId patch).run (answers clock elsewhere) n w = (.ok (some existing), n', w') := by
  unfold upsertPatch
  rw [Prog.run_bind, found]
  dsimp only
  rw [if_pos (show existing.status.terminal = true ∧ patch.status ≠ existing.status from refused)]
  rfl

theorem run_upsert_memory (here : w.memory.get referenceId = some existing) (open' : ¬patch.Refused existing) :
    (upsertPatch (d.withPool false) referenceId patch).run (answers clock elsewhere) n w =
      (.ok (some (patch.applied existing (clock (n + 1)))), n + 3,
        { w with memory := OrderedMap.set w.memory referenceId (patch.applied existing (clock (n + 1))) }) := by
  unfold upsertPatch
  rw [Prog.run_bind, run_find_memory, here]
  dsimp only
  rw [if_neg (show ¬(existing.status.terminal = true ∧ patch.status ≠ existing.status) from open')]
  rfl

theorem run_upsert_pool {rows : List MomoRow} {db : Database} (plain : pgText referenceId = true)
    (here : (Database.row w.db referenceId).map MomoRow.record = some existing) (open' : ¬patch.Refused existing)
    (ran : Database.persist w.db (values (d.withPool true) (patch.applied existing (clock (n + 1)))) = .ok (rows, db)) :
    (upsertPatch (d.withPool true) referenceId patch).run (answers clock elsewhere) n w =
      (.ok ((Database.row db referenceId).map MomoRow.record), n + 4, { w with db }) := by
  unfold upsertPatch
  rw [Prog.run_bind, run_find_pool plain, here]
  dsimp only
  rw [if_neg (show ¬(existing.status.terminal = true ∧ patch.status ≠ existing.status) from open'), Prog.run_bind, run_dateNow]
  dsimp only
  have written : (persist (d.withPool true) (patched existing patch.status (patch.reasonFor existing) (clock (n + 1)))).run
      (answers clock elsewhere) (n + 1 + 1) w = (.ok (), n + 3, { w with db }) := run_persist_pool ran
  have again : (find (d.withPool true) referenceId).run (answers clock elsewhere) (n + 3) { w with db } =
    (.ok ((Database.row db referenceId).map MomoRow.record), n + 4, { w with db }) := run_find_pool plain
  rw [Prog.run_bind, written]
  exact again

theorem run_upsert_error {e : DbError} (plain : pgText referenceId = true)
    (here : (Database.row w.db referenceId).map MomoRow.record = some existing) (open' : ¬patch.Refused existing)
    (failed : Database.persist w.db (values (d.withPool true) (patch.applied existing (clock (n + 1)))) = .error e) :
    (upsertPatch (d.withPool true) referenceId patch).run (answers clock elsewhere) n w = (.error (queryError e), n + 3, w) := by
  unfold upsertPatch
  rw [Prog.run_bind, run_find_pool plain, here]
  dsimp only
  rw [if_neg (show ¬(existing.status.terminal = true ∧ patch.status ≠ existing.status) from open'), Prog.run_bind, run_dateNow]
  dsimp only
  have failed : (persist (d.withPool true) (patched existing patch.status (patch.reasonFor existing) (clock (n + 1)))).run
      (answers clock elsewhere) (n + 1 + 1) w = (.error (queryError e), n + 3, w) := run_persist_error failed
  rw [Prog.run_bind, failed]

end Runs

end AfriPay.Momo
