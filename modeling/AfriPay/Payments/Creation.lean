import AfriPay.Calls.Waiting
import AfriPay.Payments.Guarantees

/-!
# Idempotent creation

An idempotency key names one intent for good. `createIntent` returns the intent
stored under the key or stores the one handed in; an intent once stored keeps
everything but its hash, its status and its time of change, and those a `create`
leaves alone as well. So every `create` that returns has one answer for one key,
and a `create` that finds other details under its key has changed nothing.
-/

namespace AfriPay.Payments
open Calls Discipline Text Stellar Storage Ledger

/-- The intent `i`, perhaps with another hash, status and time of change. -/
def PaymentIntent.Continues (i' i : PaymentIntent) : Prop :=
  ∃ hash status updatedAt, i' = { i with transactionHash := hash, status, updatedAt }

theorem PaymentIntent.Continues.refl (i : PaymentIntent) : i.Continues i := ⟨_, _, _, rfl⟩

theorem PaymentIntent.Continues.trans {i₁ i₂ i₃ : PaymentIntent} (h : i₂.Continues i₁) (h' : i₃.Continues i₂) : i₃.Continues i₁ := by
  obtain ⟨hash, status, updatedAt, rfl⟩ := h'
  obtain ⟨hash', status', updatedAt', rfl⟩ := h
  exact ⟨hash, status, updatedAt, rfl⟩

/-- The operations that change an intent already stored. -/
def Op.amends : Op → Bool
  | .memory (.claimHash ..) | .memory (.settle ..) | .query (.claimHash ..) | .query (.settle ..) => true
  | _ => false

/-- What a segment may do to the intents. -/
theorem MemoryOp.run_intents {m m' : Memory} {op : MemoryOp} {a : op.Answer} (h : op.run m = .ok (a, m')) :
    m'.intents = m.intents ∨
      (∃ i, op = .createIntent i ∧ (∀ item ∈ m.intents.values, item.idempotencyKey ≠ i.idempotencyKey) ∧
        m'.intents = m.intents.set i.id i) ∨
      ∃ id i i', (Op.memory op).amends = true ∧ m.intents.get id = some i ∧ i'.Continues i ∧ m'.intents = m.intents.set id i' := by
  cases op with
  | findIntent | findLink | listIntents => exact .inl (congrArg Memory.intents (MemoryOp.run_reads rfl h))
  | saveLink l => cases h; exact .inl rfl
  | createIntent i =>
    have h : m.createIntent i = (a, m') := Except.ok.inj h
    rcases m.createIntent_cases i with ⟨existing, -, -, same⟩ | ⟨free, same⟩
    · rw [same] at h; cases h; exact .inl rfl
    · rw [same] at h; cases h; exact .inr (.inl ⟨i, rfl, free, rfl⟩)
  | claimHash id hash now =>
    obtain ⟨i, found, -, -, claimed, after⟩ := Memory.claimHash_ok h
    exact .inr (.inr ⟨id, i, _, rfl, found, ⟨_, _, _, claimed⟩, congrArg Memory.intents after⟩)
  | settle id hash status now =>
    obtain ⟨i, found, -, ⟨-, same⟩ | ⟨-, settled, after⟩⟩ := Memory.settle_ok h
    · exact .inl (congrArg Memory.intents same)
    · exact .inr (.inr ⟨id, i, _, rfl, found, ⟨_, _, _, settled⟩, congrArg Memory.intents after⟩)

/-- What a statement may do to `payment_intents`. -/
theorem Database.run_intents {pgTime : Json → Option Timestamp} {now : Timestamp} {db db' : Database} {s : Statement}
    {rows : List s.Row} (h : s.run pgTime now db = .ok (rows, db')) :
    db'.intents = db.intents ∨ (∃ v, s = .insertIntent v ∧ db.intents.insert (v.row (scaledValue 12 v.amount)) = some db'.intents) ∨
      ∃ cond set, (Op.query s).amends = true ∧ db.intents.update cond set = some db'.intents ∧
        ∀ r, (set r).id = r.id ∧ (set r).intent.Continues r.intent := by
  cases s with
  | selectIntent | selectLink | selectIntents => exact .inl (congrArg Database.intents (Statement.run_reads rfl h))
  | claimHash id hash =>
    obtain ⟨intents, updated, rfl, -⟩ := Database.claimHash_ok h
    exact .inr (.inr ⟨_, _, rfl, updated, fun r => ⟨rfl, _, _, _, rfl⟩⟩)
  | settle id hash =>
    obtain ⟨intents, updated, rfl⟩ := Database.settle_ok h
    exact .inr (.inr ⟨_, _, rfl, updated, fun r => ⟨rfl, _, _, _, rfl⟩⟩)
  | insertIntent v =>
    rcases Database.insertIntent_cases h with ⟨existing, -, -, rfl⟩ | ⟨-, -, inserted⟩
    · exact .inl rfl
    · exact .inr (.inl ⟨v, rfl, inserted⟩)
  | insertLink v =>
    obtain ⟨_, _, -, -, -, rfl⟩ := Database.insertLink_ok h
    exact .inl rfl

/-- At most one intent has a key. -/
def Memory.OneEach (m : Memory) : Prop :=
  ∀ id id' i i', m.intents.get id = some i → m.intents.get id' = some i' → i.idempotencyKey = i'.idempotencyKey → id = id'

theorem Memory.OneEach.run {m m' : Memory} {op : MemoryOp} {a : op.Answer} (once : m.OneEach) (h : op.run m = .ok (a, m')) :
    m'.OneEach := by
  unfold OneEach
  rcases MemoryOp.run_intents h with same | ⟨i₀, -, free, set⟩ | ⟨id₀, i₀, i₁, -, found, ⟨hash, status, updatedAt, rfl⟩, set⟩
  · rw [same]
    exact once
  · have other : ∀ id i, m.intents.get id = some i → i.idempotencyKey ≠ i₀.idempotencyKey := fun id i here =>
      free i ((OrderedMap.mem_values_iff _).2 ⟨id, here⟩)
    intro id id' i i' here here' same
    rw [set, OrderedMap.get_set] at here here'
    split at here <;> split at here'
    · rename_i first second
      rw [first, second]
    · cases here
      exact (other id' i' here' same.symm).elim
    · cases here'
      exact (other id i here same).elim
    · exact once id id' i i' here here' same
  · intro id id' i i' here here' same
    rw [set, OrderedMap.get_set] at here here'
    split at here <;> split at here'
    · rename_i first second
      rw [first, second]
    · rename_i first _
      cases here
      rw [first]
      exact once id₀ id' i₀ i' found here' same
    · rename_i second
      cases here'
      rw [second]
      exact once id id₀ i i₀ here found same
    · exact once id id' i i' here here' same

theorem MemoryOp.run_continues {m m' : Memory} {op : MemoryOp} {a : op.Answer} (h : op.run m = .ok (a, m'))
    (fresh : ∀ i, op = .createIntent i → m.intents.get i.id = none) {id : String} {i : PaymentIntent}
    (stored : m.intents.get id = some i) :
    ∃ i', m'.intents.get id = some i' ∧ i'.Continues i ∧ ((Op.memory op).amends = false → i' = i) := by
  rcases MemoryOp.run_intents h with same | ⟨i₀, create, -, set⟩ | ⟨id₀, i₀, i₁, amends, found, continues, set⟩
  · rw [same]
    exact ⟨i, stored, .refl i, fun _ => rfl⟩
  · have other : id ≠ i₀.id := by
      rintro rfl
      rw [fresh i₀ create] at stored
      cases stored
    rw [set, OrderedMap.get_set_ne _ _ other]
    exact ⟨i, stored, .refl i, fun _ => rfl⟩
  · rw [set, OrderedMap.get_set]
    split
    · rename_i here
      obtain rfl : i₀ = i := Option.some.inj (found.symm.trans (here ▸ stored))
      refine ⟨i₁, rfl, continues, fun none => ?_⟩
      rw [amends] at none
      cases none
    · exact ⟨i, stored, .refl i, fun _ => rfl⟩

theorem Database.run_continues {pgTime : Json → Option Timestamp} {now : Timestamp} {db db' : Database} {s : Statement}
    {rows : List s.Row} (h : s.run pgTime now db = .ok (rows, db')) {id : String} {i : PaymentIntent}
    (stored : (db.intents.find (·.id = id)).map IntentRow.intent = some i) :
    ∃ i', (db'.intents.find (·.id = id)).map IntentRow.intent = some i' ∧ i'.Continues i ∧
      ((Op.query s).amends = false → i' = i) := by
  obtain ⟨r, found, rfl⟩ := Option.map_eq_some_iff.1 stored
  rcases Database.run_intents h with same | ⟨v, -, inserted⟩ | ⟨cond, set, amends, updated, keeps⟩
  · rw [same]
    exact ⟨_, stored, .refl _, fun _ => rfl⟩
  · rw [Table.find_insert inserted (·.id) id, found]
    exact ⟨_, rfl, .refl _, fun _ => rfl⟩
  · rw [Table.find_update updated (·.id) fun r => (keeps r).1, found]
    refine ⟨_, rfl, ?_, fun none => ?_⟩
    · unfold Table.assign
      split
      · exact (keeps r).2
      · exact .refl _
    · rw [amends] at none
      cases none

section Exec

variable {d : Deployment} {op : Op} {w w' : World} {ans : op.Answer}

theorem exec_oneEach (h : exec d op w ans w') (once : w.memory.OneEach) : w'.memory.OneEach := by
  cases op with
  | randomUUID => rw [h.2]; exact once
  | stellar request => rw [show w' = w from h]; exact once
  | query s => obtain ⟨db, -, rfl⟩ := h; exact once
  | memory op =>
    obtain ⟨m, segment, rfl⟩ := h
    cases segment with
    | ran ok => exact once.run ok
    | threw failed => exact once

/-- A stored intent stays, as it is unless the operation amends one. -/
theorem exec_continues (h : exec d op w ans w') (fresh : ∀ i, op = .memory (.createIntent i) → w.memory.intents.get i.id = none)
    {id : String} {i : PaymentIntent} (stored : w.intent d id = some i) :
    ∃ i', w'.intent d id = some i' ∧ i'.Continues i ∧ (op.amends = false → i' = i) := by
  have unchanged : w'.intent d id = w.intent d id → ∃ i', w'.intent d id = some i' ∧ i'.Continues i ∧ (op.amends = false → i' = i) :=
    fun same => ⟨i, same.trans stored, .refl i, fun _ => rfl⟩
  cases op with
  | randomUUID => rw [h.2] at unchanged ⊢; exact unchanged rfl
  | stellar request => rw [show w' = w from h] at unchanged ⊢; exact unchanged rfl
  | memory op =>
    obtain ⟨m, segment, rfl⟩ := h
    cases segment with
    | threw failed => exact unchanged rfl
    | ran ok =>
      cases pool : d.pool with
      | true => exact unchanged (by rw [World.intent, World.intent, if_pos pool, if_pos pool])
      | false =>
        rw [World.intent, if_neg (by simp [pool])] at stored ⊢
        exact MemoryOp.run_continues ok (fun i create => fresh i (congrArg Op.memory create)) stored
  | query s =>
    obtain ⟨db, queried, rfl⟩ := h
    have ran : ∀ {now rows}, s.run d.pgTime now w.db = .ok (rows, db) →
        ∃ i', World.intent d { w with db } id = some i' ∧ i'.Continues i ∧ ((Op.query s).amends = false → i' = i) := by
      intro now rows ok
      cases pool : d.pool with
      | false => exact unchanged (by rw [World.intent, World.intent, if_neg (by simp [pool]), if_neg (by simp [pool])])
      | true =>
        rw [World.intent, if_pos pool] at stored ⊢
        exact Database.run_continues ok stored
    cases queried with
    | ran ok => exact ran ok
    | unanswered ok => exact ran ok
    | refused failed => exact unchanged rfl
    | unreached => exact unchanged rfl

end Exec

/-! ## Where stored intents come from -/

/-- The operation stores an intent under a key that is free, as it is given or as its row. -/
inductive Opened (pool : Bool) (m : Memory) : Op → PaymentIntent → Prop where
  | inMemory {i : PaymentIntent} (memory : pool = false) (free : ∀ item ∈ m.intents.values, item.idempotencyKey ≠ i.idempotencyKey) :
      Opened pool m (.memory (.createIntent i)) i
  | inserted {v : IntentValues} (sql : pool = true) : Opened pool m (.query (.insertIntent v)) (v.row (scaledValue 12 v.amount)).intent

/-- A record after an operation continues one before it, or is the one the operation adds. -/
inductive Origin (pool : Bool) (m : Memory) (op : Op) (before : Option PaymentIntent) (i : PaymentIntent) : Prop where
  | continued {i₀ : PaymentIntent} (stored : before = some i₀) (continues : i.Continues i₀) : Origin pool m op before i
  | added (opened : Opened pool m op i) : Origin pool m op before i

theorem MemoryOp.run_origin {m m' : Memory} {op : MemoryOp} {a : op.Answer} (h : op.run m = .ok (a, m')) {id : String}
    {i : PaymentIntent} (stored : m'.intents.get id = some i) : Origin false m (.memory op) (m.intents.get id) i := by
  rcases MemoryOp.run_intents h with same | ⟨i₀, rfl, free, set⟩ | ⟨id₀, i₀, i₁, -, found, continues, set⟩
  · rw [same] at stored
    exact .continued stored (.refl i)
  · rw [set, OrderedMap.get_set] at stored
    split at stored
    · cases stored
      exact .added (.inMemory rfl free)
    · exact .continued stored (.refl i)
  · rw [set, OrderedMap.get_set] at stored
    split at stored
    · rename_i here
      cases stored
      exact .continued (here ▸ found) continues
    · exact .continued stored (.refl i)

theorem Database.run_origin {pgTime : Json → Option Timestamp} {now : Timestamp} {db db' : Database} {s : Statement}
    {rows : List s.Row} (h : s.run pgTime now db = .ok (rows, db')) (m : Memory) {id : String} {i : PaymentIntent}
    (stored : (db'.intents.find (·.id = id)).map IntentRow.intent = some i) :
    Origin true m (.query s) ((db.intents.find (·.id = id)).map IntentRow.intent) i := by
  obtain ⟨r, found, rfl⟩ := Option.map_eq_some_iff.1 stored
  rcases Database.run_intents h with same | ⟨v, rfl, inserted⟩ | ⟨cond, set, -, updated, keeps⟩
  · rw [same] at stored
    exact .continued stored (.refl _)
  · rw [Table.find_insert inserted (·.id) id] at found
    rcases Option.or_eq_some_iff.1 found with before | ⟨-, new⟩
    · exact .continued (by rw [before]; rfl) (.refl _)
    · split at new
      · cases new
        exact .added (.inserted rfl)
      · cases new
  · rw [Table.find_update updated (·.id) fun r => (keeps r).1] at found
    obtain ⟨r₀, before, rfl⟩ := Option.map_eq_some_iff.1 found
    refine .continued (by rw [before]; rfl) ?_
    unfold Table.assign
    split
    · exact (keeps r₀).2
    · exact .refl _

theorem exec_origin {d : Deployment} {op : Op} {w w' : World} {ans : op.Answer} (h : exec d op w ans w') {id : String}
    {i : PaymentIntent} (stored : w'.intent d id = some i) : Origin d.pool w.memory op (w.intent d id) i := by
  have unchanged : w'.intent d id = w.intent d id → Origin d.pool w.memory op (w.intent d id) i :=
    fun same => .continued (same ▸ stored) (.refl i)
  cases op with
  | randomUUID => rw [h.2] at unchanged; exact unchanged rfl
  | stellar request => rw [show w' = w from h] at unchanged; exact unchanged rfl
  | memory op =>
    obtain ⟨m, segment, rfl⟩ := h
    cases segment with
    | threw failed => exact unchanged rfl
    | ran ok =>
      by_cases pool : d.pool = true
      · exact unchanged (by rw [World.intent, World.intent, if_pos pool, if_pos pool])
      · rw [World.intent, if_neg pool] at stored ⊢
        rw [Bool.not_eq_true] at pool
        rw [pool]
        exact MemoryOp.run_origin ok stored
  | query s =>
    obtain ⟨db, queried, rfl⟩ := h
    have ran : ∀ {now rows}, s.run d.pgTime now w.db = .ok (rows, db) → Origin d.pool w.memory (.query s) (w.intent d id) i := by
      intro now rows ok
      by_cases pool : d.pool = true
      · rw [World.intent, if_pos pool] at stored ⊢
        rw [pool]
        exact Database.run_origin ok w.memory stored
      · exact unchanged (by rw [World.intent, World.intent, if_neg pool, if_neg pool])
    cases queried with
    | ran ok => exact ran ok
    | unanswered ok => exact ran ok
    | refused failed => exact unchanged rfl
    | unreached => exact unchanged rfl

/-! ## Over a run -/

/-- How stored intents move on. -/
def Kept (d : Deployment) (s s' : PaymentState) : Prop :=
  s.log <:+ s'.log ∧ ∀ id i, s.world.intent d id = some i → ∃ i', s'.world.intent d id = some i' ∧ i'.Continues i ∧
    ((∀ e ∈ s'.log, e.op.amends = false) → i' = i)

theorem kept_along (d : Deployment) : (discipline d).Along (Kept d) where
  refl s := ⟨List.suffix_refl _, fun id i stored => ⟨i, stored, .refl i, fun _ => rfl⟩⟩
  trans := by
    intro s₁ s₂ s₃ h h'
    refine ⟨h.1.trans h'.1, fun id i stored => ?_⟩
    obtain ⟨i₂, stored₂, continues₂, same₂⟩ := h.2 id i stored
    obtain ⟨i₃, stored₃, continues₃, same₃⟩ := h'.2 id i₂ stored₂
    refine ⟨i₃, stored₃, continues₂.trans continues₃, fun none => ?_⟩
    rw [same₃ none, same₂ fun e mem => none e (h'.1.mem mem)]
  step := by
    intro s s' e inv just does
    refine ⟨does.2 ▸ List.suffix_cons _ _, fun id i stored => ?_⟩
    have fresh : ∀ j, e.op = .memory (.createIntent j) → s.world.memory.intents.get j.id = none := by
      intro j create
      have proper := inv.proper just
      rw [create] at proper
      exact proper.2.2
    obtain ⟨i', stored', continues, same⟩ := exec_continues does.1 fresh stored
    exact ⟨i', stored', continues, fun none => same (none e (does.2 ▸ List.mem_cons_self))⟩

theorem oneEach_of_run {d : Deployment} {cfg : PaymentConfig} (run : Reachable d cfg) : cfg.shared.world.memory.OneEach := by
  induction run with
  | refl => intro id id' i i' here; cases here
  | tail _ step ih =>
    cases step with
    | start c => exact ih
    | act _ does => exact exec_oneEach does.1 ih

/-! ## What a creation does on its way -/

/-- An operation of a `create`: it amends no intent, and if the store keeps the
request as it is, the operation changes no record unless the call then returns, or
has lost the answer of the database. -/
def CreateStep (d : Deployment) (whole : Prop) (op : Op) (next : op.Answer → PaymentProg Returned) : Prop :=
  op.amends = false ∧ (whole → ∀ w ans w', exec d op w ans w' →
    (∃ r, next ans = .ret r) ∨ (∃ message, next ans = .fail (.serviceUnavailable message)) ∨
      w'.memory = w.memory ∧ w'.db = w.db)

/-- The intent stored by a `create` passes its own last check. -/
theorem sameDetails_self {p : NativePayment} {units : Nat} (value : stroops p.amount = .ok units) : SameDetails p p :=
  ⟨rfl, rfl, rfl, ⟨units, value, value⟩, rfl⟩

/-- What the column of a memo gives back. -/
theorem storedMemo_kept (memo : Option JsString) :
    (((memo.map JsString.toWellFormed).filter (· ≠ "")).map JsString.text).getD "" = keptText true (memo.getD "") := by
  cases memo with
  | none => rfl
  | some m => by_cases empty : m.toWellFormed = "" <;> simp [Option.filter, empty]

/-- It gives the memo back if that is of whole characters. -/
theorem storedMemo_getD {memo : Option JsString} (whole : ∀ m, memo = some m → keptText true m = m) :
    (((memo.map JsString.toWellFormed).filter (· ≠ "")).map JsString.text).getD "" = memo.getD "" := by
  rw [storedMemo_kept]
  cases memo with
  | none => rfl
  | some m => exact whole m rfl

/-- So does the row it inserts: the column gives the amount back in stroops. -/
theorem sameDetails_row {i : PaymentIntent} {units n : Nat} (value : stroops i.amount = .ok units) (column : n = scaledValue 12 i.amount)
    (whole : ∀ m, i.memo = some m → keptText true m = m) :
    SameDetails ((PaymentIntentStore.values i).row n).intent.toNativePayment i.toNativePayment := by
  refine ⟨rfl, rfl, rfl, ⟨units, ?_, value⟩, ?_⟩
  · show stroops (stripZeros (fixedPoint 12 n)) = .ok units
    obtain ⟨fits, -⟩ := stroops_ok value
    rw [column, stroops_stored fits, value]
  · exact storedMemo_getD whole

/-- The last steps of a `create`: the store, and the check of what it returned. -/
def storeAndCheck (d : Deployment) (i : PaymentIntent) : PaymentProg PaymentIntent := do
  let saved ← PaymentIntentStore.createIntent d i
  .ofExcept (checkSameDetails saved.toNativePayment i.toNativePayment)
  return saved

/-- The check, which returns what it has checked. -/
def checked (i saved : PaymentIntent) : Except Exception PaymentIntent := do
  checkSameDetails saved.toNativePayment i.toNativePayment
  return saved

/-- What `createIntent` makes of the answer of the database. -/
def insertedIntent (answer : Except DbError (List IntentRow)) : Except Exception PaymentIntent := do
  let rows ← answer.mapError queryError
  let row ← PaymentIntentStore.firstRow rows
  return row.intent

theorem storeAndCheck_pool {d : Deployment} (pool : d.pool = true) (i : PaymentIntent) :
    storeAndCheck d i = .act (.query (.insertIntent (PaymentIntentStore.values i)))
      fun answer => .ofExcept (insertedIntent answer >>= checked i) := by
  unfold storeAndCheck PaymentIntentStore.createIntent
  rw [pool]
  refine congrArg (Prog.act (Op.query (.insertIntent (PaymentIntentStore.values i)))) (funext fun answer => ?_)
  cases answer with
  | error e => rfl
  | ok rows =>
    cases rows with
    | nil => rfl
    | cons row rows =>
      show (Prog.ofExcept (checkSameDetails row.intent.toNativePayment i.toNativePayment) >>= fun _ => Prog.ret row.intent) =
        Prog.ofExcept (checked i row.intent)
      unfold checked
      cases checkSameDetails row.intent.toNativePayment i.toNativePayment <;> rfl

theorem storeAndCheck_memory {d : Deployment} (pool : d.pool = false) (i : PaymentIntent) :
    storeAndCheck d i = .act (.memory (.createIntent i)) fun answer => .ofExcept (answer >>= checked i) := by
  unfold storeAndCheck PaymentIntentStore.createIntent
  rw [pool]
  refine congrArg (Prog.act (Op.memory (.createIntent i))) (funext fun answer => ?_)
  cases answer with
  | error e => rfl
  | ok saved =>
    show (Prog.ofExcept (checkSameDetails saved.toNativePayment i.toNativePayment) >>= fun _ => Prog.ret saved) =
      Prog.ofExcept (checked i saved)
    unfold checked
    cases checkSameDetails saved.toNativePayment i.toNativePayment <;> rfl

theorem checked_ok {i saved : PaymentIntent} (same : SameDetails saved.toNativePayment i.toNativePayment) :
    checked i saved = .ok saved := by
  rw [checked, checkSameDetails_ok.2 same]
  rfl

theorem returns_of_ok {x : Except Exception PaymentIntent} {i : PaymentIntent} (h : x = .ok i) :
    ∃ r, ((Returned.intent ∘ some) <$> (Prog.ofExcept x : PaymentProg PaymentIntent)) = .ret r := by
  rw [h]
  exact ⟨_, rfl⟩

theorem each_stored (d : Deployment) {i : PaymentIntent} {units : Nat} (value : stroops i.amount = .ok units) :
    ((Returned.intent ∘ some) <$> storeAndCheck d i).Each (CreateStep d (∀ m, i.memo = some m → keptText d.pool m = m)) := by
  cases pool : d.pool with
  | true =>
    rw [storeAndCheck_pool pool]
    refine ⟨⟨rfl, ?_⟩, fun answer => ?_⟩
    · intro whole w ans w' h
      obtain ⟨db, queried, rfl⟩ := h
      cases queried with
      | ran ok =>
        rcases Database.insertIntent_cases ok with ⟨existing, -, -, rfl⟩ | ⟨rfl, -, -⟩
        · exact .inr (.inr ⟨rfl, rfl⟩)
        · left
          exact returns_of_ok (checked_ok (sameDetails_row value rfl whole))
      | refused failed => exact .inr (.inr ⟨rfl, rfl⟩)
      | unreached => exact .inr (.inr ⟨rfl, rfl⟩)
      | unanswered ok => exact .inr (.inl ⟨_, rfl⟩)
    · exact (Prog.ended_map_ofExcept _ _).each
  | false =>
    rw [storeAndCheck_memory pool]
    refine ⟨⟨rfl, ?_⟩, fun answer => ?_⟩
    · intro _ w ans w' h
      obtain ⟨memory, segment, rfl⟩ := h
      cases segment with
      | threw failed => exact .inr (.inr ⟨rfl, rfl⟩)
      | ran ok =>
        have ok : w.memory.createIntent i = (_, memory) := Except.ok.inj ok
        rcases w.memory.createIntent_cases i with ⟨existing, -, -, same⟩ | ⟨-, same⟩
        · obtain ⟨-, rfl⟩ := Prod.mk.inj (same.symm.trans ok)
          exact .inr (.inr ⟨rfl, rfl⟩)
        · obtain ⟨rfl, -⟩ := Prod.mk.inj (same.symm.trans ok)
          left
          exact returns_of_ok (checked_ok (sameDetails_self value))
    · exact (Prog.ended_map_ofExcept _ _).each

/-- What the store is to keep of an accepted request it keeps as it is: with a
database, no half of a surrogate pair stands alone in the key or the memo. -/
def DeclaredInput.Whole (d : Deployment) (input : DeclaredInput) : Prop :=
  ∀ payment key, validatePayment d.sdk input.payment = .ok payment → idempotencyKeyOf input.idempotencyKey = .ok key →
    keptText d.pool key = key ∧ ∀ memo, payment.memo = some memo → keptText d.pool memo = memo

/-- No half of a surrogate pair stands alone in the key or the memo. -/
def DeclaredInput.isWhole (input : DeclaredInput) : Bool :=
  (stringOf input.idempotencyKey).all JsString.isWellFormed && (stringOf input.payment.memo).all JsString.isWellFormed

theorem DeclaredInput.whole_of_isWhole {d : Deployment} {input : DeclaredInput} (h : input.isWhole = true) : input.Whole d := by
  rw [isWhole, Bool.and_eq_true] at h
  intro payment key valid given
  refine ⟨keptText_eq_self fun _ => ?_, fun memo asked => keptText_eq_self fun _ => ?_⟩
  · rw [idempotencyKeyOf_ok given, stringOf_json] at h
    exact h.1
  · rw [(memoOf_ok (validatePayment_ok.1 valid).memo).1, asked, Option.map_some, stringOf_json] at h
    exact h.2

theorem each_create (d : Deployment) (input : DeclaredInput) : (Call.body d (.create input)).Each (CreateStep d (input.Whole d)) := by
  show Prog.Each _ ((Returned.intent ∘ some) <$> PaymentIntentService.create d input.input)
  unfold PaymentIntentService.create
  cases valid : validatePayment d.sdk input.input.payment with
  | error e => exact trivial
  | ok payment =>
  cases given : idempotencyKeyOf input.input.idempotencyKey with
  | error e => exact trivial
  | ok key =>
  obtain ⟨units, value, -⟩ := (validatePayment_ok.1 valid).positive
  refine ⟨⟨rfl, fun _ w ans w' h => .inr (.inr ?_)⟩, fun now => ⟨⟨rfl, fun _ w ans w' h => .inr (.inr ?_)⟩, fun id => ?_⟩⟩
  · rw [show w' = w from h]
    exact ⟨rfl, rfl⟩
  · rw [h.2]
    exact ⟨rfl, rfl⟩
  · refine (@each_stored d (PaymentIntentService.newIntent input.input payment key id now) units value).mono fun op next step => ?_
    exact ⟨step.1, fun whole => step.2 (whole payment key valid given).2⟩

theorem each_body (d : Deployment) (c : Call) :
    ((payments d).body c).Each fun op next => ∀ input, c = .create input → CreateStep d (input.Whole d) op next := by
  cases c with
  | create input =>
    refine (each_create d input).mono fun op next step _ same => ?_
    cases same
    exact step
  | _ => exact Prog.each_of_all (by rintro op next input ⟨⟩) _

/-! ## The guarantee -/

/-- Only creations have done anything yet. -/
def OnlyCreates (log : List PaymentEvent) : Prop := ∀ e ∈ log, ∃ input, e.call = .create input

/-- What idempotent creation comes to in a configuration of a run: no key has two
intents, a stored intent is there for good, a `create` has returned the intent of
its key with the details it was called with, and the operations of a `create`
that ends in a conflict leave every record as it was. -/
structure IdempotentCreation (d : Deployment) (cfg : PaymentConfig) : Prop where
  onePerKey : ∀ id id' i i', cfg.shared.world.intent d id = some i → cfg.shared.world.intent d id' = some i' →
    i.idempotencyKey = i'.idempotencyKey → id = id'
  neverReplaced : ∀ cfg' id i, (payments d).Steps cfg cfg' → cfg.shared.world.intent d id = some i →
    ∃ i', cfg'.shared.world.intent d id = some i' ∧ i'.Continues i ∧ (OnlyCreates cfg'.shared.log → i' = i)
  returnsTheOne : ∀ (tid : Nat) input saved, cfg.calls[tid]? = some (.create input, .ret (.intent (some saved))) →
    input.idempotencyKey = some saved.idempotencyKey.json ∧ Requested input.payment saved.toNativePayment ∧
    ∃ i, cfg.shared.world.intent d saved.id = some i ∧ i.Continues saved ∧ (OnlyCreates cfg.shared.log → i = saved)
  conflictHarmless : ∀ cfg₁ cfg₂ e input message, (payments d).Step cfg cfg₁ → cfg₁.shared.log = e :: cfg.shared.log →
    (payments d).Steps cfg₁ cfg₂ → cfg₂.calls[e.tid]? = some (.create input, .fail (.conflict message)) →
    cfg₁.shared.world.memory = cfg.shared.world.memory ∧ cfg₁.shared.world.db = cfg.shared.world.db

section

variable {d : Deployment} {cfg : PaymentConfig}

theorem none_amends (run : Reachable d cfg) (only : OnlyCreates cfg.shared.log) : ∀ e ∈ cfg.shared.log, e.op.amends = false := by
  intro e mem
  have logged : ∀ e ∈ cfg.shared.log, (∃ input, e.call = .create input) → e.op.amends = false :=
    System.each_logged (fun c => (each_body d c).mono fun op next step (create : ∃ input, c = .create input) =>
      (step _ create.choose_spec).1) run
  exact logged e mem (only e mem)

theorem one_per_key (run : Reachable d cfg) {id id' : String} {i i' : PaymentIntent}
    (stored : cfg.shared.world.intent d id = some i) (stored' : cfg.shared.world.intent d id' = some i')
    (same : i.idempotencyKey = i'.idempotencyKey) : id = id' := by
  unfold World.intent at stored stored'
  cases pool : d.pool with
  | false =>
    rw [if_neg (by simp [pool])] at stored stored'
    exact oneEach_of_run run id id' i i' stored stored' same
  | true =>
    rw [if_pos pool] at stored stored'
    obtain ⟨r, found, rfl⟩ := Option.map_eq_some_iff.1 stored
    obtain ⟨r', found', rfl⟩ := Option.map_eq_some_iff.1 stored'
    have key : r.idempotencyKey = r'.idempotencyKey := JsString.text.inj same
    have one := Table.unique _ Database.clash_symm (Table.mem_of_find found).1 (Table.mem_of_find found').1 (by simp [IntentRow.clash, key])
    rw [← Database.find_id found, ← Database.find_id found', one]

/-- **Creation is idempotent** in every run whose creations the store keeps as they are. -/
theorem creation_idempotent (run : Reachable d cfg) (whole : ∀ c ∈ cfg.calls, ∀ input, c.1 = .create input → input.Whole d) :
    IdempotentCreation d cfg := by
  have holds := payments_holds run
  refine ⟨?_, ?_, ?_, ?_⟩
  · intro id id' i i' stored stored' same
    exact one_per_key run stored stored' same
  · intro cfg' id i steps stored
    obtain ⟨-, kept⟩ := (kept_along d).steps (payments_sound d) holds steps
    obtain ⟨i', stored', continues, same⟩ := kept id i stored
    exact ⟨i', stored', continues, fun only => same (none_amends (run.trans steps) only)⟩
  · intro tid input saved done
    obtain ⟨s, ⟨-, kept⟩, created⟩ := (kept_along d).returned holds done
    have created : Created d input.input saved s := created
    obtain ⟨i, stored, continues, same⟩ := kept saved.id saved created.stored
    obtain ⟨payment, valid⟩ := created.accepted
    obtain ⟨key, given, rfl⟩ : ∃ key, idempotencyKeyOf input.idempotencyKey = .ok key ∧ saved.idempotencyKey = key := by
      obtain ⟨key, given, named⟩ := created.key
      exact ⟨key, given, named.trans (whole _ (List.mem_of_getElem? done) input rfl payment key valid given).1⟩
    exact ⟨idempotencyKeyOf_ok given, created.requested, i, stored, continues, fun only => same (none_amends run only)⟩
  · intro cfg₁ cfg₂ e input message step log steps failed
    obtain ⟨next, waiting, after, exec⟩ := step.logged log
    obtain ⟨p, later⟩ := System.call_stays steps after
    have call : e.call = .create input := congrArg Prod.fst (Option.some.inj (later.symm.trans failed))
    have create : CreateStep d (input.Whole d) e.op next := (System.each_waiting (each_body d) run waiting).1 input call
    have stays : next e.ans ≠ .fail (.conflict message) → (next e.ans).Ended → False := by
      intro other ended
      have same := (System.ended_stays steps after ended).symm.trans failed
      exact other (congrArg Prod.snd (Option.some.inj same))
    rcases create.2 (whole _ (List.mem_of_getElem? waiting) input call) _ _ _ exec with ⟨r, returned⟩ | ⟨text, lost⟩ | same
    · rw [returned] at stays
      exact (stays (by simp) trivial).elim
    · rw [lost] at stays
      exact (stays (by simp) trivial).elim
    · exact same

/-- Three clients use one key at once: for 2 XLM, for 2.0 XLM and for 3 XLM. -/
def Sample.racing : List (Scheduled Call Choice) :=
  let request (amount : String) : Call :=
    .create ⟨⟨some (.str alice), some (.str bob), some (.str amount), some (.str "XLM"), none⟩, some (.str "key")⟩
  [.start (request "2"), .start (request "2.0"), .start (request "3"), .act 0 (.now 1000), .act 1 (.now 2000), .act 2 (.now 3000),
   .act 0 (.uuid intentId), .act 1 (.uuid otherId), .act 2 (.uuid thirdId), .act 1 (.done 0), .act 0 (.done 0), .act 2 (.done 0)]

/-- Every creation of the configuration is of whole characters. -/
def Sample.areWhole (cfg : PaymentConfig) : Bool := cfg.calls.all fun c =>
  match c.1 with
  | .create input => input.isWhole
  | _ => true

theorem creation_idempotent_racing : ∃ cfg, Sample.run true Sample.racing = some cfg ∧
    (cfg.shared.world.intent (Sample.deployment true) Sample.otherId).map (·.amount) = some "2" ∧
    IdempotentCreation (Sample.deployment true) cfg := by
  have ran : (Sample.run true Sample.racing).any (fun cfg => Sample.areWhole cfg &&
      decide ((cfg.shared.world.intent (Sample.deployment true) Sample.otherId).map (·.amount) = some "2")) = true := by
    decide +kernel
  obtain ⟨cfg, ran, kept⟩ := (Option.any_eq_true _ _).1 ran
  rw [Bool.and_eq_true, decide_eq_true_eq] at kept
  have run : Reachable (Sample.deployment true) cfg := reachable_of_run ran
  refine ⟨cfg, ran, kept.2, creation_idempotent run fun c mem input create => DeclaredInput.whole_of_isWhole ?_⟩
  have whole := List.all_eq_true.1 kept.1 c mem
  rwa [create] at whole

/-- With a database, a request whose memo is half of a surrogate pair, up to the statement that stores it. -/
def Sample.halfMemo : List (Scheduled Call Choice) :=
  [.start (.create ⟨{ payment with memo := some (JsString.ofUnits [0xD800]).json }, some (.str "key")⟩), .act 0 (.now 1000), .act 0 (.uuid intentId)]

/-- The first call is a creation that has ended in a conflict. -/
def Sample.conflicts (cfg : PaymentConfig) : Bool :=
  match (cfg.calls[0]? : Option (Call × PaymentProg Returned)) with
  | some (.create _, .fail (.conflict _)) => true
  | _ => false

/-- The column of the memo has U+FFFD instead: the `create` ends in a conflict with the intent it has stored. -/
theorem creation_conflictsWithItself :
    ∃ cfg, Sample.run true Sample.halfMemo = some cfg ∧ ¬IdempotentCreation (Sample.deployment true) cfg := by
  have ran : (Sample.run true Sample.halfMemo).any (fun cfg =>
      ((payments (Sample.deployment true)).after (effect (Sample.deployment true)) cfg (.act 0 (.done 0))).any fun cfg₁ =>
        cfg.shared.world.db.intents.rows.isEmpty && !cfg₁.shared.world.db.intents.rows.isEmpty && Sample.conflicts cfg₁) = true := by
    decide +kernel
  obtain ⟨cfg, ran, next⟩ := (Option.any_eq_true _ _).1 ran
  obtain ⟨cfg₁, after, stored⟩ := (Option.any_eq_true _ _).1 next
  simp only [Bool.and_eq_true, Bool.not_eq_true'] at stored
  obtain ⟨⟨none, one⟩, ends⟩ := stored
  refine ⟨cfg, ran, fun idempotent => ?_⟩
  unfold Sample.conflicts at ends
  split at ends
  · rename_i input message failed
    obtain ⟨e, tid, log⟩ := System.after_log after
    have step := System.after_step (effect_exec (Sample.deployment true)) after
    obtain ⟨-, same⟩ := idempotent.conflictHarmless cfg₁ cfg₁ e input message step log .refl (by rw [tid]; exact failed)
    rw [same, none] at one
    cases one
  · cases ends

end

end AfriPay.Payments
