import AfriPay.Ledger.Book
import AfriPay.Payments.IntentService

/-!
# Both stores keep a book

Abstractly a store of payment intents is a book: an intent is opened with its
payment, claimed for one transaction hash and settled with one final status.
Each operation of the in-memory branch and each statement of the SQL branch
does what its name says on that book, or nothing (`exec_may`).
-/

namespace AfriPay.Payments
open Calls Text Stellar Storage Ledger

abbrev IntentEntry := Entry NativePayment String PaymentStatus
abbrev IntentBook := Book String NativePayment String PaymentStatus
abbrev IntentMove := Move String NativePayment String PaymentStatus

/-- A stored hash, which is a string unless a request supplied something else. -/
def hashText : Option Json → Option String
  | some (.str hash) => some hash
  | _ => none

def finalStatus (status : PaymentStatus) : Option PaymentStatus := if status = .pending then none else some status

def PaymentIntent.entry (i : PaymentIntent) : IntentEntry :=
  ⟨i.toNativePayment, hashText i.transactionHash, finalStatus i.status⟩

def Memory.book (m : Memory) : IntentBook := fun id => (m.intents.get id).map PaymentIntent.entry

def Database.book (db : Database) : IntentBook := fun id => (db.intents.find (·.id = id)).map fun r => r.intent.entry

/-- The book a deployment keeps. -/
def World.book (d : Deployment) (w : World) : IntentBook := fun id => (w.intent d id).map PaymentIntent.entry

/-- No hash yet, or the text of one. -/
def IsHash (v : Option Json) : Prop := v = none ∨ ∃ hash, hash ≠ "" ∧ v = some (.str hash)

/-- Every intent is stored under its identifier. -/
structure Memory.Keyed (m : Memory) : Prop where
  key : ∀ id i, m.intents.get id = some i → i.id = id

/-- What the maps of the in-memory branch satisfy while every request is of the declared type. -/
structure Memory.Sound (m : Memory) : Prop extends m.Keyed where
  hash : ∀ id i, m.intents.get id = some i → IsHash i.transactionHash

/-- What the rows satisfy beyond the indexes. -/
def Database.Sound (db : Database) : Prop := ∀ r ∈ db.intents.rows, r.transactionHash ≠ some ""

structure World.Sound (w : World) : Prop where
  memory : w.memory.Sound
  db : w.db.Sound

/-- The move an operation makes, if it makes one. -/
def Op.move : Op → IntentMove
  | .memory (.createIntent i) => .opened i.id i.toNativePayment
  | .query (.insertIntent v) => .opened v.id (v.row (scaledValue 12 v.amount)).intent.toNativePayment
  | .memory (.claimHash id hash _) | .query (.claimHash id hash) => .claimed id hash
  | .memory (.settle id (.str hash) status _) | .query (.settle id (.str hash) status) => .settled id hash status
  | _ => .idle

/-- The intent and the hash of an operation that claims. -/
def Op.claims : Op → Option (String × String)
  | .memory (.claimHash id hash _) | .query (.claimHash id hash) => some (id, hash)
  | _ => none

/-- The intent, the hash and the status of an operation that settles. -/
def Op.settles : Op → Option (String × Json × PaymentStatus)
  | .memory (.settle id hash status _) | .query (.settle id hash status) => some (id, hash, status)
  | _ => none

theorem Op.claims_eq {op : Op} {id hash : String} (h : op.claims = some (id, hash)) :
    op = .query (.claimHash id hash) ∨ ∃ now, op = .memory (.claimHash id hash now) := by
  unfold claims at h
  split at h
  · cases h; exact .inr ⟨_, rfl⟩
  · cases h; exact .inl rfl
  · cases h

theorem Op.settles_eq {op : Op} {id : String} {hash : Json} {status : PaymentStatus} (h : op.settles = some (id, hash, status)) :
    op = .query (.settle id hash status) ∨ ∃ now, op = .memory (.settle id hash status now) := by
  unfold settles at h
  split at h
  · cases h; exact .inr ⟨_, rfl⟩
  · cases h; exact .inl rfl
  · cases h

/-- The operation changes no intent, stores no record of the in-memory branch and hands nothing over. -/
def Op.quiet : Op → Bool
  | .memory (.createIntent _) | .memory (.claimHash ..) | .memory (.settle ..) | .memory (.saveLink _) => false
  | .query (.insertIntent _) | .query (.claimHash ..) | .query (.settle ..) => false
  | .stellar (.submitTransaction _) => false
  | _ => true

/-- The operation only reads. -/
def Op.reads : Op → Bool
  | .memory (.findIntent _) | .memory (.findLink _) | .memory (.listIntents _) => true
  | .query (.selectIntent _) | .query (.selectLink _) | .query (.selectIntents _) => true
  | .stellar (.submitTransaction _) => false
  | .stellar _ => true
  | _ => false

theorem Op.quiet_of_reads (op : Op) (h : op.reads = true) : op.quiet = true := by
  cases op with
  | randomUUID => rfl
  | memory op => cases op <;> first | rfl | cases h
  | query s => cases s <;> first | rfl | cases h
  | stellar request => cases request <;> first | rfl | cases h

theorem MemoryOp.run_reads {m m' : Memory} {op : MemoryOp} {a : op.Answer} (reads : (Op.memory op).reads = true)
    (h : op.run m = .ok (a, m')) : m' = m := by
  cases op with
  | findIntent id => cases h; rfl
  | findLink id => cases h; rfl
  | listIntents sender => cases h; rfl
  | createIntent | claimHash | settle | saveLink => cases reads

theorem Statement.run_reads {pgTime : Json → Option Timestamp} {now : Timestamp} {db db' : Database} {s : Statement}
    {rows : List s.Row} (reads : (Op.query s).reads = true) (h : s.run pgTime now db = .ok (rows, db')) : db' = db := by
  cases s with
  | selectIntent id => obtain ⟨_, -, h⟩ := bind_ok h; cases h; rfl
  | selectLink id => obtain ⟨_, -, h⟩ := bind_ok h; cases h; rfl
  | selectIntents sender => obtain ⟨_, -, h⟩ := bind_ok h; cases h; rfl
  | insertIntent | claimHash | settle | insertLink => cases reads

/-- What the service sees to before it issues an operation. -/
def Op.Proper (m : Memory) : Op → Prop
  | .memory (.createIntent i) => i.transactionHash = none ∧ i.status = .pending ∧ m.intents.get i.id = none
  | .query (.insertIntent v) => v.status = .pending
  | .memory (.claimHash _ hash _) | .query (.claimHash _ hash) => hash ≠ ""
  | _ => True

theorem IsHash.eq_of_hashText {v : Option Json} {hash : String} (h : hashText v = some hash) : v = some (.str hash) := by
  unfold hashText at h
  split at h
  · cases h; rfl
  · cases h

/-- The first check of `claimHash`: there is a hash, and it is another one. -/
theorem IsHash.other_iff {v : Option Json} (h : IsHash v) {hash : String} :
    (truthy v ∧ isString hash v = false) ↔ ∃ t, v = some (.str t) ∧ t ≠ hash := by
  rcases h with none | ⟨t, nonempty, held⟩
  · simp [none, truthy]
  · simp [held, truthy, isString, stringOf, nonempty]

theorem entry_eq_of_status {i : PaymentIntent} (pending : i.status = .pending) : i.entry.outcome = none := by
  simp [PaymentIntent.entry, finalStatus, pending]

theorem outcome_of_final {i : PaymentIntent} (final : i.status ≠ .pending) : i.entry.outcome = some i.status := by
  simp [PaymentIntent.entry, finalStatus, final]

theorem token_of_hash {i : PaymentIntent} {hash : String} (held : i.transactionHash = some (.str hash)) : i.entry.token = some hash := by
  rw [PaymentIntent.entry, held]
  rfl

/-! ## The in-memory branch -/

namespace Memory

theorem book_set (m : Memory) (id : String) (i : PaymentIntent) :
    book { m with intents := m.intents.set id i } = Function.update m.book id (some i.entry) := by
  funext j
  by_cases same : j = id
  · subst same
    simp [book]
  · simp [book, OrderedMap.get_set_ne _ _ same, Function.update_of_ne same]

theorem book_get {m : Memory} {id : String} {i : PaymentIntent} (h : m.intents.get id = some i) :
    m.book id = some i.entry := by
  rw [book, h]
  rfl

theorem Keyed.set {m : Memory} (keyed : m.Keyed) {id : String} {i : PaymentIntent} (key : i.id = id) :
    Keyed { m with intents := m.intents.set id i } := by
  constructor
  intro j i' h
  rw [OrderedMap.get_set] at h
  split at h
  · rename_i same
    rw [← Option.some.inj h, key, same]
  · exact keyed.key j i' h

theorem Sound.set {m : Memory} (sound : m.Sound) {id : String} {i : PaymentIntent} (key : i.id = id)
    (hash : IsHash i.transactionHash) : Sound { m with intents := m.intents.set id i } := by
  refine ⟨sound.toKeyed.set key, fun j i' h => ?_⟩
  rw [OrderedMap.get_set] at h
  split at h
  · rw [← Option.some.inj h]
    exact hash
  · exact sound.hash j i' h

/-- `createIntent` finds the key, or stores the intent. -/
theorem createIntent_cases (m : Memory) (i : PaymentIntent) :
    (∃ existing ∈ m.intents.values, existing.idempotencyKey = i.idempotencyKey ∧ m.createIntent i = (existing, m)) ∨
      (∀ item ∈ m.intents.values, item.idempotencyKey ≠ i.idempotencyKey) ∧
        m.createIntent i = (i, { m with intents := m.intents.set i.id i }) := by
  unfold createIntent
  cases found : m.intents.values.find? (·.idempotencyKey = i.idempotencyKey) with
  | some existing => exact .inl ⟨existing, List.mem_of_find?_eq_some found, by simpa using List.find?_some found, rfl⟩
  | none => exact .inr ⟨by simpa using found, rfl⟩

theorem createIntent_may {m : Memory} (sound : m.Sound) {i : PaymentIntent} (unclaimed : i.transactionHash = none)
    (pending : i.status = .pending) (fresh : m.intents.get i.id = none) :
    (m.createIntent i).2.Sound ∧ Book.May (.opened i.id i.toNativePayment) m.book (m.createIntent i).2.book := by
  rcases m.createIntent_cases i with ⟨existing, -, -, same⟩ | ⟨-, same⟩
  · rw [same]
    exact ⟨sound, .inl rfl⟩
  · rw [same]
    refine ⟨sound.set rfl (.inl unclaimed), .inr ?_⟩
    have entry : i.entry = ⟨i.toNativePayment, none, none⟩ := by
      simp [PaymentIntent.entry, unclaimed, hashText, finalStatus, pending]
    rw [book_set, entry]
    exact .opened (by rw [book, fresh]; rfl)

/-- What `createIntent` returns is stored, under the key of the intent handed in. -/
theorem createIntent_holds {m m' : Memory} (keyed : m.Keyed) {i saved : PaymentIntent} (h : m.createIntent i = (saved, m')) :
    m'.intents.get saved.id = some saved ∧ saved.idempotencyKey = i.idempotencyKey := by
  rcases m.createIntent_cases i with ⟨existing, mem, key, same⟩ | ⟨-, same⟩
  · obtain ⟨rfl, rfl⟩ := Prod.mk.inj (same.symm.trans h)
    obtain ⟨id, here⟩ := (OrderedMap.mem_values_iff _).1 mem
    obtain rfl := keyed.key id existing here
    exact ⟨here, key⟩
  · obtain ⟨rfl, rfl⟩ := Prod.mk.inj (same.symm.trans h)
    exact ⟨OrderedMap.get_set_self .., rfl⟩

/-- A claim that succeeds passes both checks and binds the intent. -/
theorem claimHash_ok {m m' : Memory} {id hash : String} {now : Timestamp} {i' : PaymentIntent}
    (h : m.claimHash id hash now = .ok (i', m')) : ∃ i, m.intents.get id = some i ∧
      ¬ (truthy i.transactionHash ∧ isString hash i.transactionHash = false) ∧
      ¬ (m.intents.values.any fun item => item.id ≠ id && isString hash item.transactionHash) = true ∧
      i' = { i with transactionHash := some (.str hash), updatedAt := now } ∧ m' = { m with intents := m.intents.set id i' } := by
  unfold claimHash at h
  split at h
  · cases h
  rename_i intent found
  obtain ⟨unbound, h⟩ := else_ok h
  obtain ⟨free, h⟩ := else_ok h
  cases h
  exact ⟨intent, found, unbound, free, rfl, rfl⟩

/-- A settlement that succeeds is of the stored hash; an intent that is pending gets the status. -/
theorem settle_ok {m m' : Memory} {id : String} {hash : Json} {status : PaymentStatus} {now : Timestamp} {i' : PaymentIntent}
    (h : m.settle id hash status now = .ok (i', m')) : ∃ i, m.intents.get id = some i ∧ i.transactionHash.any hash.same = true ∧
      (i' = i ∧ m' = m ∨
        i.status = .pending ∧ i' = { i with status, updatedAt := now } ∧ m' = { m with intents := m.intents.set id i' }) := by
  unfold settle at h
  split at h
  · cases h
  rename_i intent found
  obtain ⟨bound, h⟩ := else_ok h
  rw [Bool.not_eq_true', Bool.not_eq_false] at bound
  split at h
  · cases h
    exact ⟨_, found, bound, .inl ⟨rfl, rfl⟩⟩
  · rename_i pending
    cases h
    exact ⟨intent, found, bound, .inr ⟨not_not.1 pending, rfl, rfl⟩⟩

/-- The second check of `claimHash`: another intent has the hash. -/
theorem Keyed.taken_iff {m : Memory} (keyed : m.Keyed) {id hash : String} :
    (m.intents.values.any fun item => item.id ≠ id && isString hash item.transactionHash) = true ↔
      ∃ j i, m.intents.get j = some i ∧ j ≠ id ∧ i.transactionHash = some (.str hash) := by
  rw [List.any_eq_true]
  constructor
  · rintro ⟨item, mem, holds⟩
    obtain ⟨j, here⟩ := (OrderedMap.mem_values_iff _).1 mem
    rw [keyed.key j item here, Bool.and_eq_true, decide_eq_true_eq, isString_iff] at holds
    exact ⟨j, item, here, holds⟩
  · rintro ⟨j, item, here, holds⟩
    refine ⟨item, (OrderedMap.mem_values_iff _).2 ⟨j, here⟩, ?_⟩
    rw [keyed.key j item here, Bool.and_eq_true, decide_eq_true_eq, isString_iff]
    exact holds

/-- The checks of `claimHash` are those of a claim. -/
theorem claimHash_may {m m' : Memory} (sound : m.Sound) {id hash : String} {now : Timestamp} {i : PaymentIntent}
    (nonempty : hash ≠ "") (h : m.claimHash id hash now = .ok (i, m')) :
    m'.Sound ∧ Book.May (.claimed id hash) m.book m'.book := by
  obtain ⟨intent, found, unbound, free, rfl, rfl⟩ := claimHash_ok h
  refine ⟨sound.set (sound.key id intent found) (.inr ⟨hash, nonempty, rfl⟩), .inr ?_⟩
  have mine : ∀ t, intent.entry.token = some t → t = hash := by
    intro t held
    by_contra other
    exact unbound ((sound.hash id intent found).other_iff.2 ⟨t, IsHash.eq_of_hashText held, other⟩)
  have others : ∀ j e', m.book j = some e' → e'.token = some hash → j = id := by
    intro j e' here held
    obtain ⟨item, hitem, rfl⟩ := Option.map_eq_some_iff.1 here
    by_contra other
    exact free (sound.taken_iff.2 ⟨j, item, hitem, other, IsHash.eq_of_hashText held⟩)
  have claimed := Book.Moves.claimed (book_get found) mine others
  rw [Book.claimed, book_get found] at claimed
  rw [book_set]
  exact claimed

theorem settle_may {m m' : Memory} (sound : m.Sound) {id : String} {hash : Json} {status : PaymentStatus} {now : Timestamp}
    {i : PaymentIntent} (h : m.settle id hash status now = .ok (i, m')) :
    m'.Sound ∧ Book.May (Op.move (.memory (.settle id hash status now))) m.book m'.book := by
  obtain ⟨intent, found, bound, ⟨rfl, rfl⟩ | ⟨pending, rfl, rfl⟩⟩ := settle_ok h
  · exact ⟨sound, .inl rfl⟩
  refine ⟨sound.set (sound.key id intent found) (sound.hash id intent found), ?_⟩
  rw [book_set]
  by_cases still : status = .pending
  · left
    have entry : ({ intent with status, updatedAt := now } : PaymentIntent).entry = intent.entry := by
      simp [PaymentIntent.entry, still, pending]
    rw [entry, ← book_get found, Function.update_eq_self]
  · right
    rcases sound.hash id intent found with none | ⟨text, -, held⟩
    · simp [none] at bound
    · rw [held, Option.any_some] at bound
      obtain rfl := Json.eq_of_same_str bound
      have settled := Book.Moves.settled (o := status) (book_get found) (token_of_hash held) (entry_eq_of_status pending)
      rw [Book.settled, book_get found] at settled
      have entry : ({ intent with status, updatedAt := now } : PaymentIntent).entry =
          { intent.entry with outcome := some status } := by
        simp [PaymentIntent.entry, finalStatus, still]
      rw [entry]
      exact settled

end Memory

/-! ## The SQL branch -/

namespace Database

theorem book_find {db : Database} {id : String} {r : IntentRow} (h : db.intents.find (·.id = id) = some r) :
    db.book id = some r.intent.entry := by
  rw [book, h]
  rfl

/-- The statement finds the key, or inserts the row. -/
theorem insertIntent_cases {db db' : Database} {v : IntentValues} {rows : List IntentRow}
    (h : db.insertIntent v = .ok (rows, db')) :
    (∃ existing, db.intents.find (fun r => r.idempotencyKey = v.idempotencyKey.toWellFormed) = some existing ∧ rows = [existing] ∧ db' = db) ∨
      rows = [v.row (scaledValue 12 v.amount)] ∧ db'.links = db.links ∧
        db.intents.insert (v.row (scaledValue 12 v.amount)) = some db'.intents := by
  obtain ⟨_, -, h⟩ := bind_ok h
  obtain ⟨_, -, h⟩ := bind_ok h
  obtain ⟨amount, value, h⟩ := bind_ok h
  obtain rfl := pgNumeric_ok value
  obtain ⟨_, -, h⟩ := bind_ok h
  split at h
  · rename_i existing found
    cases h
    exact .inl ⟨existing, found, rfl, rfl⟩
  · obtain ⟨intents, inserted, h⟩ := bind_ok h
    cases h
    exact .inr ⟨rfl, rfl, unique_ok inserted⟩

theorem insertIntent_may {db db' : Database} {v : IntentValues} {rows : List IntentRow} (sound : db.Sound)
    (pending : v.status = .pending) (h : db.insertIntent v = .ok (rows, db')) :
    db'.Sound ∧ Book.May (Op.move (.query (.insertIntent v))) db.book db'.book := by
  rcases insertIntent_cases h with ⟨existing, -, -, rfl⟩ | ⟨-, -, inserted⟩
  · exact ⟨sound, .inl rfl⟩
  refine ⟨?_, .inr ?_⟩
  · intro r mem
    rcases (Table.mem_insert inserted).1 mem with mem | rfl
    · exact sound r mem
    · simp [IntentValues.row]
  · have fresh : db.book v.id = none := by
      rw [book, Table.find_eq_none_iff.2, Option.map_none]
      intro r mem
      have free := Table.insert_free inserted mem
      simp only [IntentRow.clash, IntentValues.row, Bool.or_eq_false_iff] at free
      exact free.1.1
    have opened := Book.Moves.opened (d := (v.row (scaledValue 12 v.amount)).intent.toNativePayment) fresh
    have entry : (v.row (scaledValue 12 v.amount)).intent.entry =
        ⟨(v.row (scaledValue 12 v.amount)).intent.toNativePayment, none, none⟩ := by
      simp [PaymentIntent.entry, IntentRow.intent, IntentValues.row, hashText, finalStatus, pending]
    have after : db'.book = db.book.opened v.id (v.row (scaledValue 12 v.amount)).intent.toNativePayment := by
      funext id
      rw [book, Table.find_insert inserted (·.id) id, Book.opened]
      by_cases same : id = v.id
      · subst same
        have gone : db.intents.find (·.id = v.id) = none := Option.map_eq_none_iff.1 fresh
        rw [gone, Function.update_self, ← entry]
        simp [IntentValues.row]
      · rw [Function.update_of_ne same]
        simp [IntentValues.row, Ne.symm same, book]
    rw [after]
    exact opened

/-- What the statement returns is a row of the table, under the key of the values handed in. -/
theorem insertIntent_holds {db db' : Database} {v : IntentValues} {rows : List IntentRow}
    (h : db.insertIntent v = .ok (rows, db')) : ∃ row ∈ db'.intents.rows, rows = [row] ∧ row.idempotencyKey = v.idempotencyKey.toWellFormed := by
  rcases insertIntent_cases h with ⟨existing, found, rfl, rfl⟩ | ⟨rfl, -, inserted⟩
  · obtain ⟨mem, key⟩ := Table.mem_of_find found
    exact ⟨existing, mem, rfl, of_decide_eq_true key⟩
  · exact ⟨_, (Table.mem_insert inserted).2 (.inr rfl), rfl, rfl⟩

theorem setHash_entry (hash : String) (now : Timestamp) (r : IntentRow) (nonempty : hash ≠ "") :
    (setHash hash now r).intent.entry = { r.intent.entry with token := some hash } := by
  simp [setHash, PaymentIntent.entry, IntentRow.intent, Option.filter, hashText, nonempty]

/-- A row whose intent holds a hash has it in the column. -/
theorem column_of_token {r : IntentRow} {hash : String} (h : r.intent.entry.token = some hash) :
    r.transactionHash = some hash := by
  have bound := IsHash.eq_of_hashText h
  simp only [IntentRow.intent, Option.map_eq_some_iff] at bound
  obtain ⟨text, kept, same⟩ := bound
  cases same
  exact (Option.filter_eq_some_iff.1 kept).1

theorem find_id {db : Database} {id : String} {r : IntentRow} (h : db.intents.find (·.id = id) = some r) : r.id = id := by
  simpa using (Table.mem_of_find h).2

/-- A book is as it was when an update selects none of its rows. -/
theorem book_unselected {db : Database} {intents : Table IntentRow IntentRow.clash} {cond : IntentRow → Bool}
    {set : IntentRow → IntentRow} (updated : db.intents.update cond set = some intents) (kept : ∀ r, (set r).id = r.id)
    {id : String} (none : ∀ r, db.intents.find (·.id = id) = some r → cond r = false) :
    book { db with intents } id = db.book id := by
  rw [book, Table.find_update updated (·.id) kept, book]
  cases found : db.intents.find (·.id = id) with
  | none => rfl
  | some r => simp [Table.assign, none r found]

theorem book_selected {db : Database} {intents : Table IntentRow IntentRow.clash} {cond : IntentRow → Bool}
    {set : IntentRow → IntentRow} (updated : db.intents.update cond set = some intents) (kept : ∀ r, (set r).id = r.id)
    {id : String} {r : IntentRow} (found : db.intents.find (·.id = id) = some r) (selected : cond r = true) :
    book { db with intents } id = some (set r).intent.entry := by
  rw [book, Table.find_update updated (·.id) kept, found]
  simp [Table.assign, selected]

/-- An update whose condition names one id changes the book there, or nowhere. -/
theorem book_update {db : Database} {intents : Table IntentRow IntentRow.clash} {cond : IntentRow → Bool}
    {set : IntentRow → IntentRow} (updated : db.intents.update cond set = some intents) (kept : ∀ r, (set r).id = r.id)
    {id : String} (names : ∀ r, cond r = true → r.id = id) :
    book { db with intents } = db.book ∨ ∃ r, db.intents.find (·.id = id) = some r ∧ cond r = true ∧
      book { db with intents } = Function.update db.book id (some (set r).intent.entry) := by
  by_cases selected : ∃ r, db.intents.find (·.id = id) = some r ∧ cond r = true
  · obtain ⟨r, found, selected⟩ := selected
    refine .inr ⟨r, found, selected, ?_⟩
    funext j
    by_cases same : j = id
    · subst same
      rw [Function.update_self, book_selected updated kept found selected]
    · rw [Function.update_of_ne same]
      apply book_unselected updated kept
      intro r' found'
      by_contra holds
      rw [Bool.not_eq_false] at holds
      exact same ((find_id found').symm.trans (names r' holds))
  · left
    funext j
    apply book_unselected updated kept
    intro r found
    by_contra holds
    rw [Bool.not_eq_false] at holds
    obtain rfl : j = id := (find_id found).symm.trans (names r holds)
    exact selected ⟨r, found, holds⟩

/-- An update that stores no empty hash. -/
theorem Sound.update {db : Database} {intents : Table IntentRow IntentRow.clash} {cond : IntentRow → Bool}
    {set : IntentRow → IntentRow} (sound : db.Sound) (updated : db.intents.update cond set = some intents)
    (proper : ∀ r ∈ db.intents.rows, (set r).transactionHash ≠ some "") : Sound { db with intents } := by
  intro r mem
  rw [show Database.intents _ = intents from rfl, Table.update_rows updated] at mem
  obtain ⟨r', mem', rfl⟩ := List.mem_map.1 mem
  unfold Table.assign
  split
  · exact proper r' mem'
  · exact sound r' mem'

theorem claimable_id {id hash : String} {r : IntentRow} (h : claimable id hash r = true) : r.id = id := by
  simp only [claimable, Bool.and_eq_true, decide_eq_true_eq] at h
  exact h.1

theorem settleable_id {id : String} {hash : Json} {r : IntentRow} (h : settleable id hash r = true) : r.id = id := by
  simp only [settleable, Bool.and_eq_true, decide_eq_true_eq] at h
  exact h.1.1

theorem clash_symm (a b : IntentRow) : IntentRow.clash a b = IntentRow.clash b a := by
  unfold IntentRow.clash
  rw [Bool.eq_iff_iff]
  simp only [Bool.or_eq_true, Bool.and_eq_true, decide_eq_true_eq]
  constructor
  · rintro ((h | h) | ⟨some, h⟩)
    · exact .inl (.inl h.symm)
    · exact .inl (.inr h.symm)
    · exact .inr ⟨h ▸ some, h.symm⟩
  · rintro ((h | h) | ⟨some, h⟩)
    · exact .inl (.inl h.symm)
    · exact .inl (.inr h.symm)
    · exact .inr ⟨h ▸ some, h.symm⟩

/-- A row is found by its identifier. -/
theorem find_row {db : Database} {r : IntentRow} (mem : r ∈ db.intents.rows) : db.intents.find (·.id = r.id) = some r := by
  apply Table.find_eq_some mem (by simp)
  intro a ha same
  refine Table.unique db.intents clash_symm ha mem ?_
  simp only [decide_eq_true_eq] at same
  simp [IntentRow.clash, same]

/-- What the `UPDATE` of `claimHash` did, if it ran. -/
theorem claimHash_ok {db db' : Database} {id hash : String} {now : Timestamp} {rows : List IntentRow}
    (h : db.claimHash id hash now = .ok (rows, db')) :
    ∃ intents, db.intents.update (claimable id hash) (setHash hash now) = some intents ∧ db' = { db with intents } ∧
      rows = (db.intents.rows.filter (claimable id hash)).map (setHash hash now) := by
  obtain ⟨_, -, h⟩ := bind_ok h
  obtain ⟨intents, updated, h⟩ := bind_ok h
  cases h
  exact ⟨intents, unique_ok updated, rfl, rfl⟩

theorem settle_ok {db db' : Database} {id : String} {hash : Json} {status : PaymentStatus} {now : Timestamp} {rows : List IntentRow}
    (h : db.settle id hash status now = .ok (rows, db')) :
    ∃ intents, db.intents.update (settleable id hash) (setStatus status now) = some intents ∧ db' = { db with intents } := by
  obtain ⟨_, -, h⟩ := bind_ok h
  obtain ⟨intents, updated, h⟩ := bind_ok h
  cases h
  exact ⟨intents, unique_ok updated, rfl⟩

theorem pgTimestamp_ok {pgTime : Json → Option Timestamp} {v : Option Json} {t : Option Timestamp} (h : pgTimestamp pgTime v = .ok t) :
    t = v.bind pgTime := by
  unfold pgTimestamp at h
  split at h
  · cases h; rfl
  · split at h
    · rename_i read
      cases h
      exact read.symm
    · cases h

/-- What the `INSERT` of a link did, if it ran. -/
theorem insertLink_ok {pgTime : Json → Option Timestamp} {db db' : Database} {v : LinkValues} {rows : List LinkRow}
    (h : db.insertLink pgTime v = .ok (rows, db')) :
    ∃ amount links, v.amount.mapM pgNumeric = .ok amount ∧ isUuid v.id = true ∧
      db.links.insert { id := v.id, creator := v.creator, amount, asset := v.asset, reference := v.reference.map JsString.toWellFormed,
                        expiresAt := v.expiresAt.bind pgTime, createdAt := v.createdAt } = some links ∧
      db' = { db with links } := by
  obtain ⟨_, uuid, h⟩ := bind_ok h
  obtain ⟨_, -, h⟩ := bind_ok h
  obtain ⟨amount, value, h⟩ := bind_ok h
  obtain ⟨_, -, h⟩ := bind_ok h
  obtain ⟨expiresAt, expiry, h⟩ := bind_ok h
  obtain rfl := pgTimestamp_ok expiry
  obtain ⟨links, inserted, h⟩ := bind_ok h
  cases h
  exact ⟨amount, links, value, assertUuid_ok.1 uuid, unique_ok inserted, rfl⟩

theorem claimHash_may {db db' : Database} {id hash : String} {now : Timestamp} {rows : List IntentRow} (sound : db.Sound)
    (nonempty : hash ≠ "") (h : db.claimHash id hash now = .ok (rows, db')) :
    db'.Sound ∧ Book.May (.claimed id hash) db.book db'.book := by
  obtain ⟨intents, updated, rfl, -⟩ := claimHash_ok h
  refine ⟨sound.update updated fun r _ => by simpa [setHash] using nonempty, ?_⟩
  rcases book_update updated (fun _ => rfl) (fun _ => claimable_id) with same | ⟨r, found, claimable, after⟩
  · exact .inl same
  right
  have claimed : Function.update db.book id (some (setHash hash now r).intent.entry) = db.book.claimed id hash := by
    rw [Book.claimed, book_find found, setHash_entry hash now r nonempty]
    rfl
  rw [after, claimed]
  refine .claimed (book_find found) ?_ ?_
  · intro t held
    have column := column_of_token held
    simp only [Database.claimable, column, Bool.and_eq_true, Bool.or_eq_true, decide_eq_true_eq, reduceCtorEq,
      false_or, Option.some.injEq] at claimable
    exact claimable.2
  · -- two rows with the hash would clash in the updated table
    intro j e' here held
    obtain ⟨r', found', rfl⟩ := Option.map_eq_some_iff.1 here
    have column := column_of_token held
    by_contra other
    have mem : setHash hash now r ∈ intents.rows := by
      rw [Table.update_rows updated]
      exact List.mem_map.2 ⟨r, (Table.mem_of_find found).1, by simp [Table.assign, claimable]⟩
    have mem' : r' ∈ intents.rows := by
      rw [Table.update_rows updated]
      refine List.mem_map.2 ⟨r', (Table.mem_of_find found').1, ?_⟩
      simp [Table.assign, Database.claimable, find_id found', other]
    have same := Table.unique intents clash_symm mem mem' (by simp [IntentRow.clash, setHash, column])
    refine other ?_
    rw [← find_id found', ← same]
    show r.id = id
    exact find_id found

theorem settle_may {db db' : Database} {id : String} {hash : Json} {status : PaymentStatus} {now : Timestamp}
    {rows : List IntentRow} (sound : db.Sound) (h : db.settle id hash status now = .ok (rows, db')) :
    db'.Sound ∧ Book.May (Op.move (.query (.settle id hash status))) db.book db'.book := by
  obtain ⟨intents, updated, rfl⟩ := settle_ok h
  refine ⟨sound.update updated sound, ?_⟩
  rcases book_update updated (fun _ => rfl) (fun _ => settleable_id) with same | ⟨r, found, settleable, after⟩
  · exact .inl same
  rw [after]
  simp only [Database.settleable, Bool.and_eq_true, decide_eq_true_eq] at settleable
  obtain ⟨⟨-, bound⟩, pending⟩ := settleable
  obtain ⟨text, column, same⟩ : ∃ text, r.transactionHash = some text ∧ hash.same (.str text) = true := by
    cases column : r.transactionHash with
    | none => simp [column] at bound
    | some text => exact ⟨text, rfl, by simpa [column] using bound⟩
  obtain rfl := Json.eq_of_same_str same
  have nonempty : text ≠ "" := by
    rintro rfl
    exact sound r (Table.mem_of_find found).1 column
  by_cases still : status = .pending
  · left
    have entry : (setStatus status now r).intent.entry = r.intent.entry := by
      simp [setStatus, PaymentIntent.entry, IntentRow.intent, still, pending]
    rw [entry, ← book_find found, Function.update_eq_self]
  · right
    have token : r.intent.entry.token = some text := by
      simp [PaymentIntent.entry, IntentRow.intent, column, Option.filter, nonempty, hashText]
    have settled := Book.Moves.settled (o := status) (book_find found) token (entry_eq_of_status pending)
    rw [Book.settled, book_find found] at settled
    have entry : (setStatus status now r).intent.entry = { r.intent.entry with outcome := some status } := by
      simp [setStatus, PaymentIntent.entry, IntentRow.intent, finalStatus, still]
    rw [entry]
    exact settled

end Database

/-! ## The operations -/

theorem Memory.run_may {m m' : Memory} {op : MemoryOp} {a : op.Answer} (sound : m.Sound)
    (proper : Op.Proper m (.memory op)) (h : op.run m = .ok (a, m')) :
    m'.Sound ∧ Book.May (Op.move (.memory op)) m.book m'.book := by
  cases op with
  | createIntent i =>
    obtain rfl : (m.createIntent i).2 = m' := congrArg Prod.snd (Except.ok.inj h)
    exact createIntent_may sound proper.1 proper.2.1 proper.2.2
  | claimHash id hash now => exact claimHash_may sound proper h
  | settle id hash status now => exact settle_may sound h
  | saveLink link => cases h; exact ⟨⟨⟨sound.key⟩, sound.hash⟩, .inl rfl⟩
  | findIntent | findLink | listIntents =>
    obtain rfl := MemoryOp.run_reads rfl h
    exact ⟨sound, .inl rfl⟩

theorem Database.run_may {pgTime : Json → Option Timestamp} {now : Timestamp} {db db' : Database} {s : Statement}
    {rows : List s.Row} {m : Memory} (sound : db.Sound) (proper : Op.Proper m (.query s))
    (h : s.run pgTime now db = .ok (rows, db')) :
    db'.Sound ∧ Book.May (Op.move (.query s)) db.book db'.book := by
  cases s with
  | insertIntent v => exact insertIntent_may sound proper h
  | claimHash id hash => exact claimHash_may sound proper h
  | settle id hash status => exact settle_may sound h
  | insertLink v =>
    obtain ⟨_, _, -, -, -, rfl⟩ := insertLink_ok h
    exact ⟨sound, .inl rfl⟩
  | selectIntent | selectLink | selectIntents =>
    obtain rfl := Statement.run_reads rfl h
    exact ⟨sound, .inl rfl⟩

theorem World.book_eq (d : Deployment) (w : World) : w.book d = if d.pool then w.db.book else w.memory.book := by
  funext id
  unfold World.book World.intent
  split
  · rw [Option.map_map]
    rfl
  · rfl

/-- **Both stores keep a book.** Whatever an operation does to the world, on the
book of the deployment it is its own move or nothing. -/
theorem exec_may {d : Deployment} {op : Op} {w w' : World} {ans : op.Answer} (sound : w.Sound)
    (proper : op.Proper w.memory) (h : exec d op w ans w') :
    w'.Sound ∧ Book.May op.move (w.book d) (w'.book d) := by
  rw [World.book_eq, World.book_eq]
  cases op with
  | randomUUID => rw [h.2]; exact ⟨⟨sound.memory, sound.db⟩, .inl rfl⟩
  | stellar request => rw [show w' = w from h]; exact ⟨sound, .inl rfl⟩
  | memory op =>
    obtain ⟨memory, segment, rfl⟩ := h
    cases segment with
    | ran ok =>
      obtain ⟨memory, may⟩ := Memory.run_may sound.memory proper ok
      refine ⟨⟨memory, sound.db⟩, ?_⟩
      split
      · exact .inl rfl
      · exact may
    | threw failed => exact ⟨sound, .inl rfl⟩
  | query s =>
    obtain ⟨db, queried, rfl⟩ := h
    have ran : ∀ {now rows}, s.run d.pgTime now w.db = .ok (rows, db) → World.Sound { w with db } ∧
        Book.May (Op.move (.query s)) (if d.pool then w.db.book else w.memory.book)
          (if d.pool then db.book else w.memory.book) := by
      intro now rows ok
      obtain ⟨db', may⟩ := Database.run_may sound.db proper ok
      refine ⟨⟨sound.memory, db'⟩, ?_⟩
      split
      · exact may
      · exact .inl rfl
    cases queried with
    | ran ok => exact ran ok
    | unanswered ok => exact ran ok
    | refused failed => exact ⟨sound, .inl rfl⟩
    | unreached => exact ⟨sound, .inl rfl⟩

end AfriPay.Payments
