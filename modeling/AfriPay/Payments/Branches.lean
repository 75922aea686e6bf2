import AfriPay.Payments.IntentBook

/-!
# The two branches, operation by operation

What each operation of the in-memory branch and each statement of the SQL branch
comes to: whether it is refused, what it returns, and what the store holds
afterwards under every identifier. Both are described by what `findIntent`
would return, so that they can be compared.
-/

namespace AfriPay.Payments
open Text Stellar Storage

/-- What a store holds: the intent `findIntent` returns for each identifier. -/
abbrev Holdings := String → Option PaymentIntent

def Memory.holdings (m : Memory) : Holdings := m.intents.get

def Database.holdings (db : Database) : Holdings := fun id => (db.intents.find (·.id = id)).map IntentRow.intent

def Holdings.hashOf (f : Holdings) (id : String) : Option Json := (f id).bind (·.transactionHash)

/-- A claim of `hash` for `id` is out of order: the intent has another hash, or
another intent has this one. -/
def Holdings.Refuses (f : Holdings) (id hash : String) : Prop :=
  (∃ h, f.hashOf id = some (.str h) ∧ h ≠ hash) ∨ ∃ j, j ≠ id ∧ f.hashOf j = some (.str hash)

/-- The hash cannot be claimed for the intent: it is bound to something else, or
another intent has the hash. -/
def Holdings.Contested (f : Holdings) (id hash : String) : Prop :=
  (∃ v, f.hashOf id = some v ∧ truthy (some v) = true ∧ v ≠ .str hash) ∨ ∃ j, j ≠ id ∧ f.hashOf j = some (.str hash)

theorem Holdings.hashOf_eq {f : Holdings} {id : String} {i : PaymentIntent} (found : f id = some i) : f.hashOf id = i.transactionHash := by
  rw [hashOf, found, Option.bind_some]

theorem Holdings.hashOf_eq_some {f : Holdings} {id : String} {v : Json} :
    f.hashOf id = some v ↔ ∃ i, f id = some i ∧ i.transactionHash = some v := Option.bind_eq_some_iff

/-! ## The in-memory branch -/

namespace Memory

theorem holdings_set (m : Memory) (id : String) (i : PaymentIntent) :
    holdings { m with intents := m.intents.set id i } = Function.update m.holdings id (some i) := by
  funext j
  rw [Function.update_apply]
  exact OrderedMap.get_set ..

/-- The intent under the key, or the new one. -/
theorem createIntent_spec (m : Memory) (i : PaymentIntent) :
    (∃ j existing, m.holdings j = some existing ∧ existing.idempotencyKey = i.idempotencyKey ∧ m.createIntent i = (existing, m)) ∨
    (∀ j item, m.holdings j = some item → item.idempotencyKey ≠ i.idempotencyKey) ∧
      ∃ m', m.createIntent i = (i, m') ∧ m'.holdings = Function.update m.holdings i.id (some i) := by
  rcases m.createIntent_cases i with ⟨existing, mem, key, same⟩ | ⟨none, same⟩
  · obtain ⟨j, here⟩ := (OrderedMap.mem_values_iff _).1 mem
    exact .inl ⟨j, existing, here, key, same⟩
  · exact .inr ⟨fun j item here => none item ((OrderedMap.mem_values_iff _).2 ⟨j, here⟩), _, same, holdings_set ..⟩

theorem claimHash_spec {m : Memory} (sound : m.Sound) {id : String} {i : PaymentIntent} (found : m.holdings id = some i)
    (hash : String) (now : Timestamp) :
    (m.holdings.Refuses id hash ∧ ∃ text, m.claimHash id hash now = .error (.conflict text)) ∨
    ¬ m.holdings.Refuses id hash ∧ ∃ m' i', i' = { i with transactionHash := some (.str hash), updatedAt := now } ∧
      m.claimHash id hash now = .ok (i', m') ∧ m'.holdings = Function.update m.holdings id (some i') := by
  have here : m.intents.get id = some i := found
  have mine := Holdings.hashOf_eq found
  have other : (truthy i.transactionHash ∧ isString hash i.transactionHash = false) ↔
      ∃ h, m.holdings.hashOf id = some (.str h) ∧ h ≠ hash := by
    rw [mine]
    exact (sound.hash id i here).other_iff
  have taken : (m.intents.values.any fun item => item.id ≠ id && isString hash item.transactionHash) = true ↔
      ∃ j, j ≠ id ∧ m.holdings.hashOf j = some (.str hash) := by
    rw [sound.taken_iff]
    constructor
    · rintro ⟨j, item, there, ne, held⟩
      exact ⟨j, ne, Holdings.hashOf_eq_some.2 ⟨item, there, held⟩⟩
    · rintro ⟨j, ne, held⟩
      obtain ⟨item, there, held⟩ := Holdings.hashOf_eq_some.1 held
      exact ⟨j, item, there, ne, held⟩
  unfold claimHash
  rw [here]
  by_cases bound : ∃ h, m.holdings.hashOf id = some (.str h) ∧ h ≠ hash
  · exact .inl ⟨.inl bound, _, if_pos (other.2 bound)⟩
  by_cases elsewhere : ∃ j, j ≠ id ∧ m.holdings.hashOf j = some (.str hash)
  · exact .inl ⟨.inr elsewhere, _, (if_neg (mt other.1 bound)).trans (if_pos (taken.2 elsewhere))⟩
  · refine .inr ⟨not_or.2 ⟨bound, elsewhere⟩, _, _, rfl, ?_, holdings_set ..⟩
    exact (if_neg (mt other.1 bound)).trans (if_neg (mt taken.1 elsewhere))

/-- A settlement of the stored hash: a pending intent gets the status. -/
theorem settle_spec {m : Memory} {id : String} {i : PaymentIntent} (found : m.holdings id = some i) {hash : String}
    (held : i.transactionHash = some (.str hash)) (status : PaymentStatus) (now : Timestamp) :
    ∃ m' i', i' = (if i.status = .pending then { i with status, updatedAt := now } else i) ∧
      m.settle id (.str hash) status now = .ok (i', m') ∧ m'.holdings = Function.update m.holdings id (some i') := by
  have here : m.intents.get id = some i := found
  have same : ¬ (!i.transactionHash.any (Json.str hash).same) = true := by simp [held]
  unfold settle
  rw [here]
  by_cases pending : i.status = .pending
  · refine ⟨_, _, rfl, ?_, holdings_set ..⟩
    rw [if_pos pending]
    exact (if_neg same).trans (if_neg (not_not.2 pending))
  · refine ⟨m, i, (if_neg pending).symm, (if_neg same).trans (if_pos pending), ?_⟩
    rw [← found, Function.update_eq_self]

end Memory

/-! ## The SQL branch -/

namespace Database

theorem assertTexts_ok {texts : List String} (plain : ∀ t ∈ texts, pgText t = true) : assertTexts texts = .ok () :=
  if_pos (List.all_eq_true.2 plain)

/-- What is found after an update that selects the row `id` only. -/
theorem find_updated {db : Database} {intents : Table IntentRow IntentRow.clash} {cond : IntentRow → Bool}
    {set : IntentRow → IntentRow} (updated : db.intents.update cond set = some intents) (kept : ∀ r, (set r).id = r.id)
    {id : String} (names : ∀ r, cond r = true → r.id = id) {r : IntentRow} (found : db.intents.find (·.id = id) = some r) (j : String) :
    intents.find (·.id = j) = if j = id then some (Table.assign cond set r) else db.intents.find (·.id = j) := by
  rw [Table.find_update updated (·.id) kept]
  split
  · rename_i same
    rw [same, found, Option.map_some]
  · rename_i other
    cases foundj : db.intents.find (·.id = j) with
    | none => rfl
    | some r' =>
      have unselected : cond r' = false := by
        by_contra selected
        rw [Bool.not_eq_false] at selected
        exact other ((find_id foundj).symm.trans (names r' selected))
      simp [Table.assign, unselected]

/-- A new hash clashes with no row that does not have it. -/
theorem clash_setHash {a b : IntentRow} {hash : String} {now : Timestamp} (apart : IntentRow.clash a b = false)
    (other : b.transactionHash ≠ some hash) : IntentRow.clash (setHash hash now a) b = false := by
  simp only [IntentRow.clash, Bool.or_eq_false_iff, decide_eq_false_iff_not] at apart
  simp [IntentRow.clash, setHash, apart.1.1, apart.1.2, Ne.symm other]

/-- The primary key. -/
theorem eq_of_id {db : Database} {id : String} {r : IntentRow} (found : db.intents.find (·.id = id) = some r) {a : IntentRow}
    (mem : a ∈ db.intents.rows) (same : a.id = id) : a = r := by
  have found' := find_row mem
  rw [same] at found'
  exact Option.some.inj (found'.symm.trans found)

/-- Another row has the hash: the two would clash. -/
theorem claim_violates {db : Database} {id hash : String} {r r' : IntentRow} (mem : r ∈ db.intents.rows)
    (selected : claimable id hash r = true) (mem' : r' ∈ db.intents.rows) (other : r'.id ≠ id)
    (same : r'.transactionHash = some hash) (now : Timestamp) :
    db.intents.update (claimable id hash) (setHash hash now) = none := by
  cases updated : db.intents.update (claimable id hash) (setHash hash now) with
  | none => rfl
  | some intents =>
    have first : setHash hash now r ∈ intents.rows := by
      rw [Table.update_rows updated]
      exact List.mem_map.2 ⟨r, mem, by simp [Table.assign, selected]⟩
    have second : r' ∈ intents.rows := by
      rw [Table.update_rows updated]
      exact List.mem_map.2 ⟨r', mem', by simp [Table.assign, claimable, other]⟩
    have one := Table.unique intents clash_symm first second (by simp [IntentRow.clash, setHash, same])
    have here : r.id = id := claimable_id selected
    exact (other (by rw [← one]; exact here)).elim

/-- No other row has the hash: nothing clashes. -/
theorem claim_runs {db : Database} {id hash : String} {r : IntentRow} (found : db.intents.find (·.id = id) = some r)
    (apart : ∀ r' ∈ db.intents.rows, r'.id ≠ id → r'.transactionHash ≠ some hash) (selected : claimable id hash r = true)
    (now : Timestamp) : ∃ intents, db.intents.update (claimable id hash) (setHash hash now) = some intents := by
  have only : ∀ a ∈ db.intents.rows, claimable id hash a = true → a = r := fun a ha sel => eq_of_id found ha (claimable_id sel)
  have unselected : ∀ a ∈ db.intents.rows, ¬ claimable id hash a = true → a.transactionHash ≠ some hash := by
    intro a ha not
    refine apart a ha fun same => not ?_
    rw [eq_of_id found ha same]
    exact selected
  apply Table.update_of_free
  intro a ha b hb clear
  unfold Table.assign
  split <;> split
  · rename_i first second
    rw [only a ha first, only b hb second] at clear
    simp [IntentRow.clash] at clear
  · rename_i second
    exact clash_setHash clear (unselected b hb second)
  · rename_i first _
    rw [clash_symm] at clear ⊢
    exact clash_setHash clear (unselected a ha first)
  · exact clear

/-- The statement selects no row, hits the index on hashes, or changes the row. -/
theorem claimHash_rows {db : Database} {id hash : String} (plain : pgText id = true) (plain' : pgText hash = true) {r : IntentRow}
    (found : db.intents.find (·.id = id) = some r) (now : Timestamp) :
    ((∃ h, r.transactionHash = some h ∧ h ≠ hash) ∧ db.claimHash id hash now = .ok ([], db)) ∨
    (r.transactionHash = none ∨ r.transactionHash = some hash) ∧
      ((∃ r' ∈ db.intents.rows, r'.id ≠ id ∧ r'.transactionHash = some hash) ∧ db.claimHash id hash now = .error .uniqueViolation ∨
      (∀ r' ∈ db.intents.rows, r'.id ≠ id → r'.transactionHash ≠ some hash) ∧
        ∃ db', db.claimHash id hash now = .ok ([setHash hash now r], db') ∧
          ∀ j, db'.intents.find (·.id = j) = if j = id then some (setHash hash now r) else db.intents.find (·.id = j)) := by
  have texts : assertTexts [id, hash] = .ok () := assertTexts_ok (by simp [plain, plain'])
  have mem := (Table.mem_of_find found).1
  have statement : db.claimHash id hash now = (do
      let intents ← unique (db.intents.update (claimable id hash) (setHash hash now))
      return ((db.intents.rows.filter (claimable id hash)).map (setHash hash now), { db with intents })) := by
    rw [claimHash, texts]
    rfl
  by_cases free : r.transactionHash = none ∨ r.transactionHash = some hash
  · have selected : claimable id hash r = true := by simpa [claimable, find_id found] using free
    refine .inr ⟨free, ?_⟩
    by_cases taken : ∃ r' ∈ db.intents.rows, r'.id ≠ id ∧ r'.transactionHash = some hash
    · refine .inl ⟨taken, ?_⟩
      obtain ⟨r', mem', other, same⟩ := taken
      rw [statement, claim_violates mem selected mem' other same]
      rfl
    · push Not at taken
      obtain ⟨intents, updated⟩ := claim_runs found taken selected now
      have returned := Table.filter_eq_singleton (by simp [IntentRow.clash]) mem selected
        fun a ha sel => eq_of_id found ha (claimable_id sel)
      refine .inr ⟨taken, { db with intents }, ?_, fun j => ?_⟩
      · rw [statement, updated, returned]
        rfl
      · have after := find_updated updated (fun _ => rfl) (fun _ => claimable_id) found j
        rw [Table.assign, if_pos selected] at after
        exact after
  · rw [not_or] at free
    obtain ⟨h, held⟩ := Option.ne_none_iff_exists'.1 free.1
    have other : h ≠ hash := by
      rintro rfl
      exact free.2 held
    have none : ∀ a ∈ db.intents.rows, claimable id hash a = false := by
      intro a ha
      by_contra selected
      rw [Bool.not_eq_false] at selected
      rw [eq_of_id found ha (claimable_id selected)] at selected
      simp [claimable, held, other] at selected
    have nothing : db.intents.rows.filter (claimable id hash) = [] := List.filter_eq_nil_iff.2 fun a ha => by simp [none a ha]
    refine .inl ⟨⟨h, held, other⟩, ?_⟩
    rw [statement, Table.update_none none, nothing]
    rfl

/-- The statement always runs: it changes no indexed column. -/
theorem settle_rows {db : Database} {id : String} (plain : pgText id = true) {r : IntentRow}
    (found : db.intents.find (·.id = id) = some r) {hash : String} (held : r.transactionHash = some hash) (status : PaymentStatus)
    (now : Timestamp) : ∃ db', db.settle id (.str hash) status now = .ok ([], db') ∧
      ∀ j, db'.intents.find (·.id = j) =
        if j = id then some (if r.status = .pending then setStatus status now r else r) else db.intents.find (·.id = j) := by
  have texts : assertTexts [id] = .ok () := assertTexts_ok (by simp [plain])
  have free : ∀ a ∈ db.intents.rows, ∀ b ∈ db.intents.rows, IntentRow.clash a b = false →
      IntentRow.clash (Table.assign (settleable id (.str hash)) (setStatus status now) a)
        (Table.assign (settleable id (.str hash)) (setStatus status now) b) = false := by
    intro a _ b _ apart
    unfold Table.assign
    split <;> split <;> exact apart
  obtain ⟨intents, updated⟩ := Table.update_of_free free
  refine ⟨{ db with intents }, ?_, ?_⟩
  · rw [settle, texts, updated]
    rfl
  · intro j
    have after := find_updated updated (fun _ => rfl) (fun _ => settleable_id) found j
    have selected : settleable id (.str hash) r = decide (r.status = .pending) := by
      simp [settleable, find_id found, held]
    simpa [Table.assign, selected] using after

/-- The column takes every accepted amount. -/
theorem checkAmount_ok {a : String} {n : Nat} (amount : stroops a = .ok n) (positive : 0 < n) :
    pgNumeric a = .ok (scaledValue 12 a) ∧ checkPositive (scaledValue 12 a) = .ok () := by
  obtain ⟨fits, rfl⟩ := stroops_ok amount
  have units := scaledValue_stroops fits
  refine ⟨if_pos (matchesDecimal_mono fits (by decide) (by decide)), if_neg ?_⟩
  omega

/-- The row under the key, or a new one. -/
theorem insertIntent_rows {db : Database} {v : IntentValues} (uuid : isUuid v.id = true) (plain : ∀ t ∈ v.texts, pgText t = true) {units : Nat}
    (column : pgNumeric v.amount = .ok units) (checked : checkPositive units = .ok ()) (fresh : db.intents.find (·.id = v.id) = none) :
    (∃ existing ∈ db.intents.rows, existing.idempotencyKey = v.idempotencyKey.toWellFormed ∧ db.insertIntent v = .ok ([existing], db)) ∨
    (∀ r ∈ db.intents.rows, r.idempotencyKey ≠ v.idempotencyKey.toWellFormed) ∧ ∃ db', db.insertIntent v = .ok ([v.row units], db') ∧
      ∀ j, db'.intents.find (·.id = j) = if j = v.id then some (v.row units) else db.intents.find (·.id = j) := by
  have named : assertUuid v.id = .ok () := if_pos uuid
  have texts : assertTexts v.texts = .ok () := assertTexts_ok plain
  cases found : db.intents.find fun r => r.idempotencyKey = v.idempotencyKey.toWellFormed with
  | some existing =>
    obtain ⟨mem, key⟩ := Table.mem_of_find found
    refine .inl ⟨existing, mem, of_decide_eq_true key, ?_⟩
    simp only [insertIntent, named, texts, column, checked, found, bind, Except.bind]
    rfl
  | none =>
    have absent := Table.find_eq_none_iff.1 found
    have absent' := Table.find_eq_none_iff.1 fresh
    have free : ∀ a ∈ db.intents.rows, IntentRow.clash a (v.row units) = false := by
      intro a ha
      have key := of_decide_eq_false (absent a ha)
      have id := of_decide_eq_false (absent' a ha)
      cases held : a.transactionHash <;> simp [IntentRow.clash, IntentValues.row, key, id, held]
    obtain ⟨intents, inserted⟩ := Table.insert_of_free free
    refine .inr ⟨fun r mem => of_decide_eq_false (absent r mem), { db with intents }, ?_, ?_⟩
    · simp only [insertIntent, named, texts, column, checked, found, inserted, bind, Except.bind]
      rfl
    · intro j
      have after := Table.find_insert inserted (·.id) j
      rw [after]
      by_cases same : j = v.id
      · rw [if_pos same, same, fresh]
        exact if_pos rfl
      · have other : (v.row units).id ≠ j := Ne.symm same
        rw [if_neg same, if_neg other, Option.or_none]

/-- What is held after a statement that changes one row. -/
theorem holdings_changed {db db' : Database} {id : String} {r : IntentRow}
    (after : ∀ j, db'.intents.find (·.id = j) = if j = id then some r else db.intents.find (·.id = j)) :
    db'.holdings = Function.update db.holdings id (some r.intent) := by
  funext j
  rw [holdings, after j, Function.update_apply]
  by_cases same : j = id
  · rw [if_pos same, if_pos same, Option.map_some]
  · rw [if_neg same, if_neg same]
    rfl

theorem holdings_row {db : Database} {r : IntentRow} (mem : r ∈ db.intents.rows) : db.holdings r.id = some r.intent := by
  rw [holdings, find_row mem, Option.map_some]

theorem holdings_eq_some {db : Database} {id : String} {i : PaymentIntent} :
    db.holdings id = some i ↔ ∃ r, db.intents.find (·.id = id) = some r ∧ r.intent = i := Option.map_eq_some_iff

/-- The index on keys. -/
theorem one_per_key {db : Database} {id id' : String} {i i' : PaymentIntent} (here : db.holdings id = some i)
    (there : db.holdings id' = some i') (key : i.idempotencyKey = i'.idempotencyKey) : i = i' := by
  obtain ⟨r, found, rfl⟩ := holdings_eq_some.1 here
  obtain ⟨r', found', rfl⟩ := holdings_eq_some.1 there
  have key : r.idempotencyKey = r'.idempotencyKey := JsString.text.inj key
  have clash : IntentRow.clash r r' = true := by simp [IntentRow.clash, key]
  rw [Table.unique db.intents clash_symm (Table.mem_of_find found).1 (Table.mem_of_find found').1 clash]

theorem selectIntent_spec (db : Database) {id : String} (plain : pgText id = true) :
    ∃ rows, db.selectIntent id = .ok (rows, db) ∧ rows.head?.map IntentRow.intent = db.holdings id := by
  have texts : assertTexts [id] = .ok () := assertTexts_ok (by simp [plain])
  refine ⟨_, by rw [selectIntent, texts]; rfl, ?_⟩
  rw [Option.head?_toList, holdings]

/-- The intent under the key, or the new one with its amount as the column holds it. -/
theorem insertIntent_spec {db : Database} {v : IntentValues} (uuid : isUuid v.id = true) (plain : ∀ t ∈ v.texts, pgText t = true) {n : Nat}
    (amount : stroops v.amount = .ok n) (positive : 0 < n) (fresh : db.holdings v.id = none) :
    (∃ existing j, db.holdings j = some existing.intent ∧ existing.idempotencyKey = v.idempotencyKey.toWellFormed ∧
      db.insertIntent v = .ok ([existing], db)) ∨
    (∀ j i, db.holdings j = some i → i.idempotencyKey ≠ .text v.idempotencyKey.toWellFormed) ∧
      ∃ db', db.insertIntent v = .ok ([v.row (scaledValue 12 v.amount)], db') ∧
        db'.holdings = Function.update db.holdings v.id (some (v.row (scaledValue 12 v.amount)).intent) := by
  obtain ⟨column, checked⟩ := checkAmount_ok amount positive
  rcases insertIntent_rows uuid plain column checked (Option.map_eq_none_iff.1 fresh) with
    ⟨existing, mem, key, same⟩ | ⟨none, db', inserted, after⟩
  · exact .inl ⟨existing, existing.id, holdings_row mem, key, same⟩
  · refine .inr ⟨?_, db', inserted, holdings_changed after⟩
    intro j i held
    obtain ⟨r, found, rfl⟩ := holdings_eq_some.1 held
    exact fun same => none r (Table.mem_of_find found).1 (JsString.text.inj same)

/-- In a sound database the hash of an intent is its column. -/
theorem intent_hash {db : Database} (sound : db.Sound) {r : IntentRow} (mem : r ∈ db.intents.rows) :
    r.intent.transactionHash = r.transactionHash.map .str := by
  have nonempty := sound r mem
  cases held : r.transactionHash with
  | none => simp [IntentRow.intent, held]
  | some h =>
    have : h ≠ "" := fun empty => nonempty (by rw [held, empty])
    simp [IntentRow.intent, held, Option.filter, this]

theorem intent_hash_iff {db : Database} (sound : db.Sound) {r : IntentRow} (mem : r ∈ db.intents.rows) {hash : String} :
    r.intent.transactionHash = some (.str hash) ↔ r.transactionHash = some hash := by
  rw [intent_hash sound mem]
  cases r.transactionHash <;> simp

theorem claimHash_spec {db : Database} (sound : db.Sound) {id hash : String} (plain : pgText id = true) (plain' : pgText hash = true)
    {r : IntentRow} (found : db.intents.find (·.id = id) = some r) (now : Timestamp) :
    (db.holdings.Refuses id hash ∧ (db.claimHash id hash now = .ok ([], db) ∨ db.claimHash id hash now = .error .uniqueViolation)) ∨
    ¬ db.holdings.Refuses id hash ∧ ∃ db', db.claimHash id hash now = .ok ([setHash hash now r], db') ∧
      db'.holdings = Function.update db.holdings id (some (setHash hash now r).intent) := by
  have mem := (Table.mem_of_find found).1
  have mine : db.holdings.hashOf id = r.intent.transactionHash := Holdings.hashOf_eq (holdings_eq_some.2 ⟨r, found, rfl⟩)
  rcases claimHash_rows plain plain' found now with
    ⟨⟨h, bound, other⟩, none⟩ | ⟨free, ⟨⟨r', mem', other, same⟩, refused⟩ | ⟨apart, db', claimed, after⟩⟩
  · have bound := (intent_hash_iff sound mem).2 bound
    exact .inl ⟨.inl ⟨h, mine.trans bound, other⟩, .inl none⟩
  · have theirs := Holdings.hashOf_eq (holdings_row mem')
    exact .inl ⟨.inr ⟨r'.id, other, theirs.trans ((intent_hash_iff sound mem').2 same)⟩, .inr refused⟩
  · refine .inr ⟨?_, db', claimed, holdings_changed after⟩
    rintro (⟨h, bound, other⟩ | ⟨j, other, same⟩)
    · rw [mine, intent_hash_iff sound mem] at bound
      rcases free with free | free <;> rw [free] at bound
      · cases bound
      · exact other (Option.some.inj bound).symm
    · obtain ⟨i, held, same⟩ := Holdings.hashOf_eq_some.1 same
      obtain ⟨r', found', rfl⟩ := holdings_eq_some.1 held
      have mem' := (Table.mem_of_find found').1
      refine apart r' mem' ?_ ((intent_hash_iff sound mem').1 same)
      rw [find_id found']
      exact other

theorem settle_spec {db : Database} (sound : db.Sound) {id : String} (plain : pgText id = true) {r : IntentRow}
    (found : db.intents.find (·.id = id) = some r) {hash : String} (held : r.intent.transactionHash = some (.str hash))
    (status : PaymentStatus) (now : Timestamp) :
    ∃ db', db.settle id (.str hash) status now = .ok ([], db') ∧ db'.holdings =
      Function.update db.holdings id (some (if r.status = .pending then setStatus status now r else r).intent) := by
  have column := (intent_hash_iff sound (Table.mem_of_find found).1).1 held
  obtain ⟨db', settled, after⟩ := settle_rows plain found column status now
  exact ⟨db', settled, holdings_changed after⟩

end Database

/-! ## Claims and settlements that are refused -/

theorem Memory.claimHash_contested {m : Memory} (keyed : m.Keyed) {id hash : String} {now : Timestamp} {i : PaymentIntent}
    (stored : m.holdings id = some i) {e : Exception} (h : m.claimHash id hash now = .error e) : m.holdings.Contested id hash := by
  unfold claimHash at h
  rw [show m.intents.get id = some i from stored] at h
  by_cases bound : truthy i.transactionHash = true ∧ isString hash i.transactionHash = false
  · obtain ⟨v, held⟩ : ∃ v, i.transactionHash = some v := by
      cases held : i.transactionHash with
      | none => simp [held, truthy] at bound
      | some v => exact ⟨v, rfl⟩
    refine .inl ⟨v, (Holdings.hashOf_eq stored).trans held, held ▸ bound.1, ?_⟩
    rintro rfl
    rw [isString_iff.2 held] at bound
    exact absurd bound.2 (by decide)
  by_cases taken : (m.intents.values.any fun item => item.id ≠ id && isString hash item.transactionHash) = true
  · obtain ⟨j, item, there, other, held⟩ := keyed.taken_iff.1 taken
    exact .inr ⟨j, other, Holdings.hashOf_eq_some.2 ⟨item, there, held⟩⟩
  · simp only [if_neg bound, if_neg taken] at h
    cases h

/-- A settlement of the hash an intent holds is not refused. -/
theorem Memory.settle_runs {m : Memory} {id hash : String} {status : PaymentStatus} {now : Timestamp} {i : PaymentIntent}
    (stored : m.holdings id = some i) (held : i.transactionHash = some (.str hash)) {e : Exception} :
    m.settle id (.str hash) status now ≠ .error e := by
  obtain ⟨m', i', -, ok, -⟩ := settle_spec stored held status now
  rw [ok]
  rintro ⟨⟩

namespace Database

theorem plain_of_assertTexts {texts : List String} (h : assertTexts texts ≠ .error .other) : ∀ t ∈ texts, pgText t = true := by
  unfold assertTexts at h
  split at h
  · rename_i plain
    exact List.all_eq_true.1 plain
  · exact (h rfl).elim

/-- A claim that gets past the texts. -/
theorem plain_of_claimHash {db : Database} {id hash : String} {now : Timestamp} (decided : db.claimHash id hash now ≠ .error .other) :
    pgText id = true ∧ pgText hash = true := by
  have plain := @plain_of_assertTexts [id, hash] fun refused => decided (by rw [claimHash, refused]; rfl)
  exact ⟨plain id (by simp), plain hash (by simp)⟩

/-- The row a claim returns is then stored, with the hash. -/
theorem claimHash_returns {db db' : Database} (sound : db.Sound) {id hash : String} (nonempty : hash ≠ "") {now : Timestamp}
    {r row : IntentRow} {rows : List IntentRow} (found : db.intents.find (·.id = id) = some r)
    (h : db.claimHash id hash now = .ok (row :: rows, db')) :
    db'.holdings id = some row.intent ∧ row.intent.transactionHash = some (.str hash) := by
  obtain ⟨plain, plain'⟩ := plain_of_claimHash (show db.claimHash id hash now ≠ .error .other by rw [h]; rintro ⟨⟩)
  rcases claimHash_spec sound plain plain' found now with ⟨-, none | clash⟩ | ⟨-, db', ok, after⟩
  · rw [none] at h; cases h
  · rw [clash] at h; cases h
  · rw [ok] at h
    cases h
    rw [after, Function.update_self]
    exact ⟨rfl, by simp [IntentRow.intent, setHash, Option.filter, nonempty]⟩

/-- A row whose intent has a hash has no empty one. -/
theorem intent_hash_truthy {r : IntentRow} {v : Json} (held : r.intent.transactionHash = some v) : truthy (some v) = true := by
  obtain ⟨text, kept, rfl⟩ := Option.map_eq_some_iff.1 held
  obtain ⟨-, nonempty⟩ := Option.filter_eq_some_iff.1 kept
  exact nonempty

/-- A claim that selects no row, or runs into the index on hashes. -/
theorem claimHash_contested {db : Database} (sound : db.Sound) {id hash : String} {now : Timestamp} {r : IntentRow}
    (found : db.intents.find (·.id = id) = some r)
    (h : (∃ db', db.claimHash id hash now = .ok ([], db')) ∨ db.claimHash id hash now = .error .uniqueViolation) :
    db.holdings.Contested id hash := by
  have decided : db.claimHash id hash now ≠ .error .other := by
    rcases h with ⟨db', h⟩ | h <;> rw [h] <;> rintro ⟨⟩
  obtain ⟨plain, plain'⟩ := plain_of_claimHash decided
  rcases claimHash_spec sound plain plain' found now with ⟨refuses, -⟩ | ⟨-, db', ok, -⟩
  · rcases refuses with ⟨text, held, other⟩ | elsewhere
    · obtain ⟨i, stored, hash⟩ := Holdings.hashOf_eq_some.1 held
      obtain ⟨r', -, rfl⟩ := holdings_eq_some.1 stored
      refine .inl ⟨_, held, intent_hash_truthy hash, ?_⟩
      rintro ⟨⟩
      exact other rfl
    · exact .inr elsewhere
  · rcases h with ⟨db'', h⟩ | h <;> rw [ok] at h <;> cases h

/-- A settlement of the hash a row holds runs into no index. -/
theorem settle_runs {db : Database} {id hash : String} {status : PaymentStatus} {now : Timestamp} {r : IntentRow}
    (found : db.intents.find (·.id = id) = some r) (held : r.transactionHash = some hash) :
    db.settle id (.str hash) status now ≠ .error .uniqueViolation := by
  intro h
  have plain := @plain_of_assertTexts [id] fun refused => by
    rw [settle, refused] at h
    cases h
  obtain ⟨db', ok, -⟩ := settle_rows (plain id (by simp)) found held status now
  rw [ok] at h
  cases h

end Database

end AfriPay.Payments
