import AfriPay.Payments.Serving

/-!
# Two stores in sync

When an intent in memory and an intent read from a row are the same to a client
(`SameIntent`), and when two deployments, one over each store, have seen the
same and hold the same intents (`InSync`).
-/

namespace AfriPay.Payments
open Calls Text Stellar Storage

/-! ## Payments that are the same -/

theorem SameDetails.symm {p q : NativePayment} (h : SameDetails p q) : SameDetails q p := by
  obtain ⟨units, hp, hq⟩ := h.amount
  exact ⟨h.sender.symm, h.recipient.symm, h.asset.symm, ⟨units, hq, hp⟩, h.memo.symm⟩

theorem SameDetails.stroops_eq {p q : NativePayment} (h : SameDetails p q) : stroops p.amount = stroops q.amount := by
  obtain ⟨units, hp, hq⟩ := h.amount
  rw [hp, hq]

/-- A check against a third payment does not tell them apart. -/
theorem SameDetails.check {p q : NativePayment} (h : SameDetails p q) (input : NativePayment) :
    checkSameDetails p input = checkSameDetails q input := by
  unfold checkSameDetails
  rw [h.sender, h.recipient, h.asset, h.stroops_eq, h.memo]

theorem SameDetails.checked {sdk : Sdk} {p q : NativePayment} (h : SameDetails p q) (valid : Checked sdk q.fields q) :
    Checked sdk p.fields p :=
  (h.requested valid).checked valid

theorem SameDetails.operationMatches {p q : NativePayment} (h : SameDetails p q) (tx : Transaction) :
    operationMatches tx p = operationMatches tx q := by
  unfold Stellar.operationMatches
  rw [h.sender, h.recipient, h.stroops_eq]

theorem memoMatches_getD (tx : Transaction) (p : NativePayment) :
    memoMatches tx p = if p.memo.getD "" ≠ "" then
      decide (tx.memo.type = .text ∧ .text (memoText tx.memo.value) = p.memo.getD "") else decide (tx.memo.type = .none) := by
  unfold memoMatches
  cases p.memo with
  | none => rfl
  | some memo =>
    rw [Option.getD_some]

/-- An envelope is accepted for one of them as for the other. -/
theorem SameDetails.parsePayment {sdk : Sdk} {p q : NativePayment} (h : SameDetails p q) (valid : Checked sdk q.fields q)
    (xdr : JsString) : parsePayment sdk xdr (some p) = parsePayment sdk xdr (some q) := by
  have expected : ∀ tx, checkExpected sdk tx p = checkExpected sdk tx q := by
    intro tx
    unfold checkExpected
    rw [validatePayment_ok.2 valid, validatePayment_ok.2 (h.checked valid), h.operationMatches, memoMatches_getD, memoMatches_getD, h.memo]
    rfl
  unfold Stellar.parsePayment
  simp only [expected]

theorem SameDetails.checkSubmission {sdk : Sdk} {p q : NativePayment} (h : SameDetails p q) (valid : Checked sdk q.fields q)
    (network : String) (xdr : JsString) :
    checkSubmission sdk network xdr (some p.sender) (some p) = checkSubmission sdk network xdr (some q.sender) (some q) := by
  unfold Stellar.checkSubmission
  rw [h.parsePayment valid, h.sender]

/-- The text of a hash has no NUL in it. -/
theorem pgText_toHex (hash : Hash) : pgText (toHex hash) = true := by
  have pattern := isHashString_toHex hash
  rw [isHashString, Bool.and_eq_true, List.all_eq_true] at pattern
  rw [pgText, List.all_eq_true]
  intro c mem
  have hex := pattern.2 c mem
  rw [decide_eq_true_eq]
  rintro rfl
  cases hex

/-! ## Intents that are the same -/

/-- The same intent for a client: the times aside, and however the amount is written. -/
structure SameIntent (i j : PaymentIntent) : Prop where
  id : i.id = j.id
  key : i.idempotencyKey = j.idempotencyKey
  details : SameDetails i.toNativePayment j.toNativePayment
  status : i.status = j.status
  hash : i.transactionHash = j.transactionHash

/-- A new intent and the row made of the same one. -/
theorem SameIntent.row {i j : PaymentIntent} (same : SameIntent i j) (unclaimed : i.transactionHash = none) {units n : Nat}
    (value : stroops j.amount = .ok units) (column : n = scaledValue 12 j.amount) (key : keptText true j.idempotencyKey = j.idempotencyKey)
    (memo : ∀ m, j.memo = some m → keptText true m = m) : SameIntent i ((PaymentIntentStore.values j).row n).intent where
  id := same.id
  key := same.key.trans key.symm
  details := by
    have stored := sameDetails_row value column memo
    obtain ⟨units', left, right⟩ := same.details.amount
    obtain rfl : units' = units := Except.ok.inj (right.symm.trans value)
    obtain ⟨units'', kept, again⟩ := stored.amount
    obtain rfl : units'' = units' := Except.ok.inj (again.symm.trans value)
    exact ⟨same.details.sender, same.details.recipient, same.details.asset, ⟨_, left, kept⟩, same.details.memo.trans stored.memo.symm⟩
  status := same.status
  hash := unclaimed

/-! ## Stores in sync -/

/-- Two stores that hold the same intents, one in memory and one in a database,
under these keys, and what either has seen of the outside while so many calls
were served. -/
structure InSync (sdk : Sdk) {calls : Nat} (given : Given calls) (keys : List JsString) (served : Nat) (s t : Scene) : Prop where
  issued : s.world.issued = t.world.issued
  few : s.world.issued.length ≤ served
  asked : s.asked = t.asked
  held : ∀ id, Option.Rel SameIntent (s.world.memory.holdings id) (t.world.db.holdings id)
  checked : ∀ id i, s.world.memory.holdings id = some i → Checked sdk i.fields i.toNativePayment
  named : ∀ id i, s.world.memory.holdings id = some i → id ∈ s.world.issued
  drawn : given.Drawn s.world.issued
  uuids : ∀ id ∈ s.world.issued, isUuid id = true
  taken : ∀ key, key ∈ keys ↔ ∃ id i, s.world.memory.holdings id = some i ∧ i.idempotencyKey = key
  memory : s.world.memory.Sound
  db : t.world.db.Sound

namespace InSync

variable {sdk : Sdk} {calls : Nat} {given : Given calls} {keys : List JsString} {served : Nat} {s t : Scene}

theorem start : InSync sdk given [] 0 ⟨.empty, 0⟩ ⟨.empty, 0⟩ where
  issued := rfl
  few := le_rfl
  asked := rfl
  held _ := .none
  checked _ _ := by rintro ⟨⟩
  named _ _ := by rintro ⟨⟩
  drawn _ := by rintro ⟨⟩
  uuids _ := by rintro ⟨⟩
  taken key := iff_of_false (by rintro ⟨⟩) (by rintro ⟨_, _, ⟨⟩, _⟩)
  memory := ⟨⟨fun _ _ => by rintro ⟨⟩⟩, fun _ _ => by rintro ⟨⟩⟩
  db _ := by rintro ⟨⟩

/-- What one store holds under an identifier, the other holds too. -/
theorem cases (sync : InSync sdk given keys served s t) (id : String) :
    (s.world.memory.holdings id = none ∧ t.world.db.holdings id = none) ∨
    ∃ i j, s.world.memory.holdings id = some i ∧ t.world.db.holdings id = some j ∧ SameIntent i j := by
  have held := sync.held id
  cases left : s.world.memory.holdings id <;> cases right : t.world.db.holdings id <;> rw [left, right] at held
  · exact .inl ⟨rfl, rfl⟩
  · cases held
  · cases held
  · cases held with
    | some same => exact .inr ⟨_, _, rfl, rfl, same⟩

theorem ofMemory (sync : InSync sdk given keys served s t) {id : String} {i : PaymentIntent} (held : s.world.memory.holdings id = some i) :
    ∃ j, t.world.db.holdings id = some j ∧ SameIntent i j := by
  rcases sync.cases id with ⟨missing, -⟩ | ⟨i', j, left, right, same⟩
  · rw [missing] at held
    cases held
  · obtain rfl := Option.some.inj (left.symm.trans held)
    exact ⟨j, right, same⟩

theorem ofDatabase (sync : InSync sdk given keys served s t) {id : String} {j : PaymentIntent} (held : t.world.db.holdings id = some j) :
    ∃ i, s.world.memory.holdings id = some i ∧ SameIntent i j := by
  rcases sync.cases id with ⟨-, missing⟩ | ⟨i, j', left, right, same⟩
  · rw [missing] at held
    cases held
  · obtain rfl := Option.some.inj (right.symm.trans held)
    exact ⟨i, left, same⟩

theorem absent (sync : InSync sdk given keys served s t) {id : String} (fresh : s.world.memory.holdings id = none) :
    t.world.db.holdings id = none := by
  rcases sync.cases id with ⟨-, missing⟩ | ⟨i, j, left, -, -⟩
  · exact missing
  · rw [fresh] at left
    cases left

/-- No intent has the identifier that is drawn next. -/
theorem fresh (sync : InSync sdk given keys served s t) (room : s.world.issued.length < calls) :
    s.world.memory.holdings (given.ids s.world.issued.length) = none := by
  rw [Option.eq_none_iff_forall_ne_some]
  exact fun i held => sync.drawn.fresh room (sync.named _ i held)

/-- A stored intent has an identifier that was drawn, which PostgreSQL can hold. -/
theorem plain (sync : InSync sdk given keys served s t) {id : String} {i : PaymentIntent} (found : s.world.memory.holdings id = some i) :
    pgText id = true :=
  pgText_of_isUuid (sync.uuids id (sync.named id i found))

/-- The key of a stored intent is what its column gives back. -/
theorem whole (sync : InSync sdk given keys served s t) {key : JsString} (mem : key ∈ keys) : keptText true key = key := by
  obtain ⟨id, i, left, rfl⟩ := (sync.taken key).1 mem
  obtain ⟨j, right, same⟩ := sync.ofMemory left
  obtain ⟨r, -, rfl⟩ := Database.holdings_eq_some.1 right
  rw [same.key]
  rfl

/-- Only which keys there are matters. -/
theorem sameKeys (sync : InSync sdk given keys served s t) {keys' : List JsString} (same : ∀ key, key ∈ keys' ↔ key ∈ keys) :
    InSync sdk given keys' served s t :=
  { sync with taken := fun key => (same key).trans (sync.taken key) }

theorem later (sync : InSync sdk given keys served s t) : InSync sdk given keys (served + 1) s t :=
  { sync with few := sync.few.trans (Nat.le_succ served) }

theorem hashOf (sync : InSync sdk given keys served s t) (id : String) :
    s.world.memory.holdings.hashOf id = t.world.db.holdings.hashOf id := by
  rcases sync.cases id with ⟨left, right⟩ | ⟨i, j, left, right, same⟩
  · rw [Holdings.hashOf, Holdings.hashOf, left, right]
  · rw [Holdings.hashOf_eq left, Holdings.hashOf_eq right, same.hash]

/-- A claim is out of order in both stores or in neither. -/
theorem refuses_iff (sync : InSync sdk given keys served s t) (id hash : String) :
    s.world.memory.holdings.Refuses id hash ↔ t.world.db.holdings.Refuses id hash := by
  simp only [Holdings.Refuses, sync.hashOf]

/-- Both stores change or add one intent, and hold the same one under its
identifier; its key is the one that was there, or a new one. -/
theorem changed (sync : InSync sdk given keys served s t) {m : Memory} {db : Database} {id : String} {i j : PaymentIntent}
    (left : m.holdings = Function.update s.world.memory.holdings id (some i))
    (right : db.holdings = Function.update t.world.db.holdings id (some j)) (same : SameIntent i j)
    (valid : Checked sdk i.fields i.toNativePayment) (name : id ∈ s.world.issued) (memory : m.Sound) (sound : db.Sound)
    {keys' : List JsString} (grows : ∀ key, key ∈ keys' ↔ key = i.idempotencyKey ∨ key ∈ keys)
    (before : ∀ i₀, s.world.memory.holdings id = some i₀ → i₀.idempotencyKey = i.idempotencyKey) :
    InSync sdk given keys' served { s with world.memory := m } { t with world.db := db } where
  issued := sync.issued
  few := sync.few
  asked := sync.asked
  held k := by
    show Option.Rel SameIntent (m.holdings k) (db.holdings k)
    rw [left, right, Function.update_apply, Function.update_apply]
    split
    · exact .some same
    · exact sync.held k
  checked k i' found := by
    change m.holdings k = some i' at found
    rw [left, Function.update_apply] at found
    split at found
    · cases found
      exact valid
    · exact sync.checked k i' found
  named k i' found := by
    change m.holdings k = some i' at found
    rw [left, Function.update_apply] at found
    split at found
    · rename_i same
      exact same ▸ name
    · exact sync.named k i' found
  drawn := sync.drawn
  uuids := sync.uuids
  taken key := by
    change _ ↔ ∃ k a, m.holdings k = some a ∧ a.idempotencyKey = key
    rw [grows, sync.taken, left]
    constructor
    · rintro (rfl | ⟨k, a, held, rfl⟩)
      · exact ⟨id, i, Function.update_self .., rfl⟩
      · by_cases here : k = id
        · exact ⟨id, i, Function.update_self .., (before a (here ▸ held)).symm⟩
        · exact ⟨k, a, by rwa [Function.update_of_ne here], rfl⟩
    · rintro ⟨k, a, held, rfl⟩
      rw [Function.update_apply] at held
      split at held
      · cases held
        exact .inl rfl
      · exact .inr ⟨k, a, held, rfl⟩
  memory := memory
  db := sound

/-- An intent that is changed keeps its key. -/
theorem amended (sync : InSync sdk given keys served s t) {m : Memory} {db : Database} {id : String} {i₀ i j : PaymentIntent}
    (before : s.world.memory.holdings id = some i₀) (key : i.idempotencyKey = i₀.idempotencyKey)
    (left : m.holdings = Function.update s.world.memory.holdings id (some i))
    (right : db.holdings = Function.update t.world.db.holdings id (some j)) (same : SameIntent i j)
    (valid : Checked sdk i.fields i.toNativePayment) (memory : m.Sound) (sound : db.Sound) :
    InSync sdk given keys served { s with world.memory := m } { t with world.db := db } := by
  refine sync.changed left right same valid (sync.named id i₀ before) memory sound (fun other => ?_) fun i₁ here => ?_
  · refine (or_iff_right_of_imp fun same => ?_).symm
    exact (sync.taken other).2 ⟨id, i₀, before, key ▸ same.symm⟩
  · rw [key, Option.some.inj (here.symm.trans before)]

/-- Both sides draw an identifier. -/
theorem draws (sync : InSync sdk given keys served s t) (room : served < calls) :
    InSync sdk given keys (served + 1) { s with world.issued := given.ids s.world.issued.length :: s.world.issued }
      { t with world.issued := given.ids t.world.issued.length :: t.world.issued } where
  issued := by
    show _ :: _ = _ :: _
    rw [sync.issued]
  few := Nat.succ_le_succ sync.few
  asked := sync.asked
  held := sync.held
  checked := sync.checked
  named id i found := List.mem_cons_of_mem _ (sync.named id i found)
  drawn := sync.drawn.cons
  uuids := List.forall_mem_cons.2 ⟨given.uuid _ (sync.few.trans_lt room), sync.uuids⟩
  taken := sync.taken
  memory := sync.memory
  db := sync.db

/-- Both sides ask Horizon for a transaction. -/
theorem asks (sync : InSync sdk given keys served s t) :
    InSync sdk given keys served { s with asked := s.asked + 1 } { t with asked := t.asked + 1 } where
  issued := sync.issued
  few := sync.few
  asked := congrArg (· + 1) sync.asked
  held := sync.held
  checked := sync.checked
  named := sync.named
  drawn := sync.drawn
  uuids := sync.uuids
  taken := sync.taken
  memory := sync.memory
  db := sync.db

end InSync

end AfriPay.Payments
