import AfriPay.Calls.Possible
import AfriPay.Payments.Fulfilment
import AfriPay.Payments.Interchange

/-!
# No payment is stuck

Calls may stop at any operation, answers may be lost, and Horizon may say
nothing. Whatever has happened, a payment can still be brought to its end by
one more call: a valid request be created, a pending intent be submitted, and
one with a hash be settled by `reconcile` alone.
-/

namespace AfriPay.Payments
open Calls Text Stellar Storage

/-- What a deployment holds. -/
def World.holdings (d : Deployment) (w : World) : Holdings := w.intent d

/-- The intent bound to a hash, at some time. -/
def PaymentIntent.bound (i : PaymentIntent) (hash : String) (t : Timestamp) : PaymentIntent :=
  { i with transactionHash := some (.str hash), updatedAt := t }

/-- The intent with a status, at some time. -/
def PaymentIntent.settled (i : PaymentIntent) (status : PaymentStatus) (t : Timestamp) : PaymentIntent :=
  { i with status, updatedAt := t }

section Operations

variable {d : Deployment} {w : World} {α : Type}

theorem World.holdings_pool (pool : d.pool = true) (w : World) : w.holdings d = w.db.holdings := by
  funext id
  rw [World.holdings, World.intent, if_pos pool]
  rfl

theorem World.holdings_memory (pool : d.pool = false) (w : World) : w.holdings d = w.memory.holdings := by
  funext id
  rw [World.holdings, World.intent, if_neg (by simp [pool])]
  rfl

theorem can_dateNow {Q : Timestamp → World → Prop} (t : Timestamp) (h : Q t w) : dateNow.Can (exec d) Q w := ⟨t, w, rfl, h⟩

theorem can_inMemory {op : MemoryOp} {Q : op.Answer → World → Prop} {a : op.Answer} {m : Memory} (ran : op.run w.memory = .ok (a, m))
    (h : Q a { w with memory := m }) : (inMemory op).Can (exec d) Q w :=
  ⟨.ok a, _, ⟨m, .ran ran, rfl⟩, h⟩

theorem can_query {st : Statement} {Q : List st.Row → World → Prop} {now : Timestamp} {rows : List st.Row} {db : Database}
    (ran : st.run d.pgTime now w.db = .ok (rows, db)) (h : Q rows { w with db }) : (query st).Can (exec d) Q w :=
  ⟨.ok rows, _, ⟨db, .ran ran, rfl⟩, h⟩

theorem can_findIntent {id : String} (plain : d.pool = true → pgText id = true) {Q : Option PaymentIntent → World → Prop}
    (h : Q (w.holdings d id) w) : (PaymentIntentStore.findIntent d id).Can (exec d) Q w := by
  apply Prog.can_ite
  · intro pool
    obtain ⟨rows, ran, first⟩ := w.db.selectIntent_spec (plain pool)
    have ran : (Statement.selectIntent id).run d.pgTime 0 w.db = .ok (rows, w.db) := ran
    rw [World.holdings_pool pool, ← first] at h
    exact Prog.can_bind.2 (can_query ran h)
  · intro memory
    have ran : (MemoryOp.findIntent id).run w.memory = .ok (w.memory.holdings id, w.memory) := rfl
    rw [World.holdings_memory (Bool.eq_false_of_not_eq_true memory)] at h
    exact can_inMemory ran h

theorem can_get {id : String} {i : PaymentIntent} (stored : w.holdings d id = some i) (plain : d.pool = true → pgText id = true)
    {Q : PaymentIntent → World → Prop} (h : Q i w) : (PaymentIntentService.get d id).Can (exec d) Q w := by
  unfold PaymentIntentService.get
  refine Prog.can_bind.2 (can_findIntent plain ?_)
  rw [stored]
  exact h

/-- A claim that is in order can be made. -/
theorem can_claimHash (sound : w.Sound) {id : String} {i : PaymentIntent} (stored : w.holdings d id = some i)
    (plain : d.pool = true → pgText id = true) {hash : Hash} (grants : ¬(w.holdings d).Refuses id (toHex hash))
    {Q : PaymentIntent → World → Prop}
    (h : ∀ t w', w'.Sound → w'.holdings d id = some (i.bound (toHex hash) t) → Q (i.bound (toHex hash) t) w') :
    (PaymentIntentStore.claimHash d id (toHex hash)).Can (exec d) Q w := by
  apply Prog.can_ite
  · intro pool
    rw [World.holdings_pool pool] at stored grants
    obtain ⟨r, found, rfl⟩ := Database.holdings_eq_some.1 stored
    rcases Database.claimHash_spec sound.db (plain pool) (pgText_toHex hash) found 0 with ⟨refused, -⟩ | ⟨-, db, ran, after⟩
    · exact (grants refused).elim
    have bound : (Database.setHash (toHex hash) 0 r).intent = r.intent.bound (toHex hash) (throughDateText 0) := by
      simp [Database.setHash, IntentRow.intent, PaymentIntent.bound, Option.filter, toHex_ne_empty]
    have sound' := (Database.claimHash_may sound.db (toHex_ne_empty hash) ran).1
    have ran : (Statement.claimHash id (toHex hash)).run d.pgTime 0 w.db = .ok ([_], db) := ran
    refine Prog.can_bind.2 (can_query ran ?_)
    show Q (Database.setHash (toHex hash) 0 r).intent { w with db }
    rw [bound]
    refine h _ _ ⟨sound.memory, sound'⟩ ?_
    rw [World.holdings_pool pool, ← bound]
    show db.holdings id = _
    rw [after, Function.update_self]
  · intro memory
    have pool := Bool.eq_false_of_not_eq_true memory
    rw [World.holdings_memory pool] at stored grants
    rcases Memory.claimHash_spec sound.memory stored (toHex hash) 0 with ⟨refused, -⟩ | ⟨-, m, i', rfl, ran, after⟩
    · exact (grants refused).elim
    have sound' := (Memory.claimHash_may sound.memory (toHex_ne_empty hash) ran).1
    have ran : (MemoryOp.claimHash id (toHex hash) 0).run w.memory = .ok (i.bound (toHex hash) 0, m) := ran
    refine Prog.can_bind.2 (can_dateNow 0 (can_inMemory ran (h 0 _ ⟨sound', sound.db⟩ ?_)))
    rw [World.holdings_memory pool]
    show m.holdings id = _
    rw [after, Function.update_self]
    rfl

/-- A pending intent can be settled for the hash it holds. -/
theorem can_settle (sound : w.Sound) {id : String} {i : PaymentIntent} (stored : w.holdings d id = some i)
    (plain : d.pool = true → pgText id = true) (pending : i.status = .pending) {hash : String}
    (held : i.transactionHash = some (.str hash)) (status : PaymentStatus) {Q : Option PaymentIntent → World → Prop}
    (h : ∀ t w', w'.holdings d id = some (i.settled status t) → Q (some (i.settled status t)) w') :
    (PaymentIntentStore.settle d id (.str hash) status).Can (exec d) Q w := by
  apply Prog.can_ite
  · intro pool
    rw [World.holdings_pool pool] at stored
    obtain ⟨r, found, rfl⟩ := Database.holdings_eq_some.1 stored
    obtain ⟨db, ran, after⟩ := Database.settle_spec sound.db (plain pool) found held status 0
    have pending : r.status = .pending := pending
    rw [if_pos pending] at after
    have ran : (Statement.settle id (.str hash) status).run d.pgTime 0 w.db = .ok ([], db) := ran
    refine Prog.can_bind.2 (Prog.can_map (can_query ran (can_findIntent plain ?_)))
    have now : ({ w with db } : World).holdings d id = some (r.intent.settled status (throughDateText 0)) := by
      rw [World.holdings_pool pool]
      show db.holdings id = _
      rw [after, Function.update_self]
      rfl
    rw [now]
    exact h _ _ now
  · intro memory
    have pool := Bool.eq_false_of_not_eq_true memory
    rw [World.holdings_memory pool] at stored
    obtain ⟨m, i', rfl, ran, after⟩ := Memory.settle_spec stored held status 0
    rw [if_pos pending] at ran after
    have ran : (MemoryOp.settle id (.str hash) status 0).run w.memory = .ok (i.settled status 0, m) := ran
    refine Prog.can_bind.2 (can_dateNow 0 (Prog.can_map (can_inMemory ran (h 0 _ ?_))))
    rw [World.holdings_memory pool]
    show m.holdings id = _
    rw [after, Function.update_self]
    rfl

/-- Horizon can answer a query for a hash so that either verdict comes of it. -/
theorem can_verify (testnet : d.network = "testnet") (hash : Hash) {status : PaymentStatus} (final : status ≠ .pending)
    {Q : PaymentStatus → World → Prop} (h : Q status w) :
    (stellar (verifyTransaction d.network (.str (toHex hash)))).Can (exec d) Q w := by
  have text : checkHash d.network (.str (toHex hash)) = .ok () := by
    simp [checkHash, assertTestnet, testnet, isHashText, isHashString_toHex, bind, Except.bind, pure, Except.pure]
  have record : verdict (.str (toHex hash)) (some ⟨toHex hash, some 1, decide (status = .succeeded)⟩) = status := by
    cases status <;> first | exact (final rfl).elim | simp [verdict, Json.same]
  unfold verifyTransaction
  rw [stellar_bind, stellar_ofExcept, text]
  refine ⟨some ⟨toHex hash, some 1, decide (status = .succeeded)⟩, w, rfl, ?_⟩
  show Q (verdict _ _) w
  rw [record]
  exact h

/-- An accepted envelope can be handed over, and its hash be found with either verdict. -/
theorem can_submission (testnet : d.network = "testnet") {xdr : JsString} {p : NativePayment} {tx : Transaction}
    (accepted : parsePayment d.sdk xdr (some p) = .ok tx) (given : xdr.trim ≠ .text "") {status : PaymentStatus} (final : status ≠ .pending)
    {Q : Submission → World → Prop} (h : ∀ result : Submission, result.status = status → Q result w) :
    (stellar (submitSignedTransaction d.sdk d.network xdr (some p.sender) (some p))).Can (exec d) Q w := by
  obtain ⟨-, -, paid⟩ := parsePayment_ok.1 accepted
  have own : ∀ publicKey, some p.sender = some publicKey → publicKey ≠ "" → tx.source = publicKey := by
    rintro _ ⟨⟩ -
    exact (paid p rfl).2.source
  rw [stellar_submission, checkSubmission_iff.2 ⟨testnet, given, accepted, own⟩]
  refine ⟨(), w, rfl, ?_⟩
  show (stellar (verifyTransaction d.network (.str (toHex tx.hash))) >>= fun status =>
    (Prog.ret ⟨toHex tx.hash, "https://stellar.expert/explorer/testnet/tx/" ++ toHex tx.hash, status⟩ : PaymentProg Submission)).Can (exec d) Q w
  exact Prog.can_bind.2 (can_verify testnet tx.hash final (h _ rfl))

/-- A pending intent can be submitted and settled with an accepted envelope. -/
theorem can_submit (testnet : d.network = "testnet") (sound : w.Sound) {id : String} {i : PaymentIntent}
    (stored : w.holdings d id = some i) (plain : d.pool = true → pgText id = true) (pending : i.status = .pending) {xdr : JsString}
    {tx : Transaction} (accepted : parsePayment d.sdk xdr (some i.toNativePayment) = .ok tx) (given : xdr.trim ≠ .text "")
    (grants : ¬(w.holdings d).Refuses id (toHex tx.hash)) {status : PaymentStatus} (final : status ≠ .pending) :
    (PaymentIntentService.submit d id xdr).Can (exec d) (fun r w' => ∃ t, r = some ((i.bound (toHex tx.hash) t).settled status t) ∧
      w'.holdings d id = r) w := by
  unfold PaymentIntentService.submit
  refine Prog.can_bind.2 (can_get stored plain (Prog.can_bind.2 (Prog.can_ofExcept accepted ?_)))
  refine Prog.can_bind.2 (can_claimHash sound stored plain grants fun t w₁ sound₁ stored₁ => ?_)
  refine Prog.can_ite (fun other => (other pending).elim) fun _ => ?_
  refine Prog.can_bind.2 (can_submission testnet accepted given final fun result verified => ?_)
  rw [verified]
  refine can_settle sound₁ stored₁ plain pending rfl status fun t' w₂ stored₂ => ⟨t', ?_, stored₂⟩
  rfl

/-- A pending intent with a hash can be settled by `reconcile`. -/
theorem can_reconcile (testnet : d.network = "testnet") (sound : w.Sound) {id : String} {i : PaymentIntent}
    (stored : w.holdings d id = some i) (plain : d.pool = true → pgText id = true) (pending : i.status = .pending) {hash : Hash}
    (held : i.transactionHash = some (.str (toHex hash))) {status : PaymentStatus} (final : status ≠ .pending) :
    (PaymentIntentService.reconcile d id).Can (exec d) (fun r w' => ∃ t, r = some (i.settled status t) ∧ w'.holdings d id = r) w := by
  unfold PaymentIntentService.reconcile
  refine Prog.can_bind.2 (can_get stored plain ?_)
  rw [held]
  have present : truthy (some (.str (toHex hash))) = true := by simp [truthy, toHex_ne_empty]
  refine Prog.can_ite ?_ fun _ => ?_
  · rintro (absent | settled)
    · rw [present] at absent
      cases absent
    · exact (settled pending).elim
  · refine Prog.can_bind.2 (can_verify testnet hash final ?_)
    exact can_settle sound stored plain pending held status fun t w' stored' => ⟨t, rfl, stored'⟩

/-- The identifiers that were drawn or have a record. -/
def World.names (w : World) : List String :=
  w.issued ++ (w.db.intents.rows.map (·.id) ++ (w.db.links.rows.map (·.id) ++ w.memory.intents.values.map (·.id)))

/-- Identifiers are left. -/
def World.Room (w : World) : Prop := w.names.length < 16 ^ 32

instance (w : World) : Decidable w.Room := inferInstanceAs (Decidable (_ < _))

/-- What a `create` opens: an intent of the requested details under its key, and nothing else changes. -/
structure Opens (d : Deployment) (w : World) (key : JsString) (payment : NativePayment) (i : PaymentIntent) (w' : World) : Prop where
  details : SameDetails i.toNativePayment payment
  key : i.idempotencyKey = key
  pending : i.status = .pending
  unbound : i.transactionHash = none
  plain : pgText i.id = true
  fresh : w.holdings d i.id = none
  after : w'.holdings d = Function.update (w.holdings d) i.id (some i)

theorem can_storeAndCheck {i : PaymentIntent} {units : Nat} (value : stroops i.amount = .ok units) (positive : 0 < units)
    (pending : i.status = .pending) (unbound : i.transactionHash = none) (uuid : isUuid i.id = true)
    (texts : d.pool = true → ∀ text ∈ (PaymentIntentStore.values i).texts, pgText text = true)
    (key : d.pool = true → keptText true i.idempotencyKey = i.idempotencyKey)
    (memo : d.pool = true → ∀ m, i.memo = some m → keptText true m = m)
    (fresh : w.holdings d i.id = none) (unused : ∀ id item, w.holdings d id = some item → item.idempotencyKey ≠ i.idempotencyKey) :
    (storeAndCheck d i).Can (exec d) (Opens d w i.idempotencyKey i.toNativePayment) w := by
  have self := sameDetails_self value
  have plain := pgText_of_isUuid uuid
  cases pool : d.pool with
  | true =>
    rw [World.holdings_pool pool] at fresh unused
    obtain ⟨n, column⟩ : ∃ n, n = scaledValue 12 i.amount := ⟨_, rfl⟩
    have inserts := @Database.insertIntent_spec w.db (PaymentIntentStore.values i) uuid (texts pool) units value positive fresh
    rw [show scaledValue 12 (PaymentIntentStore.values i).amount = n from column.symm] at inserts
    rcases inserts with ⟨existing, id, held, same, -⟩ | ⟨-, db, ran, after⟩
    · exact (unused id existing.intent held ((congrArg JsString.text same).trans (key pool))).elim
    have ran : (Statement.insertIntent (PaymentIntentStore.values i)).run d.pgTime 0 w.db = .ok ([_], db) := ran
    have details := sameDetails_row value column (memo pool)
    rw [storeAndCheck_pool pool]
    refine ⟨_, _, ⟨db, .ran ran, rfl⟩, Prog.can_ofExcept (checked_ok details) ?_⟩
    refine ⟨details, key pool, pending, rfl, plain, ?_, ?_⟩
    · rwa [World.holdings_pool pool]
    · rw [World.holdings_pool pool, World.holdings_pool pool]
      exact after
  | false =>
    rw [World.holdings_memory pool] at fresh unused
    rcases w.memory.createIntent_spec i with ⟨id, existing, held, same, -⟩ | ⟨-, m, ran, after⟩
    · exact (unused id existing held same).elim
    have ran : (MemoryOp.createIntent i).run w.memory = .ok (i, m) := congrArg Except.ok ran
    rw [storeAndCheck_memory pool]
    refine ⟨_, _, ⟨m, .ran ran, rfl⟩, Prog.can_ofExcept (checked_ok self) ?_⟩
    refine ⟨self, rfl, pending, unbound, plain, ?_, ?_⟩
    · rwa [World.holdings_memory pool]
    · rw [World.holdings_memory pool, World.holdings_memory pool]
      exact after

/-- A valid request can be created under a key that is not in use. -/
theorem can_create (sound : w.Sound) (room : w.Room) {input : DeclaredInput} {payment : NativePayment} {key : JsString}
    (valid : validatePayment d.sdk input.payment = .ok payment) (keyed : idempotencyKeyOf input.idempotencyKey = .ok key)
    (storable : d.pool = true → (IntentCall.create input).Storable d.sdk [])
    (unused : ∀ id i, w.holdings d id = some i → i.idempotencyKey ≠ key) :
    (PaymentIntentService.create d input.input).Can (exec d) (Opens d w key payment) w := by
  have request := validatePayment_ok.1 valid
  obtain ⟨units, value, positive⟩ := request.positive
  obtain ⟨uuid, new⟩ := freshUuid_spec room
  generalize freshUuid w.names = id at uuid new
  simp only [World.names, List.mem_append, List.mem_map, not_or, not_exists, not_and] at new
  obtain ⟨unissued, unstored, -, unkept⟩ := new
  have fresh : w.holdings d id = none := by
    rw [Option.eq_none_iff_forall_ne_some]
    intro i held
    cases pool : d.pool with
    | true =>
      rw [World.holdings_pool pool] at held
      obtain ⟨r, found, -⟩ := Database.holdings_eq_some.1 held
      exact unstored r (Table.mem_of_find found).1 (Database.find_id found)
    | false =>
      rw [World.holdings_memory pool] at held
      exact unkept i ((OrderedMap.mem_values_iff _).2 ⟨id, held⟩) (sound.memory.key id i held)
  have texts : d.pool = true → ∀ text ∈ [key.toWellFormed, payment.sender, payment.recipient, payment.asset] ++
      (payment.memo.map JsString.toWellFormed).toList, pgText text = true := fun pool =>
    plain_row request (storable pool payment key valid keyed).1
  have whole : d.pool = true → keptText true key = key := fun pool => (storable pool payment key valid keyed).2.1
  have memo : d.pool = true → ∀ m, payment.memo = some m → keptText true m = m := fun pool =>
    (storable pool payment key valid keyed).2.2.resolve_left List.not_mem_nil
  have valid : validatePayment d.sdk input.input.payment = .ok payment := valid
  have keyed : idempotencyKeyOf input.input.idempotencyKey = .ok key := keyed
  unfold PaymentIntentService.create
  refine Prog.can_bind.2 (Prog.can_ofExcept valid (Prog.can_bind.2 (Prog.can_ofExcept keyed (Prog.can_bind.2 (can_dateNow 0 ?_)))))
  refine ⟨id, { w with issued := id :: w.issued }, ⟨⟨uuid, unissued⟩, rfl⟩, ?_⟩
  have stores := @can_storeAndCheck d { w with issued := id :: w.issued } (PaymentIntentService.newIntent input.input payment key id 0) units
    value positive rfl rfl uuid texts whole memo fresh unused
  exact stores.mono fun i w' opens => ⟨opens.details, opens.key, opens.pending, opens.unbound, opens.plain, opens.fresh, opens.after⟩

end Operations

/-! ## Identifiers in the database -/

/-- PostgreSQL has taken every identifier it holds. -/
def Database.Plain (db : Database) : Prop := ∀ id, db.intents.find (·.id = id) ≠ none → pgText id = true

theorem Database.Plain.run {pgTime : Json → Option Timestamp} {now : Timestamp} {db db' : Database} {s : Statement}
    {rows : List s.Row} (plain : db.Plain) (h : s.run pgTime now db = .ok (rows, db')) : db'.Plain := by
  intro id stored
  rcases Database.run_intents h with same | ⟨v, rfl, inserted⟩ | ⟨cond, set, -, updated, keeps⟩
  · rw [same] at stored
    exact plain id stored
  · by_cases own : v.id = id
    · obtain ⟨_, uuid, -⟩ := bind_ok (show (assertUuid v.id >>= _) = _ from h)
      rw [← own]
      exact pgText_of_isUuid (assertUuid_ok.1 uuid)
    · refine plain id fun absent => stored ?_
      rw [Table.find_insert inserted (·.id) id, absent, Option.none_or]
      exact if_neg own
  · refine plain id fun absent => stored ?_
    rw [Table.find_update updated (·.id) fun r => (keeps r).1, absent, Option.map_none]

section Runs

variable {d : Deployment} {cfg : PaymentConfig}

theorem plain_of_run (run : Reachable d cfg) : cfg.shared.world.db.Plain := by
  induction run with
  | refl =>
    intro id stored
    exact (stored rfl).elim
  | @tail mid last run step ih =>
    cases step with
    | start c => exact ih
    | @act tid c op next ans s' waiting does =>
      have h := does.1
      cases op with
      | randomUUID => rw [h.2]; exact ih
      | stellar request => rw [show s'.world = mid.shared.world from h]; exact ih
      | memory op =>
        obtain ⟨m, -, after⟩ := h
        rw [after]
        exact ih
      | query s =>
        obtain ⟨db, queried, after⟩ := h
        rw [after]
        cases queried with
        | ran ok => exact ih.run ok
        | unanswered ok => exact ih.run ok
        | refused failed => exact ih
        | unreached => exact ih

theorem plain_of_stored (run : Reachable d cfg) {id : String} {i : PaymentIntent} (stored : cfg.shared.world.intent d id = some i)
    (pool : d.pool = true) : pgText id = true := by
  rw [World.intent, if_pos pool] at stored
  refine plain_of_run run id fun absent => ?_
  rw [absent] at stored
  cases stored

/-! ## From every reachable configuration -/

/-- What one more call can do, whatever has happened and whatever is in progress. -/
structure Live (d : Deployment) (cfg : PaymentConfig) : Prop where
  /-- While identifiers are left, a valid request is created under a key that is not in use, and changes nothing else. -/
  create : ∀ input payment key, cfg.shared.world.Room → validatePayment d.sdk input.payment = .ok payment →
    idempotencyKeyOf input.idempotencyKey = .ok key → (d.pool = true → (IntentCall.create input).Storable d.sdk []) →
    (∀ id i, cfg.shared.world.intent d id = some i → i.idempotencyKey ≠ key) →
    ∃ i s', (payments d).Steps cfg ⟨s', cfg.calls ++ [(.create input, .ret (.intent (some i)))]⟩ ∧
      Opens d cfg.shared.world key payment i s'.world
  /-- A pending intent is settled with the envelope a `submit` brings, if no other has its hash. -/
  submit : ∀ id i xdr tx status, cfg.shared.world.intent d id = some i → i.status = .pending →
    parsePayment d.sdk xdr (some i.toNativePayment) = .ok tx → xdr.trim ≠ .text "" →
    (∀ h, i.transactionHash = some (.str h) → h = toHex tx.hash) →
    (∀ j k, j ≠ id → cfg.shared.world.intent d j = some k → k.transactionHash ≠ some (.str (toHex tx.hash))) → status ≠ .pending →
    ∃ i' s', (payments d).Steps cfg ⟨s', cfg.calls ++ [(.submit id xdr, .ret (.intent (some i')))]⟩ ∧
      s'.world.intent d id = some i' ∧ i'.status = status ∧ i'.transactionHash = some (.str (toHex tx.hash)) ∧
      i'.toNativePayment = i.toNativePayment
  /-- A pending intent that has a hash is settled by `reconcile`. -/
  reconcile : ∀ id i hash status, cfg.shared.world.intent d id = some i → i.status = .pending → i.transactionHash = some (.str hash) →
    status ≠ .pending →
    ∃ i' s', (payments d).Steps cfg ⟨s', cfg.calls ++ [(.reconcile id, .ret (.intent (some i')))]⟩ ∧
      s'.world.intent d id = some i' ∧ i'.status = status ∧ i'.transactionHash = some (.str hash)
  /-- A valid request is created, submitted and found to have succeeded. -/
  pay : ∀ input payment key xdr tx, cfg.shared.world.Room → validatePayment d.sdk input.payment = .ok payment →
    idempotencyKeyOf input.idempotencyKey = .ok key → (d.pool = true → (IntentCall.create input).Storable d.sdk []) →
    (∀ id i, cfg.shared.world.intent d id = some i → i.idempotencyKey ≠ key) →
    parsePayment d.sdk xdr (some payment) = .ok tx → xdr.trim ≠ .text "" →
    (∀ j k, cfg.shared.world.intent d j = some k → k.transactionHash ≠ some (.str (toHex tx.hash))) →
    ∃ i i' s', (payments d).Steps cfg
        ⟨s', cfg.calls ++ [(.create input, .ret (.intent (some i)))] ++ [(.submit i.id xdr, .ret (.intent (some i')))]⟩ ∧
      s'.world.intent d i.id = some i' ∧ i'.status = .succeeded ∧ i'.transactionHash = some (.str (toHex tx.hash)) ∧
      SameDetails i'.toNativePayment payment

theorem live_create (run : Reachable d cfg) (room : cfg.shared.world.Room) {input : DeclaredInput} {payment : NativePayment} {key : JsString}
    (valid : validatePayment d.sdk input.payment = .ok payment) (keyed : idempotencyKeyOf input.idempotencyKey = .ok key)
    (storable : d.pool = true → (IntentCall.create input).Storable d.sdk [])
    (unused : ∀ id i, cfg.shared.world.intent d id = some i → i.idempotencyKey ≠ key) :
    ∃ i s', (payments d).Steps cfg ⟨s', cfg.calls ++ [(.create input, .ret (.intent (some i)))]⟩ ∧
      Opens d cfg.shared.world key payment i s'.world := by
  have sound := (payments_holds run).inv.sound
  have can := can_create sound room valid keyed storable unused
  obtain ⟨a, s', steps, i, rfl, opens⟩ := (payments d).alone (.create input) (Q := fun a w' => ∃ i, a = .intent (some i) ∧
    Opens d cfg.shared.world key payment i w') (Prog.can_map (can.mono fun i w' opens => ⟨i, rfl, opens⟩))
  exact ⟨i, s', steps, opens⟩

theorem live_submit (testnet : d.network = "testnet") (run : Reachable d cfg) {id : String} {i : PaymentIntent} {xdr : JsString}
    {tx : Transaction} {status : PaymentStatus} (stored : cfg.shared.world.intent d id = some i) (pending : i.status = .pending)
    (accepted : parsePayment d.sdk xdr (some i.toNativePayment) = .ok tx) (given : xdr.trim ≠ .text "")
    (bound : ∀ h, i.transactionHash = some (.str h) → h = toHex tx.hash)
    (free : ∀ j k, j ≠ id → cfg.shared.world.intent d j = some k → k.transactionHash ≠ some (.str (toHex tx.hash)))
    (final : status ≠ .pending) :
    ∃ i' s', (payments d).Steps cfg ⟨s', cfg.calls ++ [(.submit id xdr, .ret (.intent (some i')))]⟩ ∧
      s'.world.intent d id = some i' ∧ i'.status = status ∧ i'.transactionHash = some (.str (toHex tx.hash)) ∧
      i'.toNativePayment = i.toNativePayment := by
  have sound := (payments_holds run).inv.sound
  have grants : ¬(cfg.shared.world.holdings d).Refuses id (toHex tx.hash) := by
    rintro (⟨h, held, other⟩ | ⟨j, other, held⟩)
    · obtain ⟨i₀, here, held⟩ := Holdings.hashOf_eq_some.1 held
      obtain rfl : i₀ = i := Option.some.inj (here.symm.trans stored)
      exact other (bound h held)
    · obtain ⟨k, here, held⟩ := Holdings.hashOf_eq_some.1 held
      exact free j k other here held
  have can := can_submit testnet sound stored (plain_of_stored run stored) pending accepted given grants final
  obtain ⟨a, s', steps, r, rfl, t, rfl, stored'⟩ := (payments d).alone (.submit id xdr) (Q := fun a w' => ∃ r, a = .intent r ∧
    ∃ t, r = some ((i.bound (toHex tx.hash) t).settled status t) ∧ w'.holdings d id = r)
    (Prog.can_map (can.mono fun r w' settled => ⟨r, rfl, settled⟩))
  exact ⟨_, s', steps, stored', rfl, rfl, rfl⟩

theorem live_reconcile (testnet : d.network = "testnet") (run : Reachable d cfg) {id : String} {i : PaymentIntent} {hash : String}
    {status : PaymentStatus} (stored : cfg.shared.world.intent d id = some i) (pending : i.status = .pending)
    (held : i.transactionHash = some (.str hash)) (final : status ≠ .pending) :
    ∃ i' s', (payments d).Steps cfg ⟨s', cfg.calls ++ [(.reconcile id, .ret (.intent (some i')))]⟩ ∧
      s'.world.intent d id = some i' ∧ i'.status = status ∧ i'.transactionHash = some (.str hash) := by
  have inv := (payments_holds run).inv
  -- a stored hash is the hash of an envelope that was accepted
  obtain ⟨-, -, -, tx, -, -, -, rfl⟩ := inv.accepted id i.entry hash (book_of_intent stored) (token_of_hash held)
  have can := can_reconcile testnet inv.sound stored (plain_of_stored run stored) pending held final
  obtain ⟨a, s', steps, r, rfl, t, rfl, stored'⟩ := (payments d).alone (.reconcile id) (Q := fun a w' => ∃ r, a = .intent r ∧
    ∃ t, r = some (i.settled status t) ∧ w'.holdings d id = r) (Prog.can_map (can.mono fun r w' settled => ⟨r, rfl, settled⟩))
  exact ⟨_, s', steps, stored', rfl, held⟩

/-- An intent that has just been opened is settled with an envelope that makes its payment. -/
theorem live_opened (testnet : d.network = "testnet") {w : World} {key : JsString} {payment : NativePayment} {i : PaymentIntent} {xdr : JsString}
    {tx : Transaction} (run : Reachable d cfg) (opens : Opens d w key payment i cfg.shared.world)
    (accepted : parsePayment d.sdk xdr (some i.toNativePayment) = .ok tx) (given : xdr.trim ≠ .text "")
    (free : ∀ j k, w.intent d j = some k → k.transactionHash ≠ some (.str (toHex tx.hash))) :
    ∃ i' s', (payments d).Steps cfg ⟨s', cfg.calls ++ [(.submit i.id xdr, .ret (.intent (some i')))]⟩ ∧
      s'.world.intent d i.id = some i' ∧ i'.status = .succeeded ∧ i'.transactionHash = some (.str (toHex tx.hash)) ∧
      SameDetails i'.toNativePayment payment := by
  have stored : cfg.shared.world.intent d i.id = some i := by
    show cfg.shared.world.holdings d i.id = some i
    rw [opens.after, Function.update_self]
  have others : ∀ j k, j ≠ i.id → cfg.shared.world.intent d j = some k → k.transactionHash ≠ some (.str (toHex tx.hash)) := by
    intro j k other here
    have here : cfg.shared.world.holdings d j = some k := here
    rw [opens.after, Function.update_of_ne other] at here
    exact free j k here
  have bound : ∀ h, i.transactionHash = some (.str h) → h = toHex tx.hash := by
    intro h held
    rw [opens.unbound] at held
    cases held
  have final : PaymentStatus.succeeded ≠ .pending := by decide
  obtain ⟨i', s', steps, stored', succeeded, hash, details⟩ := live_submit testnet run stored opens.pending accepted given bound others final
  exact ⟨i', s', steps, stored', succeeded, hash, details ▸ opens.details⟩

/-- **No payment is stuck**, in any reachable configuration on Testnet. -/
theorem payments_live (testnet : d.network = "testnet") (run : Reachable d cfg) : Live d cfg := by
  refine ⟨fun input payment key room => live_create run room, fun id i xdr tx status => live_submit testnet run,
    fun id i hash status => live_reconcile testnet run, ?_⟩
  intro input payment key xdr tx room valid keyed storable unused accepted given free
  obtain ⟨i, s₁, steps, opens⟩ := live_create run room valid keyed storable unused
  have request := validatePayment_ok.1 valid
  have checked : Checked d.sdk payment.fields payment := by
    obtain ⟨units, value, -⟩ := request.positive
    exact ((sameDetails_self value).requested request).checked request
  rw [← opens.details.parsePayment checked] at accepted
  obtain ⟨i', s₂, steps', settled⟩ := live_opened testnet (run.trans steps) opens accepted given free
  exact ⟨i, i', s₂, steps.trans steps', settled⟩

end Runs

/-- A payment whose `submit` never comes back from its claim of the hash. -/
def Sample.abandoned : List (Scheduled Call Choice) :=
  [.start (.create ⟨payment, some (.str "key")⟩), .act 0 (.now 1000), .act 0 (.uuid intentId), .act 0 (.done 0),
   .start (.submit intentId "signed"), .act 1 (.done 0), .act 1 (.done 0)]

/-- The intent `id` is pending and has a hash. -/
def Sample.claimed (d : Deployment) (cfg : PaymentConfig) : Bool :=
  (cfg.shared.world.intent d intentId).any fun i => i.status = .pending && isString (toHex tx.hash) i.transactionHash

theorem payments_live_abandoned : ∃ cfg i' s', Sample.run true Sample.abandoned = some cfg ∧
    (payments (Sample.deployment true)).Steps cfg ⟨s', cfg.calls ++ [(.reconcile Sample.intentId, .ret (.intent (some i')))]⟩ ∧
      s'.world.intent (Sample.deployment true) Sample.intentId = some i' ∧ i'.status = .succeeded := by
  have ran : (Sample.run true Sample.abandoned).any (Sample.claimed (Sample.deployment true)) = true := by decide +kernel
  obtain ⟨cfg, ran, claimed⟩ := (Option.any_eq_true _ _).1 ran
  obtain ⟨i, stored, both⟩ := (Option.any_eq_true _ _).1 claimed
  obtain ⟨pending, held⟩ := Bool.and_eq_true_iff.1 both
  have run : Reachable (Sample.deployment true) cfg := reachable_of_run ran
  obtain ⟨i', s', steps, stored', succeeded, -⟩ := (payments_live rfl run).reconcile Sample.intentId i _ .succeeded stored (of_decide_eq_true pending)
    (isString_iff.1 held) (by decide)
  exact ⟨cfg, i', s', ran, steps, stored', succeeded⟩

end AfriPay.Payments
