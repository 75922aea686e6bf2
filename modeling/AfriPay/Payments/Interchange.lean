import AfriPay.Calls.Lockstep
import AfriPay.Payments.InSync

/-!
# One service over either store

The same calls over the in-memory store and over the database, with the same
identifiers drawn and the same answers of Horizon; the clocks need not agree.
The stores stay in sync, and every call ends alike on both sides, unless it
brings the database a text that PostgreSQL cannot hold, or would give back
otherwise (`stores_interchangeable_iff`).
-/

namespace AfriPay.Payments
open Calls Text Stellar Storage

/-- Both calls return the same intent, or throw exceptions of one class. -/
def SameOutcome : Except Exception (Option PaymentIntent) → Except Exception (Option PaymentIntent) → Prop :=
  SameResult (Option.Rel SameIntent) fun e e' => e.className = e'.className

/-- The key of a `create` that is not refused before it reaches the store. -/
def IntentCall.key (sdk : Sdk) : IntentCall → Option JsString
  | .create input => match validatePayment sdk input.payment, idempotencyKeyOf input.idempotencyKey with
    | .ok _, .ok key => some key
    | _, _ => none
  | _ => none

/-- The keys that are taken after the calls. -/
def keysOf (sdk : Sdk) (calls : List IntentCall) : List JsString := calls.filterMap (IntentCall.key sdk)

/-- Every text the call would store or look for is one PostgreSQL can hold, and
those it would store, one it gives back as it is. A `create` that is refused before
it reaches the store stores none, and one whose key is taken has its memo compared only. -/
def IntentCall.Storable (sdk : Sdk) (taken : List JsString) : IntentCall → Prop
  | .create input => ∀ payment key, validatePayment sdk input.payment = .ok payment →
      idempotencyKeyOf input.idempotencyKey = .ok key →
      (∀ text ∈ [key.toWellFormed, payment.sender, payment.recipient] ++ (payment.memo.map JsString.toWellFormed).toList,
        pgText text = true) ∧
      keptText true key = key ∧ (key ∈ taken ∨ ∀ memo, payment.memo = some memo → keptText true memo = memo)
  | .get id | .submit id _ | .reconcile id => pgText id = true

/-- A row holds the texts of the request, and the name of the asset. -/
theorem plain_row {sdk : Sdk} {input : PaymentFields} {payment : NativePayment} (request : Checked sdk input payment) {key : JsString}
    (texts : ∀ text ∈ [key.toWellFormed, payment.sender, payment.recipient] ++ (payment.memo.map JsString.toWellFormed).toList,
      pgText text = true) :
    ∀ text ∈ [key.toWellFormed, payment.sender, payment.recipient, payment.asset] ++ (payment.memo.map JsString.toWellFormed).toList,
      pgText text = true := by
  have lumens : pgText payment.asset = true := by rw [request.lumens]; decide
  simp only [List.cons_append, List.nil_append, List.forall_mem_cons] at texts ⊢
  exact ⟨texts.1, texts.2.1, texts.2.2.1, lumens, texts.2.2.2⟩

/-! ## Both sides -/

section Both

variable {d : Deployment} {calls : Nat} {given : Given calls} {keys : List JsString} {served : Nat}
  {clock clock' : Nat → Timestamp} {s t : Scene} {α β : Type}

/-- The calls end alike in scenes that `Q` relates to what they return; if both
throw, then exceptions of one class, and the stores are in sync. -/
abbrev Alike (d : Deployment) {calls : Nat} (given : Given calls) (keys : List JsString) (served : Nat)
    (clock clock' : Nat → Timestamp) (Q : α → β → Scene → Scene → Prop)
    (p : PaymentProg α) (q : PaymentProg β) (s t : Scene) : Prop :=
  Lockstep (answers (d.withPool false) given clock) (answers (d.withPool true) given clock')
    (fun e e' s t => e.className = e'.className ∧ InSync d.sdk given keys served s t) Q p q s t

/-- `get`, and the rest of a call that begins with it. -/
theorem alike_get (sync : InSync d.sdk given keys served s t) {id : String} (plain : pgText id = true) {Q : α → β → Scene → Scene → Prop}
    {f : PaymentIntent → PaymentProg α} {g : PaymentIntent → PaymentProg β}
    (found : ∀ i j, s.world.memory.holdings id = some i → t.world.db.holdings id = some j → SameIntent i j →
      Alike d given keys served clock clock' Q (f i) (g j) s t) :
    Alike d given keys served clock clock' Q (PaymentIntentService.get (d.withPool false) id >>= f)
      (PaymentIntentService.get (d.withPool true) id >>= g) s t := by
  apply Lockstep.bind
  intro m n
  rw [run_get (run_findIntent_memory id), run_get (run_findIntent_pool plain)]
  rcases sync.cases id with ⟨left, right⟩ | ⟨i, j, left, right, same⟩
  · rw [left, right]
    exact ⟨rfl, sync⟩
  · rw [left, right]
    exact found i j left right same

/-- The last check of `create` has one outcome for the same intent. -/
theorem checked_alike {i j a b : PaymentIntent} (details : i.toNativePayment = j.toNativePayment) (same : SameIntent a b)
    (sync : InSync d.sdk given keys served s t) (m n : Nat) :
    EndsAlike (fun e e' s t => e.className = e'.className ∧ InSync d.sdk given keys served s t)
      (fun a b s t => SameIntent a b ∧ InSync d.sdk given keys served s t) (checked i a, m, s) (checked j b, n, t) := by
  unfold checked
  rw [same.details.check, details]
  cases checkSameDetails b.toNativePayment j.toNativePayment with
  | error e => exact ⟨rfl, sync⟩
  | ok _ => exact ⟨same, sync⟩

/-- Storing the same intent, on both sides under an identifier just drawn. -/
theorem alike_storeAndCheck (sync : InSync d.sdk given keys served s t) {i j : PaymentIntent} (same : SameIntent i j)
    (details : i.toNativePayment = j.toNativePayment) (pending : i.status = .pending) (unclaimed : i.transactionHash = none)
    (valid : Checked d.sdk i.fields i.toNativePayment) (drawn : i.id ∈ s.world.issued) (fresh : s.world.memory.holdings i.id = none)
    (uuid : isUuid j.id = true) (plain : ∀ text ∈ (PaymentIntentStore.values j).texts, pgText text = true)
    (whole : keptText true i.idempotencyKey = i.idempotencyKey)
    (memo : i.idempotencyKey ∈ keys ∨ ∀ m, i.memo = some m → keptText true m = m) :
    Alike d given (i.idempotencyKey :: keys) served clock clock'
      (fun a b s t => SameIntent a b ∧ InSync d.sdk given (i.idempotencyKey :: keys) served s t) (storeAndCheck (d.withPool false) i)
      (storeAndCheck (d.withPool true) j) s t := by
  obtain ⟨units, value, positive⟩ := valid.positive
  have amount : stroops j.amount = .ok units := details ▸ value
  have absent : t.world.db.holdings j.id = none := same.id ▸ sync.absent fresh
  intro m n
  have column : .text j.idempotencyKey.toWellFormed = i.idempotencyKey := same.key ▸ whole
  rcases s.world.memory.createIntent_spec i with ⟨k, a, held, key, left⟩ | ⟨none, mem, left, after⟩ <;>
    rcases Database.insertIntent_spec uuid plain amount positive absent with ⟨row, k', held', key', right⟩ | ⟨none', db, right, after'⟩
  · -- the key is taken, by the same intent on both sides
    obtain ⟨b, there, same'⟩ := sync.ofMemory held
    have named : row.intent.idempotencyKey = i.idempotencyKey := (congrArg JsString.text key').trans column
    rw [Database.one_per_key there held' (same'.key.symm.trans (key.trans named.symm))] at same'
    have again := sync.sameKeys fun key' => List.mem_cons.trans (or_iff_right_of_imp fun here =>
      (sync.taken key').2 ⟨k, a, held, key.trans here.symm⟩)
    rw [run_storeAndCheck_memory left, run_storeAndCheck_pool right]
    exact checked_alike details same' again _ _
  · obtain ⟨b, there, same'⟩ := sync.ofMemory held
    exact (none' k b there (same'.key.symm.trans (key.trans column.symm))).elim
  · obtain ⟨a, here, same'⟩ := sync.ofDatabase held'
    exact (none k' a here (same'.key.trans ((congrArg JsString.text key').trans column))).elim
  · have kept : ∀ m, j.memo = some m → keptText true m = m := by
      rw [← details]
      refine memo.resolve_left fun mem => ?_
      obtain ⟨k, a, held, key⟩ := (sync.taken _).1 mem
      exact none k a held key
    have same' := same.row unclaimed amount rfl (same.key ▸ whole) kept
    have memory : mem.Sound := by
      have sound := (Memory.createIntent_may sync.memory unclaimed pending fresh).1
      rwa [left] at sound
    have sound : db.Sound := (Database.insertIntent_may sync.db (same.status.symm.trans pending) right).1
    have name : (PaymentIntentStore.values j).id = i.id := same.id.symm
    rw [name] at after'
    have sync' := sync.changed after after' same' valid drawn memory sound (fun _ => List.mem_cons) fun i₀ before => by
      rw [fresh] at before
      cases before
    rw [run_storeAndCheck_memory left, run_storeAndCheck_pool right]
    exact checked_alike details same' sync' _ _

theorem keysOf_append (sdk : Sdk) (done : List IntentCall) (c : IntentCall) :
    keysOf sdk (done ++ [c]) = keysOf sdk done ++ (c.key sdk).toList := by
  rw [keysOf, List.filterMap_append, keysOf]
  cases named : c.key sdk <;> simp [named]

theorem alike_create (sync : InSync d.sdk given keys served s t) (room : served < calls) {input : DeclaredInput}
    (storable : (IntentCall.create input).Storable d.sdk keys) :
    Alike d given (((IntentCall.create input).key d.sdk).toList ++ keys) (served + 1) clock clock'
      (fun a b s t => SameIntent a b ∧ InSync d.sdk given (((IntentCall.create input).key d.sdk).toList ++ keys) (served + 1) s t)
      (PaymentIntentService.create (d.withPool false) input.input) (PaymentIntentService.create (d.withPool true) input.input) s t := by
  apply Lockstep.bind
  refine Lockstep.ofExcept (fun payment valid => ?_) fun e refused => ⟨rfl, ?_⟩
  swap
  · have refused : validatePayment d.sdk input.payment = .error e := refused
    rw [IntentCall.key, refused]
    exact sync.later
  apply Lockstep.bind
  refine Lockstep.ofExcept (fun key keyed => ?_) fun e refused => ⟨rfl, ?_⟩
  swap
  · have valid : validatePayment d.sdk input.payment = .ok payment := valid
    have refused : idempotencyKeyOf input.idempotencyKey = .error e := refused
    rw [IntentCall.key, valid, refused]
    exact sync.later
  have named : (IntentCall.create input).key d.sdk = some key := by
    have valid : validatePayment d.sdk input.payment = .ok payment := valid
    have keyed : idempotencyKeyOf input.idempotencyKey = .ok key := keyed
    rw [IntentCall.key, valid, keyed]
  rw [named, Option.toList_some, List.singleton_append]
  have request := validatePayment_ok.1 valid
  obtain ⟨units, value, -⟩ := request.positive
  have self := sameDetails_self value
  obtain ⟨texts, whole, memo⟩ := storable payment key valid keyed
  have plain := plain_row request texts
  have free : s.world.issued.length < calls := sync.few.trans_lt room
  have fresh := sync.fresh free
  have name : given.ids s.world.issued.length = given.ids t.world.issued.length := by rw [sync.issued]
  intro m n
  exact alike_storeAndCheck (i := PaymentIntentService.newIntent input.input payment key (given.ids s.world.issued.length) (clock m))
    (j := PaymentIntentService.newIntent input.input payment key (given.ids t.world.issued.length) (clock' n)) (sync.draws room)
    ⟨name, rfl, self, rfl, rfl⟩ rfl rfl rfl ((self.requested request).checked request) List.mem_cons_self fresh
    (name ▸ given.uuid _ free) plain whole memo _ _

theorem alike_claimHash (sync : InSync d.sdk given keys served s t) {id hash : String} {i j : PaymentIntent}
    (left : s.world.memory.holdings id = some i) (right : t.world.db.holdings id = some j) (same : SameIntent i j)
    (plain : pgText hash = true) (nonempty : hash ≠ "") :
    Alike d given keys served clock clock' (fun a b s t => SameIntent a b ∧ InSync d.sdk given keys served s t ∧ s.world.memory.holdings id = some a ∧
        t.world.db.holdings id = some b ∧ a.transactionHash = some (.str hash))
      (PaymentIntentStore.claimHash (d.withPool false) id hash) (PaymentIntentStore.claimHash (d.withPool true) id hash) s t := by
  obtain ⟨r, found, rfl⟩ := Database.holdings_eq_some.1 right
  intro m n
  rw [run_claimHash_memory]
  rw [PaymentIntentStore.claimHash, if_pos (show (d.withPool true).pool = true from rfl), Prog.run_bind]
  rcases Memory.claimHash_spec sync.memory left hash (clock m) with ⟨refused, text, threw⟩ | ⟨granted, mem, i', rfl, ran, after⟩
  · have threw : (MemoryOp.claimHash id hash (clock m)).run s.world.memory = .error (.conflict text) := threw
    rw [@run_inMemory_error (d.withPool false) calls given clock _ s _ _ threw]
    rcases Database.claimHash_spec sync.db (sync.plain left) plain found (clock' n) with ⟨-, none | violated⟩ | ⟨granted, -⟩
    · have none : (Statement.claimHash id hash).run d.pgTime (clock' n) t.world.db = .ok ([], t.world.db) := none
      rw [@run_query (d.withPool true) calls given clock' n t _ _ _ none]
      exact ⟨rfl, sync⟩
    · have violated : (Statement.claimHash id hash).run d.pgTime (clock' n) t.world.db = .error .uniqueViolation := violated
      rw [@run_query_error (d.withPool true) calls given clock' n t _ _ violated]
      exact ⟨rfl, sync⟩
    · exact (granted ((sync.refuses_iff id hash).1 refused)).elim
  · have memory := (Memory.claimHash_may sync.memory nonempty ran).1
    have ran : (MemoryOp.claimHash id hash (clock m)).run s.world.memory = .ok (_, mem) := ran
    rw [@run_inMemory (d.withPool false) calls given clock _ s _ _ _ ran]
    rcases Database.claimHash_spec sync.db (sync.plain left) plain found (clock' n) with ⟨refused, -⟩ | ⟨-, db, ran', after'⟩
    · exact (granted ((sync.refuses_iff id hash).2 refused)).elim
    · have sound := (Database.claimHash_may sync.db nonempty ran').1
      have ran' : (Statement.claimHash id hash).run d.pgTime (clock' n) t.world.db = .ok ([_], db) := ran'
      rw [@run_query (d.withPool true) calls given clock' n t _ _ _ ran']
      have bound : some (Json.str hash) = (Database.setHash hash (clock' n) r).intent.transactionHash := by
        simp [Database.setHash, IntentRow.intent, Option.filter, nonempty]
      have same' : SameIntent { i with transactionHash := some (.str hash), updatedAt := clock m } (Database.setHash hash (clock' n) r).intent :=
        ⟨same.id, same.key, same.details, same.status, bound⟩
      have sync' := sync.amended (i := { i with transactionHash := some (.str hash), updatedAt := clock m }) left rfl after after' same'
        (sync.checked id i left) memory sound
      refine ⟨same', sync', ?_, ?_, rfl⟩
      · show mem.holdings id = _
        rw [after, Function.update_self]
      · show db.holdings id = _
        rw [after', Function.update_self]

theorem alike_settle (sync : InSync d.sdk given keys served s t) {id hash : String} {i j : PaymentIntent}
    (left : s.world.memory.holdings id = some i) (right : t.world.db.holdings id = some j) (same : SameIntent i j)
    (held : i.transactionHash = some (.str hash)) (status : PaymentStatus) :
    Alike d given keys served clock clock' (fun a b s t => Option.Rel SameIntent a b ∧ InSync d.sdk given keys served s t)
      (PaymentIntentStore.settle (d.withPool false) id (.str hash) status)
      (PaymentIntentStore.settle (d.withPool true) id (.str hash) status) s t := by
  obtain ⟨r, found, rfl⟩ := Database.holdings_eq_some.1 right
  intro m n
  obtain ⟨mem, i', rfl, ran, after⟩ := Memory.settle_spec left held status (clock m)
  obtain ⟨db, ran', after'⟩ := Database.settle_spec sync.db (sync.plain left) found (same.hash ▸ held) status (clock' n)
  have memory := (Memory.settle_may sync.memory ran).1
  have sound := (Database.settle_may sync.db ran').1
  have same' : SameIntent (if i.status = .pending then { i with status, updatedAt := clock m } else i)
      (if r.status = .pending then Database.setStatus status (clock' n) r else r).intent := by
    have statuses : i.status = r.status := same.status
    rw [statuses]
    split
    · exact ⟨same.id, same.key, same.details, rfl, same.hash⟩
    · exact same
  have valid : Checked d.sdk (NativePayment.fields (if i.status = .pending then { i with status, updatedAt := clock m } else i).toNativePayment)
      (if i.status = .pending then { i with status, updatedAt := clock m } else i).toNativePayment := by
    split <;> exact sync.checked id i left
  have key : (if i.status = .pending then { i with status, updatedAt := clock m } else i).idempotencyKey = i.idempotencyKey := by
    split <;> rfl
  have sync' := sync.amended left key after after' same' valid memory sound
  have ran : (MemoryOp.settle id (.str hash) status (clock m)).run s.world.memory = .ok (_, mem) := ran
  have ran' : (Statement.settle id (.str hash) status).run d.pgTime (clock' n) t.world.db = .ok ([], db) := ran'
  show EndsAlike _ _ (Prog.run _ (some <$> inMemory (.settle id (.str hash) status (clock m))) (m + 1) s)
    (Prog.run _ ((query (.settle id (.str hash) status) >>= fun _ => .ret ()) >>= fun _ =>
      PaymentIntentStore.findIntent (d.withPool true) id) n t)
  rw [← bind_pure_comp, Prog.bind_assoc, Prog.run_bind, Prog.run_bind, @run_inMemory (d.withPool false) calls given clock _ s _ _ _ ran,
    @run_query (d.withPool true) calls given clock' n t _ _ _ ran']
  show EndsAlike _ _ _ (Prog.run _ (PaymentIntentStore.findIntent (d.withPool true) id) (n + 1) _)
  rw [run_findIntent_pool (sync.plain left)]
  refine ⟨?_, sync'⟩
  show Option.Rel SameIntent (some _) (db.holdings id)
  rw [after', Function.update_self]
  exact .some same'

/-- Both sides get the same verdict. -/
theorem alike_verify (sync : InSync d.sdk given keys served s t) (hash : Json) :
    Alike d given keys served clock clock' (fun a b s' t' => a = b ∧ s'.world = s.world ∧ t'.world = t.world ∧ InSync d.sdk given keys served s' t')
      (stellar (verifyTransaction d.network hash)) (stellar (verifyTransaction d.network hash)) s t := by
  have steps : stellar (verifyTransaction d.network hash) = (do
      .ofExcept (checkHash d.network hash)
      let answer ← (Prog.await (Op.stellar (.transaction hash)) : PaymentProg (Option TransactionRecord))
      return verdict hash answer) := by
    unfold verifyTransaction
    rw [stellar_bind, stellar_ofExcept]
    rfl
  rw [steps]
  apply Lockstep.bind
  apply Lockstep.ofExcept
  · intro _ _
    apply Lockstep.act
    intro m n
    apply Lockstep.ret
    refine ⟨?_, rfl, rfl, sync.asks⟩
    show verdict hash (given.records s.asked hash) = verdict hash (given.records t.asked hash)
    rw [sync.asked]
  · intro e _
    exact ⟨rfl, sync⟩

theorem stellar_submission (sdk : Sdk) (network : String) (xdr : JsString) (key : Option String) (expected : Option NativePayment) :
    stellar (submitSignedTransaction sdk network xdr key expected) = (do
      let tx ← .ofExcept (checkSubmission sdk network xdr key expected)
      (Prog.await (Op.stellar (.submitTransaction tx)) : PaymentProg Unit)
      let status ← stellar (verifyTransaction network (.str (toHex tx.hash)))
      return { hash := toHex tx.hash, explorerUrl := "https://stellar.expert/explorer/testnet/tx/" ++ toHex tx.hash, status }) := by
  unfold submitSignedTransaction
  simp only [stellar_bind, stellar_ofExcept]
  rfl

/-- Both sides hand the envelope to Horizon, or neither does. -/
theorem alike_submission (sync : InSync d.sdk given keys served s t) {p q : NativePayment} (same : SameDetails p q)
    (valid : Checked d.sdk q.fields q) (xdr : JsString) :
    Alike d given keys served clock clock' (fun a b s' t' => a.status = b.status ∧ s'.world = s.world ∧ t'.world = t.world ∧
      InSync d.sdk given keys served s' t')
      (stellar (submitSignedTransaction d.sdk d.network xdr (some p.sender) (some p)))
      (stellar (submitSignedTransaction d.sdk d.network xdr (some q.sender) (some q))) s t := by
  rw [stellar_submission, stellar_submission, same.checkSubmission valid]
  apply Lockstep.bind
  apply Lockstep.ofExcept
  · intro tx _
    apply Lockstep.bind
    apply Lockstep.act
    intro m n
    apply Lockstep.ret
    apply Lockstep.bind
    apply (alike_verify sync _).mono
    rintro status _ s' t' ⟨rfl, left, right, sync'⟩
    exact Lockstep.ret ⟨rfl, left, right, sync'⟩
  · intro e _
    exact ⟨rfl, sync⟩

theorem alike_submit (sync : InSync d.sdk given keys served s t) {id : String} (plain : pgText id = true) (xdr : JsString) :
    Alike d given keys served clock clock' (fun a b s t => Option.Rel SameIntent a b ∧ InSync d.sdk given keys served s t)
      (PaymentIntentService.submit (d.withPool false) id xdr) (PaymentIntentService.submit (d.withPool true) id xdr) s t := by
  apply alike_get sync plain
  intro i j left right same
  have valid := same.details.symm.checked (sync.checked id i left)
  show Alike d given keys served clock clock' _ (Prog.ofExcept (parsePayment d.sdk xdr (some i.toNativePayment)) >>= _)
    (Prog.ofExcept (parsePayment d.sdk xdr (some j.toNativePayment)) >>= _) s t
  rw [same.details.parsePayment valid]
  apply Lockstep.bind
  apply Lockstep.ofExcept
  · intro tx _
    apply Lockstep.bind
    apply (alike_claimHash sync left right same (pgText_toHex tx.hash) (toHex_ne_empty tx.hash)).mono
    rintro a b s' t' ⟨same', sync', left', right', held⟩
    rw [← same'.status]
    split
    · exact Lockstep.ret ⟨.some same', sync'⟩
    · apply Lockstep.bind
      apply (alike_submission sync' same.details valid xdr).mono
      rintro result result' s'' t'' ⟨status, left'', right'', sync''⟩
      rw [← status]
      rw [← left''] at left'
      rw [← right''] at right'
      exact alike_settle sync'' left' right' same' held result.status
  · intro e _
    exact ⟨rfl, sync⟩

theorem alike_reconcile (sync : InSync d.sdk given keys served s t) {id : String} (plain : pgText id = true) :
    Alike d given keys served clock clock' (fun a b s t => Option.Rel SameIntent a b ∧ InSync d.sdk given keys served s t)
      (PaymentIntentService.reconcile (d.withPool false) id) (PaymentIntentService.reconcile (d.withPool true) id) s t := by
  apply alike_get sync plain
  intro i j left right same
  rw [← same.hash, ← same.status]
  rcases sync.memory.hash id i left with none | ⟨hash, -, held⟩
  · rw [none]
    exact Lockstep.ret ⟨.some same, sync⟩
  · rw [held]
    show Alike d given keys served clock clock' _ (ite _ _ _) (ite _ _ _) s t
    split
    · exact Lockstep.ret ⟨.some same, sync⟩
    · apply Lockstep.bind
      apply (alike_verify sync _).mono
      rintro status _ s' t' ⟨rfl, left', right', sync'⟩
      rw [← left'] at left
      rw [← right'] at right
      exact alike_settle sync' left right same held status

/-- A storable call ends alike over both stores. -/
theorem alike_body (sync : InSync d.sdk given keys served s t) (room : served < calls) {c : IntentCall} (storable : c.Storable d.sdk keys) :
    Alike d given ((c.key d.sdk).toList ++ keys) (served + 1) clock clock'
      (fun a b s t => Option.Rel SameIntent a b ∧ InSync d.sdk given ((c.key d.sdk).toList ++ keys) (served + 1) s t)
      (c.body (d.withPool false)) (c.body (d.withPool true)) s t := by
  cases c with
  | create input =>
    apply Lockstep.map
    exact (alike_create sync room storable).mono fun a b s t h => ⟨.some h.1, h.2⟩
  | get id =>
    show Alike d given keys (served + 1) clock clock' _ (some <$> PaymentIntentService.get (d.withPool false) id)
      (some <$> PaymentIntentService.get (d.withPool true) id) s t
    rw [← bind_pure_comp, ← bind_pure_comp]
    apply alike_get sync.later storable
    exact fun i j _ _ same => Lockstep.ret ⟨.some same, sync.later⟩
  | submit id xdr => exact alike_submit sync.later storable xdr
  | reconcile id => exact alike_reconcile sync.later storable

/-! ### A text PostgreSQL cannot hold as it is -/

theorem unlike_get (sync : InSync d.sdk given keys served s t) {id : String} (nul : pgText id = false)
    {f g : PaymentIntent → PaymentProg (Option PaymentIntent)} (m n : Nat) :
    ¬ SameOutcome ((PaymentIntentService.get (d.withPool false) id >>= f).run (answers (d.withPool false) given clock) m s).1
      ((PaymentIntentService.get (d.withPool true) id >>= g).run (answers (d.withPool true) given clock') n t).1 := by
  have absent : s.world.memory.holdings id = none := by
    rw [Option.eq_none_iff_forall_ne_some]
    intro i held
    rw [sync.plain held] at nul
    cases nul
  have refused : (PaymentIntentService.get (d.withPool true) id).run (answers (d.withPool true) given clock') n t =
      (.error (queryError .other), n + 1, t) := by
    unfold PaymentIntentService.get
    rw [Prog.run_bind, run_findIntent_refused nul]
  rw [Prog.run_bind, Prog.run_bind, run_get (run_findIntent_memory id), absent, refused]
  simp [SameOutcome, SameResult, Exception.className, queryError]

theorem stroops_error {a : String} {e : Exception} (threw : stroops a = .error e) : e.className = .badRequest := by
  unfold stroops at threw
  split at threw
  · cases threw
  · cases threw
    rfl

theorem checkSameDetails_error {saved input : NativePayment} {e : Exception} (threw : checkSameDetails saved input = .error e) :
    e.className = .conflict ∨ e.className = .badRequest := by
  unfold checkSameDetails at threw
  by_cases parties : saved.sender ≠ input.sender ∨ saved.recipient ≠ input.recipient ∨ saved.asset ≠ input.asset
  · simp only [if_pos parties] at threw
    cases threw
    exact .inl rfl
  cases hs : stroops saved.amount with
  | error e' =>
    simp only [if_neg parties, hs] at threw
    cases threw
    exact .inr (stroops_error hs)
  | ok n =>
  cases hi : stroops input.amount with
  | error e' =>
    simp only [if_neg parties, hs, hi, bind, Except.bind] at threw
    cases threw
    exact .inr (stroops_error hi)
  | ok n' =>
  simp only [if_neg parties, hs, hi, bind, Except.bind] at threw
  left
  split at threw
  · cases threw
    rfl
  · split at threw
    · cases threw
      rfl
    · cases threw

/-- The last check of `create` throws no `ServiceUnavailableException`. -/
theorem checked_error {i saved : PaymentIntent} {e : Exception} (threw : checked i saved = .error e) :
    e.className ≠ .serviceUnavailable := by
  unfold checked at threw
  cases check : checkSameDetails saved.toNativePayment i.toNativePayment with
  | ok _ =>
    rw [check] at threw
    cases threw
  | error e' =>
    rw [check] at threw
    cases threw
    rcases checkSameDetails_error check with name | name <;> rw [name] <;> decide

theorem checked_eq {i saved a : PaymentIntent} (h : checked i saved = .ok a) : a = saved ∧ SameDetails saved.toNativePayment i.toNativePayment := by
  obtain ⟨_, same, h⟩ := bind_ok h
  cases h
  exact ⟨rfl, checkSameDetails_ok.1 same⟩

/-- A text with a NUL in it: the database refuses it, the memory does not. -/
theorem unlike_refused {payment : NativePayment} {key : JsString} {text : String}
    (mem : text ∈ [key.toWellFormed, payment.sender, payment.recipient] ++ (payment.memo.map JsString.toWellFormed).toList)
    (nul : pgText text = false) (input : DeclaredInput) (id id' : String) (now now' : Timestamp) (m n : Nat) : ¬ SameOutcome
      (((storeAndCheck (d.withPool false) (PaymentIntentService.newIntent input.input payment key id now)).run
        (answers (d.withPool false) given clock) m s).1.map some)
      (((storeAndCheck (d.withPool true) (PaymentIntentService.newIntent input.input payment key id' now')).run
        (answers (d.withPool true) given clock') n t).1.map some) := by
  have texts : assertTexts ([key.toWellFormed, payment.sender, payment.recipient, payment.asset] ++
      (payment.memo.map JsString.toWellFormed).toList) = .error .other := by
    refine if_neg fun all => ?_
    rw [List.all_eq_true] at all
    have plain := all text (by simp only [List.mem_append, List.mem_cons, List.not_mem_nil] at mem ⊢; tauto)
    rw [nul] at plain
    cases plain
  have failed : t.world.db.insertIntent (PaymentIntentStore.values (PaymentIntentService.newIntent input.input payment key id' now')) =
      .error .other := by
    show (assertUuid id' >>= fun _ => assertTexts ([key.toWellFormed, payment.sender, payment.recipient, payment.asset] ++
      (payment.memo.map JsString.toWellFormed).toList) >>= _) = _
    rw [texts, assertUuid]
    split <;> rfl
  rw [run_storeAndCheck_memory rfl, run_storeAndCheck_refused failed]
  intro same
  generalize result : checked _ _ = x at same
  cases x with
  | ok saved => exact same
  | error e => exact checked_error result same

/-- A text the column would not give back as it is: the memory returns the new
intent, the database another one, or its check fails. -/
theorem unlike_changed (sync : InSync d.sdk given keys served s t) {i j : PaymentIntent} (same : SameIntent i j)
    (details : i.toNativePayment = j.toNativePayment) (valid : Checked d.sdk i.fields i.toNativePayment) (uuid : isUuid j.id = true)
    (fresh : s.world.memory.holdings i.id = none) (plain : ∀ text ∈ (PaymentIntentStore.values j).texts, pgText text = true)
    (free : i.idempotencyKey ∉ keys)
    (changed : ¬ (keptText true i.idempotencyKey = i.idempotencyKey ∧ ∀ m, i.memo = some m → keptText true m = m)) (m n : Nat) :
    ¬ SameOutcome (((storeAndCheck (d.withPool false) i).run (answers (d.withPool false) given clock) m s).1.map some)
      (((storeAndCheck (d.withPool true) j).run (answers (d.withPool true) given clock') n t).1.map some) := by
  obtain ⟨units, value, positive⟩ := valid.positive
  have amount : stroops j.amount = .ok units := details ▸ value
  have absent : t.world.db.holdings j.id = none := same.id ▸ sync.absent fresh
  have stored : ∃ mem, s.world.memory.createIntent i = (i, mem) := by
    rcases s.world.memory.createIntent_spec i with ⟨k, a, held, key, -⟩ | ⟨-, mem, left, -⟩
    · exact (free ((sync.taken _).2 ⟨k, a, held, key⟩)).elim
    · exact ⟨mem, left⟩
  have inserted : ∃ row db, t.world.db.insertIntent (PaymentIntentStore.values j) = .ok ([row], db) ∧ ¬ SameIntent i row.intent := by
    rcases Database.insertIntent_spec uuid plain amount positive absent with ⟨row, k, held, -, right⟩ | ⟨-, db, right, -⟩
    · refine ⟨row, _, right, fun same' => ?_⟩
      obtain ⟨a, here, same''⟩ := sync.ofDatabase held
      exact free ((sync.taken _).2 ⟨k, a, here, same''.key.trans same'.key.symm⟩)
    · refine ⟨_, db, right, fun same' => changed ⟨?_, fun memo given => ?_⟩⟩
      · rw [same.key]
        exact (same.key.symm.trans same'.key).symm
      · have kept : i.memo.getD "" = keptText true (j.memo.getD "") := same'.details.memo.trans (storedMemo_kept j.memo)
        rw [← details, given] at kept
        exact kept.symm
  obtain ⟨mem, left⟩ := stored
  obtain ⟨row, db, right, other⟩ := inserted
  rw [run_storeAndCheck_memory left, run_storeAndCheck_pool right, checked_ok (sameDetails_self value)]
  intro outcome
  cases result : checked j row.intent with
  | error e =>
    rw [result] at outcome
    exact outcome
  | ok saved =>
    obtain ⟨rfl, -⟩ := checked_eq result
    rw [result] at outcome
    cases outcome with
    | some same => exact other same

theorem unlike_create (sync : InSync d.sdk given keys served s t) (room : served < calls) {input : DeclaredInput}
    (unstorable : ¬ (IntentCall.create input).Storable d.sdk keys) (m n : Nat) : ¬ SameOutcome
      ((some <$> PaymentIntentService.create (d.withPool false) input.input).run (answers (d.withPool false) given clock) m s).1
      ((some <$> PaymentIntentService.create (d.withPool true) input.input).run (answers (d.withPool true) given clock') n t).1 := by
  simp only [IntentCall.Storable, not_forall] at unstorable
  obtain ⟨payment, key, valid, keyed, unstorable⟩ := unstorable
  rw [Prog.run_map, Prog.run_map, @run_create (d.withPool false) calls given clock m s input payment key valid keyed,
    @run_create (d.withPool true) calls given clock' n t input payment key valid keyed]
  by_cases texts : ∀ text ∈ [key.toWellFormed, payment.sender, payment.recipient] ++ (payment.memo.map JsString.toWellFormed).toList,
      pgText text = true
  · have request := validatePayment_ok.1 valid
    obtain ⟨units, value, -⟩ := request.positive
    have self := sameDetails_self value
    have plain := plain_row request texts
    have issued : s.world.issued.length < calls := sync.few.trans_lt room
    have fresh := sync.fresh issued
    have name : given.ids s.world.issued.length = given.ids t.world.issued.length := by rw [sync.issued]
    have free : key ∉ keys ∧ ¬ (keptText true key = key ∧ ∀ memo, payment.memo = some memo → keptText true memo = memo) :=
      ⟨fun taken => unstorable ⟨texts, sync.whole taken, .inl taken⟩, fun whole => unstorable ⟨texts, whole.1, .inr whole.2⟩⟩
    exact unlike_changed (i := PaymentIntentService.newIntent input.input payment key (given.ids s.world.issued.length) (clock m))
      (j := PaymentIntentService.newIntent input.input payment key (given.ids t.world.issued.length) (clock' n)) (sync.draws room)
      ⟨name, rfl, self, rfl, rfl⟩ rfl ((self.requested request).checked request) (name ▸ given.uuid _ issued) fresh plain free.1 free.2 _ _
  · simp only [not_forall, Bool.not_eq_true] at texts
    obtain ⟨text, mem, nul⟩ := texts
    exact unlike_refused mem nul input _ _ _ _ _ _

theorem unlike_body (sync : InSync d.sdk given keys served s t) (room : served < calls) {c : IntentCall}
    (unstorable : ¬ c.Storable d.sdk keys) (m n : Nat) :
    ¬ SameOutcome ((c.body (d.withPool false)).run (answers (d.withPool false) given clock) m s).1
      ((c.body (d.withPool true)).run (answers (d.withPool true) given clock') n t).1 := by
  cases c with
  | create input => exact unlike_create sync room unstorable m n
  | get id =>
    have nul := Bool.eq_false_of_not_eq_true unstorable
    show ¬ SameOutcome (Prog.run _ (some <$> PaymentIntentService.get (d.withPool false) id) m s).1
      (Prog.run _ (some <$> PaymentIntentService.get (d.withPool true) id) n t).1
    rw [← bind_pure_comp, ← bind_pure_comp]
    exact unlike_get sync nul m n
  | submit id xdr => exact unlike_get sync (Bool.eq_false_of_not_eq_true unstorable) m n
  | reconcile id => exact unlike_get sync (Bool.eq_false_of_not_eq_true unstorable) m n

end Both

/-- **The stores are interchangeable** for the calls that bring no text PostgreSQL
cannot hold as it is, and for no others: served in turn from the empty store, the
calls end alike over both stores exactly if each is storable after those before it. -/
theorem stores_interchangeable_iff (d : Deployment) (calls : List IntentCall) (given : Given calls.length) (clock clock' : Nat → Timestamp) :
    List.Forall₂ SameOutcome (outcomes d false given clock calls) (outcomes d true given clock' calls) ↔
      ∀ done c rest, calls = done ++ c :: rest → c.Storable d.sdk (keysOf d.sdk done) := by
  have room : ∀ {done c}, done ++ [c] <+: calls → done.length < calls.length := by
    intro done c start
    have le := start.length_le
    rw [List.length_append, List.length_singleton] at le
    omega
  apply serve_alike_after_iff (I := fun done s t => InSync d.sdk given (keysOf d.sdk done) done.length s t) calls
  · intro done c s t start storable sync
    have same : ∀ key, key ∈ keysOf d.sdk (done ++ [c]) ↔ key ∈ (c.key d.sdk).toList ++ keysOf d.sdk done := fun key => by
      rw [keysOf_append, List.mem_append, List.mem_append, or_comm]
    rw [List.length_append, List.length_singleton]
    refine (alike_body sync (room start) storable).weaken ?_ ?_
    · exact fun e e' s t threw => ⟨threw.1, threw.2.sameKeys same⟩
    · exact fun a b s t returned => ⟨returned.1, returned.2.sameKeys same⟩
  · intro done c s t m n start unstorable sync
    exact unlike_body sync (room start) unstorable m n
  · exact InSync.start

/-! A memo of a single NUL is accepted and stored in memory, and never in the database. -/

namespace Sample

def given : Given 1 :=
  { ids := fun _ => intentId
    uuid := fun _ _ => by decide
    distinct := fun m first n second _ => by omega
    records := fun _ _ => none
    snapshots := fun _ _ => .error .other }

def nulMemo : DeclaredInput := ⟨{ payment with memo := some (.str "\x00") }, some (.str "key")⟩

end Sample

theorem sameOutcome_isOk {x y : Except Exception (Option PaymentIntent)} (same : SameOutcome x y) : x.isOk = y.isOk := by
  cases x <;> cases y
  · rfl
  · exact same.elim
  · exact same.elim
  · rfl

theorem stores_differ_nulMemo :
    ¬ List.Forall₂ SameOutcome (outcomes (Sample.deployment true) false Sample.given (fun _ => 0) [.create Sample.nulMemo])
      (outcomes (Sample.deployment true) true Sample.given (fun _ => 0) [.create Sample.nulMemo]) := by
  intro same
  have returned : List.Forall₂ Eq
      ((outcomes (Sample.deployment true) false Sample.given (fun _ => 0) [.create Sample.nulMemo]).map Except.isOk)
      ((outcomes (Sample.deployment true) true Sample.given (fun _ => 0) [.create Sample.nulMemo]).map Except.isOk) := by
    rw [List.forall₂_map_left_iff, List.forall₂_map_right_iff]
    exact same.imp fun _ _ => sameOutcome_isOk
  rw [List.forall₂_eq_eq_eq] at returned
  exact absurd returned (by decide +kernel)

end AfriPay.Payments
