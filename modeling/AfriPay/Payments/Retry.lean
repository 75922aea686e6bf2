import AfriPay.Payments.Routes
import AfriPay.Payments.Undeclared

/-!
# Retrying a submit

A `submit` may fail before, between and after its operations, and an operation
whose answer is lost may have been done. Whatever requests there are, the intent is
then at most bound to the hash of the envelope, with the verdict Horizon gave for
it, if any; and it keeps this hash. A `submit` of an envelope with the hash an intent
is bound to is refused as a conflict only where another intent has this hash too.
The claims see to it that none has; but in memory a creation may bring it along.
-/

namespace AfriPay.Payments.Routes
open Calls Discipline Text Stellar Storage

/-- The intent and the envelope of a request to submit one. -/
def submission : Route → Option (String × JsString)
  | .intents (.submit id envelope) => (stringOf envelope).map (id, ·)
  | _ => none

/-- The request submits this envelope for the intent. -/
abbrev Submits (r : Route) (id : String) (signedXdr : JsString) : Prop := submission r = some (id, signedXdr)

theorem submits_iff {r : Route} {id : String} {signedXdr : JsString} :
    Submits r id signedXdr ↔ ∃ envelope, r = .intents (.submit id envelope) ∧ stringOf envelope = some signedXdr := by
  constructor
  · intro h
    unfold Submits submission at h
    split at h
    · rename_i id' envelope
      obtain ⟨text, given, same⟩ := Option.map_eq_some_iff.1 h
      cases same
      exact ⟨envelope, rfl, given⟩
    · cases h
  · rintro ⟨envelope, rfl, given⟩
    show (stringOf envelope).map (id, ·) = _
    rw [given]
    rfl

/-! ## What a submit leaves of an intent -/

/-- What a `submit` of the envelope may have made of an intent: its time of change
is another, or it is bound to the hash of the envelope, which was accepted for
it, and is pending or has the status Horizon gave for this hash. -/
inductive LeftBySubmit (d : Deployment) (signedXdr : JsString) (log : List RouteEvent) (i : PaymentIntent) : PaymentIntent → Prop where
  | touched (updatedAt : Timestamp) : LeftBySubmit d signedXdr log i { i with updatedAt }
  | bound {tx : Transaction} {status : PaymentStatus} (updatedAt : Timestamp)
      (accepted : parsePayment d.sdk signedXdr (some i.toNativePayment) = .ok tx)
      (free : truthy i.transactionHash = false ∨ i.transactionHash = some (.str (toHex tx.hash)))
      (verdict : status = .pending ∨ Verified log (toHex tx.hash) status) (final : i.status ≠ .pending → status = i.status) :
      LeftBySubmit d signedXdr log i { i with transactionHash := some (.str (toHex tx.hash)), status, updatedAt }

theorem LeftBySubmit.refl (d : Deployment) (signedXdr : JsString) (log : List RouteEvent) (i : PaymentIntent) :
    LeftBySubmit d signedXdr log i i :=
  .touched i.updatedAt

theorem LeftBySubmit.mono {d : Deployment} {signedXdr : JsString} {log log' : List RouteEvent} {i i' : PaymentIntent}
    (h : LeftBySubmit d signedXdr log i i') (grows : ∀ e ∈ log, e ∈ log') : LeftBySubmit d signedXdr log' i i' := by
  cases h with
  | touched updatedAt => exact .touched updatedAt
  | bound updatedAt accepted free verdict final =>
    exact .bound updatedAt accepted free (verdict.imp_right fun verified => verified.mono grows) final

theorem LeftBySubmit.trans {d : Deployment} {signedXdr : JsString} {log : List RouteEvent} {i₁ i₂ i₃ : PaymentIntent}
    (h : LeftBySubmit d signedXdr log i₁ i₂) (h' : LeftBySubmit d signedXdr log i₂ i₃) : LeftBySubmit d signedXdr log i₁ i₃ := by
  cases h with
  | touched updatedAt =>
    cases h' with
    | touched updatedAt' => exact .touched updatedAt'
    | bound updatedAt' accepted free verdict final => exact .bound updatedAt' accepted free verdict final
  | @bound tx status updatedAt accepted free verdict final =>
    cases h' with
    | touched updatedAt' => exact .bound updatedAt' accepted free verdict final
    | @bound tx' status' updatedAt' accepted' _ verdict' final' =>
      -- one envelope, one payment: the same transaction
      have accepted' : parsePayment d.sdk signedXdr (some i₁.toNativePayment) = .ok tx' := accepted'
      obtain rfl : tx = tx' := Except.ok.inj (accepted.symm.trans accepted')
      refine .bound updatedAt' accepted free verdict' fun settled => ?_
      have kept := final settled
      exact (final' (by rw [kept]; exact settled)).trans kept

/-- No other request has claimed or settled the intent between the two configurations. -/
def Undisturbed (cfg cfg' : RouteConfig) (tid : Nat) (id : String) : Prop :=
  ∀ new e, cfg'.shared.log = new ++ cfg.shared.log → e ∈ new → e.tid ≠ tid →
    (∀ hash, e.op.claims ≠ some (id, hash)) ∧ ∀ hash status, e.op.settles ≠ some (id, hash, status)

/-- A `submit` that returns has returned the intent with the hash of its envelope. -/
def SubmitEnsures (d : Deployment) (id : String) (signedXdr : JsString) (r : RouteResponse) (s : RouteState) : Prop :=
  ∃ hash intent, r = .intents (.intent intent) ∧ AcceptedHash d id signedXdr s hash ∧ Answered hash intent s

theorem submit_course {d : Deployment} {r : Route} {id : String} {signedXdr : JsString} (submits : Submits r id signedXdr) (tid : Nat)
    (s : RouteState) (_ : Inv d s) (_ : s.own tid = []) :
    (discipline d).Course tid r (SubmitOp d id signedXdr) (SubmitEnsures d id signedXdr) (Barred d id signedXdr) ((routes d).body r) s := by
  obtain ⟨envelope, rfl, text⟩ := submits_iff.1 submits
  refine course_map (course_map ?_)
  unfold PaymentIntentController.submit
  rw [text]
  exact course_submit (discipline_onStore d) fun hash r _ _ _ accepted answered => ⟨hash, r, rfl, accepted, answered⟩

section

variable {d : Deployment} {cfg cfg₁ : RouteConfig} {r : Route} {id : String} {signedXdr : JsString}

/-- What an operation of a submit makes of its intent. -/
theorem left_of_amended {s s' : RouteState} {op : Op} {i i' : PaymentIntent} (inv : Inv d s) (stored : s.world.intent d id = some i)
    (amended : Amended op id i i') (known : SubmitOp d id signedXdr s op) (grows : ∀ e ∈ s.log, e ∈ s'.log) :
    LeftBySubmit d signedXdr s'.log i i' := by
  have ownHash : ∀ {hash}, AcceptedHash d id signedXdr s hash →
      ∃ tx, parsePayment d.sdk signedXdr (some i.toNativePayment) = .ok tx ∧ toHex tx.hash = hash := by
    rintro hash ⟨i₀, tx, here, parsed, hex⟩
    obtain rfl : i = i₀ := Option.some.inj (stored.symm.trans here)
    exact ⟨tx, parsed, hex⟩
  cases amended with
  | same => exact .refl d signedXdr _ i
  | @claimed hash updatedAt claims free =>
    obtain ⟨tx, parsed, rfl⟩ := ownHash (known.of_claims claims).2
    refine @LeftBySubmit.bound d signedXdr s'.log i tx i.status updatedAt parsed free ?_ fun _ => rfl
    by_cases pending : i.status = .pending
    · exact .inl pending
    · -- what is final is bound
      obtain ⟨hash, nonempty, held, verified⟩ := inv.verified id i stored pending
      rw [truthy_hash held nonempty, held] at free
      cases free.resolve_left (by simp)
      exact .inr (verified.mono grows)
  | @settled hash status updatedAt settles held pending =>
    obtain ⟨-, text, rfl, accepted, settler⟩ := known.of_settles settles
    obtain ⟨tx, parsed, rfl⟩ := ownHash accepted
    obtain ⟨v, held, same⟩ := (Option.any_eq_true _ _).1 held
    obtain rfl := Json.eq_of_str_same same
    have bound := @LeftBySubmit.bound d signedXdr s'.log i tx status updatedAt parsed (.inr held) ?_ fun final => (final pending).elim
    · rwa [← held] at bound
    · by_cases still : status = .pending
      · exact .inl still
      · obtain ⟨text, -, same, verified⟩ := settler still
        cases same
        exact .inr (verified.mono grows)

/-- A submit's own operation leaves its intent as `LeftBySubmit` says, and every other as it is. -/
theorem own_step (run : Reachable d cfg) (step : (routes d).Step cfg cfg₁) {e : RouteEvent} (log : cfg₁.shared.log = e :: cfg.shared.log)
    (submits : Submits e.call id signedXdr) {j : String} {i : PaymentIntent} (stored : cfg.shared.world.intent d j = some i) :
    ∃ i₁, cfg₁.shared.world.intent d j = some i₁ ∧ (j ≠ id → i₁ = i) ∧ (j = id → LeftBySubmit d signedXdr cfg₁.shared.log i i₁) := by
  have inv : Inv d cfg.shared := (routes_holds run).inv
  obtain ⟨does, just⟩ := justified_of_step (routes_holds run) step log
  have known : SubmitOp d id signedXdr cfg.shared e.op := asserted_of_step routes_holds (submit_course submits) run step log rfl
  obtain ⟨i₁, stored₁, amended⟩ := inv.amended just does stored
  refine ⟨i₁, stored₁, fun other => ?_, ?_⟩
  · cases amended with
    | same => rfl
    | claimed claims _ => exact (other (known.of_claims claims).1).elim
    | settled settles _ _ => exact (other (known.of_settles settles).1).elim
  · rintro rfl
    exact left_of_amended inv stored amended known fun e mem => log ▸ List.mem_cons_of_mem _ mem

/-- A step that neither claims nor settles an intent leaves it as it is. -/
theorem foreign_step (run : Reachable d cfg) (step : (routes d).Step cfg cfg₁) {e : RouteEvent} (log : cfg₁.shared.log = e :: cfg.shared.log)
    (claims : ∀ hash, e.op.claims ≠ some (id, hash)) (settles : ∀ hash status, e.op.settles ≠ some (id, hash, status)) {i : PaymentIntent}
    (stored : cfg.shared.world.intent d id = some i) : cfg₁.shared.world.intent d id = some i := by
  have inv : Inv d cfg.shared := (routes_holds run).inv
  obtain ⟨does, just⟩ := justified_of_step (routes_holds run) step log
  obtain ⟨i₁, stored₁, amended⟩ := inv.amended just does stored
  cases amended with
  | same => exact stored₁
  | claimed own _ => exact (claims _ own).elim
  | settled own _ _ => exact (settles _ _ own).elim

/-- While no other request claims or settles the intent, a submit leaves it as `LeftBySubmit` says. -/
theorem left_along (run : Reachable d cfg) (submits : Submits r id signedXdr) {tid : Nat} {p : PaymentProg RouteResponse}
    (here : cfg.calls[tid]? = some (r, p)) (steps : (routes d).Steps cfg cfg₁) (undisturbed : Undisturbed cfg cfg₁ tid id)
    {i : PaymentIntent} (stored : cfg.shared.world.intent d id = some i) :
    ∃ i₁, cfg₁.shared.world.intent d id = some i₁ ∧ LeftBySubmit d signedXdr cfg₁.shared.log i i₁ := by
  induction steps with
  | refl => exact ⟨i, stored, .refl d signedXdr _ i⟩
  | @tail mid last steps step ih =>
    have runMid : Reachable d mid := run.trans steps
    obtain ⟨before, logMid⟩ := (later_of_run run steps).log
    cases step with
    | start c => exact ih undisturbed
    | @act tid' c op next ans s' waiting does =>
      have log : s'.log = ⟨tid', c, op, ans⟩ :: mid.shared.log := does.2
      have step : (routes d).Step mid ⟨s', mid.calls.set tid' (c, next ans)⟩ := .act waiting does
      obtain ⟨i₁, stored₁, left⟩ := ih fun new e same mem =>
        undisturbed (⟨tid', c, op, ans⟩ :: new) e (by rw [log, same]; rfl) (List.mem_cons_of_mem _ mem)
      have left := left.mono fun e mem => show e ∈ s'.log from log ▸ List.mem_cons_of_mem _ mem
      by_cases own : tid' = tid
      · subst own
        obtain ⟨p', there⟩ := System.call_stays steps here
        obtain rfl : c = r := congrArg Prod.fst (Option.some.inj (waiting.symm.trans there))
        obtain ⟨i₂, stored₂, -, left₂⟩ := own_step runMid step log submits stored₁
        exact ⟨i₂, stored₂, left.trans (left₂ rfl)⟩
      · obtain ⟨claims, settles⟩ := undisturbed (⟨tid', c, op, ans⟩ :: before) ⟨tid', c, op, ans⟩
          (by rw [log, ← logMid]; rfl) List.mem_cons_self own
        exact ⟨i₁, foreign_step runMid step log claims settles stored₁, left⟩

end

/-! ## One hash, one intent -/

/-- `parsePayment` accepts an envelope of this hash for the payment. -/
def HasEnvelope (d : Deployment) (payment : NativePayment) (hash : String) : Prop :=
  ∃ signedXdr tx, parsePayment d.sdk signedXdr (some payment) = .ok tx ∧ toHex tx.hash = hash

/-- An intent for which an envelope of its hash is accepted has this hash alone. -/
def Exclusive (d : Deployment) (f : Holdings) : Prop :=
  ∀ id id' i i' hash, f id = some i → f id' = some i' → i.transactionHash = some (.str hash) → i'.transactionHash = some (.str hash) →
    HasEnvelope d i.toNativePayment hash → id' = id

/-- The operation does not store an intent under a hash that another stored intent
has, where `parsePayment` accepts an envelope of this hash for one of the two. -/
def Apart (d : Deployment) (s : RouteState) (op : Op) : Prop :=
  ∀ i id other hash, Opened d.pool s.world.memory op i → s.world.intent d id = some other → i.transactionHash = some (.str hash) →
    other.transactionHash = some (.str hash) → ¬HasEnvelope d i.toNativePayment hash ∧ ¬HasEnvelope d other.toNativePayment hash

/-- The rows of the database are inserted without a hash. -/
theorem apart_of_pool {d : Deployment} (pool : d.pool = true) (s : RouteState) (op : Op) : Apart d s op := by
  intro i id other hash opened _ held _
  cases opened with
  | inMemory memory _ => rw [pool] at memory; cases memory
  | inserted => cases held

/-- A run all of whose operations are apart. -/
abbrev ApartRun (d : Deployment) : RouteConfig → RouteConfig → Prop :=
  Relation.ReflTransGen fun cfg cfg₁ => (routes d).Step cfg cfg₁ ∧ ∀ e, cfg₁.shared.log = e :: cfg.shared.log → Apart d cfg.shared e.op

theorem ApartRun.steps {d : Deployment} {cfg cfg' : RouteConfig} (h : ApartRun d cfg cfg') : (routes d).Steps cfg cfg' :=
  Relation.ReflTransGen.mono (fun _ _ step => step.1) _ _ h

section

variable {d : Deployment}

theorem Exclusive.update {f : Holdings} (alone : Exclusive d f) {id : String} {i : PaymentIntent}
    (apart : ∀ j other hash, j ≠ id → f j = some other → i.transactionHash = some (.str hash) → other.transactionHash = some (.str hash) →
      ¬HasEnvelope d i.toNativePayment hash ∧ ¬HasEnvelope d other.toNativePayment hash) :
    Exclusive d (Function.update f id (some i)) := by
  intro a b x y hash first second held held' envelope
  rw [Function.update_apply] at first second
  split at first <;> split at second
  · rename_i one other
    rw [one, other]
  · rename_i _ other
    cases first
    exact ((apart b y hash other second held held').1 envelope).elim
  · rename_i other _
    cases second
    exact ((apart a x hash other first held' held).2 envelope).elim
  · exact alone a b x y hash first second held held' envelope

/-- The unique index on the hash. -/
theorem exclusive_database (db : Database) : Exclusive d db.holdings := by
  intro id id' i i' hash first second held held' _
  obtain ⟨r, found, rfl⟩ := Database.holdings_eq_some.1 first
  obtain ⟨r', found', rfl⟩ := Database.holdings_eq_some.1 second
  have column : ∀ {r : IntentRow}, r.intent.transactionHash = some (.str hash) → r.transactionHash = some hash := by
    intro r held
    obtain ⟨text, kept, same⟩ := Option.map_eq_some_iff.1 held
    rw [(Option.filter_eq_some_iff.1 kept).1, Json.str.inj same]
  have clash : IntentRow.clash r r' = true := by simp [IntentRow.clash, column held, column held']
  rw [← Database.find_id found, ← Database.find_id found',
    Table.unique db.intents Database.clash_symm (Table.mem_of_find found).1 (Table.mem_of_find found').1 clash]

/-- A claim asks whether another intent has the hash; a settlement leaves all hashes. -/
theorem exclusive_segment {s : RouteState} {m : Memory} {op : MemoryOp} {a : op.Answer} (pool : ¬d.pool = true) (keyed : s.world.memory.Keyed)
    (alone : Exclusive d s.world.memory.holdings) (apart : Apart d s (.memory op)) (h : op.run s.world.memory = .ok (a, m)) :
    Exclusive d m.holdings := by
  cases op with
  | findIntent | findLink | listIntents =>
    obtain rfl := MemoryOp.run_reads rfl h
    exact alone
  | saveLink l => cases h; exact alone
  | createIntent i =>
    have h : s.world.memory.createIntent i = (a, m) := Except.ok.inj h
    rcases s.world.memory.createIntent_cases i with ⟨existing, -, -, same⟩ | ⟨free, same⟩
    · rw [same] at h; cases h; exact alone
    rw [same] at h
    cases h
    rw [Memory.holdings_set]
    refine alone.update fun j other hash _ there held held' => ?_
    exact apart i j other hash (.inMemory (Bool.eq_false_of_not_eq_true pool) free) (by rw [World.intent_memory pool]; exact there) held held'
  | claimHash id hash now =>
    obtain ⟨i, -, -, free, claimed, after⟩ := Memory.claimHash_ok h
    have updated : m.holdings = Function.update s.world.memory.holdings id (some a) := after ▸ Memory.holdings_set ..
    rw [updated, claimed]
    refine alone.update fun j other hash' elsewhere there held held' => ?_
    cases held
    exact (free (keyed.taken_iff.2 ⟨j, other, there, elsewhere, held'⟩)).elim
  | settle id hash status now =>
    obtain ⟨i, found, -, ⟨-, rfl⟩ | ⟨-, rfl, rfl⟩⟩ := Memory.settle_ok h
    · exact alone
    rw [Memory.holdings_set]
    refine alone.update fun j other hash' elsewhere there held held' => ⟨fun envelope => ?_, fun envelope => ?_⟩
    · exact elsewhere (alone id j i other hash' found there held held' envelope)
    · exact elsewhere (alone j id other i hash' there found held' held envelope).symm

theorem exclusive_step {s s' : RouteState} {e : RouteEvent} (inv : Inv d s) (apart : Apart d s e.op) (does : (routes d).Does s e s')
    (alone : Exclusive d (s.world.intent d)) : Exclusive d (s'.world.intent d) := by
  by_cases pool : d.pool = true
  · rw [World.intent_pool pool]
    exact exclusive_database s'.world.db
  rw [World.intent_memory pool] at alone ⊢
  obtain ⟨tid, c, op, ans⟩ := e
  have exec : exec d op s.world ans s'.world := does.1
  cases op with
  | randomUUID => rw [exec.2]; exact alone
  | stellar request => rw [show s'.world = s.world from exec]; exact alone
  | query st => obtain ⟨db, -, same⟩ := exec; rw [same]; exact alone
  | memory op =>
    obtain ⟨m, segment, same⟩ := exec
    rw [same]
    cases segment with
    | ran ok => exact exclusive_segment pool inv.keyed alone apart ok
    | threw failed => exact alone

theorem exclusive_of_run {cfg : RouteConfig} (run : ApartRun d (.initial .empty) cfg) : Exclusive d (cfg.shared.world.intent d) := by
  induction run with
  | refl =>
    intro id id' i i' hash first
    unfold World.intent at first
    split at first <;> cases first
  | @tail mid last run step ih =>
    have before : Reachable d mid := ApartRun.steps run
    rcases (routes_holds before).guar step.1 with same | ⟨e, does, -⟩
    · rw [same]
      exact ih
    · exact exclusive_step (routes_holds before).inv (step.2 e does.2) does ih

end

/-! ## The guarantee -/

section

variable {d : Deployment} {cfg cfg₁ : RouteConfig} {r : Route} {id : String} {signedXdr : JsString}

/-- A `submit` of an accepted envelope with the hash the intent holds alone: it meets
no conflict, and returns the intent with that hash. -/
theorem retry_of_held (run : Reachable d cfg) (alone : Exclusive d (cfg.shared.world.intent d)) (submits : Submits r id signedXdr)
    {i : PaymentIntent} {tx : Transaction} (stored : cfg.shared.world.intent d id = some i)
    (parsed : parsePayment d.sdk signedXdr (some i.toNativePayment) = .ok tx)
    (held : i.transactionHash = some (.str (toHex tx.hash))) {tid : Nat} {p : PaymentProg RouteResponse}
    (here : cfg.calls[tid]? = some (r, p)) :
    (∀ e, p = .fail e → e.className ≠ .conflict) ∧
      ∀ response, p = .ret response → ∃ intent, response = .intents (.intent intent) ∧ Answered (toHex tx.hash) intent cfg.shared := by
  have on := discipline_onStore d
  obtain ⟨s, awaited, course⟩ := course_of_run routes_holds (submit_course submits) run here
  have later : Later d s cfg.shared := awaited.later
  constructor
  · rintro e rfl conflict
    obtain ⟨i₀, there, contested⟩ := course conflict
    obtain ⟨i', there', retains⟩ := later.intents id i₀ there
    obtain rfl : i = i' := Option.some.inj (stored.symm.trans there')
    rcases contested tx (retains.payment ▸ parsed) with ⟨v, bound, truthy, other⟩ | ⟨j, other, taken⟩
    · obtain ⟨i₁, here₁, hash⟩ := Holdings.hashOf_eq_some.1 bound
      obtain rfl : i₀ = i₁ := Option.some.inj (there.symm.trans here₁)
      have same := (retains.hash (hash ▸ truthy)).trans hash
      rw [held] at same
      exact other (Option.some.inj same).symm
    · obtain ⟨k, here₁, hash⟩ := Holdings.hashOf_eq_some.1 taken
      obtain ⟨k', stored', retains'⟩ := later.intents j k here₁
      have held' := (retains'.hash (truthy_hash hash (toHex_ne_empty tx.hash))).trans hash
      exact other (alone id j i k' _ stored stored' held held' ⟨signedXdr, tx, parsed, rfl⟩)
  · rintro response rfl
    obtain ⟨hash, intent, rfl, ⟨i₀, tx', there, parsed', rfl⟩, answered⟩ := course
    obtain ⟨i', there', retains⟩ := later.intents id i₀ there
    obtain rfl : i = i' := Option.some.inj (stored.symm.trans there')
    rw [← retains.payment, parsed] at parsed'
    cases parsed'
    exact ⟨intent, rfl, answered.later on later⟩


/-- What makes a submit safe to retry. In any interleaving its own operations leave
its intent as `LeftBySubmit` says and every other as it is; so does the whole call,
when it has failed, unless another request has claimed or settled the intent
meanwhile; a hash an intent is bound to stays; and while it is that of an accepted
envelope, no `submit` of an envelope with this hash has met a conflict or has
returned anything but the intent with this hash, pending or with Horizon's status
for it. -/
structure RetrySafe (d : Deployment) (cfg : RouteConfig) : Prop where
  ownSteps : ∀ cfg₁ e id signedXdr j i, (routes d).Step cfg cfg₁ → cfg₁.shared.log = e :: cfg.shared.log →
    Submits e.call id signedXdr → cfg.shared.world.intent d j = some i →
    ∃ i₁, cfg₁.shared.world.intent d j = some i₁ ∧ (j ≠ id → i₁ = i) ∧ (j = id → LeftBySubmit d signedXdr cfg₁.shared.log i i₁)
  failedCall : ∀ cfg₁ (tid : Nat) r id signedXdr p e i, cfg.calls[tid]? = some (r, p) → Submits r id signedXdr →
    (routes d).Steps cfg cfg₁ → cfg₁.calls[tid]? = some (r, .fail e) → Undisturbed cfg cfg₁ tid id →
    cfg.shared.world.intent d id = some i →
    ∃ i₁, cfg₁.shared.world.intent d id = some i₁ ∧ LeftBySubmit d signedXdr cfg₁.shared.log i i₁
  hashStays : ∀ cfg₁ id i, (routes d).Steps cfg cfg₁ → cfg.shared.world.intent d id = some i → truthy i.transactionHash = true →
    ∃ i₁, cfg₁.shared.world.intent d id = some i₁ ∧ i₁.transactionHash = i.transactionHash
  retries : ∀ (tid : Nat) r id signedXdr tx p i, cfg.calls[tid]? = some (r, p) → Submits r id signedXdr →
    cfg.shared.world.intent d id = some i → parsePayment d.sdk signedXdr (some i.toNativePayment) = .ok tx →
    i.transactionHash = some (.str (toHex tx.hash)) → (∀ e, p = .fail e → e.className ≠ .conflict) ∧
      ∀ response, p = .ret response → ∃ intent, response = .intents (.intent intent) ∧ Answered (toHex tx.hash) intent cfg.shared

/-- **Submit is safe to retry** as long as no creation brings along the hash of another intent. -/
theorem submit_retry_safe (run : ApartRun d (.initial .empty) cfg) : RetrySafe d cfg := by
  have reached : Reachable d cfg := ApartRun.steps run
  refine ⟨?_, ?_, ?_, ?_⟩
  · intro cfg₁ e id signedXdr j i step log submits stored
    exact own_step reached step log submits stored
  · intro cfg₁ tid r id signedXdr p e i here submits steps _ undisturbed stored
    exact left_along reached submits here steps undisturbed stored
  · intro cfg₁ id i steps stored bound
    obtain ⟨i₁, stored₁, retains⟩ := (later_of_run reached steps).intents id i stored
    exact ⟨i₁, stored₁, retains.hash bound⟩
  · intro tid r id signedXdr tx p i here submits stored parsed held
    exact retry_of_held reached (exclusive_of_run run) submits stored parsed held here

/-- A submit binds its intent, and Horizon does not know the transaction yet; another
intent is created with the hash given in the body; and the submit is retried. -/
def Sample.retried (hash : String) : List (Scheduled Route Choice) :=
  let submit : Route := .intents (.submit Sample.intentId (some (.str "signed")))
  let body := Function.update Sample.body "transactionHash" (some (.str hash))
  [.start (.intents (.create (some "key") Sample.body)), .act 0 (.now 1000), .act 0 (.uuid Sample.intentId), .act 0 (.done 0),
   .start submit, .act 1 (.done 0), .act 1 (.now 2000), .act 1 (.done 0), .act 1 .accepted, .act 1 (.record none), .act 1 (.now 3000),
   .act 1 (.done 0),
   .start (.intents (.create (some "other") body)), .act 2 (.now 4000), .act 2 (.uuid Sample.otherId), .act 2 (.done 0),
   .start submit, .act 3 (.done 0), .act 3 (.now 5000), .act 3 (.done 0)]

/-- The sample intent is bound to the hash of the envelope, which is accepted for it. -/
def Sample.bound (cfg : RouteConfig) : Bool :=
  (cfg.shared.world.intent (Sample.deployment false) Sample.intentId).any fun i =>
    decide (parsePayment Sample.sdk "signed" (some i.toNativePayment) = .ok Sample.tx) && isString (toHex Sample.tx.hash) i.transactionHash

/-- The call is a submit of the envelope for the sample intent, and has ended in a conflict. -/
def Sample.conflicts (cfg : RouteConfig) (tid : Nat) : Bool :=
  match cfg.calls[tid]? with
  | some (r, .fail e) => decide (Submits r Sample.intentId "signed") && decide (e.className = .conflict)
  | _ => false

/-- The call has returned the intent with this status. -/
def Sample.returnedStatus (cfg : RouteConfig) (tid : Nat) : Option PaymentStatus :=
  match cfg.calls[tid]? with
  | some (_, .ret (.intents (.intent (some i)))) => some i.status
  | _ => none

/-- In memory, a creation that brings the hash along keeps the intent from being submitted again. -/
theorem submit_conflicts : ∃ cfg, Reachable (Sample.deployment false) cfg ∧ Sample.bound cfg = true ∧
    Sample.returnedStatus cfg 1 = some .pending ∧ Sample.conflicts cfg 3 = true ∧ ¬RetrySafe (Sample.deployment false) cfg := by
  have ran : ((routes (Sample.deployment false)).replay (effect (Sample.deployment false)) (Sample.retried (toHex Sample.tx.hash))
      (.initial .empty)).any (fun cfg => Sample.bound cfg = true ∧ Sample.returnedStatus cfg 1 = some .pending ∧ Sample.conflicts cfg 3 = true) =
      true := by
    decide +kernel
  obtain ⟨cfg, ran, ends⟩ := (Option.any_eq_true _ _).1 ran
  obtain ⟨bound, first, conflicts⟩ := of_decide_eq_true ends
  refine ⟨cfg, System.replay_steps (effect_exec (Sample.deployment false)) ran, bound, first, conflicts, fun safe => ?_⟩
  obtain ⟨i, stored, both⟩ := (Option.any_eq_true _ _).1 bound
  rw [Bool.and_eq_true, decide_eq_true_eq] at both
  unfold Sample.conflicts at conflicts
  split at conflicts
  · rename_i r e here
    rw [Bool.and_eq_true, decide_eq_true_eq, decide_eq_true_eq] at conflicts
    exact (safe.retries 3 r _ _ _ _ i here conflicts.1 stored both.1 (isString_iff.1 both.2)).1 e rfl conflicts.2
  · cases conflicts

/-- The operation of a step stores no text as a hash that another intent has; starting a call is no operation. -/
def Sample.checkStep (cfg cfg₁ : RouteConfig) : Bool :=
  cfg₁.shared.log.length = cfg.shared.log.length ||
    match cfg₁.shared.log with
    | ⟨_, _, .memory (.createIntent i), _⟩ :: _ => cfg.shared.world.memory.intents.values.all fun other =>
        decide (hashText i.transactionHash = none ∨ hashText i.transactionHash ≠ hashText other.transactionHash)
    | _ => true

theorem apart_of_checked {xs : List (Scheduled Route Choice)} {cfg : RouteConfig}
    (h : (routes (Sample.deployment false)).replayChecked (effect (Sample.deployment false)) Sample.checkStep xs (.initial .empty) = some cfg) :
    ApartRun (Sample.deployment false) (.initial .empty) cfg := by
  refine Relation.ReflTransGen.mono ?_ _ _ (System.replayChecked_steps (effect_exec (Sample.deployment false)) h)
  rintro a b ⟨step, good⟩
  refine ⟨step, fun e log i id other hash opened there held held' => ?_⟩
  rw [Sample.checkStep, log, decide_eq_false (by simp), Bool.false_or] at good
  obtain ⟨tid, r, op, ans⟩ := e
  cases opened with
  | inserted sql => cases sql
  | inMemory memory free =>
    have mem : other ∈ a.shared.world.memory.intents.values := (OrderedMap.mem_values_iff _).2 ⟨id, there⟩
    have differ := of_decide_eq_true (List.all_eq_true.1 good other mem)
    simp [held, held', hashText] at differ

/-- With another hash the retry succeeds. -/
theorem submit_retry_safe_retried : ∃ cfg, Reachable (Sample.deployment false) cfg ∧ Sample.bound cfg = true ∧
    Sample.returnedStatus cfg 1 = some .pending ∧ Sample.returnedStatus cfg 3 = some .succeeded ∧ RetrySafe (Sample.deployment false) cfg := by
  have ran : ((routes (Sample.deployment false)).replayChecked (effect (Sample.deployment false)) Sample.checkStep
      (Sample.retried "0000" ++ [.act 3 .accepted, .act 3 (.record (some ⟨toHex Sample.tx.hash, some 5, true⟩)), .act 3 (.now 6000),
        .act 3 (.done 0)]) (.initial .empty)).any (fun cfg =>
      Sample.bound cfg = true ∧ Sample.returnedStatus cfg 1 = some .pending ∧ Sample.returnedStatus cfg 3 = some .succeeded) = true := by
    decide +kernel
  obtain ⟨cfg, ran, ends⟩ := (Option.any_eq_true _ _).1 ran
  obtain ⟨bound, first, second⟩ := of_decide_eq_true ends
  have run := apart_of_checked ran
  exact ⟨cfg, ApartRun.steps run, bound, first, second, submit_retry_safe run⟩

end

end AfriPay.Payments.Routes
