import AfriPay.Calls.Course
import AfriPay.Payments.Branches
import AfriPay.Payments.Settlement

/-!
# The course of a call on the payment store

The rules of `Calls.Course` for the operations of the payment service, whatever
the calls are that issue them. What a call asserts where it issues an operation
and what holds when it throws are parameters: with the reasons of a discipline for
the one and nothing for the other, a course says that the call keeps the
discipline. Of the discipline the rules use no more than `OnStore` says.
-/

namespace AfriPay.Payments
open Calls Discipline Text Stellar Storage

/-- What an intent has for good: its payment, a hash it is bound to and a final status. -/
structure PaymentIntent.Retains (i' i : PaymentIntent) : Prop where
  payment : i'.toNativePayment = i.toNativePayment
  hash : truthy i.transactionHash = true → i'.transactionHash = i.transactionHash
  status : i.status ≠ .pending → i'.status = i.status

theorem PaymentIntent.Retains.refl (i : PaymentIntent) : i.Retains i := ⟨rfl, fun _ => rfl, fun _ => rfl⟩

theorem PaymentIntent.Retains.trans {i₁ i₂ i₃ : PaymentIntent} (h : i₂.Retains i₁) (h' : i₃.Retains i₂) : i₃.Retains i₁ := by
  refine ⟨h'.payment.trans h.payment, fun bound => ?_, fun final => ?_⟩
  · have kept := h.hash bound
    exact (h'.hash (kept ▸ bound)).trans kept
  · have kept := h.status final
    exact (h'.status (kept ▸ final)).trans kept

theorem truthy_hash {i : PaymentIntent} {hash : String} (held : i.transactionHash = some (.str hash)) (nonempty : hash ≠ "") :
    truthy i.transactionHash = true := by
  rw [held]
  exact decide_eq_true nonempty

/-- The discipline knows what the store is like, and nothing stored is lost. -/
structure OnStore {C α : Type} (d : Deployment) {body : C → PaymentProg α}
    (D : Discipline (⟨body, exec d⟩ : System C Op Op.Answer Exception α World)) : Prop where
  keyed : ∀ {s}, D.Inv s → s.world.memory.Keyed
  db : ∀ {s}, D.Inv s → s.world.db.Sound
  verified : ∀ {s id i}, D.Inv s → s.world.intent d id = some i → i.status ≠ .pending →
    ∃ hash, i.transactionHash = some (.str hash) ∧ Verified s.log hash i.status
  retained : ∀ {s s' id i}, D.Inv s → D.Later s s' → s.world.intent d id = some i →
    ∃ i', s'.world.intent d id = some i' ∧ i'.Retains i
  log : ∀ {s s'}, D.Later s s' → s.log <:+ s'.log

/-- The intent is returned with the hash, pending or with what Horizon answered for it. -/
def Answered {C : Type} (hash : String) (r : Option PaymentIntent) (s : StoreState C) : Prop :=
  ∃ i, r = some i ∧ i.transactionHash = some (.str hash) ∧ (i.status = .pending ∨ Verified s.log hash i.status)

/-- The stored intent holds the hash. -/
def HoldsHash {C : Type} (d : Deployment) (id hash : String) (s : StoreState C) : Prop :=
  ∃ i, s.world.intent d id = some i ∧ i.transactionHash = some (.str hash)

/-- The reason a call has to settle with a final status: what Horizon answered for the hash. -/
def Settler {C : Type} (hash : Json) (status : PaymentStatus) (s : StoreState C) : Prop :=
  status ≠ .pending → ∃ text, text ≠ "" ∧ hash = .str text ∧ Verified s.log text status

/-- Operations that change no intent, store no record and hand nothing over need
no reason, and neither do exceptions other than conflicts. -/
structure Lenient {C : Type} (A : StoreState C → Op → Prop) (E : Exception → StoreState C → Prop) : Prop where
  quiet : ∀ {s op}, op.quiet = true → A s op
  calm : ∀ {s e}, e.className ≠ .conflict → E e s

theorem Lenient.lost {C : Type} {A : StoreState C → Op → Prop} {E : Exception → StoreState C → Prop} (lenient : Lenient A E)
    (s : StoreState C) : E (queryError .other) s :=
  lenient.calm (by simp [queryError, Exception.className])

/-- A hash that is asked for is no empty text. -/
theorem checkHash_ne_empty {network text : String} (h : checkHash network (.str text) = .ok ()) : text ≠ "" := by
  rintro rfl
  obtain ⟨_, -, h⟩ := bind_ok h
  cases h

/-! ## What a store holds -/

theorem World.intent_pool {d : Deployment} (pool : d.pool = true) (w : World) : w.intent d = w.db.holdings := by
  funext id
  rw [World.intent, if_pos pool]
  rfl

theorem World.intent_memory {d : Deployment} (pool : ¬d.pool = true) (w : World) : w.intent d = w.memory.holdings := by
  funext id
  rw [World.intent, if_neg pool]
  rfl

section

variable {C α : Type} {d : Deployment} {body : C → PaymentProg α}
  {D : Discipline (⟨body, exec d⟩ : System C Op Op.Answer Exception α World)} {id hash : String} {s s' : StoreState C}

theorem HoldsHash.later (on : OnStore d D) (h : HoldsHash d id hash s) (nonempty : hash ≠ "") (inv : D.Inv s) (later : D.Later s s') :
    HoldsHash d id hash s' := by
  obtain ⟨i, here, held⟩ := h
  obtain ⟨i', here', retains⟩ := on.retained inv later here
  exact ⟨i', here', (retains.hash (truthy_hash held nonempty)).trans held⟩

/-- A final status has Horizon's word for the hash the intent holds. -/
theorem OnStore.answered (on : OnStore d D) (inv : D.Inv s) {i : PaymentIntent} (stored : s.world.intent d id = some i)
    (held : i.transactionHash = some (.str hash)) : Answered hash (some i) s := by
  refine ⟨i, rfl, held, ?_⟩
  by_cases pending : i.status = .pending
  · exact .inl pending
  · obtain ⟨hash', held', verified⟩ := on.verified inv stored pending
    rw [held] at held'
    cases held'
    exact .inr verified

theorem Answered.later (on : OnStore d D) {r : Option PaymentIntent} (h : Answered hash r s) (later : D.Later s s') :
    Answered hash r s' := by
  obtain ⟨i, rfl, held, pending | verified⟩ := h
  · exact ⟨i, rfl, held, .inl pending⟩
  · exact ⟨i, rfl, held, .inr (verified.mono fun _ mem => (on.log later).mem mem)⟩

theorem Settler.later (on : OnStore d D) {hash : Json} {status : PaymentStatus} (h : Settler hash status s) (later : D.Later s s') :
    Settler hash status s' := by
  intro final
  obtain ⟨text, nonempty, same, verified⟩ := h final
  exact ⟨text, nonempty, same, verified.mono fun _ mem => (on.log later).mem mem⟩

/-- What cannot be claimed never can be. -/
theorem Contested.later (on : OnStore d D) (h : Holdings.Contested (s.world.intent d) id hash) (nonempty : hash ≠ "") (inv : D.Inv s)
    (later : D.Later s s') : Holdings.Contested (s'.world.intent d) id hash := by
  rcases h with ⟨v, held, bound, other⟩ | ⟨j, other, held⟩
  · obtain ⟨i, stored, hash⟩ := Holdings.hashOf_eq_some.1 held
    obtain ⟨i', stored', retains⟩ := on.retained inv later stored
    exact .inl ⟨v, Holdings.hashOf_eq_some.2 ⟨i', stored', (retains.hash (hash ▸ bound)).trans hash⟩, bound, other⟩
  · obtain ⟨i, stored, hash⟩ := Holdings.hashOf_eq_some.1 held
    obtain ⟨i', stored', retains⟩ := on.retained inv later stored
    exact .inr ⟨j, other, Holdings.hashOf_eq_some.2 ⟨i', stored', (retains.hash (truthy_hash hash nonempty)).trans hash⟩⟩

end

section Rules

variable {C α : Type} {d : Deployment} {body : C → PaymentProg α}
  {D : Discipline (⟨body, exec d⟩ : System C Op Op.Answer Exception α World)} {tid : Nat} {c : C} {s : StoreState C}
  {A : StoreState C → Op → Prop} {E : Exception → StoreState C → Prop}

/-- The rule of a statement. Where its answer is lost, nothing is known but that. -/
theorem course_query {st : Statement} {Q : List st.Row → StoreState C → Prop} (lenient : Lenient A E)
    (asserted : ∀ s₁, D.Awaited tid s s₁ → A s₁ (.query st))
    (post : ∀ s₁ s₂ now rows, D.Awaited tid s s₁ → st.run d.pgTime now s₁.world.db = .ok (rows, s₂.world.db) →
      D.Later s₁ s₂ → D.Inv s₂ → Q rows s₂)
    (clash : ∀ s₁ s₂ now, D.Awaited tid s s₁ → st.run d.pgTime now s₁.world.db = .error .uniqueViolation →
      D.Later s₁ s₂ → E (queryError .uniqueViolation) s₂) :
    D.Course tid c A Q E (query st) s := by
  refine course_bind fun s₁ awaited => ⟨asserted s₁ awaited, fun ans s₂ exec _ later inv => ?_⟩
  obtain ⟨db, queried, world⟩ := exec
  cases queried with
  | ran ok => exact post s₁ s₂ _ _ awaited (by rw [world]; exact ok) later inv
  | unreached => exact lenient.lost s₂
  | unanswered ok => exact lenient.lost s₂
  | @refused now e failed =>
    cases e with
    | other => exact lenient.lost s₂
    | uniqueViolation => exact clash s₁ s₂ now awaited failed later

/-- The rule of a segment of the in-memory branch. -/
theorem course_inMemory {op : MemoryOp} {Q : op.Answer → StoreState C → Prop}
    (asserted : ∀ s₁, D.Awaited tid s s₁ → A s₁ (.memory op))
    (post : ∀ s₁ s₂ a, D.Awaited tid s s₁ → op.run s₁.world.memory = .ok (a, s₂.world.memory) →
      D.Later s₁ s₂ → D.Inv s₂ → Q a s₂)
    (threw : ∀ s₁ s₂ e, D.Awaited tid s s₁ → op.run s₁.world.memory = .error e → D.Later s₁ s₂ → E e s₂) :
    D.Course tid c A Q E (inMemory op) s := by
  refine course_bind fun s₁ awaited => ⟨asserted s₁ awaited, fun ans s₂ exec _ later inv => ?_⟩
  obtain ⟨memory, segment, world⟩ := exec
  cases segment with
  | ran ok => exact post s₁ s₂ _ awaited (by rw [world]; exact ok) later inv
  | threw failed => exact threw s₁ s₂ _ awaited failed later

theorem course_dateNow {Q : Timestamp → StoreState C → Prop} (lenient : Lenient A E)
    (post : ∀ s' now, D.Later s s' → D.Inv s' → s'.own tid = ⟨tid, c, .stellar .dateNow, now⟩ :: s.own tid → Q now s') :
    D.Course tid c A Q E dateNow s := by
  intro s₁ awaited
  refine ⟨lenient.quiet rfl, fun now s₂ _ log later inv => ?_⟩
  exact post s₂ now (D.trans awaited.later later) inv (awaited.own_cons log)

/-! ## The store -/

theorem course_findIntent {id : String} {Q : Option PaymentIntent → StoreState C → Prop} (lenient : Lenient A E)
    (post : ∀ s', D.Later s s' → D.Inv s' → Q (s'.world.intent d id) s') :
    D.Course tid c A Q E (PaymentIntentStore.findIntent d id) s := by
  unfold PaymentIntentStore.findIntent
  apply course_ite
  · intro pool
    refine course_bind (course_query lenient (fun _ _ => lenient.quiet rfl) ?_ ?_)
    · intro s₁ s₂ now rows awaited ran later inv
      obtain ⟨_, -, ran⟩ := bind_ok ran
      have found := post s₂ (D.trans awaited.later later) inv
      rw [World.intent, if_pos pool] at found
      obtain ⟨rfl, same⟩ := Prod.mk.inj (Except.ok.inj ran)
      rw [← same, ← @Option.head?_toList IntentRow (s₁.world.db.intents.find _)] at found
      exact found
    · intro s₁ s₂ now _ failed _
      have failed : s₁.world.db.selectIntent id = .error .uniqueViolation := failed
      unfold Database.selectIntent assertTexts at failed
      split at failed <;> cases failed
  · intro pool
    apply course_inMemory (fun _ _ => lenient.quiet rfl)
    · intro s₁ s₂ a awaited ran later inv
      have found := post s₂ (D.trans awaited.later later) inv
      rw [World.intent, if_neg pool] at found
      obtain ⟨rfl, same⟩ := Prod.mk.inj (Except.ok.inj ran)
      rwa [← same] at found
    · rintro s₁ s₂ e _ ⟨⟩

/-- A claim for a stored intent: the intent is returned with the hash, or the hash cannot be claimed. -/
theorem course_claimHash (on : OnStore d D) {id hash : String} {Q : PaymentIntent → StoreState C → Prop} (lenient : Lenient A E)
    (nonempty : hash ≠ "") (inv : D.Inv s) {i₀ : PaymentIntent} (here : s.world.intent d id = some i₀)
    (asserted : ∀ s₁ op, D.Later s s₁ → op.claims = some (id, hash) → A s₁ op)
    (post : ∀ i s', D.Later s s' → D.Inv s' → s'.world.intent d id = some i → i.transactionHash = some (.str hash) → Q i s')
    (clash : ∀ s₁ s₂ e, D.Later s s₁ → D.Inv s₁ → Holdings.Contested (s₁.world.intent d) id hash → D.Later s₁ s₂ → E e s₂) :
    D.Course tid c A Q E (PaymentIntentStore.claimHash d id hash) s := by
  unfold PaymentIntentStore.claimHash
  apply course_ite
  · intro pool
    have row : ∀ {s₁}, D.Later s s₁ → ∃ r, s₁.world.db.intents.find (·.id = id) = some r := by
      intro s₁ later
      obtain ⟨i₁, stored, -⟩ := on.retained inv later here
      rw [World.intent_pool pool] at stored
      obtain ⟨r, found, -⟩ := Database.holdings_eq_some.1 stored
      exact ⟨r, found⟩
    have refused : ∀ {s₁ s₂ now}, D.Awaited tid s s₁ → ((∃ db', s₁.world.db.claimHash id hash now = .ok ([], db')) ∨
        s₁.world.db.claimHash id hash now = .error .uniqueViolation) → D.Later s₁ s₂ → ∀ e, E e s₂ := by
      intro s₁ s₂ now awaited answer later e
      obtain ⟨r, found⟩ := row awaited.later
      refine clash s₁ s₂ e awaited.later awaited.inv ?_ later
      rw [World.intent_pool pool]
      exact Database.claimHash_contested (on.db awaited.inv) found answer
    refine course_bind (course_query lenient (fun s₁ awaited => asserted s₁ _ awaited.later rfl) ?_ ?_)
    · intro s₁ s₂ now rows awaited ran later inv
      cases rows with
      | nil => exact refused awaited (.inl ⟨_, ran⟩) later _
      | cons row' rows =>
        obtain ⟨r, found⟩ := row awaited.later
        have ran : s₁.world.db.claimHash id hash now = .ok ((row' :: rows : List IntentRow), s₂.world.db) := ran
        obtain ⟨stored, held⟩ := Database.claimHash_returns (on.db awaited.inv) nonempty found ran
        refine post _ s₂ (D.trans awaited.later later) inv ?_ held
        rw [World.intent_pool pool]
        exact stored
    · intro s₁ s₂ now awaited failed later
      exact refused awaited (.inr failed) later _
  · intro pool
    refine course_bind (course_dateNow lenient fun s₁ now later₁ inv₁ _ => ?_)
    apply course_inMemory
    · intro s₂ awaited
      exact asserted s₂ _ (D.trans later₁ awaited.later) rfl
    · intro s₂ s₃ a awaited ran later inv₃
      obtain ⟨i, -, -, -, rfl, after⟩ := Memory.claimHash_ok ran
      refine post _ s₃ (D.trans (D.trans later₁ awaited.later) later) inv₃ ?_ rfl
      rw [World.intent, if_neg pool, after]
      exact OrderedMap.get_set_self ..
    · intro s₂ s₃ e awaited failed later
      have later₂ := D.trans later₁ awaited.later
      refine clash s₂ s₃ e later₂ awaited.inv ?_ later
      obtain ⟨i, stored, -⟩ := on.retained inv later₂ here
      rw [World.intent_memory pool] at stored ⊢
      exact Memory.claimHash_contested (on.keyed awaited.inv) stored failed

/-- A settlement. Of the hash the intent holds, it returns the intent with the
hash, and meets no conflict. -/
theorem course_settle (on : OnStore d D) {id : String} {hash : Json} {status : PaymentStatus} {Q : Option PaymentIntent → StoreState C → Prop}
    (lenient : Lenient A E) (inv : D.Inv s) (asserted : ∀ s₁ op, D.Later s s₁ → op.settles = some (id, hash, status) → A s₁ op)
    (post : ∀ r s', D.Later s s' → D.Inv s' → (∀ text, text ≠ "" → hash = .str text → HoldsHash d id text s → Answered text r s') → Q r s')
    (clash : (∀ text, text ≠ "" → hash = .str text → ¬HoldsHash d id text s) → ∀ e s', E e s') :
    D.Course tid c A Q E (PaymentIntentStore.settle d id hash status) s := by
  unfold PaymentIntentStore.settle
  apply course_ite
  · intro pool
    refine course_bind (course_map (course_query lenient (fun s₁ awaited => asserted s₁ _ awaited.later rfl) ?_ ?_))
    · intro s₁ s₂ now rows awaited _ later _
      refine course_findIntent lenient fun s₃ later' inv' => ?_
      have later₃ := D.trans (D.trans awaited.later later) later'
      refine post _ s₃ later₃ inv' fun text nonempty _ holds => ?_
      obtain ⟨i, stored, held⟩ := holds.later on nonempty inv later₃
      rw [stored]
      exact on.answered inv' stored held
    · intro s₁ s₂ now awaited failed _
      refine clash (fun text nonempty same holds => ?_) _ s₂
      subst same
      obtain ⟨i, stored, held⟩ := holds.later on nonempty inv awaited.later
      rw [World.intent_pool pool] at stored
      obtain ⟨r, found, rfl⟩ := Database.holdings_eq_some.1 stored
      exact Database.settle_runs found ((Database.intent_hash_iff (on.db awaited.inv) (Table.mem_of_find found).1).1 held) failed
  · intro pool
    refine course_bind (course_dateNow lenient fun s₁ now later₁ inv₁ _ => ?_)
    refine course_map (course_inMemory ?_ ?_ ?_)
    · intro s₂ awaited
      exact asserted s₂ _ (D.trans later₁ awaited.later) rfl
    · intro s₂ s₃ a awaited ran later inv₃
      have later₂ := D.trans later₁ awaited.later
      refine post _ s₃ (D.trans later₂ later) inv₃ fun text nonempty same holds => ?_
      subst same
      obtain ⟨i, stored, held⟩ := holds.later on nonempty inv later₂
      rw [World.intent_memory pool] at stored
      obtain ⟨m', i', -, ok, after⟩ := Memory.settle_spec stored held status now
      obtain ⟨rfl, rfl⟩ := Prod.mk.inj (Except.ok.inj (ok.symm.trans ran))
      obtain ⟨i₃, stored₃, held₃⟩ := holds.later on nonempty inv (D.trans later₂ later)
      have returned : s₃.world.intent d id = some i' := by
        rw [World.intent_memory pool, after, Function.update_self]
      obtain rfl : i' = i₃ := Option.some.inj (returned.symm.trans stored₃)
      exact on.answered inv₃ stored₃ held₃
    · intro s₂ s₃ e awaited failed _
      refine clash (fun text nonempty same holds => ?_) e s₃
      subst same
      obtain ⟨i, stored, held⟩ := holds.later on nonempty inv (D.trans later₁ awaited.later)
      rw [World.intent_memory pool] at stored
      exact Memory.settle_runs stored held failed

/-! ## The Stellar service -/

/-- What is returned of a query is a reason to settle. -/
theorem course_verify {hash : Json} {Q : PaymentStatus → StoreState C → Prop} (lenient : Lenient A E)
    (post : ∀ status s', D.Later s s' → D.Inv s' → Settler hash status s' → Q status s') :
    D.Course tid c A Q E (stellar (verifyTransaction d.network hash)) s := by
  unfold verifyTransaction
  rw [stellar_bind, stellar_ofExcept]
  refine course_bind (course_ofExcept ?_ ?_)
  · intro _ checked s₁ awaited
    refine ⟨lenient.quiet rfl, fun answer s₂ _ log later inv => ?_⟩
    refine post _ s₂ (D.trans awaited.later later) inv fun final => ?_
    obtain ⟨result, n, rfl, same, ledger, pos, verdict⟩ := verdict_final final
    obtain rfl : hash = .str result.hash := Json.eq_of_str_same same
    refine ⟨result.hash, checkHash_ne_empty checked, rfl, tid, c, result, n, ?_, rfl, ledger, pos, verdict⟩
    rw [log]
    exact List.mem_cons_self
  · intro e failed
    exact lenient.calm (by rw [checkHash_error failed]; simp)

theorem course_submitSigned {signedXdr : JsString} {publicKey : Option String} {payment : NativePayment} {tx : Transaction}
    {Q : Submission → StoreState C → Prop} (lenient : Lenient A E) (parsed : parsePayment d.sdk signedXdr (some payment) = .ok tx)
    (asserted : ∀ s₁, D.Later s s₁ → A s₁ (.stellar (.submitTransaction tx)))
    (post : ∀ r s', D.Later s s' → D.Inv s' → Settler (.str (toHex tx.hash)) r.status s' → Q r s') :
    D.Course tid c A Q E (stellar (submitSignedTransaction d.sdk d.network signedXdr publicKey (some payment))) s := by
  unfold submitSignedTransaction
  rw [stellar_bind, stellar_ofExcept]
  refine course_bind (course_ofExcept ?_ ?_)
  · intro transaction checked s₁ awaited
    obtain rfl : tx = transaction := Except.ok.inj (parsed.symm.trans (checkSubmission_ok checked))
    refine ⟨asserted s₁ awaited.later, fun _ s₂ _ _ later inv => ?_⟩
    show D.Course tid c A Q E (stellar (verifyTransaction d.network _ >>= _)) s₂
    rw [stellar_bind]
    refine course_bind (course_verify lenient fun status s₃ later' inv' settler => ?_)
    exact post _ s₃ (D.trans (D.trans awaited.later later) later') inv' settler
  · intro e failed
    exact lenient.calm (by rw [checkSubmission_error parsed failed]; simp)

/-! ## The service -/

theorem course_get {id : String} {Q : PaymentIntent → StoreState C → Prop} (lenient : Lenient A E)
    (post : ∀ i s', D.Later s s' → D.Inv s' → s'.world.intent d id = some i → Q i s') :
    D.Course tid c A Q E (PaymentIntentService.get d id) s := by
  refine course_bind (course_findIntent lenient fun s' later inv => ?_)
  cases found : s'.world.intent d id with
  | none => exact lenient.calm (by simp [Exception.className])
  | some i => exact post i s' later inv found

/-- A reconcile settles for a reason, and may meet a conflict where another call settles. -/
theorem course_reconcile (on : OnStore d D) {id : String} {Q : Option PaymentIntent → StoreState C → Prop} (lenient : Lenient A E)
    (thrown : ∀ e s', E e s')
    (asserted : ∀ s₁ op hash status, op.settles = some (id, hash, status) → Settler hash status s₁ → A s₁ op)
    (post : ∀ r s', D.Later s s' → D.Inv s' → Q r s') :
    D.Course tid c A Q E (PaymentIntentService.reconcile d id) s := by
  unfold PaymentIntentService.reconcile
  refine course_bind (course_get lenient fun intent s₁ later₁ inv₁ found => ?_)
  cases intent.transactionHash with
  | none => exact post _ s₁ later₁ inv₁
  | some hash =>
    apply course_ite
    · intro _
      exact post _ s₁ later₁ inv₁
    · intro _
      refine course_bind (course_verify lenient fun status s₂ later₂ inv₂ settler => ?_)
      refine course_settle on lenient inv₂ ?_ ?_ fun _ => thrown
      · exact fun s₃ op later settles => asserted s₃ op hash status settles (settler.later on later)
      · exact fun r s₃ later₃ inv₃ _ => post r s₃ (D.trans (D.trans later₁ later₂) later₃) inv₃

end Rules

end AfriPay.Payments
