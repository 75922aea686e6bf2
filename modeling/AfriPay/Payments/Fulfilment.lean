import AfriPay.Payments.Creation
import AfriPay.Stellar.Acceptance

/-!
# From the request to the network

Every intent a deployment holds was asked for by some `create`, under its key
and with its details; and every envelope handed to Horizon pays one of these
intents, and nothing else. So what reaches the network for a key is one payment
that a client has asked for.
-/

namespace AfriPay.Payments
open Calls Discipline Text Stellar Storage Ledger

/-! ## Where the stored intents come from -/

/-- The intent an operation adds to the store. -/
def Op.adds : Op → Option IntentValues
  | .memory (.createIntent i) => some (PaymentIntentStore.values i)
  | .query (.insertIntent v) => some v
  | _ => none

def IntentValues.payment (v : IntentValues) : NativePayment := ⟨v.sender, v.recipient, v.amount, v.asset, v.memo⟩

/-- The call is the request for the intent the operation adds. -/
def Asks (c : Call) (op : Op) : Prop :=
  ∀ v, op.adds = some v → ∃ input, c = .create input ∧ input.idempotencyKey = some v.idempotencyKey.json ∧
    Requested input.payment v.payment

/-- The payment a request names, with the memo as the store keeps it. -/
def RequestedKept (pool : Bool) (input : PaymentFields) (p : NativePayment) : Prop :=
  ∃ memo, Requested input { p with memo } ∧ p.memo.getD "" = keptText pool (memo.getD "")

/-- The call is a `create` that asks for this payment under this key, as the store keeps both. -/
def AsksFor (pool : Bool) (c : Call) (key : JsString) (p : NativePayment) : Prop :=
  ∃ input given, c = .create input ∧ input.idempotencyKey = some given.json ∧ key = keptText pool given ∧
    RequestedKept pool input.payment p

/-- Some `create` has asked for this payment under this key. -/
def AskedFor (pool : Bool) (log : List PaymentEvent) (key : JsString) (p : NativePayment) : Prop :=
  ∃ e ∈ log, AsksFor pool e.call key p

theorem AskedFor.mono {pool : Bool} {log log' : List PaymentEvent} {key : JsString} {p : NativePayment}
    (h : AskedFor pool log key p) (grows : ∀ e ∈ log, e ∈ log') : AskedFor pool log' key p := by
  obtain ⟨e, mem, asked⟩ := h
  exact ⟨e, grows e mem, asked⟩

section Bodies

variable (d : Deployment) {α : Type}

/-- No operation of the call adds an intent. -/
abbrev AddsNothing (p : PaymentProg α) : Prop := p.Each fun op _ => op.adds = none

theorem addsNothing_query {s : Statement} (h : (Op.query s).adds = none) : AddsNothing (query s) :=
  Prog.each_await_bind h fun _ => Prog.each_ofExcept _

theorem addsNothing_inMemory {op : MemoryOp} (h : (Op.memory op).adds = none) : AddsNothing (inMemory op) :=
  Prog.each_await_bind h fun _ => Prog.each_ofExcept _

theorem addsNothing_stellar (p : ServiceProg α) : AddsNothing (stellar p) :=
  Prog.each_embed (Prog.each_of_all (fun _ _ => rfl) p)

theorem addsNothing_dateNow : AddsNothing dateNow := addsNothing_stellar _

theorem addsNothing_findIntent (id : String) : AddsNothing (PaymentIntentStore.findIntent d id) := by
  apply Prog.each_ite
  · intro _
    exact Prog.each_bind (addsNothing_query rfl) fun _ => trivial
  · intro _
    exact addsNothing_inMemory rfl

theorem addsNothing_get (id : String) : AddsNothing (PaymentIntentService.get d id) := by
  refine Prog.each_bind (addsNothing_findIntent d id) fun found => ?_
  cases found <;> trivial

theorem addsNothing_settle (id : String) (hash : Json) (status : PaymentStatus) :
    AddsNothing (PaymentIntentStore.settle d id hash status) := by
  apply Prog.each_ite
  · intro _
    refine Prog.each_bind (Prog.each_map (addsNothing_query rfl)) fun _ => ?_
    exact addsNothing_findIntent d id
  · intro _
    refine Prog.each_bind addsNothing_dateNow fun now => ?_
    exact Prog.each_map (addsNothing_inMemory rfl)

theorem addsNothing_claimHash (id hash : String) : AddsNothing (PaymentIntentStore.claimHash d id hash) := by
  apply Prog.each_ite
  · intro _
    refine Prog.each_bind (addsNothing_query rfl) fun rows => ?_
    split <;> trivial
  · intro _
    refine Prog.each_bind addsNothing_dateNow fun now => ?_
    exact addsNothing_inMemory rfl

theorem addsNothing_submit (id : String) (signedXdr : JsString) : AddsNothing (PaymentIntentService.submit d id signedXdr) := by
  refine Prog.each_bind (addsNothing_get d id) fun intent => Prog.each_bind (Prog.each_ofExcept _) fun tx => ?_
  refine Prog.each_bind (addsNothing_claimHash d id _) fun claimed => Prog.each_ite (fun _ => trivial) fun _ => ?_
  refine Prog.each_bind (addsNothing_stellar _) fun result => ?_
  exact addsNothing_settle d id _ _

theorem addsNothing_reconcile (id : String) : AddsNothing (PaymentIntentService.reconcile d id) := by
  refine Prog.each_bind (addsNothing_get d id) fun intent => ?_
  cases intent.transactionHash with
  | none => trivial
  | some hash =>
    refine Prog.each_ite (fun _ => trivial) fun _ => ?_
    refine Prog.each_bind (addsNothing_stellar _) fun status => ?_
    exact addsNothing_settle d id hash status

theorem addsNothing_createLink (input : LinkInput) : AddsNothing (PaymentIntentService.createLink d input) := by
  refine Prog.each_bind (Prog.each_ofExcept _) fun ⟨creator, amount, reference⟩ => ?_
  refine Prog.each_bind addsNothing_dateNow fun now => Prog.each_bind (Prog.each_ofExcept _) fun _ => ?_
  refine Prog.each_await_bind rfl fun id => Prog.each_bind addsNothing_dateNow fun createdAt => ?_
  refine Prog.each_bind (Prog.each_ite (fun _ => ?_) fun _ => ?_) fun _ => trivial
  · exact Prog.each_map (addsNothing_query rfl)
  · exact addsNothing_inMemory rfl

theorem addsNothing_getLink (id : String) : AddsNothing (PaymentIntentService.getLink d id) := by
  refine Prog.each_bind (Prog.each_ite (fun _ => ?_) fun _ => ?_) fun found => ?_
  · exact Prog.each_bind (addsNothing_query rfl) fun _ => trivial
  · exact addsNothing_inMemory rfl
  · cases found with
    | none => trivial
    | some link =>
      refine Prog.each_bind addsNothing_dateNow fun now => ?_
      exact Prog.each_ite (fun _ => trivial) fun _ => trivial

theorem asks_none {c : Call} {p : PaymentProg α} (h : AddsNothing p) : p.Each fun op _ => Asks c op :=
  h.mono fun op _ none v adds => by rw [none] at adds; cases adds

theorem asks_create (input : DeclaredInput) :
    (PaymentIntentService.create d input.input).Each fun op _ => Asks (.create input) op := by
  refine Prog.each_ofExcept_bind fun payment valid => Prog.each_ofExcept_bind fun key keyed => ?_
  have valid := validatePayment_ok.1 valid
  have keyed := idempotencyKeyOf_ok keyed
  refine Prog.each_bind (asks_none addsNothing_dateNow) fun now => ?_
  refine Prog.each_await_bind (by rintro v ⟨⟩) fun id => ?_
  have asks : ∀ op, op.adds = some (PaymentIntentStore.values (PaymentIntentService.newIntent input.input payment key id now)) →
      Asks (.create input) op := by
    intro op adds v adds'
    obtain rfl := Option.some.inj (adds.symm.trans adds')
    obtain ⟨units, value, -⟩ := valid.positive
    have same : SameDetails payment payment := sameDetails_self value
    exact ⟨input, rfl, keyed, same.requested valid⟩
  refine Prog.each_bind (Prog.each_ite (fun _ => ?_) fun _ => ?_) fun saved => ?_
  · refine Prog.each_bind (Prog.each_await_bind (asks _ rfl) fun _ => Prog.each_ofExcept _) fun rows => ?_
    exact Prog.each_ofExcept_bind fun row _ => trivial
  · exact Prog.each_await_bind (asks _ rfl) fun _ => Prog.each_ofExcept _
  · exact Prog.each_ofExcept_bind fun _ _ => trivial

theorem asks_body (c : Call) : ((payments d).body c).Each fun op _ => Asks c op := by
  cases c with
  | create input => exact Prog.each_map (asks_create d input)
  | get id => exact Prog.each_map (asks_none (addsNothing_get d id))
  | submit id signedXdr => exact Prog.each_map (asks_none (addsNothing_submit d id signedXdr))
  | reconcile id => exact Prog.each_map (asks_none (addsNothing_reconcile d id))
  | createLink input => exact Prog.each_map (asks_none (addsNothing_createLink d input))
  | getLink id => exact Prog.each_map (asks_none (addsNothing_getLink d id))

end Bodies

/-- In memory the payment is kept as it was requested. -/
theorem Requested.kept {input : PaymentFields} {p : NativePayment} (h : Requested input p) : RequestedKept false input p :=
  ⟨p.memo, h, rfl⟩

/-- The row of a requested payment holds what was requested, its amount in the column's units. -/
theorem Requested.row {input : PaymentFields} {v : IntentValues} (h : Requested input v.payment) :
    RequestedKept true input (v.row (scaledValue 12 v.amount)).intent.toNativePayment := by
  obtain ⟨a, units, given, ha, hv⟩ := h.amount
  refine ⟨v.memo, ⟨h.sender, h.recipient, h.asset, ⟨a, units, given, ha, ?_⟩, h.memo⟩, ?_⟩
  · show stroops (stripZeros (fixedPoint 12 (scaledValue 12 v.amount))) = .ok units
    have hv : stroops v.amount = .ok units := hv
    obtain ⟨fits, -⟩ := stroops_ok hv
    rw [stroops_stored fits]
    exact hv
  · exact storedMemo_kept v.memo

/-- What an operation stores is what it adds, as the store keeps it. -/
theorem Opened.adds {pool : Bool} {m : Memory} {op : Op} {i : PaymentIntent} (h : Opened pool m op i) :
    ∃ v, op.adds = some v ∧ i.idempotencyKey = keptText pool v.idempotencyKey ∧
      ∀ input, Requested input v.payment → RequestedKept pool input i.toNativePayment := by
  cases h with
  | inMemory memory free =>
    subst memory
    exact ⟨_, rfl, rfl, fun _ asked => asked.kept⟩
  | inserted sql =>
    subst sql
    exact ⟨_, rfl, rfl, fun _ asked => asked.row⟩

section

variable {d : Deployment} {cfg : PaymentConfig}

/-- Every stored intent was asked for. -/
theorem asked_of_run (run : Reachable d cfg) {id : String} {i : PaymentIntent} (stored : cfg.shared.world.intent d id = some i) :
    AskedFor d.pool cfg.shared.log i.idempotencyKey i.toNativePayment := by
  induction run generalizing id i with
  | refl =>
    unfold World.intent at stored
    split at stored <;> cases stored
  | @tail mid last run step ih =>
    cases step with
    | start c => exact ih stored
    | @act tid c op next ans s' waiting does =>
      have grows : ∀ e ∈ mid.shared.log, e ∈ s'.log := fun e mem => does.2 ▸ List.mem_cons_of_mem _ mem
      cases exec_origin does.1 stored with
      | continued before continues =>
        obtain ⟨hash, status, updatedAt, rfl⟩ := continues
        exact (ih before).mono grows
      | added opened =>
        obtain ⟨v, adds, key, kept⟩ := opened.adds
        have asks : Asks c op := (System.each_waiting (asks_body d) run waiting).1
        obtain ⟨input, rfl, keyed, asked⟩ := asks _ adds
        exact ⟨_, does.2 ▸ List.mem_cons_self, input, _, rfl, keyed, key, kept input.payment asked⟩

/-- What a submit hands over pays its intent, which had been asked for before. -/
theorem handedOver_pays (run : Reachable d cfg) {newer older : List PaymentEvent} {e : PaymentEvent}
    (split : cfg.shared.log = newer ++ e :: older) {id : String} {tx : Transaction} (h : HandsOver e id tx) :
    ∃ i, cfg.shared.world.intent d id = some i ∧ Relayable d.sdk tx ∧ Pays tx i.toNativePayment ∧
      AskedFor d.pool older i.idempotencyKey i.toNativePayment := by
  obtain ⟨cfg₀, cfg₁, run₀, rfl, step, log, steps⟩ := System.happened run split
  obtain ⟨⟨signedXdr, call⟩, op⟩ := handsOver_iff.1 h
  have knows : SubmitOp d id signedXdr cfg₀.shared e.op :=
    asserted_of_step payments_holds (fun tid s _ _ => submitOps_course d id signedXdr tid s) run₀ step log call
  rw [op] at knows
  cases knows with
  | quiet quiet => cases quiet
  | claims _ claims => cases claims
  | settles _ _ settles => cases settles
  | @handsOver _ i₀ stored₀ parsed held =>
    obtain ⟨-, relayable, paid⟩ := parsePayment_ok.1 parsed
    have pays : Pays tx i₀.toNativePayment := (paid _ rfl).2
    have kept : Kept d cfg₀.shared cfg.shared := (kept_along d).steps (payments_sound d) (payments_holds run₀) (.head step steps)
    obtain ⟨i, stored, ⟨hash, status, updatedAt, rfl⟩, -⟩ := kept.2 id i₀ stored₀
    have asked : AskedFor d.pool cfg₀.shared.log i₀.idempotencyKey i₀.toNativePayment := asked_of_run run₀ stored₀
    exact ⟨_, stored, relayable, pays, asked⟩

/-- The envelope makes the payment a request names, to the stroop, and does nothing
else; its memo is the one of the request as the store keeps it. -/
structure PaysRequest (pool : Bool) (tx : Transaction) (input : PaymentFields) : Prop where
  source : input.sender = some (.str tx.source)
  operation : ∃ recipient amount asked units, tx.operations = [.payment none recipient true amount] ∧
    input.recipient = some (.str recipient) ∧ input.amount = some (.str asked) ∧ stroops amount = .ok units ∧ stroops asked = .ok units
  memo : ∃ memo, memoOf input.memo = .ok memo ∧
    if keptText pool (memo.getD "") = "" then tx.memo.type = .none
    else tx.memo.type = .text ∧ .text (memoText tx.memo.value) = keptText pool (memo.getD "")

theorem RequestedKept.paid {pool : Bool} {tx : Transaction} {input : PaymentFields} {p : NativePayment}
    (asked : RequestedKept pool input p) (pays : Pays tx p) : PaysRequest pool tx input := by
  obtain ⟨asked_memo, asked, stored⟩ := asked
  obtain ⟨amount, units, operations, ha, hp⟩ := pays.operation
  obtain ⟨a, units', given, hg, hp'⟩ := asked.amount
  obtain ⟨memo, read, same⟩ := asked.memo
  obtain rfl : units = units' := Except.ok.inj (hp.symm.trans hp')
  refine ⟨?_, ⟨p.recipient, amount, a, units, operations, asked.recipient, given, ha, hg⟩, memo, read, ?_⟩
  · rw [pays.source, asked.sender]
  · rw [same, ← stored]
    exact pays.memo

/-- What a key comes to on the network: an envelope is handed to Horizon only
after a `create` has asked for exactly the payment it makes, under the key of the
intent it is handed over for; what is handed over for the intent a `create` has
returned makes the payment this very call asked for; and all that is handed over
for the intents of one key has one hash. -/
structure Fulfilment (d : Deployment) (cfg : PaymentConfig) : Prop where
  asked : ∀ newer e older tx, cfg.shared.log = newer ++ e :: older → e.op = .stellar (.submitTransaction tx) →
    Relayable d.sdk tx ∧ ∃ id i, HandsOver e id tx ∧ cfg.shared.world.intent d id = some i ∧
      ∃ e' ∈ older, ∃ input key, e'.call = .create input ∧ input.idempotencyKey = some key.json ∧
        i.idempotencyKey = keptText d.pool key ∧ PaysRequest d.pool tx input.payment
  exact : ∀ (tid : Nat) input saved e tx, cfg.calls[tid]? = some (.create input, .ret (.intent (some saved))) →
    e ∈ cfg.shared.log → HandsOver e saved.id tx → PaysRequest false tx input.payment
  once : ∀ e e' id id' i i' tx tx', e ∈ cfg.shared.log → e' ∈ cfg.shared.log → HandsOver e id tx → HandsOver e' id' tx' →
    cfg.shared.world.intent d id = some i → cfg.shared.world.intent d id' = some i' →
    i.idempotencyKey = i'.idempotencyKey → tx.hash = tx'.hash

/-- What the `create` of a returned intent has done, seen from the present. -/
theorem created_of_run (run : Reachable d cfg) {tid : Nat} {input : DeclaredInput} {saved : PaymentIntent}
    (done : cfg.calls[tid]? = some (.create input, .ret (.intent (some saved)))) :
    (∃ key, input.idempotencyKey = some key.json ∧ saved.idempotencyKey = keptText d.pool key) ∧
      Requested input.payment saved.toNativePayment ∧ ∃ i, cfg.shared.world.intent d saved.id = some i ∧ i.Continues saved := by
  obtain ⟨s, ⟨-, kept⟩, created⟩ := (kept_along d).returned (payments_holds run) done
  have created : Created d input.input saved s := created
  obtain ⟨i, stored, continues, -⟩ := kept saved.id saved created.stored
  obtain ⟨key, given, named⟩ := created.key
  exact ⟨⟨key, idempotencyKeyOf_ok given, named⟩, created.requested, i, stored, continues⟩

/-- The envelopes handed over for one intent have one hash. -/
theorem one_hash (run : Reachable d cfg) {e e' : PaymentEvent} (mem : e ∈ cfg.shared.log) (mem' : e' ∈ cfg.shared.log) {id : String}
    {tx tx' : Transaction} (h : HandsOver e id tx) (h' : HandsOver e' id tx') : tx.hash = tx'.hash := by
  have inv := (payments_holds run).inv
  obtain ⟨entry, here, held⟩ := inv.handsOver mem h
  obtain ⟨entry', here', held'⟩ := inv.handsOver mem' h'
  obtain rfl : entry = entry' := Option.some.inj (here.symm.trans here')
  exact toHex_injective (Option.some.inj (held.symm.trans held'))

/-- **From the request to the network**, in every reachable configuration. -/
theorem fulfilment (run : Reachable d cfg) : Fulfilment d cfg := by
  refine ⟨?_, ?_, ?_⟩
  · intro newer e older tx split op
    have mem : e ∈ cfg.shared.log := split ▸ List.mem_append_right newer List.mem_cons_self
    obtain ⟨id, -, h, -, -⟩ := (payments_holds run).inv.handedOver e mem tx op
    obtain ⟨i, stored, relayable, pays, e', mem', input, key, call, given, named, requested⟩ := handedOver_pays run split h
    exact ⟨relayable, id, i, h, stored, e', mem', input, key, call, given, named, requested.paid pays⟩
  · intro tid input saved e tx done mem h
    obtain ⟨-, requested, i, stored, continues⟩ := created_of_run run done
    obtain ⟨newer, older, split⟩ := List.append_of_mem mem
    obtain ⟨i', stored', -, pays, -⟩ := handedOver_pays run split h
    obtain rfl : i = i' := Option.some.inj (stored.symm.trans stored')
    obtain ⟨hash, status, updatedAt, rfl⟩ := continues
    exact requested.kept.paid pays
  · intro e e' id id' i i' tx tx' mem mem' h h' stored stored' same
    obtain rfl : id = id' := one_per_key run stored stored' same
    exact one_hash run mem mem' h h'

/-- A payment that is asked for twice under one key, in two notations, and paid. -/
def Sample.paidOnce : List (Scheduled Call Choice) :=
  let again : PaymentFields := { payment with amount := some (.str "2.0") }
  Sample.paid ++ [.start (.create ⟨again, some (.str "key")⟩), .act 2 (.now 4000), .act 2 (.uuid otherId), .act 2 (.done 0)]

theorem fulfilment_paidOnce : ∃ cfg, Sample.run false Sample.paidOnce = some cfg ∧
    (∃ e ∈ cfg.shared.log, HandsOver e Sample.intentId Sample.tx) ∧ Fulfilment (Sample.deployment false) cfg := by
  have ran : (Sample.run false Sample.paidOnce).any (fun cfg => ∃ e ∈ cfg.shared.log, HandsOver e Sample.intentId Sample.tx) = true := by
    decide +kernel
  obtain ⟨cfg, ran, submitted⟩ := (Option.any_eq_true _ _).1 ran
  have submitted : ∃ e ∈ cfg.shared.log, HandsOver e Sample.intentId Sample.tx := of_decide_eq_true submitted
  have run : Reachable (Sample.deployment false) cfg := reachable_of_run ran
  exact ⟨cfg, ran, submitted, fulfilment run⟩

end

end AfriPay.Payments
