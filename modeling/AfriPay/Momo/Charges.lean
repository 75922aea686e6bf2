import AfriPay.Calls.Waiting
import AfriPay.Momo.Runs

/-!
# One charge for each merchant reference

However many requests for one reference overlap, fail and are repeated, the
provider hears of one charge, and it is the stored one.
-/

namespace AfriPay.Momo
open Calls Discipline Text Storage Ledger

/-- The record a deployment holds for a type and a merchant reference. -/
structure StoredFor (d : Deployment) (s : MomoState) (type : MomoTransactionType) (externalId : JsString)
    (r : MomoTransactionRecord) : Prop where
  stored : s.world.record d r.referenceId = some r
  type : r.type = type
  externalId : r.externalId = externalId

/-- The event posts a charge for this type and merchant reference. -/
def postsFor (type : MomoTransactionType) (externalId : JsString) (e : MomoEvent) : Bool :=
  e.op.posts.any fun request => request.type = type && request.externalId = externalId

/-- At most one POST for each type and merchant reference; it carries what the
one stored record of the two says, which was there before. A charge that returns
a record returns that one, and the details are those it was asked for. -/
structure OneCharge (d : Deployment) (cfg : MomoRun) : Prop where
  once : ∀ type externalId, (cfg.shared.log.filter (postsFor type externalId)).length ≤ 1
  single : ∀ type externalId r r', StoredFor d cfg.shared type externalId r → StoredFor d cfg.shared type externalId r' → r = r'
  charged : ∀ e ∈ cfg.shared.log, ∀ request, e.op.posts = some request →
    ∃ r, StoredFor d cfg.shared request.type request.externalId r ∧ r.referenceId = request.referenceId ∧ Charges false request r
  storedFirst : ∀ cfg₁ e request, (momo d).Step cfg cfg₁ → cfg₁.shared.log = e :: cfg.shared.log → e.op.posts = some request →
    ∃ r, StoredFor d cfg.shared request.type request.externalId r ∧ r.referenceId = request.referenceId ∧ Charges false request r
  returned : ∀ (tid : Nat) (c : Call) (type : MomoTransactionType) (dto : ChargeDto) (r : MomoTransactionRecord),
    cfg.calls[tid]? = some (c, .ret (.record r)) → c.dto = .ok (type, dto) →
    ∃ stored, StoredFor d cfg.shared type dto.externalId stored ∧ SameCharge false r stored ∧ r.currency = dto.currency ∧
      r.partyId = dto.partyId ∧ decimalValue r.amount = decimalValue dto.amount ∧
      ((∀ e ∈ cfg.shared.log, e.call.charges = true) → r.status = stored.status ∧ r.reason = stored.reason)

/-- The store keeps the merchant reference of a charge as it is: a text column
has no half of a surrogate pair. -/
def Call.Whole (d : Deployment) (c : Call) : Prop :=
  d.pool = true → ∀ type dto, c.dto = .ok (type, dto) → dto.externalId.isWellFormed = true

section

variable {d : Deployment} {s : MomoState} {cfg : MomoRun}

theorem Inv.storedFor (inv : Inv d s) {request : ChargeRequest} {r : MomoTransactionRecord}
    (here : s.world.record d request.referenceId = some r) (charges : Charges d.pool request r) :
    StoredFor d s request.type (keptText d.pool request.externalId) r ∧ r.referenceId = request.referenceId := by
  have key := inv.keyed _ r here
  exact ⟨⟨by rw [key, here], charges.type.symm, charges.externalId.symm⟩, key⟩

/-- What the provider is asked for under a reference that is kept as it is. -/
theorem Inv.chargedFor (inv : Inv d s) {c : Call} (whole : c.Whole d) {request : ChargeRequest} (asks : c.Asks request)
    {r : MomoTransactionRecord} (here : s.world.record d request.referenceId = some r) (charges : Charges d.pool request r) :
    StoredFor d s request.type request.externalId r ∧ r.referenceId = request.referenceId ∧ Charges false request r := by
  obtain ⟨dto, asked, same⟩ := asks
  have exact' : keptText d.pool request.externalId = request.externalId :=
    keptText_eq_self fun pool => same ▸ whole pool _ _ asked
  obtain ⟨stored, key⟩ := inv.storedFor here charges
  rw [exact'] at stored
  refine ⟨stored, key, charges.type, charges.amount, charges.currency, ?_, charges.partyId⟩
  rw [keptText_memory, ← charges.externalId, exact']

theorem Inv.single (inv : Inv d s) {type : MomoTransactionType} {externalId : JsString} {r r' : MomoTransactionRecord}
    (h : StoredFor d s type externalId r) (h' : StoredFor d s type externalId r') : r = r' := by
  have pair : r.pair = r'.pair := by simp [h.type, h'.type, h.externalId, h'.externalId]
  have same := inv.unique _ _ r r' h.stored h'.stored pair
  exact Option.some.inj (h.stored.symm.trans (same ▸ h'.stored))

/-- Two posts for one pair would be two posts of one record. -/
theorem Inv.once_for (inv : Inv d s) (type : MomoTransactionType) (externalId : JsString) :
    (s.log.filter (postsFor type externalId)).length ≤ 1 := by
  have posts : ∀ e ∈ s.log.filter (postsFor type externalId), ∃ r,
      StoredFor d s type (keptText d.pool externalId) r ∧ posted e = some r.referenceId := by
    intro e mem
    obtain ⟨mem, sent⟩ := List.mem_filter.1 mem
    obtain ⟨request, is, pair⟩ := (Option.any_eq_true _ _).1 sent
    simp only [Bool.and_eq_true, decide_eq_true_eq] at pair
    obtain ⟨-, r, here, charges⟩ := inv.charged e mem request is
    obtain ⟨stored, key⟩ := inv.storedFor here charges
    refine ⟨r, pair.1 ▸ pair.2 ▸ stored, ?_⟩
    rw [posted, is, key]
    rfl
  have once := inv.once.filter (postsFor type externalId)
  rcases found : s.log.filter (postsFor type externalId) with _ | ⟨e, _ | ⟨e', rest⟩⟩
  · exact Nat.zero_le 1
  · exact le_refl 1
  · rw [found] at posts once
    obtain ⟨r, stored, sent⟩ := posts e (by simp)
    obtain ⟨r', stored', sent'⟩ := posts e' (by simp)
    rw [inv.single stored' stored] at sent'
    exact ((List.pairwise_cons.1 once).1 e' (by simp) _ sent sent').elim

/-- What a charge has established when it returns a record. -/
theorem Ensures.charge {c : Call} {type : MomoTransactionType} {dto : ChargeDto} {r : MomoTransactionRecord}
    (h : Ensures d c (.record r) s) (is : c.dto = .ok (type, dto)) : ReturnsCharge d type dto r s := by
  cases c with
  | requestToPay body =>
    obtain ⟨dto', ok, returns⟩ := h
    rw [Call.dto, ok] at is
    obtain ⟨rfl, rfl⟩ := Prod.mk.inj (Except.ok.inj is)
    exact returns
  | transfer body =>
    obtain ⟨dto', ok, returns⟩ := h
    rw [Call.dto, ok] at is
    obtain ⟨rfl, rfl⟩ := Prod.mk.inj (Except.ok.inj is)
    exact returns
  | _ => cases is

/-- **One charge for each merchant reference**, in every run whose charges the
store keeps under the reference they came with. -/
theorem one_charge (run : Reachable d cfg) (whole : ∀ c ∈ cfg.calls, c.1.Whole d) : OneCharge d cfg := by
  have holds := momo_holds run
  have inv := holds.inv
  refine ⟨inv.once_for, fun _ _ _ _ => inv.single, ?_, ?_, ?_⟩
  · intro e mem request posts
    obtain ⟨asks, r, here, charges⟩ := inv.charged e mem request posts
    obtain ⟨p, called⟩ := System.logged_call run mem
    exact ⟨r, inv.chargedFor (whole _ (List.mem_of_getElem? called)) asks here charges⟩
  · intro cfg₁ e request step log posts
    obtain ⟨does, just⟩ := justified_of_step holds step log
    obtain ⟨⟨asks, r, here, charges⟩, -⟩ := just.posts request (Op.post_of_posts posts)
    obtain ⟨next, waiting, -, -⟩ := step.logged log
    exact ⟨r, inv.chargedFor (whole _ (List.mem_of_getElem? waiting)) asks here charges⟩
  · intro tid c type dto r done is
    obtain ⟨s, later, ensures⟩ := Discipline.returned holds done
    have returns := Ensures.charge ensures is
    have exact' : keptText d.pool dto.externalId = dto.externalId :=
      keptText_eq_self fun pool => whole _ (List.mem_of_getElem? done) pool _ _ is
    have externalId : r.externalId = dto.externalId := returns.externalId.elim id (·.trans exact')
    obtain ⟨stored₀, here₀, same, new⟩ := returns.stored
    obtain ⟨stored, here, kept⟩ := later.records _ stored₀ here₀
    have same := same.kept kept
    have stays : stored.externalId = dto.externalId := by rw [← same.externalId, externalId, exact']
    refine ⟨stored, ⟨?_, ?_, stays⟩, ⟨same.referenceId, same.type, same.amount, same.currency, externalId.trans stays.symm, same.partyId⟩,
      returns.currency, returns.partyId, returns.amount, fun charges => ?_⟩
    · rw [← same.referenceId, here]
    · rw [← same.type, returns.type]
    -- only charges have run, so the record is as it was stored
    · rcases inv.untouched _ stored here with ⟨pending, reason⟩ | ⟨e, mem, other⟩
      · rcases new with ⟨pending', reason'⟩ | ⟨e, mem, other⟩
        · exact ⟨pending'.trans pending.symm, reason'.trans reason.symm⟩
        · rw [charges e (later.log.mem mem)] at other
          cases other
      · rw [charges e mem] at other
        cases other

/-- The configuration a schedule of the sample deployment leads to is reachable. -/
theorem reachable_of_run {pool : Bool} {xs : List (Scheduled Call Choice)} {cfg : MomoRun} (h : Sample.run pool xs = some cfg) :
    Reachable (Sample.deployment pool) cfg :=
  System.replay_steps effect_exec h

/-- The merchant references of the charges of a configuration are of whole characters. -/
def Sample.areWhole (cfg : MomoRun) : Bool := cfg.calls.all fun c =>
  match c.1.dto with
  | .ok (_, dto) => dto.externalId.isWellFormed
  | .error _ => true

theorem whole_of_areWhole {cfg : MomoRun} (whole : Sample.areWhole cfg = true) : ∀ c ∈ cfg.calls, c.1.Whole d := by
  intro c mem _ type dto is
  have one := List.all_eq_true.1 whole c mem
  rwa [is] at one

theorem one_charge_charged : ∃ cfg, Sample.run true Sample.charged = some cfg ∧
    (cfg.shared.log.filter (postsFor .collection "order")).length = 1 ∧ OneCharge (Sample.deployment true) cfg := by
  have ran : (Sample.run true Sample.charged).any (fun cfg => Sample.areWhole cfg &&
      decide ((cfg.shared.log.filter (postsFor .collection "order")).length = 1)) = true := by
    decide +kernel
  obtain ⟨cfg, ran, both⟩ := (Option.any_eq_true _ _).1 ran
  obtain ⟨whole, charged⟩ := Bool.and_eq_true_iff.1 both
  exact ⟨cfg, ran, of_decide_eq_true charged, one_charge (reachable_of_run ran) (whole_of_areWhole whole)⟩

/-- With a database, a collection under U+D800, which is posted, and another under U+D801. -/
def Sample.halves : List (Scheduled Call Choice) :=
  [.start (.requestToPay (bodyFor (.ofUnits [0xD800]))), .act 0 .done, .act 0 (.uuid referenceId), .act 0 (.now 1000),
   .act 0 (.now 1000), .act 0 .done, .act 0 (.token (.ok "token")), .act 0 (.posted (some 202)),
   .start (.requestToPay (bodyFor (.ofUnits [0xD801]))), .act 1 .done]

/-- The second call has returned the record of this reference id. -/
def Sample.mistaken (referenceId : String) (cfg : MomoRun) : Bool :=
  match (cfg.calls[1]? : Option (Call × MomoProg Returned)) with
  | some (_, .ret (.record r)) => r.referenceId = referenceId
  | _ => false

/-- Both stand under U+FFFD: no record has the reference that was posted, and the
second request is answered with the first one's record. -/
theorem charge_mistaken : ∃ cfg, Sample.run true Sample.halves = some cfg ∧
    (∃ c r, cfg.calls[1]? = some (c, .ret (.record r)) ∧ r.referenceId = Sample.referenceId) ∧ ¬OneCharge (Sample.deployment true) cfg := by
  have ran : (Sample.run true Sample.halves).any (fun cfg =>
      (cfg.shared.log.any fun e => e.op.posts.any fun request => decide (request.externalId = .ofUnits [0xD800])) &&
        Sample.mistaken Sample.referenceId cfg) = true := by
    decide +kernel
  obtain ⟨cfg, ran, both⟩ := (Option.any_eq_true _ _).1 ran
  obtain ⟨sent, answered⟩ := Bool.and_eq_true_iff.1 both
  refine ⟨cfg, ran, ?_, fun one => ?_⟩
  · unfold Sample.mistaken at answered
    split at answered
    · rename_i c r returned
      exact ⟨c, r, returned, of_decide_eq_true answered⟩
    · cases answered
  · obtain ⟨e, mem, posts⟩ := List.any_eq_true.1 sent
    obtain ⟨request, is, half⟩ := (Option.any_eq_true _ _).1 posts
    obtain ⟨r, stored, -⟩ := one.charged e mem request is
    obtain ⟨row, -, same⟩ := Option.map_eq_some_iff.1 stored.stored
    have text := stored.externalId
    rw [of_decide_eq_true half, ← same] at text
    cases text

end

end AfriPay.Momo
