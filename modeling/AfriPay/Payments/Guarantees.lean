import AfriPay.Payments.Runs

/-!
# What the payment service guarantees

No payment is broadcast twice, and a final status has Horizon's word for it:
both for every run of a deployment, in memory or with a database.
-/

namespace AfriPay.Payments
open Calls Discipline Text Stellar Storage Ledger

/-- The intent `id` is stored with the hash of `tx`. -/
def StoresHash (d : Deployment) (s : PaymentState) (id : String) (tx : Transaction) : Prop :=
  ∃ i, s.world.intent d id = some i ∧ i.transactionHash = some (.str (toHex tx.hash))

section

variable {d : Deployment} {cfg cfg' : PaymentConfig}

theorem Inv.handsOver {s : PaymentState} (inv : Inv d s) {e : PaymentEvent} (mem : e ∈ s.log) {id : String} {tx : Transaction}
    (h : HandsOver e id tx) : ∃ entry, s.world.book d id = some entry ∧ entry.token = some (toHex tx.hash) := by
  obtain ⟨id', entry, h', here, held⟩ := inv.handedOver e mem tx (handsOver_iff.1 h).2
  obtain rfl : id = id' := congrArg Prod.fst (Option.some.inj (h.symm.trans h'))
  exact ⟨entry, here, held⟩

theorem storesHash_of_book {s : PaymentState} {id : String} {tx : Transaction} {entry : IntentEntry}
    (here : s.world.book d id = some entry) (held : entry.token = some (toHex tx.hash)) : StoresHash d s id tx := by
  obtain ⟨i, stored, rfl⟩ := intent_of_book here
  exact ⟨i, stored, IsHash.eq_of_hashText held⟩

theorem StoresHash.later {s s' : PaymentState} {id : String} {tx : Transaction} (h : StoresHash d s id tx)
    (later : Later d s s') : StoresHash d s' id tx := by
  obtain ⟨i, stored, hash⟩ := h
  obtain ⟨e', here, le⟩ := later.book id _ (book_of_intent stored)
  exact storesHash_of_book here (le.token _ (token_of_hash hash))

/-- The envelopes `submit` hands to Horizon for an intent have one hash, no hash
is handed over for two intents, and a hash is handed over only after it is
stored with the intent, where it stays. -/
structure NoDoubleBroadcast (d : Deployment) (cfg : PaymentConfig) : Prop where
  oneHash : ∀ e ∈ cfg.shared.log, ∀ e' ∈ cfg.shared.log, ∀ id tx tx', HandsOver e id tx → HandsOver e' id tx' →
    tx.hash = tx'.hash
  oneIntent : ∀ e ∈ cfg.shared.log, ∀ e' ∈ cfg.shared.log, ∀ id id' tx tx', HandsOver e id tx → HandsOver e' id' tx' →
    tx.hash = tx'.hash → id = id'
  storedFirst : ∀ cfg₁ e id tx, (payments d).Step cfg cfg₁ → cfg₁.shared.log = e :: cfg.shared.log → HandsOver e id tx →
    StoresHash d cfg.shared id tx ∧ ∀ cfg₂, (payments d).Steps cfg₁ cfg₂ → StoresHash d cfg₂.shared id tx

/-- **No double broadcast**, in every reachable configuration. -/
theorem no_double_broadcast (run : Reachable d cfg) : NoDoubleBroadcast d cfg := by
  have inv := (payments_holds run).inv
  refine ⟨?_, ?_, ?_⟩
  · intro e mem e' mem' id tx tx' h h'
    obtain ⟨entry, here, held⟩ := inv.handsOver mem h
    obtain ⟨entry', here', held'⟩ := inv.handsOver mem' h'
    obtain rfl : entry = entry' := Option.some.inj (here.symm.trans here')
    exact toHex_injective (Option.some.inj (held.symm.trans held'))
  · intro e mem e' mem' id id' tx tx' h h' same
    obtain ⟨entry, here, held⟩ := inv.handsOver mem h
    obtain ⟨entry', here', held'⟩ := inv.handsOver mem' h'
    exact inv.distinct id id' entry entry' _ here here' held (same ▸ held')
  · intro cfg₁ e id tx step log h
    obtain ⟨does, just⟩ := justified_of_step (payments_holds run) step log
    obtain ⟨⟨signedXdr, call⟩, submit⟩ := handsOver_iff.1 h
    obtain ⟨id', signedXdr', entry, call', here, held⟩ := just.submits tx submit
    obtain ⟨rfl, -⟩ := Call.submit.inj (call.symm.trans call')
    have before := storesHash_of_book here held
    refine ⟨before, fun cfg₂ steps => before.later ?_⟩
    exact later_of_run run (.head step steps)

/-- The configuration a schedule of the sample deployment leads to is reachable. -/
theorem reachable_of_run {pool : Bool} {xs : List (Scheduled Call Choice)} {cfg : PaymentConfig}
    (h : Sample.run pool xs = some cfg) : Reachable (Sample.deployment pool) cfg :=
  System.replay_steps (effect_exec (Sample.deployment pool)) h

theorem no_double_broadcast_paid : ∃ cfg, Sample.run false Sample.paid = some cfg ∧
    (∃ e ∈ cfg.shared.log, HandsOver e Sample.intentId Sample.tx) ∧ NoDoubleBroadcast (Sample.deployment false) cfg := by
  have ran : (Sample.run false Sample.paid).any (fun cfg => ∃ e ∈ cfg.shared.log, HandsOver e Sample.intentId Sample.tx) = true := by
    decide +kernel
  obtain ⟨cfg, ran, submitted⟩ := (Option.any_eq_true _ _).1 ran
  have submitted : ∃ e ∈ cfg.shared.log, HandsOver e Sample.intentId Sample.tx := of_decide_eq_true submitted
  have run : Reachable (Sample.deployment false) cfg := reachable_of_run ran
  exact ⟨cfg, ran, submitted, no_double_broadcast run⟩

/-- A final status is what Horizon answered for the stored hash, of an envelope
some `submit` had accepted for this very payment; a step writes a status only
as the `settle` of a verified one; and a final status never changes. -/
structure SettlementsSound (d : Deployment) (cfg : PaymentConfig) : Prop where
  evidence : ∀ id i, cfg.shared.world.intent d id = some i → i.status ≠ .pending → ∃ hash,
    i.transactionHash = some (.str hash) ∧ Accepted d cfg.shared.log id i.toNativePayment hash ∧
      Verified cfg.shared.log hash i.status
  written : ∀ cfg₁ e id i i₁, (payments d).Step cfg cfg₁ → cfg₁.shared.log = e :: cfg.shared.log →
    cfg.shared.world.intent d id = some i → cfg₁.shared.world.intent d id = some i₁ → i₁.status ≠ i.status →
    ∃ hash, e.op.move = .settled id hash i₁.status ∧ Verified cfg.shared.log hash i₁.status
  final : ∀ cfg₂ id i, (payments d).Steps cfg cfg₂ → cfg.shared.world.intent d id = some i → i.status ≠ .pending →
    ∃ i₂, cfg₂.shared.world.intent d id = some i₂ ∧ i₂.status = i.status ∧ i₂.transactionHash = i.transactionHash

/-- **Settlements are sound**, in every reachable configuration. -/
theorem settlement_sound (run : Reachable d cfg) : SettlementsSound d cfg := by
  have inv := (payments_holds run).inv
  have settled : ∀ id i, cfg.shared.world.intent d id = some i → i.status ≠ .pending →
      ∃ hash, i.entry.token = some hash ∧ Verified cfg.shared.log hash i.status :=
    fun id i stored h => inv.verified id _ _ (book_of_intent stored) (outcome_of_final h)
  refine ⟨?_, ?_, ?_⟩
  · intro id i stored h
    obtain ⟨hash, held, verified⟩ := settled id i stored h
    have accepted : Accepted d cfg.shared.log id i.entry.details hash := inv.accepted id i.entry hash (book_of_intent stored) held
    exact ⟨hash, IsHash.eq_of_hashText held, accepted, verified⟩
  · intro cfg₁ e id i i₁ step log stored stored₁ changed
    obtain ⟨does, just⟩ := justified_of_step (payments_holds run) step log
    obtain ⟨-, may⟩ := exec_may inv.sound (inv.proper just) does.1
    have le := may.le id _ (book_of_intent stored)
    obtain ⟨e', here, le⟩ := le
    obtain rfl : i₁.entry = e' := Option.some.inj ((book_of_intent stored₁).symm.trans here)
    have was : i.status = .pending := by
      by_contra h
      exact changed (entry_final (le.outcome _ (outcome_of_final h))).2
    have is : i₁.status ≠ .pending := fun h => changed (h.trans was.symm)
    rcases may.outcome_origin (book_of_intent stored₁) (outcome_of_final is) with ⟨e₀, before, outcome⟩ | ⟨hash, move, -⟩
    · obtain rfl : i.entry = e₀ := Option.some.inj ((book_of_intent stored).symm.trans before)
      exact ((entry_final outcome).1 (by rw [← (entry_final outcome).2, was])).elim
    · exact ⟨hash, move, just.settles id hash _ move is⟩
  · intro cfg₂ id i steps stored h
    obtain ⟨hash, held, -⟩ := settled id i stored h
    obtain ⟨e', here, le⟩ := (later_of_run run steps).book id _ (book_of_intent stored)
    obtain ⟨i₂, stored₂, rfl⟩ := intent_of_book here
    refine ⟨i₂, stored₂, (entry_final (le.outcome _ (outcome_of_final h))).2, ?_⟩
    rw [IsHash.eq_of_hashText held, IsHash.eq_of_hashText (le.token _ held)]

theorem settlement_sound_paid : ∃ cfg, Sample.run false Sample.paid = some cfg ∧
    (cfg.shared.world.intent (Sample.deployment false) Sample.intentId).map (·.status) = some .succeeded ∧
    SettlementsSound (Sample.deployment false) cfg := by
  have ran : (Sample.run false Sample.paid).any (fun cfg =>
      (cfg.shared.world.intent (Sample.deployment false) Sample.intentId).map (·.status) = some .succeeded) = true := by
    decide +kernel
  obtain ⟨cfg, ran, paid⟩ := (Option.any_eq_true _ _).1 ran
  have paid : (cfg.shared.world.intent (Sample.deployment false) Sample.intentId).map (·.status) = some .succeeded := of_decide_eq_true paid
  have run : Reachable (Sample.deployment false) cfg := reachable_of_run ran
  exact ⟨cfg, ran, paid, settlement_sound run⟩

end

end AfriPay.Payments
