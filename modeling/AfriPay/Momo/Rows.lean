import AfriPay.Momo.Charges

/-!
# Rows of `momo_transactions`

In SQL mode, whatever the order of the statements of any number of instances:
details never change, a status comes from a resource that speaks of the row, a
terminal row is never written again, and what `upsertStatus` returns is what the
row holds.
-/

namespace AfriPay.Momo
open Calls Discipline Text Storage Ledger

/-- A resource with the row's merchant reference and currency, and with its amount as a number. -/
structure SpeaksOf (resource : Json) (row : MomoRow) : Prop where
  externalId : resource.prop "externalId" = some (.str row.externalId)
  currency : resource.prop "currency" = some (.str row.currency)
  amount : toNumber (resource.prop "amount") = toDouble ((row.amount : ℚ) / 10 ^ 12)

/-- The record a call returns that `upsertStatus` has returned to it. -/
def upserted : Call → Returned → Option MomoTransactionRecord
  | .upsertStatus .., .found o => o
  | .collectionCallback _, .record r | .disbursementCallback _, .record r => some r
  | .getCollectionStatus _, .record r | .getDisbursementStatus _, .record r => some r
  | _, _ => none

/-- The details of a row stay. A step that changes status or reason, unless it is
of an `upsertStatus` called on its own, has a resource that speaks of the row and
came in a callback of its type or in the answer to a status query for it. A
terminal row stays as it is. A call that returns what `upsertStatus` returned
does so in a step after which the row has that status; what `reconcilePending`
has collected was terminal and still is, or was pending. -/
structure RowsSound (d : Deployment) (cfg : MomoRun) : Prop where
  details : ∀ cfg₂ referenceId row, (momo d).Steps cfg cfg₂ → Database.row cfg.shared.world.db referenceId = some row →
    ∃ row₂, Database.row cfg₂.shared.world.db referenceId = some row₂ ∧ row₂.type = row.type ∧ row₂.amount = row.amount ∧
      row₂.currency = row.currency ∧ row₂.externalId = row.externalId ∧ row₂.partyId = row.partyId
  written : ∀ cfg₁ e referenceId row row₁, (momo d).Step cfg cfg₁ → cfg₁.shared.log = e :: cfg.shared.log →
    Database.row cfg.shared.world.db referenceId = some row → Database.row cfg₁.shared.world.db referenceId = some row₁ →
    row₁.status ≠ row.status ∨ row₁.reason ≠ row.reason → (∀ status reason, e.call ≠ .upsertStatus referenceId status reason) →
    ∃ resource, Reported cfg.shared.log e.tid e.call row.type referenceId resource ∧ SpeaksOf resource row ∧
      statusOf (resource.prop "status") = some row₁.status ∧ row₁.reason = d.param (reasonOf (resource.prop "reason"))
  final : ∀ cfg₂ referenceId row, (momo d).Steps cfg cfg₂ → Database.row cfg.shared.world.db referenceId = some row →
    row.status.terminal = true → ∃ row₂, Database.row cfg₂.shared.world.db referenceId = some row₂ ∧
      row₂.status = row.status ∧ row₂.reason = row.reason
  returned : ∀ (cfg₁ : MomoRun) (tid : Nat) (c : Call) (op : Op) (next : op.Answer → MomoProg Returned) (a : Returned)
    (r : MomoTransactionRecord), (momo d).Step cfg cfg₁ → cfg.calls[tid]? = some (c, .act op next) →
    cfg₁.calls[tid]? = some (c, .ret a) → upserted c a = some r →
    ∃ row, Database.row cfg₁.shared.world.db r.referenceId = some row ∧ row.status = r.status
  reconciled : ∀ (tid : Nat) (rs : List MomoTransactionRecord) (r : MomoTransactionRecord),
    cfg.calls[tid]? = some (.reconcilePending, .ret (.records rs)) → r ∈ rs →
    ∃ row, Database.row cfg.shared.world.db r.referenceId = some row ∧ (row.status = r.status ∨ r.status = .pending)

section

variable {d : Deployment} {cfg cfg₁ : MomoRun}

/-- A stored record is that of a row. -/
theorem row_of_record {w : World} (pool : d.pool = true) {referenceId : String} {r : MomoTransactionRecord}
    (h : w.record d referenceId = some r) : ∃ row, Database.row w.db referenceId = some row ∧ row.record = r := by
  rw [w.record_pool pool] at h
  exact Option.map_eq_some_iff.1 h

theorem record_of_row {w : World} (pool : d.pool = true) {referenceId : String} {row : MomoRow}
    (h : Database.row w.db referenceId = some row) : w.record d referenceId = some row.record := by
  rw [w.record_pool pool]
  simp only [h, Option.map_some]

theorem JsNumber.eq_of_same {a b : JsNumber} (h : a.same b = true) : a = b := by
  unfold JsNumber.same at h
  split at h
  · cases h
  · exact of_decide_eq_true h

theorem speaksOf_of_sameDetails {resource : Json} {row : MomoRow} (h : sameDetails resource row.record = true) :
    SpeaksOf resource row := by
  simp only [sameDetails, sameNames, Bool.and_eq_true, isString_json_iff] at h
  obtain ⟨⟨externalId, currency⟩, amount⟩ := h
  refine ⟨externalId, currency, ?_⟩
  rw [JsNumber.eq_of_same amount]
  exact stringToNumber_fixedPoint (by decide) row.amount

/-- Only `persist` for this reference, outside a charge, changes the status or reason of a row. -/
theorem persist_of_change {s s' : MomoState} {tid : Nat} {c : Call} {op : Op} {ans : op.Answer} (inv : Inv d s)
    (just : Justified d s tid c op) (pool : d.pool = true) (exec : Momo.exec op s.world ans s'.world) {referenceId : String}
    {row row₁ : MomoRow} (here : Database.row s.world.db referenceId = some row)
    (after : Database.row s'.world.db referenceId = some row₁) (changed : row₁.status ≠ row.status ∨ row₁.reason ≠ row.reason) :
    ∃ v, op = .query (.persist v) ∧ v.referenceId = referenceId ∧ c.charges = false ∧ row₁.status = v.status ∧
      row₁.reason = v.reason := by
  have moved : row₁ ≠ row := by
    rintro rfl
    exact changed.elim (fun h => h rfl) fun h => h rfl
  rcases exec_rows exec with same | ⟨v, rfl, change⟩
  · rw [same, here] at after
    exact (moved (Option.some.inj after).symm).elim
  rcases change.origin after with before | ⟨absent, -⟩ | ⟨row₀, before, rfl, is⟩
  · rw [here] at before
    exact (moved (Option.some.inj before).symm).elim
  · rw [here] at absent
    cases absent
  · obtain rfl : row = row₀ := Option.some.inj (here.symm.trans before)
    split at is
    · refine ⟨v, rfl, rfl, ?_, by rw [is]; rfl, by rw [is]; rfl⟩
      cases charges : c.charges with
      | false => rfl
      | true =>
        have unused : s.world.record d v.referenceId = none := inv.unused just charges rfl
        rw [record_of_row pool here] at unused
        cases unused
    · exact (moved is).elim

/-- **Rows are sound** in SQL mode, in every reachable configuration. -/
theorem rows_sound (pool : d.pool = true) (run : Reachable d cfg) : RowsSound d cfg := by
  have holds := momo_holds run
  refine ⟨?details, ?written, ?final, ?returned, ?reconciled⟩
  case details =>
    intro cfg₂ referenceId row steps here
    obtain ⟨row₂, here₂, kept⟩ := (later_of_run run steps).rows referenceId row here
    refine ⟨row₂, here₂, ?_⟩
    rw [kept.details]
    exact ⟨rfl, rfl, rfl, rfl, rfl⟩
  case written =>
    intro cfg₁ e referenceId row row₁ step log here after changed indirect
    obtain ⟨does, just⟩ := justified_of_step holds step log
    obtain ⟨v, is, rfl, other, status, reason⟩ := persist_of_change holds.inv just pool does.1 here after changed
    obtain ⟨-, reason', written, sanctioned⟩ := just.updates v is other
    rcases sanctioned with told | ⟨resource, r, stored, reported, same, named, rfl⟩
    · exact (indirect _ _ told).elim
    · rw [record_of_row pool here] at stored
      obtain rfl := Option.some.inj stored
      exact ⟨resource, reported, speaksOf_of_sameDetails same, status ▸ named, reason.trans written⟩
  case final =>
    intro cfg₂ referenceId row steps here terminal
    obtain ⟨row₂, here₂, kept⟩ := (later_of_run run steps).rows referenceId row here
    obtain rfl := kept.final terminal
    exact ⟨row₂, here₂, rfl, rfl⟩
  case returned =>
    intro cfg₁ tid c op next a r step waiting done is
    have ensures := holds.returns step waiting done
    have inv₁ := (momo_holds (.tail run step)).inv
    have held : cfg₁.shared.world.record d r.referenceId = some r := by
      unfold upserted at is
      split at is
      · cases is
        have stored := (ensures pool).symm
        rwa [inv₁.keyed _ r stored]
      · cases is; exact ensures pool
      · cases is; exact ensures pool
      · cases is; exact ensures pool
      · cases is; exact ensures pool
      · cases is
    obtain ⟨row, here, rfl⟩ := row_of_record pool held
    exact ⟨row, here, rfl⟩
  case reconciled =>
    intro tid rs r done mem
    obtain ⟨s, later, ensures⟩ := Discipline.returned holds done
    obtain ⟨stored, held, -, final⟩ := ((ensures pool r mem).later pool later).stored
    obtain ⟨row, here, rfl⟩ := row_of_record pool held
    refine ⟨row, here, ?_⟩
    cases status : r.status with
    | pending => exact .inr rfl
    | successful => exact .inl (by rw [← status, ← final (by rw [status]; rfl)]; rfl)
    | failed => exact .inl (by rw [← status, ← final (by rw [status]; rfl)]; rfl)

/-- The collection is charged and a callback reports it successful. -/
theorem rows_sound_settled : ∃ cfg, Sample.run true (Sample.charged ++ [.start (.collectionCallback (Sample.resource "SUCCESSFUL")),
      .act 1 .done, .act 1 .done, .act 1 .done, .act 1 (.now 2000), .act 1 .done, .act 1 .done]) = some cfg ∧
    (Database.row cfg.shared.world.db Sample.referenceId).map (·.status) = some .successful ∧ RowsSound (Sample.deployment true) cfg := by
  have ran : (Sample.run true (Sample.charged ++ [.start (.collectionCallback (Sample.resource "SUCCESSFUL")),
      .act 1 .done, .act 1 .done, .act 1 .done, .act 1 (.now 2000), .act 1 .done, .act 1 .done])).any
      (fun cfg => (Database.row cfg.shared.world.db Sample.referenceId).map (·.status) = some .successful) = true := by
    decide +kernel
  obtain ⟨cfg, ran, settled⟩ := (Option.any_eq_true _ _).1 ran
  exact ⟨cfg, ran, of_decide_eq_true settled, rows_sound rfl (reachable_of_run ran)⟩

end

end AfriPay.Momo
