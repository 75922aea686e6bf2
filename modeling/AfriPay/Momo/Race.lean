import AfriPay.Momo.Charges

/-!
# Status updates that overtake each other in memory mode

`upsertStatus` decides on the record it has read and writes after two awaits,
without a second look. A terminal status is therefore kept as long as no other
call moves the record in between to a status other than the one being written
(`terminal_kept`), and lost otherwise (`terminal_lost`). The `WHERE` clause of
SQL mode is what memory mode lacks.
-/

namespace AfriPay.Momo
open Calls Discipline Text Storage Ledger

/-- A terminal status, once stored, stays. -/
def TerminalStays (d : Deployment) (cfg cfg' : MomoRun) : Prop :=
  ∀ referenceId r, cfg.shared.world.record d referenceId = some r → r.status.terminal = true →
    ∃ r', cfg'.shared.world.record d referenceId = some r' ∧ r'.status = r.status

/-- At a write of `upsertStatus`, the stored status is the one its call has
read, or the one it writes. -/
def undisturbed (s : MomoState) (e : MomoEvent) : Bool :=
  match e.op with
  | .memory (.set referenceId r) => (s.world.memory.get referenceId).all fun stored =>
      (lastRead s e.tid referenceId).any (fun read => stored.status = read.status) || decide (stored.status = r.status)
  | _ => true

/-- A run all of whose writes are undisturbed. -/
abbrev Undisturbed (d : Deployment) : MomoRun → MomoRun → Prop :=
  Relation.ReflTransGen fun cfg cfg₁ => (momo d).Step cfg cfg₁ ∧
    ∀ e, cfg₁.shared.log = e :: cfg.shared.log → undisturbed cfg.shared e = true

section

variable {d : Deployment} {cfg cfg' cfg₁ : MomoRun}

theorem Undisturbed.steps (h : Undisturbed d cfg cfg') : (momo d).Steps cfg cfg' :=
  Relation.ReflTransGen.mono (fun _ _ step => step.1) _ _ h

/-- An undisturbed write of a disciplined call keeps a terminal status. -/
theorem set_keeps {s : MomoState} {e : MomoEvent} {referenceId : String} {r r' : MomoTransactionRecord}
    (memory : d.pool = false) (just : Justified d s e.tid e.call e.op) (undisturbed' : undisturbed s e = true)
    (set : e.op = .memory (.set referenceId r')) (here : s.world.record d referenceId = some r)
    (terminal : r.status.terminal = true) : r'.status = r.status := by
  obtain ⟨-, -, -, read, last, keeps⟩ := just.sets referenceId r' set
  rw [s.world.record_memory (by simp [memory])] at here
  simp only [undisturbed, set, here, last, Option.all_some, Option.any_some, Bool.or_eq_true, decide_eq_true_eq] at undisturbed'
  rcases undisturbed' with same | same
  · rw [same]
    exact keeps (same ▸ terminal)
  · exact same.symm

/-- One step of an undisturbed run. -/
theorem terminal_step (memory : d.pool = false) (holds : (discipline d).protocol.Holds (fun _ => Ensures d) cfg)
    (step : (momo d).Step cfg cfg₁) (good : ∀ e, cfg₁.shared.log = e :: cfg.shared.log → undisturbed cfg.shared e = true) :
    TerminalStays d cfg cfg₁ := by
  intro referenceId r here terminal
  rcases holds.guar step with same | ⟨e, does, later, just⟩
  · exact ⟨r, by rw [same, here], rfl⟩
  · obtain ⟨r', here', -⟩ := later.records referenceId r here
    refine ⟨r', here', ?_⟩
    rcases (exec_change does.1 holds.inv.keyed (holds.inv.proper just)).origin here' with before | ⟨fresh, -⟩ | ⟨r₀, before, revises⟩
    · rw [Option.some.inj (here.symm.trans before)]
    · rw [here] at fresh
      cases fresh
    · obtain rfl : r = r₀ := Option.some.inj (here.symm.trans before)
      rcases revises with ⟨-, set⟩ | ⟨pool, -⟩
      · exact set_keeps memory just (good e does.2) set here terminal
      · rw [memory] at pool
        cases pool

/-- **A terminal status stays** in memory mode, in every state of an undisturbed run. -/
theorem terminal_kept (memory : d.pool = false) (start : Undisturbed d (.initial .empty) cfg) (run : Undisturbed d cfg cfg') :
    TerminalStays d cfg cfg' := by
  induction run with
  | refl => exact fun _ r here _ => ⟨r, here, rfl⟩
  | @tail mid last run step ih =>
    intro referenceId r here terminal
    obtain ⟨r₁, here₁, same⟩ := ih referenceId r here terminal
    have holds := momo_holds (start.steps.trans (Undisturbed.steps run))
    obtain ⟨r₂, here₂, same'⟩ := terminal_step memory holds step.1 step.2 referenceId r₁ here₁ (same ▸ terminal)
    exact ⟨r₂, here₂, same'.trans same⟩

end

namespace Sample

/-- Two callbacks for one pending collection, `second` after `first`, segment by segment in turn. -/
def callbacks (first second : String) : List (Scheduled Call Choice) :=
  charged ++ [.start (.collectionCallback (resource first)), .start (.collectionCallback (resource second)),
    .act 1 .done, .act 2 .done, .act 1 .done, .act 2 .done, .act 1 .done, .act 2 .done, .act 1 (.now 2000), .act 2 (.now 2000),
    .act 1 .done]

/-- The status of the collection. -/
def status (cfg : MomoRun) : Option MomoTransactionStatus :=
  (cfg.shared.world.record (deployment false) referenceId).map (·.status)

/-- The step of the second callback that is still to come. -/
def overtake : MomoRun → Option MomoRun := (momo (deployment false)).replay effect [.act 2 .done]

end Sample

/-- A callback that has read the record before another wrote `SUCCESSFUL` writes `PENDING` over it. -/
theorem terminal_lost : ¬ ∀ cfg cfg', Reachable (Sample.deployment false) cfg →
    (momo (Sample.deployment false)).Steps cfg cfg' → TerminalStays (Sample.deployment false) cfg cfg' := by
  intro stays
  have ran : (Sample.run false (Sample.callbacks "SUCCESSFUL" "PENDING")).any (fun cfg =>
      (Sample.status cfg = some .successful) ∧ (Sample.overtake cfg).any fun cfg' => Sample.status cfg' = some .pending) = true := by
    decide +kernel
  obtain ⟨cfg, ran, both⟩ := (Option.any_eq_true _ _).1 ran
  obtain ⟨successful, later⟩ := of_decide_eq_true both
  obtain ⟨cfg', overtook, pending⟩ := (Option.any_eq_true _ _).1 later
  obtain ⟨r, here, status⟩ := Option.map_eq_some_iff.1 successful
  obtain ⟨r', here', same⟩ := stays cfg cfg' (reachable_of_run ran) (System.replay_steps effect_exec overtook) Sample.referenceId r here
    (by rw [status]; rfl)
  have pending : Sample.status cfg' = some .pending := of_decide_eq_true pending
  rw [Sample.status, here', Option.map_some, same, status] at pending
  cases pending

/-- Whether the operation of a step is undisturbed; starting a call is no operation. -/
def checkStep (cfg cfg₁ : MomoRun) : Bool :=
  match cfg₁.shared.log with
  | e :: _ => undisturbed cfg.shared e
  | [] => true

theorem undisturbed_of_checked {pool : Bool} {xs : List (Scheduled Call Choice)} {cfg cfg' : MomoRun}
    (h : (momo (Sample.deployment pool)).replayChecked effect checkStep xs cfg = some cfg') :
    Undisturbed (Sample.deployment pool) cfg cfg' := by
  refine Relation.ReflTransGen.mono ?_ _ _ (System.replayChecked_steps effect_exec h)
  intro a b step
  refine ⟨step.1, fun e log => ?_⟩
  have good := step.2
  rwa [checkStep, log] at good

/-- Two callbacks that both write `SUCCESSFUL` do not disturb each other. -/
theorem terminal_kept_twice : ∃ cfg cfg', Sample.status cfg = some .successful ∧
    cfg'.shared.log.length = cfg.shared.log.length + 1 ∧ TerminalStays (Sample.deployment false) cfg cfg' := by
  have ran : ((momo (Sample.deployment false)).replayChecked effect checkStep (Sample.callbacks "SUCCESSFUL" "SUCCESSFUL")
      (.initial .empty)).any (fun cfg => Sample.status cfg = some .successful ∧
        ((momo (Sample.deployment false)).replayChecked effect checkStep [.act 2 .done] cfg).any fun cfg' =>
          cfg'.shared.log.length = cfg.shared.log.length + 1) = true := by
    decide +kernel
  obtain ⟨cfg, ran, both⟩ := (Option.any_eq_true _ _).1 ran
  obtain ⟨successful, later⟩ := of_decide_eq_true both
  obtain ⟨cfg', wrote, longer⟩ := (Option.any_eq_true _ _).1 later
  exact ⟨cfg, cfg', successful, of_decide_eq_true longer,
    terminal_kept rfl (undisturbed_of_checked ran) (undisturbed_of_checked wrote)⟩

end AfriPay.Momo
