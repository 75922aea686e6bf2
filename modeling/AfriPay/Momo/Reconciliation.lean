import AfriPay.Momo.Charges
import AfriPay.Momo.Interchange

/-!
# What a reconciliation settles

`reconcilePending` asks the provider for every pending record and stores what it
hears. Whatever becomes of one record, a refused token, no answer, a wrong one or
a reason that the table cannot hold, the others are treated as if it were not
there.
-/

namespace AfriPay.Momo
open Calls Text Storage MomoTransactionStore

/-! ## Rows that can be written again -/

theorem pgChar_again {k : Nat} {s c : String} (h : pgChar k s = .ok c) : pgChar k c = .ok c := by
  obtain ⟨short, h⟩ := else_ok h
  have padded : c = String.ofList (s.toList ++ List.replicate (k - s.length) ' ') := (Except.ok.inj h).symm
  have length : c.length = k := by
    rw [padded, String.length_ofList, List.length_append, List.length_replicate, String.length_toList]
    omega
  unfold pgChar
  rw [length, if_neg (lt_irrefl k), Nat.sub_self, List.replicate_zero, List.append_nil, String.ofList_toList]

theorem pgNumeric_lt {s : String} {n : Nat} (h : pgNumeric s = .ok n) : n < 10 ^ 30 := by
  unfold pgNumeric at h
  split at h
  · rename_i numeral
    rw [← Except.ok.inj h]
    exact scaledValue_lt numeral (le_refl 12)
  · cases h

/-- What `persist` has accepted. -/
theorem Database.persist_accepts {db db' : Database} {v : MomoValues} {rows : List MomoRow} (h : Database.persist db v = .ok (rows, db')) :
    isUuid v.referenceId = true ∧ (∀ t ∈ v.texts, pgText t = true) ∧ ∀ amount, pgNumeric v.amount = .ok amount → amount ≠ 0 := by
  obtain ⟨_, uuid, h⟩ := bind_ok h
  obtain ⟨_, texts, h⟩ := bind_ok h
  obtain ⟨amount', numeric', h⟩ := bind_ok h
  obtain ⟨_, -, h⟩ := bind_ok h
  obtain ⟨_, positive, -⟩ := bind_ok h
  refine ⟨assertUuid_ok.1 uuid, assertTexts_ok_iff.1 texts, fun amount numeric => ?_⟩
  obtain rfl : amount' = amount := Except.ok.inj (numeric'.symm.trans numeric)
  unfold checkPositive at positive
  split at positive
  · cases positive
  · assumption

/-- The rows of a table can all be written as they are read. -/
def AllStorable (db : Database) : Prop := ∀ referenceId row, Database.row db referenceId = some row → row.Storable

theorem AllStorable.persist {db db' : Database} {v : MomoValues} {rows : List MomoRow} (all : AllStorable db)
    (h : Database.persist db v = .ok (rows, db')) : AllStorable db' := by
  obtain ⟨uuid, texts, positive⟩ := Database.persist_accepts h
  intro referenceId row after
  rcases Database.persist_cases h with ⟨row', opens, -, -, rows⟩ | ⟨row', row'', here, revises, rows⟩
  · rw [rows, Function.update_apply] at after
    split at after
    · obtain ⟨-, amount, currency, numeric, char, rfl⟩ := opens
      obtain rfl := Option.some.inj after
      exact ⟨uuid, texts, ⟨positive amount numeric, pgNumeric_lt numeric⟩, pgChar_again char⟩
    · exact all referenceId row after
  · rw [rows, Function.update_apply] at after
    split at after
    · obtain rfl := Option.some.inj after
      have storable := all _ row' here
      rw [revises.2]
      split
      · refine ⟨storable.uuid, fun t mem => ?_, storable.amount, storable.currency⟩
        rcases List.mem_append.1 mem with mem | mem
        · exact storable.texts t (List.mem_append_left _ mem)
        · exact texts t (List.mem_append_right _ mem)
      · exact storable
    · exact all referenceId row after

theorem AllStorable.run {db db' : Database} {s : Statement} {rows : List MomoRow} (all : AllStorable db) (h : s.run db = .ok (rows, db')) :
    AllStorable db' := by
  cases s with
  | selectByReference referenceId => obtain ⟨_, -, h⟩ := bind_ok h; cases h; exact all
  | selectByExternalId externalId type => obtain ⟨_, -, h⟩ := bind_ok h; cases h; exact all
  | selectPending => cases h; exact all
  | persist v => exact all.persist h

theorem AllStorable.exec {op : Op} {w w' : World} {ans : op.Answer} (all : AllStorable w.db) (h : exec op w ans w') : AllStorable w'.db := by
  cases op with
  | query s =>
    obtain ⟨db, queried, rfl⟩ := h
    cases queried with
    | ran ok => exact all.run ok
    | unanswered ok => exact all.run ok
    | refused failed => exact all
    | unreached => exact all
  | randomUUID => rw [h.2.2]; exact all
  | memory op => obtain ⟨m, -, rfl⟩ := h; exact all
  | dateNow | getToken | post | get => rw [show w' = w from h]; exact all

theorem storable_of_run {d : Deployment} {cfg : MomoRun} (run : Reachable d cfg) : AllStorable cfg.shared.world.db := by
  induction run with
  | refl => intro referenceId row here; cases here
  | tail _ step ih =>
    cases step with
    | start c => exact ih
    | act waiting does => exact ih.exec does.1

/-! ## One refresh -/

/-- To ask for a token or a status stores nothing here. -/
structure Still (elsewhere : Outside Op Op.Answer World) : Prop where
  token : ∀ n product w, (elsewhere n (.getToken product) w).2 = w
  status : ∀ n request w, (elsewhere n (.get request) w).2 = w

/-- The token that is handed out. -/
def tokenFrom (elsewhere : Outside Op Op.Answer World) (n : Nat) (type : MomoTransactionType) (w : World) : Except Exception String :=
  (elsewhere n (.getToken type) w).1

/-- What the provider answers to a status query. -/
def answerFrom (elsewhere : Outside Op Op.Answer World) (n : Nat) (request : StatusRequest) (w : World) : Option StatusResponse :=
  (elsewhere n (.get request) w).1

/-- What is heard of a record, asking from the `n`-th operation on: a status and a reason, or why there is none. -/
def hear (d : Deployment) (elsewhere : Outside Op Op.Answer World) (r : MomoTransactionRecord) (n : Nat) (w : World) :
    Except Exception (MomoTransactionStatus × Option Json) := do
  let config ← getMomoConfig d
  let token ← tokenFrom elsewhere n r.type w
  let request : StatusRequest :=
    ⟨r.type, config.baseUrl ++ MomoService.chargePath r.type ++ "/" ++ r.referenceId, r.referenceId, token⟩
  let resource ← MomoService.resourceOf r.type (answerFrom elsewhere (n + 1) request w)
  let status ← validateResource resource (some r)
  return (status, reasonOf (resource.prop "reason"))

/-- What the store makes of what is heard. A table keeps the text of a reason, and cannot hold a NUL. -/
def kept (d : Deployment) (r : MomoTransactionRecord) (heard : Except Exception (MomoTransactionStatus × Option Json)) (now : Timestamp) :
    Option MomoTransactionRecord :=
  match heard with
  | .error _ => none
  | .ok (status, reason) =>
    if d.pool then
      if (d.param reason).all pgText then
        some { r with status, reason := ((d.param reason).filter (· ≠ "")).map .str, updatedAt := throughDateText now }
      else none
    else some (patched r status reason now)

/-- What is stored is stored under its name, and can be written again. -/
structure Stocked (d : Deployment) (w : World) : Prop where
  keyed : ∀ referenceId r, w.record d referenceId = some r → r.referenceId = referenceId
  storable : AllStorable w.db

section Refresh

variable {d : Deployment} {clock : Nat → Timestamp} {elsewhere : Outside Op Op.Answer World} {n : Nat} {w : World}
  {r : MomoTransactionRecord} {referenceId : String}

theorem World.record_row (pool : d.pool = true) : w.record d referenceId = (Database.row w.db referenceId).map MomoRow.record :=
  congrFun (w.record_pool pool) referenceId

theorem World.record_get (memory : d.pool = false) : w.record d referenceId = w.memory.get referenceId :=
  congrFun (w.record_memory (Bool.eq_false_iff.1 memory)) referenceId

theorem run_find (stocked : Stocked d w) (here : w.record d referenceId = some r) :
    (find d referenceId).run (answers clock elsewhere) n w = (.ok (some r), n + 1, w) := by
  cases pool : d.pool with
  | false =>
    rw [World.record_get pool] at here
    have is : d = d.withPool false := by rw [← pool]; rfl
    rw [is, run_find_memory, here]
  | true =>
    rw [World.record_row pool] at here
    obtain ⟨row, there, -⟩ := Option.map_eq_some_iff.1 here
    have plain : pgText referenceId = true := by
      rw [← Database.row_referenceId there]
      exact pgText_of_isUuid (stocked.storable _ row there).uuid
    have is : d = d.withPool true := by rw [← pool]; rfl
    rw [is, run_find_pool plain, here]

/-- A refresh has stored and returned a record, or has thrown and left everything as it was. -/
def Settles (d : Deployment) (w : World) (r : MomoTransactionRecord) (after : Option MomoTransactionRecord)
    (result : Except Exception MomoTransactionRecord) (w' : World) : Prop :=
  match after with
  | none => (∃ e, result = .error e) ∧ w' = w
  | some r' => result = .ok r' ∧ r'.referenceId = r.referenceId ∧ w'.record d = Function.update (w.record d) r.referenceId (some r') ∧
      Stocked d w'

theorem Stocked.written {w' : World} {r' : MomoTransactionRecord} (stocked : Stocked d w) (key : r'.referenceId = referenceId)
    (records : w'.record d = Function.update (w.record d) referenceId (some r')) (storable : AllStorable w'.db) : Stocked d w' := by
  refine ⟨fun id r₁ there => ?_, storable⟩
  rw [records, Function.update_apply] at there
  split at there
  · rename_i same
    rw [← Option.some.inj there, same, key]
  · exact stocked.keyed id r₁ there

theorem plain_iff {text : Option String} : text.all pgText = true ↔ ∀ t ∈ text.toList, pgText t = true := by
  cases text <;> simp

theorem run_upsert_pending (stocked : Stocked d w) (here : w.record d r.referenceId = some r) (pending : r.status = .pending)
    (status : MomoTransactionStatus) (reason : Option Json) :
    ∃ result n' w', (upsertStatus d r.referenceId status reason).run (answers clock elsewhere) n w = (result.map some, n', w') ∧
      Settles d w r (kept d r (.ok (status, reason)) (clock (n + 1))) result w' := by
  have open' : ¬(⟨status, some reason⟩ : StatusPatch).Refused r := fun refused => by
    rw [StatusPatch.Refused, pending] at refused
    cases refused.1
  rw [upsertStatus_eq]
  cases pool : d.pool with
  | false =>
    have is : d = d.withPool false := by rw [← pool]; rfl
    rw [World.record_get pool] at here
    have ran := @run_upsert_memory d clock elsewhere n w r.referenceId ⟨status, some reason⟩ r here open'
    rw [← is] at ran
    refine ⟨.ok (patched r status reason (clock (n + 1))), n + 3,
      { w with memory := OrderedMap.set w.memory r.referenceId (patched r status reason (clock (n + 1))) }, ran, ?_⟩
    have records : ({ w with memory := OrderedMap.set w.memory r.referenceId (patched r status reason (clock (n + 1))) } : World).record d =
        Function.update (w.record d) r.referenceId (some (patched r status reason (clock (n + 1)))) := by
      rw [World.record_memory _ (Bool.eq_false_iff.1 pool), World.record_memory _ (Bool.eq_false_iff.1 pool), Memory.set_get]
    have after : kept d r (.ok (status, reason)) (clock (n + 1)) = some (patched r status reason (clock (n + 1))) :=
      if_neg (Bool.eq_false_iff.1 pool)
    have key : (patched r status reason (clock (n + 1))).referenceId = r.referenceId := rfl
    rw [after]
    exact ⟨rfl, key, records, stocked.written key records stocked.storable⟩
  | true =>
    have is : d = d.withPool true := by rw [← pool]; rfl
    rw [World.record_row pool] at here
    obtain ⟨row, there, rfl⟩ := Option.map_eq_some_iff.1 here
    have storable := stocked.storable _ row there
    have plain : pgText row.referenceId = true := pgText_of_isUuid storable.uuid
    have texts := @MomoRow.Storable.texts_iff d ⟨status, some reason⟩ row (clock (n + 1)) storable
    have rowPending : row.status = .pending := pending
    by_cases holds : (d.param reason).all pgText = true
    · have fits := texts.2 (plain_iff.1 holds)
      obtain ⟨db, persisted, rows⟩ : ∃ db, Database.persist w.db (values d (patched row.record status reason (clock (n + 1)))) = .ok ([], db) ∧
          Database.row db = Function.update (Database.row w.db) row.referenceId
            (some (if row.status = .pending then Database.setStatus (values d (patched row.record status reason (clock (n + 1)))) row else row)) :=
        Database.persist_present there storable.uuid fits (pgNumeric_fixedPoint storable.amount.2) storable.currency storable.amount.1
      rw [if_pos rowPending] at rows
      have ran := @run_upsert_pool d clock elsewhere n w row.referenceId ⟨status, some reason⟩ row.record [] db plain
        (congrArg (Option.map MomoRow.record) there) open' (is ▸ persisted)
      rw [← is, rows, Function.update_self] at ran
      refine ⟨.ok (Database.setStatus (values d (patched row.record status reason (clock (n + 1)))) row).record, n + 4, { w with db }, ran, ?_⟩
      have after : kept d row.record (.ok (status, reason)) (clock (n + 1)) =
          some (Database.setStatus (values d (patched row.record status reason (clock (n + 1)))) row).record := by
        show (if d.pool = true then if (d.param reason).all pgText = true then _ else _ else _) = _
        rw [if_pos pool, if_pos holds]
        rfl
      have records : ({ w with db } : World).record d = Function.update (w.record d) row.referenceId
          (some (Database.setStatus (values d (patched row.record status reason (clock (n + 1)))) row).record) := by
        rw [World.record_pool _ pool, World.record_pool _ pool]
        funext id
        show (Database.row db id).map MomoRow.record = _
        rw [rows, Function.update_apply, Function.update_apply]
        split <;> rfl
      have key : (Database.setStatus (values d (patched row.record status reason (clock (n + 1)))) row).record.referenceId =
          row.record.referenceId := rfl
      rw [after]
      exact ⟨rfl, key, records, stocked.written key records (stocked.storable.persist persisted)⟩
    · have refused : assertTexts (values d (patched row.record status reason (clock (n + 1)))).texts ≠ .ok () := fun ok =>
        holds (plain_iff.2 (texts.1 ok))
      have ran := @run_upsert_error d clock elsewhere n w row.referenceId ⟨status, some reason⟩ row.record .other plain
        (congrArg (Option.map MomoRow.record) there) open' (is ▸ Database.persist_refused refused)
      rw [← is] at ran
      refine ⟨.error (queryError .other), n + 3, w, ran, ?_⟩
      have after : kept d row.record (.ok (status, reason)) (clock (n + 1)) = none := by
        show (if d.pool = true then if (d.param reason).all pgText = true then _ else _ else _) = _
        rw [if_pos pool, if_neg holds]
      rw [after]
      exact ⟨⟨_, rfl⟩, rfl⟩

theorem run_getToken (still : Still elsewhere) (type : MomoTransactionType) :
    (MomoService.getToken type).run (answers clock elsewhere) n w = (tokenFrom elsewhere n type w, n + 1, w) := by
  show (Prog.ofExcept (tokenFrom elsewhere n type w) : MomoProg String).run _ (n + 1) (elsewhere n (.getToken type) w).2 = _
  rw [still.token]
  exact Prog.run_ofExcept ..

theorem run_fetchStatus (still : Still elsewhere) (request : StatusRequest) : (MomoService.fetchStatus request).run (answers clock elsewhere) n w =
    (MomoService.resourceOf request.type (answerFrom elsewhere n request w), n + 1, w) := by
  show (Prog.ofExcept (MomoService.resourceOf request.type (answerFrom elsewhere n request w)) : MomoProg Json).run _ (n + 1)
    (elsewhere n (.get request) w).2 = _
  rw [still.status]
  exact Prog.run_ofExcept ..

/-- A refresh of a pending record stores what is heard of it. -/
theorem run_refresh (still : Still elsewhere) (stocked : Stocked d w) (here : w.record d r.referenceId = some r) (pending : r.status = .pending) :
    ∃ result n' w', (MomoService.refreshStatus d r.type r.referenceId).run (answers clock elsewhere) n w = (result, n', w') ∧
      Settles d w r (kept d r (hear d elsewhere r (n + 1) w) (clock (n + 4))) result w' := by
  -- until something is heard, nothing is stored
  have unheard : ∀ {e : Exception} {m : Nat}, ∃ result n' w', ((.error e : Except Exception MomoTransactionRecord), m, w) = (result, n', w') ∧
      Settles d w r (kept d r (.error e) (clock (n + 4))) result w' :=
    ⟨_, _, _, rfl, ⟨_, rfl⟩, rfl⟩
  have own : ¬r.type ≠ r.type := fun other => other rfl
  unfold MomoService.refreshStatus hear
  rw [Prog.run_bind, run_find stocked here]
  dsimp only
  rw [if_neg own, Prog.run_bind, Prog.run_ofExcept]
  cases getMomoConfig d with
  | error e => exact unheard
  | ok config =>
    dsimp only
    rw [Prog.run_bind, run_getToken still]
    show ∃ result n' w', _ ∧ Settles d w r (kept d r (tokenFrom elsewhere (n + 1) r.type w >>= _) _) result w'
    cases tokenFrom elsewhere (n + 1) r.type w with
    | error e => exact unheard
    | ok token =>
      dsimp only
      rw [Prog.run_bind, run_fetchStatus still]
      show ∃ result n' w', _ ∧ Settles d w r (kept d r (MomoService.resourceOf r.type _ >>= _) _) result w'
      cases MomoService.resourceOf r.type _ with
      | error e => exact unheard
      | ok resource =>
        dsimp only
        rw [Prog.run_bind, Prog.run_ofExcept]
        show ∃ result n' w', _ ∧ Settles d w r (kept d r (validateResource resource (some r) >>= _) _) result w'
        cases validateResource resource (some r) with
        | error e => exact unheard
        | ok status =>
          dsimp only
          obtain ⟨result, n', w', ran, settles⟩ := @run_upsert_pending d clock elsewhere (n + 3) w r stocked here pending status
            (reasonOf (resource.prop "reason"))
          rw [Prog.run_bind, ran]
          cases result with
          | error e => exact ⟨_, _, _, rfl, settles⟩
          | ok r' => exact ⟨_, _, _, rfl, settles⟩

end Refresh

/-! ## The sweep -/

/-- The pending records, in the order in which the store lists them. -/
def World.pending (d : Deployment) (w : World) : List MomoTransactionRecord :=
  if d.pool then (w.db.rows.filter (·.status = .pending)).map MomoRow.record else w.memory.listPending

/-- How far the sweep is after these records: the number of its next operation, and the world. -/
def sweptTo (d : Deployment) (clock : Nat → Timestamp) (elsewhere : Outside Op Op.Answer World) (n : Nat) (w : World)
    (before : List MomoTransactionRecord) : Nat × World :=
  ((MomoService.reconcileEach d before []).run (answers clock elsewhere) n w).2

/-- What the sweep stores of the record it comes to after these. -/
def sweepStores (d : Deployment) (clock : Nat → Timestamp) (elsewhere : Outside Op Op.Answer World) (n : Nat) (w : World)
    (before : List MomoTransactionRecord) (r : MomoTransactionRecord) : Option MomoTransactionRecord :=
  let (m, v) := sweptTo d clock elsewhere n w before
  kept d r (hear d elsewhere r (m + 1) v) (clock (m + 4))

section Sweep

variable {d : Deployment} {clock : Nat → Timestamp} {elsewhere : Outside Op Op.Answer World} {w : World} {r : MomoTransactionRecord}

/-- What has been refreshed before does not matter to the loop. -/
theorem run_reconcileEach_results (rs results : List MomoTransactionRecord) (n : Nat) (w : World) :
    (MomoService.reconcileEach d rs results).run (answers clock elsewhere) n w =
      (((MomoService.reconcileEach d rs []).run (answers clock elsewhere) n w).1.map (results ++ ·), sweptTo d clock elsewhere n w rs) := by
  induction rs generalizing results n w with
  | nil => simp [MomoService.reconcileEach, sweptTo, Except.map]
  | cons r rest ih =>
    unfold sweptTo
    simp only [MomoService.reconcileEach, Prog.run_bind]
    cases (tryCatch (some <$> MomoService.refreshStatus d r.type r.referenceId) fun _ => Prog.ret none :
        MomoProg (Option MomoTransactionRecord)).run (answers clock elsewhere) n w with
    | mk refreshed after =>
      cases refreshed with
      | error e => rfl
      | ok refreshed =>
        dsimp only
        rw [ih (results ++ refreshed.toList), ih ([] ++ refreshed.toList)]
        cases ((MomoService.reconcileEach d rest []).run (answers clock elsewhere) after.1 after.2).1 <;> simp [Except.map]

theorem run_listPending (n : Nat) : (listPending d).run (answers clock elsewhere) n w = (.ok (w.pending d), n + 1, w) := by
  cases pool : d.pool with
  | false =>
    have is : d = d.withPool false := by rw [← pool]; rfl
    have ran : MemoryOp.listPending.run w.memory = .ok (w.memory.listPending, w.memory) := rfl
    rw [is]
    exact run_inMemory ran
  | true =>
    have is : d = d.withPool true := by rw [← pool]; rfl
    have ran : Statement.selectPending.run w.db = .ok (w.db.rows.filter (·.status = .pending), w.db) := rfl
    rw [is]
    show Prog.run _ (query .selectPending >>= fun rows => .ret ((rows : List MomoRow).map MomoRow.record)) n w = _
    rw [Prog.run_bind, run_query ran]
    rfl

theorem Stocked.mem_pending (stocked : Stocked d w) : r ∈ w.pending d ↔ w.record d r.referenceId = some r ∧ r.status = .pending := by
  unfold World.pending
  by_cases pool : d.pool = true
  · rw [if_pos pool, World.record_row pool]
    constructor
    · intro mem
      obtain ⟨row, selected, rfl⟩ := List.mem_map.1 mem
      obtain ⟨mem, pending⟩ := List.mem_filter.1 selected
      refine ⟨?_, of_decide_eq_true pending⟩
      show (Database.row w.db row.referenceId).map MomoRow.record = _
      rw [Database.row_of_mem mem, Option.map_some]
    · rintro ⟨here, pending⟩
      obtain ⟨row, there, rfl⟩ := Option.map_eq_some_iff.1 here
      exact List.mem_map.2 ⟨row, List.mem_filter.2 ⟨(Table.mem_of_find there).1, decide_eq_true pending⟩, rfl⟩
  · rw [if_neg pool, World.record_get (Bool.eq_false_of_not_eq_true pool)]
    constructor
    · intro mem
      obtain ⟨mem, pending⟩ := List.mem_filter.1 mem
      obtain ⟨referenceId, here⟩ := (OrderedMap.mem_values_iff _).1 mem
      have key : r.referenceId = referenceId := stocked.keyed referenceId r (by rw [World.record_get (Bool.eq_false_of_not_eq_true pool), here])
      exact ⟨by rw [key, here], of_decide_eq_true pending⟩
    · rintro ⟨here, pending⟩
      exact List.mem_filter.2 ⟨(OrderedMap.mem_values_iff _).2 ⟨_, here⟩, decide_eq_true pending⟩

/-- Every pending record is listed once. -/
theorem Stocked.pending_distinct (stocked : Stocked d w) : (w.pending d).Pairwise fun a b => a.referenceId ≠ b.referenceId := by
  unfold World.pending
  by_cases pool : d.pool = true
  · rw [if_pos pool, List.pairwise_map]
    refine (w.db.distinct.filter _).imp fun {a b} apart same => ?_
    simp only [MomoRow.clash, Bool.or_eq_false_iff, decide_eq_false_iff_not] at apart
    exact apart.1 same
  · rw [if_neg pool]
    refine List.Pairwise.filter _ (List.pairwise_map.2 ?_)
    have keys := List.pairwise_map.1 w.memory.nodup
    refine List.Pairwise.imp_of_mem (fun {a b} memA memB apart => ?_) keys
    have keyed : ∀ e ∈ w.memory.entries, e.2.referenceId = e.1 := fun e mem =>
      stocked.keyed e.1 e.2 (by rw [World.record_get (Bool.eq_false_of_not_eq_true pool), (OrderedMap.mem_entries_iff w.memory).1 mem])
    rw [keyed a memA, keyed b memB]
    exact apart

/-- The loop: each record is settled by what is heard of it, and the others stay as they are. -/
theorem run_reconcileEach (still : Still elsewhere) {rs : List MomoTransactionRecord} (results : List MomoTransactionRecord) (n : Nat)
    (stocked : Stocked d w) (here : ∀ r ∈ rs, w.record d r.referenceId = some r ∧ r.status = .pending)
    (distinct : rs.Pairwise fun a b => a.referenceId ≠ b.referenceId) :
    ∃ after : String → Option MomoTransactionRecord,
      (∀ before r rest, rs = before ++ r :: rest → after r.referenceId = sweepStores d clock elsewhere n w before r) ∧
      ∃ n' w', (MomoService.reconcileEach d rs results).run (answers clock elsewhere) n w =
          (.ok (results ++ rs.filterMap fun r => after r.referenceId), n', w') ∧
        (∀ r ∈ rs, w'.record d r.referenceId = some ((after r.referenceId).getD r)) ∧
        ∀ id, (∀ r ∈ rs, r.referenceId ≠ id) → w'.record d id = w.record d id := by
  induction rs generalizing results n w with
  | nil => exact ⟨fun _ => none, by simp, n, w, by simp [MomoService.reconcileEach], nofun, fun _ _ => rfl⟩
  | cons r rest ih =>
    obtain ⟨apart, distinct⟩ := List.pairwise_cons.1 distinct
    obtain ⟨own, pending⟩ := here r List.mem_cons_self
    obtain ⟨result, m, w₁, ran, settles⟩ := @run_refresh d clock elsewhere n w r still stocked own pending
    obtain ⟨first, isFirst⟩ : ∃ first, kept d r (hear d elsewhere r (n + 1) w) (clock (n + 4)) = first := ⟨_, rfl⟩
    rw [isFirst] at settles
    -- the first refresh is over, and has touched its own record alone
    obtain ⟨refreshed, stocked₁, mine, others⟩ : (tryCatch (some <$> MomoService.refreshStatus d r.type r.referenceId) fun _ => .ret none :
          MomoProg (Option MomoTransactionRecord)).run (answers clock elsewhere) n w = (.ok first, m, w₁) ∧
        Stocked d w₁ ∧ w₁.record d r.referenceId = some (first.getD r) ∧ ∀ id, r.referenceId ≠ id → w₁.record d id = w.record d id := by
      rw [Prog.run_catch, Prog.run_map, ran]
      cases first with
      | none =>
        obtain ⟨⟨e, rfl⟩, rfl⟩ := settles
        exact ⟨rfl, stocked, own, fun _ _ => rfl⟩
      | some r' =>
        obtain ⟨rfl, key, records, stocked₁⟩ := settles
        refine ⟨rfl, stocked₁, by rw [records, Function.update_self]; rfl, fun id ne => ?_⟩
        rw [records, Function.update_of_ne (Ne.symm ne)]
    have here₁ : ∀ r' ∈ rest, w₁.record d r'.referenceId = some r' ∧ r'.status = .pending := by
      intro r' mem
      rw [others _ (apart r' mem)]
      exact here r' (List.mem_cons_of_mem r mem)
    obtain ⟨after, told, n', w', ran', settled, still'⟩ := ih (results ++ first.toList) m stocked₁ here₁ distinct
    have later : ∀ r' ∈ rest, Function.update after r.referenceId first r'.referenceId = after r'.referenceId :=
      fun r' mem => Function.update_of_ne (Ne.symm (apart r' mem)) ..
    have on : ∀ before, sweptTo d clock elsewhere n w (r :: before) = sweptTo d clock elsewhere m w₁ before := by
      intro before
      show (Prog.run _ ((tryCatch (some <$> MomoService.refreshStatus d r.type r.referenceId) fun _ => .ret none) >>= fun refreshed =>
        MomoService.reconcileEach d before ([] ++ refreshed.toList)) n w).2 = _
      rw [Prog.run_bind, refreshed]
      dsimp only
      rw [run_reconcileEach_results]
    refine ⟨Function.update after r.referenceId first, fun before r' rest' parts => ?_, n', w', ?_, fun r' mem => ?_, fun id none => ?_⟩
    · cases before with
      | nil =>
        obtain ⟨rfl, -⟩ := List.cons.inj parts
        exact (Function.update_self ..).trans isFirst.symm
      | cons r₀ before =>
        obtain ⟨rfl, later'⟩ := List.cons.inj parts
        have mem : r' ∈ rest := later' ▸ by simp
        rw [later r' mem, told before r' rest' later', sweepStores, sweepStores, on]
    · show Prog.run _ ((tryCatch (some <$> MomoService.refreshStatus d r.type r.referenceId) fun _ => .ret none) >>= fun refreshed =>
        MomoService.reconcileEach d rest (results ++ refreshed.toList)) n w = _
      rw [Prog.run_bind, refreshed]
      dsimp only
      rw [ran', List.append_assoc, List.filterMap_cons, Function.update_self,
        List.filterMap_congr fun r' mem => later r' mem]
      cases first <;> rfl
    · rcases List.mem_cons.1 mem with rfl | mem
      · rw [Function.update_self, still' _ fun r₁ mem => Ne.symm (apart r₁ mem)]
        exact mine
      · rw [later r' mem]
        exact settled r' mem
    · rw [still' id fun r' mem => none r' (List.mem_cons_of_mem r mem), others id (none r List.mem_cons_self)]

end Sweep

/-- What a sweep of `w` comes to, whose first operation is the `n`-th: no exception, whatever the provider answers, and each
record that was pending is settled by what is heard of it when the sweep comes to it. -/
structure Reconciled (d : Deployment) (clock : Nat → Timestamp) (elsewhere : Outside Op Op.Answer World) (n : Nat) (w : World)
    (out : Except Exception Returned × Nat × World) : Prop where
  settled : ∃ after : String → Option MomoTransactionRecord,
    (∀ before r rest, w.pending d = before ++ r :: rest → after r.referenceId = sweepStores d clock elsewhere (n + 1) w before r) ∧
    out.1 = .ok (.records ((w.pending d).filterMap fun r => after r.referenceId)) ∧
    ∀ referenceId, out.2.2.record d referenceId =
      (w.record d referenceId).map fun r => if r.status = .pending then (after referenceId).getD r else r
  listed : ∀ r, r ∈ w.pending d ↔ w.record d r.referenceId = some r ∧ r.status = .pending
  /-- Where the provider has a final word on everything pending, nothing stays pending. -/
  complete : (∀ before r rest, w.pending d = before ++ r :: rest →
      ∃ r', sweepStores d clock elsewhere (n + 1) w before r = some r' ∧ r'.status ≠ .pending) →
    ∀ referenceId r, out.2.2.record d referenceId = some r → r.status ≠ .pending

/-- **A reconciliation settles every pending record by itself.** -/
theorem reconciliation {d : Deployment} {cfg : MomoRun} (run : Reachable d cfg) (clock : Nat → Timestamp)
    (elsewhere : Outside Op Op.Answer World) (still : Still elsewhere) (n : Nat) :
    Reconciled d clock elsewhere n cfg.shared.world ((Call.reconcilePending.body d).run (answers clock elsewhere) n cfg.shared.world) := by
  have stocked : Stocked d cfg.shared.world := ⟨(momo_holds run).inv.keyed, storable_of_run run⟩
  generalize cfg.shared.world = w at stocked ⊢
  obtain ⟨after, told, n', w', ran, settled, others⟩ := @run_reconcileEach d clock elsewhere w still (w.pending d) [] (n + 1) stocked
    (fun r mem => stocked.mem_pending.1 mem) stocked.pending_distinct
  have body : (Call.reconcilePending.body d).run (answers clock elsewhere) n w =
      (.ok (.records ((w.pending d).filterMap fun r => after r.referenceId)), n', w') := by
    show Prog.run _ (Returned.records <$> (listPending d >>= fun pending => MomoService.reconcileEach d pending [])) n w = _
    rw [Prog.run_map, Prog.run_bind, run_listPending]
    dsimp only
    rw [ran]
    rfl
  have stored : ∀ referenceId, w'.record d referenceId =
      (w.record d referenceId).map fun r => if r.status = .pending then (after referenceId).getD r else r := by
    intro referenceId
    by_cases listed : ∃ r ∈ w.pending d, r.referenceId = referenceId
    · obtain ⟨r, mem, rfl⟩ := listed
      obtain ⟨here, pending⟩ := stocked.mem_pending.1 mem
      rw [settled r mem, here, Option.map_some, if_pos pending]
    · rw [others referenceId fun r mem same => listed ⟨r, mem, same⟩]
      cases here : w.record d referenceId with
      | none => rfl
      | some r =>
        have key := stocked.keyed referenceId r here
        have final : ¬r.status = .pending := fun pending => listed ⟨r, stocked.mem_pending.2 ⟨by rw [key, here], pending⟩, key⟩
        rw [Option.map_some, if_neg final]
  rw [body]
  refine ⟨⟨after, told, rfl, stored⟩, fun r => stocked.mem_pending, fun final referenceId r there => ?_⟩
  rw [stored] at there
  obtain ⟨r₀, here, is⟩ := Option.map_eq_some_iff.1 there
  by_cases pending : r₀.status = .pending
  · obtain rfl : r₀.referenceId = referenceId := stocked.keyed referenceId r₀ here
    obtain ⟨before, rest, split⟩ := List.append_of_mem (stocked.mem_pending.2 ⟨here, pending⟩)
    obtain ⟨r', stored', done⟩ := final before r₀ rest split
    rw [if_pos pending, told before r₀ rest split, stored'] at is
    rw [← is]
    exact done
  · rw [if_neg pending] at is
    rw [← is]
    exact pending

namespace Sample

/-- A provider that calls every collection of 5 EUR successful. -/
def provider : Outside Op Op.Answer World
  | _, .randomUUID, w => ("2f9e6a41-8c3d-4b70-9a15-d4e8b7c60f23", w)
  | _, .dateNow, w => ((0 : Timestamp), w)
  | _, .memory _, w => (.error (.error ""), w)
  | _, .query _, w => (.error .other, w)
  | _, .getToken _, w => (.ok "token", w)
  | _, .post _, w => (none, w)
  | _, .get _, w => (some ⟨200, some (resource "SUCCESSFUL")⟩, w)

theorem provider_still : Still provider := ⟨fun _ _ _ => rfl, fun _ _ _ => rfl⟩

/-- The status of the collection after a sweep. -/
def swept (pool : Bool) (cfg : MomoRun) : Option MomoTransactionStatus :=
  let out := (Call.reconcilePending.body (deployment pool)).run (answers (fun _ => 5000) provider) 0 cfg.shared.world
  (out.2.2.record (deployment pool) referenceId).map (·.status)

end Sample

theorem reconciliation_sample : ∃ cfg, Sample.run true Sample.charged = some cfg ∧ Sample.swept true cfg = some .successful ∧
    Reconciled (Sample.deployment true) (fun _ => 5000) Sample.provider 0 cfg.shared.world
      ((Call.reconcilePending.body (Sample.deployment true)).run (answers (fun _ => 5000) Sample.provider) 0 cfg.shared.world) := by
  have ran : (Sample.run true Sample.charged).any (fun cfg => Sample.swept true cfg = some .successful) = true := by
    decide +kernel
  obtain ⟨cfg, ran, successful⟩ := (Option.any_eq_true _ _).1 ran
  exact ⟨cfg, ran, of_decide_eq_true successful,
    reconciliation (reachable_of_run ran) (fun _ => 5000) Sample.provider Sample.provider_still 0⟩

end AfriPay.Momo
