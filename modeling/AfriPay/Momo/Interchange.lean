import AfriPay.Momo.StoresAgree

/-!
# When the mobile money stores are interchangeable

Call by call, what makes the two stores answer alike (`StoreCall.Meets`), and for
calls served in turn: they answer all alike exactly if each call meets it in the
state it finds. The one condition on a delivery is on its reason.
-/

namespace AfriPay.Momo
open Calls Text Storage MomoTransactionStore

/-- A reason that a text column gives back as it is. -/
def PlainReason (reason : Option Json) : Prop := reason = none ∨ ∃ text, reason = some (.str text) ∧ text ≠ "" ∧ pgText text = true

/-- A pending record gets a reason a column keeps; a terminal one that gets its
status again gets the reason it has. -/
structure StatusPatch.Faithful (patch : StatusPatch) (existing : MomoTransactionRecord) : Prop where
  first : existing.status = .pending → PlainReason (patch.reasonFor existing)
  repeated : existing.status.terminal = true → patch.status = existing.status → patch.reasonFor existing = existing.reason

/-- What a call brings along, in the state it finds. A text column cannot hold a
NUL, and has U+FFFD for half of a surrogate pair: what comes back is another merchant
reference, and may be that of another record. -/
def StoreCall.Meets (w : World) : StoreCall → Prop
  | .save type dto _ _ _ => pgText dto.externalId.toWellFormed = true ∧ ∀ r, w.Rival type dto.externalId r → r.externalId = dto.externalId
  | .upsertStatus referenceId patch => pgText referenceId = true ∧
    ∀ existing, w.memory.get referenceId = some existing → existing.externalId.isWellFormed = true ∧ patch.Faithful existing
  | .find referenceId => pgText referenceId = true ∧ ∀ r, w.memory.get referenceId = some r → r.externalId.isWellFormed = true
  | .findByExternalId externalId type => pgText externalId.toWellFormed = true ∧
    ∀ r, w.Rival type externalId r → r.externalId = externalId ∧ r.externalId.isWellFormed = true
  | .listPending => ∀ r ∈ w.memory.listPending, r.externalId.isWellFormed = true

section Calls

variable {d : Deployment} {clock clock' : Nat → Timestamp} {elsewhere elsewhere' : Outside Op Op.Answer World} {rest : List StoreCall}
  {c : StoreCall} {w v : World} {referenceId : String} {m n : Nat}

/-- The stores answer a call alike exactly if `P` holds, and are then in sync again. -/
structure Treated (rest : List StoreCall) (P : Prop) (left right : Except Exception StoreReply × Nat × World) : Prop where
  alike : SameOutcome left.1 right.1 ↔ P
  sync : P → InSync rest left.2.2 right.2.2

/-- Both return a record. -/
theorem Treated.returned {P : Prop} {a b : StoreReply} {w' v' : World} (good : P) (same : SameReply a b) (sync : InSync rest w' v') :
    Treated rest P (.ok a, m, w') (.ok b, n, v') := ⟨iff_of_true same good, fun _ => sync⟩

/-- PostgreSQL refuses a text, and only it. -/
theorem Treated.refused {P : Prop} {x : Except Exception StoreReply} {w' v' : World} (bad : ¬P)
    (other : ∀ e, x = .error e → e.className ≠ .serviceUnavailable) :
    Treated rest P (x, m, w') (.error (queryError .other), n, v') := by
  refine ⟨iff_of_false (fun same => ?_) bad, fun good => (bad good).elim⟩
  cases x with
  | ok a => exact same
  | error e => exact other e rfl same

theorem treated_find (sync : InSync (c :: rest) w v) :
    Treated rest ((StoreCall.find referenceId).Meets w)
      (((StoreCall.find referenceId).body (d.withPool false)).run (answers clock elsewhere) m w)
      (((StoreCall.find referenceId).body (d.withPool true)).run (answers clock' elsewhere') n v) := by
  show Treated _ (pgText referenceId = true ∧ ∀ r, w.memory.get referenceId = some r → r.externalId.isWellFormed = true)
    (Prog.run _ (StoreReply.found <$> find (d.withPool false) referenceId) m w)
    (Prog.run _ (StoreReply.found <$> find (d.withPool true) referenceId) n v)
  rw [Prog.run_map, Prog.run_map, run_find_memory]
  by_cases plain : pgText referenceId = true
  · rw [run_find_pool plain]
    have alike := found_iff (sync.held referenceId)
    exact ⟨⟨fun same => ⟨plain, alike.1 same⟩, fun good => alike.2 good.2⟩, fun _ => sync.tail⟩
  · rw [run_find_refused (Bool.eq_false_of_not_eq_true plain)]
    exact .refused (fun good => plain good.1) (by rintro e ⟨⟩)

theorem treated_findByExternalId {externalId : JsString} {type : MomoTransactionType} (sync : InSync (c :: rest) w v) :
    Treated rest ((StoreCall.findByExternalId externalId type).Meets w)
      (((StoreCall.findByExternalId externalId type).body (d.withPool false)).run (answers clock elsewhere) m w)
      (((StoreCall.findByExternalId externalId type).body (d.withPool true)).run (answers clock' elsewhere') n v) := by
  show Treated _ (pgText externalId.toWellFormed = true ∧
      ∀ r, w.Rival type externalId r → r.externalId = externalId ∧ r.externalId.isWellFormed = true)
    (.ok (.found (w.memory.findByExternalId (some externalId.json) type)), m + 1, w)
    (Prog.run _ (StoreReply.found <$> (query (.selectByExternalId ((d.withPool true).param (some externalId.json)) type) >>= fun rows =>
      .ret ((rows : List MomoRow).head?.map MomoRow.record))) n v)
  rw [Prog.run_map, Prog.run_bind, Deployment.param_json]
  by_cases plain : pgText externalId.toWellFormed = true
  · have ran : (Statement.selectByExternalId (some externalId.toWellFormed) type).run v.db =
        .ok ((v.db.find fun r => some externalId.toWellFormed = some r.externalId && r.type = type).toList, v.db) := by
      show (assertTexts [externalId.toWellFormed] >>= _) = _
      rw [assertTexts_ok_iff.2 (by simpa using plain)]
      rfl
    rw [run_query ran]
    have alike := sync.findByExternalId_iff externalId type
    rw [← Option.head?_toList (o := v.db.find _)] at alike
    exact ⟨⟨fun same => ⟨plain, alike.1 same⟩, fun good => alike.2 good.2⟩, fun _ => sync.tail⟩
  · have failed : (Statement.selectByExternalId (some externalId.toWellFormed) type).run v.db = .error .other := by
      show (assertTexts [externalId.toWellFormed] >>= _) = _
      rw [assertTexts_error (fun ok => plain (assertTexts_ok_iff.1 ok _ (List.mem_singleton_self _)))]
      rfl
    rw [run_query_error failed]
    exact .refused (fun good => plain good.1) (by rintro e ⟨⟩)

theorem treated_listPending (sync : InSync (c :: rest) w v) :
    Treated rest (StoreCall.listPending.Meets w) ((StoreCall.listPending.body (d.withPool false)).run (answers clock elsewhere) m w)
      ((StoreCall.listPending.body (d.withPool true)).run (answers clock' elsewhere') n v) :=
  ⟨sync.listPending_iff, fun _ => sync.tail⟩

/-! ### `save` -/

/-- Digits hold no NUL. -/
theorem pgText_msisdn {party : String} (msisdn : isMsisdn party = true) : pgText party = true := by
  simp only [isMsisdn, digitRun, Bool.and_eq_true, List.all_eq_true] at msisdn
  refine List.all_eq_true.2 fun c mem => decide_eq_true ?_
  rintro rfl
  exact absurd (msisdn.1.1.1 _ mem) (by decide)

/-- What a column makes of the amount of a checked charge. -/
theorem ChargeDto.Valid.units {dto : ChargeDto} (valid : dto.Valid) :
    pgNumeric dto.amount = .ok (scaledValue 12 dto.amount) ∧ scaledValue 12 dto.amount ≠ 0 ∧ scaledValue 12 dto.amount < 10 ^ 30 := by
  have numeral : matchesDecimal 12 2 dto.amount = true := by
    simp only [ChargeDto.Valid, validPayment, Bool.and_eq_true] at valid
    exact valid.1.1.1.1.1
  refine ⟨if_pos (matchesDecimal_mono numeral (by decide) (by decide)), ?_, (scaledValue_lt numeral (by decide)).trans (by decide)⟩
  obtain ⟨hundredths, positive, -, value⟩ := (validPayment_payable valid).hundredths
  intro zero
  have scaled := scaledValue_eq (k := 12) ((fractionPart_length_le numeral).trans (by decide))
  rw [zero, value, Nat.cast_zero] at scaled
  have none : (hundredths : ℚ) = 0 := by linarith
  exact positive.ne' (Nat.cast_eq_zero.1 none)

/-- Memory refuses a merchant's reference that is taken. -/
theorem InSync.save_memory {record : MomoTransactionRecord} (sync : InSync rest w v) (absent : Database.row v.db record.referenceId = none) :
    ((∃ r, w.Rival record.type record.externalId r ∧ r.externalId = record.externalId) ∧
      ∃ message, w.memory.save record = .error (.conflict message)) ∨
      (∀ r, w.Rival record.type record.externalId r → r.externalId ≠ record.externalId) ∧
        w.memory.save record = .ok (record, OrderedMap.set w.memory record.referenceId record) := by
  unfold Memory.save
  split
  · rename_i taken
    obtain ⟨item, mem, cond⟩ := List.any_eq_true.1 taken
    simp only [Bool.and_eq_true, decide_eq_true_eq] at cond
    exact .inl ⟨⟨item, ⟨(OrderedMap.mem_values_iff _).1 mem, cond.1.1, by rw [cond.1.2]⟩, cond.1.2⟩, _, rfl⟩
  · rename_i free
    refine .inr ⟨fun item rival exact' => free ?_, rfl⟩
    obtain ⟨⟨j, here⟩, type, -⟩ := rival
    obtain ⟨row, there, same⟩ := sync.ofMemory here
    refine List.any_eq_true.2 ⟨item, (OrderedMap.mem_values_iff _).2 ⟨j, here⟩, ?_⟩
    simp only [Bool.and_eq_true, decide_eq_true_eq]
    refine ⟨⟨type, exact'⟩, fun names => ?_⟩
    have name : item.referenceId = j := same.referenceId.trans (Database.row_referenceId there)
    rw [← names, name, there] at absent
    cases absent

/-- A row has a merchant's reference exactly if a rival of it is in memory. -/
theorem InSync.taken_iff (sync : InSync rest w v) {type : MomoTransactionType} {externalId : JsString} :
    (∃ j other, Database.row v.db j = some other ∧ other.pair = (type, .text externalId.toWellFormed)) ↔
      ∃ r, w.Rival type externalId r := by
  constructor
  · rintro ⟨j, other, there, pair⟩
    obtain ⟨r, here, same⟩ := sync.ofDatabase there
    obtain ⟨isType, text⟩ := Prod.mk.inj pair
    exact ⟨r, ⟨j, here⟩, same.type.trans isType, JsString.text.inj (same.externalId.trans text)⟩
  · rintro ⟨r, ⟨j, here⟩, isType, kept⟩
    obtain ⟨row, there, same⟩ := sync.ofMemory here
    refine ⟨j, row, there, Prod.ext (same.type.symm.trans isType) ?_⟩
    exact same.externalId.symm.trans (congrArg JsString.text kept)

section Save

variable {type : MomoTransactionType} {dto : ChargeDto} {createdAt updatedAt : Timestamp}

/-- Of the texts of a checked charge PostgreSQL may refuse the merchant's reference only. -/
theorem ChargeDto.Valid.texts_iff (valid : dto.Valid) :
    assertTexts (values d (MomoService.newRecord type dto referenceId createdAt updatedAt)).texts = .ok () ↔
      pgText dto.externalId.toWellFormed = true := by
  have msisdn : isMsisdn dto.partyId = true := by
    simp only [ChargeDto.Valid, validPayment, Bool.and_eq_true] at valid
    exact valid.2
  rw [assertTexts_ok_iff]
  show (∀ t ∈ [dto.externalId.toWellFormed, dto.partyId] ++ [], pgText t = true) ↔ _
  simp [pgText_msisdn msisdn]

theorem ChargeDto.Valid.char (valid : dto.Valid) : pgChar 3 dto.currency = .ok dto.currency := by
  rw [valid.currency]
  rfl

/-- The row of a checked charge is its record, as a table keeps it, and is fit to be read back. -/
theorem ChargeDto.Valid.row (valid : dto.Valid) (uuid : isUuid referenceId = true) (plain : pgText dto.externalId.toWellFormed = true) :
    SameRecord true (MomoService.newRecord type dto referenceId createdAt updatedAt)
        ((values d (MomoService.newRecord type dto referenceId createdAt updatedAt)).row (scaledValue 12 dto.amount) dto.currency).record ∧
      ((values d (MomoService.newRecord type dto referenceId createdAt updatedAt)).row (scaledValue 12 dto.amount) dto.currency).Storable := by
  obtain ⟨numeric, positive, fits⟩ := valid.units
  refine ⟨⟨⟨rfl, rfl, (stored_value numeric).symm, rfl, rfl, rfl⟩, rfl, rfl⟩, ?_⟩
  have texts : assertTexts (values d (MomoService.newRecord type dto referenceId createdAt updatedAt)).texts = .ok () :=
    valid.texts_iff.2 plain
  exact ⟨uuid, assertTexts_ok_iff.1 texts, ⟨positive, fits⟩, valid.char⟩

theorem treated_save (sync : InSync (.save type dto referenceId createdAt updatedAt :: rest) w v) :
    Treated rest ((StoreCall.save type dto referenceId createdAt updatedAt).Meets w)
      (((StoreCall.save type dto referenceId createdAt updatedAt).body (d.withPool false)).run (answers clock elsewhere) m w)
      (((StoreCall.save type dto referenceId createdAt updatedAt).body (d.withPool true)).run (answers clock' elsewhere') n v) := by
  obtain ⟨valid, uuid⟩ := sync.made _ List.mem_cons_self
  have absent : Database.row v.db referenceId = none := sync.fresh referenceId List.mem_cons_self
  have known := @InSync.save_memory _ _ _ (MomoService.newRecord type dto referenceId createdAt updatedAt) sync absent
  have texts := @ChargeDto.Valid.texts_iff (d.withPool true) referenceId type dto createdAt updatedAt valid
  show Treated _ (pgText dto.externalId.toWellFormed = true ∧ ∀ r, w.Rival type dto.externalId r → r.externalId = dto.externalId)
    (Prog.run _ (StoreReply.saved <$> save (d.withPool false) (MomoService.newRecord type dto referenceId createdAt updatedAt)) m w)
    (Prog.run _ (StoreReply.saved <$> save (d.withPool true) (MomoService.newRecord type dto referenceId createdAt updatedAt)) n v)
  rw [Prog.run_map, Prog.run_map]
  by_cases plain : pgText dto.externalId.toWellFormed = true
  · have written := Database.persist_absent (v := values (d.withPool true) (MomoService.newRecord type dto referenceId createdAt updatedAt))
      absent uuid (texts.2 plain) valid.units.1 valid.char valid.units.2.1
    rcases known with ⟨⟨r, rival, exact'⟩, message, threw⟩ | ⟨free, ran⟩
    · rcases written with ⟨-, failed⟩ | ⟨free, -⟩
      · rw [run_save_refused threw, run_save_error failed]
        exact ⟨iff_of_true rfl ⟨plain, fun r' rival' => sync.rival_eq rival rival' ▸ exact'⟩, fun _ => sync.tail⟩
      · obtain ⟨j, other, there, pair⟩ := sync.taken_iff.2 ⟨r, rival⟩
        exact (free j other there pair).elim
    · rw [run_save_memory ran]
      rcases written with ⟨taken, failed⟩ | ⟨unused, db, ran', after⟩
      · -- a row has the reference as a column keeps it, and memory has another one
        rw [run_save_error failed]
        obtain ⟨r, rival⟩ := sync.taken_iff.1 taken
        have bad : ¬∀ r, w.Rival type dto.externalId r → r.externalId = dto.externalId := fun all => free r rival (all r rival)
        exact ⟨iff_of_false id fun good => bad good.2, fun good => (bad good.2).elim⟩
      · rw [run_save_pool ran']
        obtain ⟨same, storable⟩ := valid.row uuid plain
        refine .returned ⟨plain, fun r rival => ?_⟩ ⟨⟨rfl, rfl, rfl, rfl, rfl, rfl⟩, rfl, rfl⟩
          (sync.written (Memory.set_get ..) after same storable (List.nodup_cons.1 sync.distinct).1)
        obtain ⟨j, other, there, pair⟩ := sync.taken_iff.2 ⟨r, rival⟩
        exact (unused j other there pair).elim
  · rw [run_save_error (Database.persist_refused (mt texts.1 plain))]
    refine .refused (fun good => plain good.1) ?_
    rcases known with ⟨-, message, threw⟩ | ⟨-, ran⟩
    · rw [run_save_refused threw]
      rintro e ⟨⟩
      simp [Exception.className]
    · rw [run_save_memory ran]
      rintro e ⟨⟩

end Save

/-! ### `upsertStatus` -/

/-- The reasons that come back from a text column as they went in. -/
theorem plainReason_iff {reason : Option Json} : PlainReason reason ↔
    (∀ t ∈ (d.param reason).toList, pgText t = true) ∧ ((d.param reason).filter (· ≠ "")).map Json.str = reason := by
  rcases reason with _ | _ | b | x | text | lone | xs | fields
  case none => simp [PlainReason, Deployment.param]
  case some.str =>
    by_cases empty : text = ""
    · simp [PlainReason, Deployment.param, empty, Option.filter]
    · simp [PlainReason, Deployment.param, empty, Option.filter]
  case some.null => simp [PlainReason, Deployment.param]
  all_goals simp [PlainReason, Deployment.param, Option.filter]

theorem MomoRow.Storable.plainReason {row : MomoRow} (storable : row.Storable) : PlainReason row.record.reason := by
  have texts : ∀ t ∈ row.reason.toList, pgText t = true := fun t mem => storable.texts t (List.mem_append_right _ mem)
  show PlainReason ((row.reason.filter (· ≠ "")).map .str)
  cases reason : row.reason with
  | none => exact .inl rfl
  | some text =>
    by_cases empty : text = ""
    · exact .inl (by rw [empty]; rfl)
    · rw [reason] at texts
      exact .inr ⟨text, by simp [Option.filter, empty], empty, texts text (by simp)⟩

theorem terminal_iff {status : MomoTransactionStatus} : status.terminal = true ↔ status ≠ .pending := by
  cases status <;> simp [MomoTransactionStatus.terminal]

/-- A patch that is not refused leaves a terminal status as it is. -/
theorem StatusPatch.repeats {patch : StatusPatch} {r : MomoTransactionRecord} (open' : ¬patch.Refused r) (final : r.status ≠ .pending) :
    patch.status = r.status := by
  by_contra other
  exact open' ⟨terminal_iff.2 final, other⟩

/-- A faithful patch writes a reason that a column keeps. -/
theorem StatusPatch.Faithful.plainReason {patch : StatusPatch} {r : MomoTransactionRecord} {row : MomoRow} (faithful : patch.Faithful r)
    (open' : ¬patch.Refused r) (same : SameRecord true r row.record) (storable : row.Storable) : PlainReason (patch.reasonFor r) := by
  by_cases pending : r.status = .pending
  · exact faithful.first pending
  · rw [faithful.repeated (terminal_iff.2 pending) (StatusPatch.repeats open' pending), same.reason]
    exact storable.plainReason

/-- The row an `upsertStatus` leaves: the patch is written into a pending row only. -/
def StatusPatch.written (d : Deployment) (patch : StatusPatch) (row : MomoRow) (now : Timestamp) : MomoRow :=
  if row.status = .pending then Database.setStatus (values d (patch.applied row.record now)) row else row

section Written

variable {patch : StatusPatch} {r : MomoTransactionRecord} {row : MomoRow} {now now' : Timestamp}

theorem MomoRow.Storable.texts_iff (storable : row.Storable) : assertTexts (values d (patch.applied row.record now)).texts = .ok () ↔
    ∀ t ∈ (d.param (patch.reasonFor row.record)).toList, pgText t = true := by
  rw [assertTexts_ok_iff]
  constructor
  · exact fun all t mem => all t (List.mem_append_right _ mem)
  · intro all t mem
    rcases List.mem_append.1 mem with mem | mem
    · exact storable.texts t (List.mem_append_left _ mem)
    · exact all t mem

theorem StatusPatch.written_storable (storable : row.Storable)
    (plain : ∀ t ∈ (d.param (patch.reasonFor row.record)).toList, pgText t = true) : (patch.written d row now).Storable := by
  unfold StatusPatch.written
  split
  · refine ⟨storable.uuid, fun t mem => ?_, storable.amount, storable.currency⟩
    rcases List.mem_append.1 mem with mem | mem
    · exact storable.texts t (List.mem_append_left _ mem)
    · exact plain t mem
  · exact storable

/-- The reason that is read back is the one memory holds exactly for a faithful patch. -/
theorem StatusPatch.written_reason_iff (same : SameRecord true r row.record) (open' : ¬patch.Refused r)
    (plain : ∀ t ∈ (d.param (patch.reasonFor r)).toList, pgText t = true) :
    (patch.written d row now).record.reason = patch.reasonFor r ↔ patch.Faithful r := by
  have reason : patch.reasonFor row.record = patch.reasonFor r := by
    unfold StatusPatch.reasonFor
    rw [same.reason]
  unfold StatusPatch.written
  by_cases pending : row.status = .pending
  · rw [if_pos pending]
    show ((d.param (patch.reasonFor row.record)).filter (· ≠ "")).map Json.str = patch.reasonFor r ↔ _
    rw [reason]
    constructor
    · intro read
      refine ⟨fun _ => plainReason_iff.2 ⟨plain, read⟩, fun final => ?_⟩
      exact (terminal_iff.1 final (same.status.trans pending)).elim
    · exact fun faithful => (plainReason_iff.1 (faithful.first (same.status.trans pending))).2
  · rw [if_neg pending, ← same.reason]
    have final : r.status ≠ .pending := fun other => pending (same.status.symm.trans other)
    constructor
    · exact fun held => ⟨fun other => (final other).elim, fun _ _ => held.symm⟩
    · exact fun faithful => (faithful.repeated (terminal_iff.2 final) (StatusPatch.repeats open' final)).symm

/-- Apart from the reason, the row is what memory holds. -/
theorem StatusPatch.written_same (same : SameRecord true r row.record) (open' : ¬patch.Refused r)
    (read : (patch.written d row now).record.reason = patch.reasonFor r) :
    SameRecord true (patch.applied r now') (patch.written d row now).record := by
  refine ⟨?_, ?_, read.symm⟩
  · unfold StatusPatch.written
    split <;> exact ⟨same.referenceId, same.type, same.amount, same.currency, same.externalId, same.partyId⟩
  · show patch.status = (patch.written d row now).status
    unfold StatusPatch.written
    split
    · rfl
    · rename_i final
      exact (StatusPatch.repeats open' fun other => final (same.status.symm.trans other)).trans same.status

end Written

/-- A patch that is not refused: memory takes it over, the table only into a pending row. -/
theorem treated_rewrite {patch : StatusPatch} {r : MomoTransactionRecord} {row : MomoRow} (sync : InSync (c :: rest) w v)
    (plain : pgText referenceId = true) (here : w.memory.get referenceId = some r) (there : Database.row v.db referenceId = some row)
    (same : SameRecord true r row.record) (open' : ¬patch.Refused r) :
    Treated rest (r.externalId.isWellFormed = true ∧ patch.Faithful r)
      (((upsertPatch (d.withPool false) referenceId patch).run (answers clock elsewhere) m w).1.map .found,
        ((upsertPatch (d.withPool false) referenceId patch).run (answers clock elsewhere) m w).2)
      (((upsertPatch (d.withPool true) referenceId patch).run (answers clock' elsewhere') n v).1.map .found,
        ((upsertPatch (d.withPool true) referenceId patch).run (answers clock' elsewhere') n v).2) := by
  have storable := sync.storable referenceId row there
  have name := Database.row_referenceId there
  have there' : (Database.row v.db referenceId).map MomoRow.record = some row.record := by rw [there]; rfl
  have openRow : ¬patch.Refused row.record := by
    unfold StatusPatch.Refused
    rw [← same.status]
    exact open'
  have reason : patch.reasonFor row.record = patch.reasonFor r := by
    unfold StatusPatch.reasonFor
    rw [same.reason]
  rw [run_upsert_memory here open']
  by_cases ok : assertTexts (values (d.withPool true) (patch.applied row.record (clock' (n + 1)))).texts = .ok ()
  case neg =>
    rw [run_upsert_error plain there' openRow (Database.persist_refused ok)]
    refine .refused (fun good => ok (storable.texts_iff.2 ?_)) (by rintro e ⟨⟩)
    rw [reason]
    exact (plainReason_iff.1 (good.2.plainReason open' same storable)).1
  have texts := storable.texts_iff.1 ok
  have present : Database.row v.db (values (d.withPool true) (patch.applied row.record (clock' (n + 1)))).referenceId = some row := by
    show Database.row v.db row.referenceId = some row
    rw [name, there]
  obtain ⟨db, ran, after⟩ := Database.persist_present present storable.uuid ok
    (pgNumeric_fixedPoint storable.amount.2) storable.currency storable.amount.1
  rw [run_upsert_pool plain there' openRow ran]
  have after : Database.row db = Function.update (Database.row v.db) referenceId (some (patch.written (d.withPool true) row (clock' (n + 1)))) := by
    rw [after, ← name]
    rfl
  have back : (patch.written (d.withPool true) row (clock' (n + 1))).record.reason = patch.reasonFor r ↔ patch.Faithful r :=
    patch.written_reason_iff same open' (reason ▸ texts)
  have found : (Database.row db referenceId).map MomoRow.record = some (patch.written (d.withPool true) row (clock' (n + 1))).record := by
    rw [after, Function.update_self]
    rfl
  rw [found]
  refine ⟨⟨fun alike => ?_, fun good => .some ?_⟩, fun good => ?_⟩
  · cases alike with
    | some alike =>
      have faithful := back.1 alike.reason.symm
      exact ⟨(SameRecord.whole_iff (patch.written_same same open' (back.2 faithful))).1 alike, faithful⟩
  · exact (SameRecord.whole_iff (patch.written_same same open' (back.2 good.2))).2 good.1
  · exact sync.written (Memory.set_get ..) after (patch.written_same same open' (back.2 good.2)) (patch.written_storable storable texts)
      (sync.tail.spent there)

theorem treated_upsert {patch : StatusPatch} (sync : InSync (.upsertStatus referenceId patch :: rest) w v) :
    Treated rest ((StoreCall.upsertStatus referenceId patch).Meets w)
      (((StoreCall.upsertStatus referenceId patch).body (d.withPool false)).run (answers clock elsewhere) m w)
      (((StoreCall.upsertStatus referenceId patch).body (d.withPool true)).run (answers clock' elsewhere') n v) := by
  show Treated _ (pgText referenceId = true ∧
      ∀ existing, w.memory.get referenceId = some existing → existing.externalId.isWellFormed = true ∧ patch.Faithful existing)
    (Prog.run _ (StoreReply.found <$> upsertPatch (d.withPool false) referenceId patch) m w)
    (Prog.run _ (StoreReply.found <$> upsertPatch (d.withPool true) referenceId patch) n v)
  rw [Prog.run_map, Prog.run_map]
  by_cases plain : pgText referenceId = true
  case neg =>
    have none : w.memory.get referenceId = none := Option.eq_none_iff_forall_ne_some.2 fun r here => plain (sync.plain here)
    have refused : (upsertPatch (d.withPool true) referenceId patch).run (answers clock' elsewhere') n v =
      (.error (queryError .other), n + 1, v) := by
      unfold upsertPatch
      rw [Prog.run_bind, run_find_refused (Bool.eq_false_of_not_eq_true plain)]
    rw [run_upsert_unknown (run_find_memory.trans (by rw [none])), refused]
    exact .refused (fun good => plain good.1) (by rintro e ⟨⟩)
  rcases sync.cases referenceId with ⟨none, none'⟩ | ⟨r, row, here, there, same⟩
  · rw [run_upsert_unknown (run_find_memory.trans (by rw [none])), run_upsert_unknown ((run_find_pool plain).trans (by rw [none']; rfl))]
    refine .returned ⟨plain, fun existing here => ?_⟩ .none sync.tail
    rw [none] at here
    cases here
  have there' : (Database.row v.db referenceId).map MomoRow.record = some row.record := by rw [there]; rfl
  have status : row.record.status = r.status := same.status.symm
  have meets : (pgText referenceId = true ∧
      ∀ existing, w.memory.get referenceId = some existing → existing.externalId.isWellFormed = true ∧ patch.Faithful existing) ↔
        r.externalId.isWellFormed = true ∧ patch.Faithful r := by
    rw [here]
    simp [plain]
  rw [meets]
  by_cases refused : patch.Refused r
  · have refused' : patch.Refused row.record := by
      unfold StatusPatch.Refused
      rw [status]
      exact refused
    rw [run_upsert_kept (run_find_memory.trans (by rw [here])) refused, run_upsert_kept ((run_find_pool plain).trans (by rw [there'])) refused']
    have faithful : patch.Faithful r := by
      refine ⟨fun pending => ?_, fun _ again => (refused.2 again).elim⟩
      rw [StatusPatch.Refused, pending] at refused
      cases refused.1
    have alike := found_iff (.some same : Option.Rel (SameRecord true) (some r) (some row.record))
    refine ⟨⟨fun same => ⟨alike.1 same r rfl, faithful⟩, fun good => alike.2 fun r' is => ?_⟩, fun _ => sync.tail⟩
    exact Option.some.inj is ▸ good.1
  exact treated_rewrite sync plain here there same refused

/-- **One call**: answered alike exactly if it meets the condition, and the stores are in sync again. -/
theorem treated (sync : InSync (c :: rest) w v) : Treated rest (c.Meets w) ((c.body (d.withPool false)).run (answers clock elsewhere) m w)
    ((c.body (d.withPool true)).run (answers clock' elsewhere') n v) := by
  cases c with
  | save type dto referenceId createdAt updatedAt => exact treated_save sync
  | upsertStatus referenceId patch => exact treated_upsert sync
  | find referenceId => exact treated_find sync
  | findByExternalId externalId type => exact treated_findByExternalId sync
  | listPending => exact treated_listPending sync

end Calls

/-- **When the stores are interchangeable**, for any calls served in turn from the
empty store: the answers agree one by one exactly if each call, in the state it
finds, brings no text with a NUL and gets at no merchant reference with half of a
surrogate pair, a pending record gets a reason that is no empty text, and a terminal
status that is delivered again comes with the reason stored. -/
theorem stores_agree_iff (d : Deployment) (clock clock' : Nat → Timestamp) (elsewhere elsewhere' : Outside Op Op.Answer World)
    (calls : List StoreCall) (made : ∀ c ∈ calls, c.Made) (fresh : (calls.filterMap StoreCall.saves).Nodup) :
    List.Forall₂ SameOutcome (outcomes d false clock elsewhere calls) (outcomes d true clock' elsewhere' calls) ↔
      Along (answers clock elsewhere) (StoreCall.body (d.withPool false)) (fun c w => c.Meets w) calls 0 .empty := by
  apply serve_alike_along_iff (I := InSync)
  · intro c rest w v m n sync
    obtain ⟨alike, kept⟩ := @treated d clock clock' elsewhere elsewhere' rest c w v m n sync
    exact ⟨alike, kept⟩
  · exact InSync.start made fresh

namespace Sample

def dto : ChargeDto :=
  { amount := "5", currency := "EUR", externalId := "order", partyId := "2348012345678", payerMessage := none, payeeNote := none }

/-- A collection that succeeds, and the provider's word on it again with another reason. -/
def redelivered (reason : String) : List StoreCall :=
  [.save .collection dto referenceId 0 0, .upsertStatus referenceId ⟨.successful, some (some (.str "paid"))⟩,
    .upsertStatus referenceId ⟨.successful, some (some (.str reason))⟩, .find referenceId]

/-- The answer to everything the store does not ask. -/
def nowhere : Outside Op Op.Answer World
  | _, .randomUUID, w => ("", w)
  | _, .dateNow, w => ((0 : Nat), w)
  | _, .memory _, w => (.error (.error ""), w)
  | _, .query _, w => (.error .other, w)
  | _, .getToken _, w => (.error (.error ""), w)
  | _, .post _, w => (none, w)
  | _, .get _, w => (none, w)

end Sample

theorem stores_agree_iff_sample :
    List.Forall₂ SameOutcome (outcomes (Sample.deployment true) false (fun _ => 0) Sample.nowhere (Sample.redelivered "paid"))
      (outcomes (Sample.deployment true) true (fun _ => 0) Sample.nowhere (Sample.redelivered "paid")) ↔
      Along (answers (fun _ => 0) Sample.nowhere) (StoreCall.body ((Sample.deployment true).withPool false)) (fun c w => c.Meets w)
        (Sample.redelivered "paid") 0 .empty :=
  stores_agree_iff (Sample.deployment true) (fun _ => 0) (fun _ => 0) Sample.nowhere Sample.nowhere (Sample.redelivered "paid")
    (by
      intro c mem
      simp only [Sample.redelivered, List.mem_cons, List.not_mem_nil, or_false] at mem
      rcases mem with rfl | rfl | rfl | rfl
      · exact ⟨by decide +kernel, by decide +kernel⟩
      all_goals exact trivial)
    (by decide)

/-- The text of the reason in an answer. -/
def reasonShown : Except Exception StoreReply → Option String
  | .ok (.found (some record)) => match record.reason with
    | some (.str reason) => some reason
    | _ => none
  | _ => none

theorem sameOutcome_reason {x y : Except Exception StoreReply} (same : SameOutcome x y) : reasonShown x = reasonShown y := by
  rcases x with e | a <;> rcases y with e' | b
  · rfl
  · exact same.elim
  · exact same.elim
  · cases a <;> cases b
    case found.found r r' =>
      have related : Option.Rel (SameRecord false) r r' := same
      cases related with
      | none => rfl
      | some agree =>
        unfold reasonShown
        dsimp only
        rw [agree.reason]
    all_goals first | rfl | exact same.elim

/-- The second delivery's reason replaces the first one's in memory, and not in the table. -/
theorem redelivered_reason_differs :
    (outcomes (Sample.deployment true) false (fun _ => 0) Sample.nowhere (Sample.redelivered "late")).map reasonShown =
      [none, some "paid", some "late", some "late"] ∧
    (outcomes (Sample.deployment true) true (fun _ => 0) Sample.nowhere (Sample.redelivered "late")).map reasonShown =
      [none, some "paid", some "paid", some "paid"] ∧
    ¬List.Forall₂ SameOutcome (outcomes (Sample.deployment true) false (fun _ => 0) Sample.nowhere (Sample.redelivered "late"))
      (outcomes (Sample.deployment true) true (fun _ => 0) Sample.nowhere (Sample.redelivered "late")) := by
  have left : (outcomes (Sample.deployment true) false (fun _ => 0) Sample.nowhere (Sample.redelivered "late")).map reasonShown =
    [none, some "paid", some "late", some "late"] := by decide +kernel
  have right : (outcomes (Sample.deployment true) true (fun _ => 0) Sample.nowhere (Sample.redelivered "late")).map reasonShown =
    [none, some "paid", some "paid", some "paid"] := by decide +kernel
  refine ⟨left, right, fun same => ?_⟩
  have shown : List.Forall₂ Eq ((outcomes (Sample.deployment true) false (fun _ => 0) Sample.nowhere (Sample.redelivered "late")).map reasonShown)
      ((outcomes (Sample.deployment true) true (fun _ => 0) Sample.nowhere (Sample.redelivered "late")).map reasonShown) := by
    rw [List.forall₂_map_left_iff, List.forall₂_map_right_iff]
    exact same.imp fun _ _ => sameOutcome_reason
  rw [List.forall₂_eq_eq_eq, left, right] at shown
  exact absurd shown (by decide)

end AfriPay.Momo
