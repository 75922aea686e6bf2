import AfriPay.Ledger.Register
import AfriPay.Momo.Service

/-!
# Both stores keep a register of charges

Abstractly the store is a register: a charge is opened under a fresh reference
id, its name is the pair of type and merchant reference, and a revision changes
nothing but status, reason and time of update. In SQL mode a revision of a
terminal row does nothing at all. `exec_change` says that of every operation.
-/

namespace AfriPay.Momo
open Calls Text Storage Ledger MomoTransactionStore

/-- What names a charge: its type and the merchant's reference. -/
abbrev MomoTransactionRecord.pair (r : MomoTransactionRecord) : MomoTransactionType × JsString := (r.type, r.externalId)

abbrev MomoRow.pair (r : MomoRow) : MomoTransactionType × JsString := (r.type, .text r.externalId)

/-- What every revision of a record keeps. -/
def MomoTransactionRecord.Kept (r r' : MomoTransactionRecord) : Prop := r' = patched r r'.status r'.reason r'.updatedAt

theorem MomoTransactionRecord.Kept.refl (r : MomoTransactionRecord) : r.Kept r := rfl

theorem MomoTransactionRecord.Kept.trans {r₁ r₂ r₃ : MomoTransactionRecord} (h : r₁.Kept r₂) (h' : r₂.Kept r₃) : r₁.Kept r₃ := by
  unfold MomoTransactionRecord.Kept at *
  rw [h', h]
  rfl

theorem MomoTransactionRecord.Kept.pair {r r' : MomoTransactionRecord} (h : r.Kept r') : r'.pair = r.pair := by
  rw [h]
  rfl

/-- What every revision of a row keeps: the details always, a terminal row altogether. -/
structure MomoRow.Kept (r r' : MomoRow) : Prop where
  details : r' = { r with status := r'.status, reason := r'.reason, updatedAt := r'.updatedAt }
  final : r.status.terminal = true → r' = r

theorem MomoRow.Kept.refl (r : MomoRow) : r.Kept r := ⟨rfl, fun _ => rfl⟩

theorem MomoRow.Kept.trans {r₁ r₂ r₃ : MomoRow} (h : r₁.Kept r₂) (h' : r₂.Kept r₃) : r₁.Kept r₃ := by
  constructor
  · rw [h'.details, h.details]
  · intro final
    obtain rfl := h.final final
    exact h'.final final

/-! ## Amounts -/

/-- What is known of the text of a stored amount: its number is the nearest
double of its value, a positive count of hundredths below `10¹²`. -/
structure Payable (amount : String) : Prop where
  number : stringToNumber amount = toDouble (decimalValue amount)
  hundredths : ∃ m : ℕ, 0 < m ∧ m < 10 ^ 14 ∧ decimalValue amount = (m : ℚ) / 100

theorem validPayment_payable {amount currency : String} {externalId : JsString} {party : String}
    (h : validPayment amount currency externalId party = true) : Payable amount := by
  simp only [validPayment, Bool.and_eq_true, Bool.not_eq_true'] at h
  obtain ⟨⟨⟨⟨⟨numeral, positive⟩, -⟩, -⟩, -⟩, -⟩ := h
  have number := stringToNumber_numeral numeral
  have value : decimalValue amount = (scaledValue 2 amount : ℚ) / 100 := by
    rw [scaledValue_eq (fractionPart_length_le numeral)]
    norm_num
  refine ⟨number, scaledValue 2 amount, ?_, scaledValue_lt numeral (le_refl 2), value⟩
  by_contra zero
  have zero : scaledValue 2 amount = 0 := by omega
  rw [number, value, zero] at positive
  revert positive
  decide +kernel

/-- Amounts that are the same number have the same value. -/
theorem Payable.value_eq {a b : String} (ha : Payable a) (hb : Payable b)
    (same : (stringToNumber a).same (stringToNumber b) = true) : decimalValue a = decimalValue b := by
  obtain ⟨m, hm, hm', va⟩ := ha.hundredths
  obtain ⟨n, hn, hn', vb⟩ := hb.hundredths
  have doubles : toDouble ((m : ℚ) / 100) = toDouble ((n : ℚ) / 100) := by
    rw [ha.number, hb.number, va, vb] at same
    unfold JsNumber.same at same
    split at same
    · cases same
    · exact of_decide_eq_true same
  rw [va, vb, decimal_eq_of_toDouble_eq hm hm' hn hn' doubles]

/-- The amount a row reads back has the value of the text it was stored from. -/
theorem stored_value {amount : String} {units : Nat} (h : pgNumeric amount = .ok units) :
    decimalValue (fixedPoint 12 units) = decimalValue amount := by
  have numeral : matchesDecimal 18 12 amount = true := by
    unfold pgNumeric at h
    split at h
    · rename_i numeral; exact numeral
    · cases h
  rw [decimalValue_fixedPoint (by decide), pgNumeric_ok h, scaledValue_eq (fractionPart_length_le numeral)]
  exact mul_div_cancel_right₀ _ (by norm_num)

theorem Payable.stored {amount : String} {units : Nat} (h : Payable amount) (ok : pgNumeric amount = .ok units) :
    Payable (fixedPoint 12 units) := by
  constructor
  · rw [stringToNumber_fixedPoint (by decide), decimalValue_fixedPoint (by decide)]
  · rw [stored_value ok]
    exact h.hundredths

/-! ## SQL mode -/

/-- The rows by reference id. -/
def Database.row (db : Database) : Register String MomoRow := fun referenceId => db.find (·.referenceId = referenceId)

/-- What `persist` may insert. -/
def RowOpens (v : MomoValues) (referenceId : String) (row : MomoRow) : Prop :=
  referenceId = v.referenceId ∧ ∃ amount currency, pgNumeric v.amount = .ok amount ∧ pgChar 3 v.currency = .ok currency ∧
    row = v.row amount currency

/-- What `persist` does to a row that is there: the `WHERE` clause spares a terminal one. -/
def RowRevises (v : MomoValues) (referenceId : String) (row row' : MomoRow) : Prop :=
  referenceId = v.referenceId ∧ row' = if row.status = .pending then Database.setStatus v row else row

theorem RowRevises.kept {v : MomoValues} {referenceId : String} {row row' : MomoRow} (h : RowRevises v referenceId row row') :
    row.Kept row' := by
  obtain ⟨-, rfl⟩ := h
  split
  · rename_i pending
    refine ⟨rfl, fun final => ?_⟩
    rw [pending] at final
    cases final
  · exact .refl row

theorem Database.row_referenceId {db : Database} {referenceId : String} {row : MomoRow}
    (h : Database.row db referenceId = some row) : row.referenceId = referenceId := by
  simpa using (Table.mem_of_find h).2

/-- The rows after an update of the one under a reference id. -/
theorem Database.row_update {db updated : Database} {v : MomoValues} {row : MomoRow} (found : Database.row db v.referenceId = some row)
    (ok : db.update (updatable v.referenceId) (setStatus v) = some updated) :
    Database.row updated = Function.update (Database.row db) v.referenceId
      (some (Table.assign (updatable v.referenceId) (setStatus v) row)) := by
  funext referenceId
  have moved := Table.find_update ok (·.referenceId) (fun _ => rfl) referenceId
  by_cases same : referenceId = v.referenceId
  · subst same
    rw [Function.update_self]
    exact moved.trans (congrArg (Option.map _) found)
  · rw [Function.update_of_ne same]
    refine moved.trans ?_
    cases there : Database.row db referenceId with
    | none => exact congrArg (Option.map _) there
    | some other =>
      have key : other.referenceId = referenceId := Database.row_referenceId there
      rw [show db.find _ = some other from there]
      simp [Table.assign, updatable, key, same]

theorem Database.row_insert {db inserted : Database} {row : MomoRow} (absent : Database.row db row.referenceId = none)
    (ok : db.insert row = some inserted) :
    Database.row inserted = Function.update (Database.row db) row.referenceId (some row) := by
  funext referenceId
  have moved := Table.find_insert ok (·.referenceId) referenceId
  by_cases same : referenceId = row.referenceId
  · subst same
    rw [Function.update_self]
    refine moved.trans ?_
    rw [show db.find _ = none from absent, if_pos rfl, Option.none_or]
  · rw [Function.update_of_ne same]
    refine moved.trans ?_
    rw [if_neg (Ne.symm same), Option.or_none]
    rfl

/-- A row that could be inserted has a pair of its own. -/
theorem Database.pair_of_insert {db inserted : Database} {row : MomoRow} (ok : db.insert row = some inserted) {j : String}
    {other : MomoRow} (there : Database.row db j = some other) : other.pair ≠ row.pair := by
  intro same
  have free := Table.insert_free ok (Table.mem_of_find there).1
  simp only [MomoRow.clash, Bool.or_eq_false_iff, Bool.and_eq_false_iff, decide_eq_false_iff_not] at free
  obtain ⟨type, externalId⟩ := Prod.mk.inj same
  rcases free.2 with other | other
  · exact other type
  · exact other (JsString.text.inj externalId)

/-- The two ends of `persist`: a new row, if its names are free, or a revision of the row that is there. -/
theorem Database.persist_cases {db db' : Database} {v : MomoValues} {rows : List MomoRow}
    (h : Database.persist db v = .ok (rows, db')) :
    (∃ row, RowOpens v v.referenceId row ∧ Database.row db v.referenceId = none ∧
        (∀ j other, Database.row db j = some other → other.pair ≠ row.pair) ∧
        Database.row db' = Function.update (Database.row db) v.referenceId (some row)) ∨
      ∃ row row', Database.row db v.referenceId = some row ∧ RowRevises v v.referenceId row row' ∧
        Database.row db' = Function.update (Database.row db) v.referenceId (some row') := by
  obtain ⟨_, -, h⟩ := bind_ok h
  obtain ⟨_, -, h⟩ := bind_ok h
  obtain ⟨amount, numeric, h⟩ := bind_ok h
  obtain ⟨currency, char, h⟩ := bind_ok h
  obtain ⟨_, -, h⟩ := bind_ok h
  split at h
  · rename_i row found
    obtain ⟨updated, ok, h⟩ := bind_ok h
    cases h
    have key : row.referenceId = v.referenceId := Database.row_referenceId found
    refine .inr ⟨row, Table.assign (updatable v.referenceId) (setStatus v) row, found, ⟨rfl, ?_⟩, Database.row_update found (unique_ok ok)⟩
    simp [Table.assign, updatable, key]
  · rename_i absent
    obtain ⟨inserted, ok, h⟩ := bind_ok h
    cases h
    have ok := unique_ok ok
    refine .inl ⟨v.row amount currency, ⟨rfl, amount, currency, numeric, char, rfl⟩, absent, fun j other there => ?_, ?_⟩
    · exact Database.pair_of_insert ok there
    · exact @Database.row_insert _ _ (v.row amount currency) absent ok

theorem Database.persist_change {db db' : Database} {v : MomoValues} {rows : List MomoRow}
    (h : Database.persist db v = .ok (rows, db')) :
    Register.Change MomoRow.pair (RowOpens v) (RowRevises v) (Database.row db) (Database.row db') := by
  rcases Database.persist_cases h with ⟨row, opens, fresh, free, after⟩ | ⟨row, row', here, revises, after⟩
  · rw [after]
    exact .opened fresh free opens
  · rw [after]
    exact .revised here revises

/-- The row a first `persist` leaves. -/
theorem Database.persist_opens {db db' : Database} {v : MomoValues} {rows : List MomoRow}
    (h : Database.persist db v = .ok (rows, db')) (fresh : Database.row db v.referenceId = none) :
    ∃ row, RowOpens v v.referenceId row ∧ Database.row db' v.referenceId = some row := by
  rcases Database.persist_cases h with ⟨row, opens, -, -, after⟩ | ⟨row, row', here, -, -⟩
  · exact ⟨row, opens, by rw [after, Function.update_self]⟩
  · rw [fresh] at here
    cases here

/-- What a statement may do to the rows: nothing, unless it is `persist`. -/
theorem Statement.run_change {s : Statement} {db db' : Database} {rows : List MomoRow} (h : s.run db = .ok (rows, db')) :
    db' = db ∨ ∃ v, s = .persist v ∧
      Register.Change MomoRow.pair (RowOpens v) (RowRevises v) (Database.row db) (Database.row db') := by
  cases s with
  | selectByReference referenceId => obtain ⟨_, -, h⟩ := bind_ok h; cases h; exact .inl rfl
  | selectByExternalId externalId type => obtain ⟨_, -, h⟩ := bind_ok h; cases h; exact .inl rfl
  | selectPending => cases h; exact .inl rfl
  | persist v => exact .inr ⟨v, rfl, Database.persist_change h⟩

/-! ## Both modes -/

/-- What an operation may open: the record a segment saves, or the row a statement inserts. -/
def Opens (d : Deployment) (op : Op) (referenceId : String) (r : MomoTransactionRecord) : Prop :=
  (d.pool = false ∧ op = .memory (.save r) ∧ referenceId = r.referenceId) ∨
    (d.pool = true ∧ ∃ v row, op = .query (.persist v) ∧ RowOpens v referenceId row ∧ r = row.record)

def Revises (d : Deployment) (op : Op) (referenceId : String) (r r' : MomoTransactionRecord) : Prop :=
  (d.pool = false ∧ op = .memory (.set referenceId r')) ∨
    (d.pool = true ∧ ∃ v row row', op = .query (.persist v) ∧ RowRevises v referenceId row row' ∧ r = row.record ∧ r' = row'.record)

/-- What the service sees to before it issues a segment that writes. -/
def Op.Proper (d : Deployment) (w : World) : Op → Prop
  | .memory (.save r) => w.record d r.referenceId = none
  | .memory (.set referenceId r) => ∃ current, w.record d referenceId = some current ∧ current.Kept r
  | _ => True

section Exec

variable {d : Deployment} {op : Op} {w w' : World} {ans : op.Answer}

theorem World.record_pool (w : World) (pool : d.pool = true) :
    w.record d = fun referenceId => (Database.row w.db referenceId).map MomoRow.record := by
  funext referenceId
  rw [World.record, if_pos pool]
  rfl

theorem World.record_memory (w : World) (pool : ¬ d.pool = true) : w.record d = w.memory.get := by
  funext referenceId
  rw [World.record, if_neg pool]

theorem Memory.set_get (m : Memory) (referenceId : String) (r : MomoTransactionRecord) :
    (OrderedMap.set m referenceId r).get = Function.update m.get referenceId (some r) := by
  funext j
  rw [OrderedMap.get_set, Function.update_apply]

/-- What a segment may do to the map. -/
theorem Memory.run_change {op : MemoryOp} {m m' : Memory} {a : op.Answer} (memory : d.pool = false)
    (h : op.run m = .ok (a, m')) (keyed : ∀ referenceId r, m.get referenceId = some r → r.referenceId = referenceId)
    (saves : ∀ r, op = .save r → m.get r.referenceId = none)
    (sets : ∀ referenceId r, op = .set referenceId r → ∃ current, m.get referenceId = some current) :
    Register.Change MomoTransactionRecord.pair (Opens d (.memory op)) (Revises d (.memory op)) m.get m'.get := by
  cases op with
  | find referenceId => cases h; exact .same
  | findByExternalId externalId type => cases h; exact .same
  | listPending => cases h; exact .same
  | set referenceId r =>
    obtain ⟨current, here⟩ := sets referenceId r rfl
    obtain rfl : OrderedMap.set m referenceId r = m' := congrArg Prod.snd (Except.ok.inj h)
    rw [Memory.set_get]
    exact .revised here (.inl ⟨memory, rfl⟩)
  | save r =>
    have h : m.save r = .ok (a, m') := h
    unfold Memory.save at h
    split at h
    · cases h
    rename_i free
    cases h
    rw [Memory.set_get]
    refine .opened (saves r rfl) ?_ (.inl ⟨memory, rfl, rfl⟩)
    intro j other there same
    obtain ⟨type, externalId⟩ := Prod.mk.inj same
    -- the record that has the name stands under another reference id
    refine free (List.any_eq_true.2 ⟨other, (OrderedMap.mem_values_iff m).2 ⟨j, there⟩, ?_⟩)
    have distinct : ¬ other.referenceId = r.referenceId := by
      intro same
      rw [← keyed j other there, same, saves r rfl] at there
      cases there
    simp [type, externalId, distinct]

theorem exec_rows (h : exec op w ans w') : w'.db = w.db ∨ ∃ v, op = .query (.persist v) ∧
    Register.Change MomoRow.pair (RowOpens v) (RowRevises v) (Database.row w.db) (Database.row w'.db) := by
  cases op with
  | query s =>
    obtain ⟨db, queried, rfl⟩ := h
    have ran : ∀ {rows : List MomoRow}, s.run w.db = .ok (rows, db) → db = w.db ∨ ∃ v, Op.query s = .query (.persist v) ∧
        Register.Change MomoRow.pair (RowOpens v) (RowRevises v) (Database.row w.db) (Database.row db) := by
      intro rows ok
      rcases Statement.run_change ok with same | ⟨v, rfl, change⟩
      · exact .inl same
      · exact .inr ⟨v, rfl, change⟩
    cases queried with
    | ran ok => exact ran ok
    | unanswered ok => exact ran ok
    | refused failed => exact .inl rfl
    | unreached => exact .inl rfl
  | randomUUID => rw [h.2.2]; exact .inl rfl
  | memory op => obtain ⟨m, -, rfl⟩ := h; exact .inl rfl
  | dateNow => rw [show w' = w from h]; exact .inl rfl
  | getToken type => rw [show w' = w from h]; exact .inl rfl
  | post request => rw [show w' = w from h]; exact .inl rfl
  | get request => rw [show w' = w from h]; exact .inl rfl

/-- Every operation changes the register as its name says, or leaves it alone. -/
theorem exec_change (h : exec op w ans w') (keyed : ∀ referenceId r, w.record d referenceId = some r → r.referenceId = referenceId)
    (proper : op.Proper d w) :
    Register.Change MomoTransactionRecord.pair (Opens d op) (Revises d op) (w.record d) (w'.record d) := by
  by_cases pool : d.pool = true
  · rw [w.record_pool pool, w'.record_pool pool]
    rcases exec_rows h with same | ⟨v, rfl, change⟩
    · rw [same]; exact .same
    · exact change.map MomoRow.record (fun _ => rfl) (fun _ row opens => .inr ⟨pool, v, row, rfl, opens, rfl⟩)
        fun _ row row' revises => .inr ⟨pool, v, row, row', rfl, revises, rfl, rfl⟩
  · rw [w.record_memory pool] at keyed ⊢
    rw [w'.record_memory pool]
    cases op with
    | memory op =>
      obtain ⟨m, segment, rfl⟩ := h
      cases segment with
      | threw failed => exact .same
      | ran ok =>
        refine Memory.run_change (by simpa using pool) ok keyed ?_ ?_
        · rintro r rfl
          have fresh : w.record d r.referenceId = none := proper
          rwa [w.record_memory pool] at fresh
        · rintro referenceId r rfl
          obtain ⟨current, here, -⟩ : ∃ current, w.record d referenceId = some current ∧ current.Kept r := proper
          rw [w.record_memory pool] at here
          exact ⟨current, here⟩
    | randomUUID => rw [h.2.2]; exact .same
    | query s => obtain ⟨db, -, rfl⟩ := h; exact .same
    | dateNow => rw [show w' = w from h]; exact .same
    | getToken type => rw [show w' = w from h]; exact .same
    | post request => rw [show w' = w from h]; exact .same
    | get request => rw [show w' = w from h]; exact .same

/-- A revision keeps what it may not change. -/
theorem Revises.kept (proper : op.Proper d w) {referenceId : String} {r r' : MomoTransactionRecord}
    (here : w.record d referenceId = some r) (h : Revises d op referenceId r r') : r.Kept r' := by
  rcases h with ⟨-, rfl⟩ | ⟨-, v, row, row', rfl, revises, rfl, rfl⟩
  · obtain ⟨current, here', kept⟩ : ∃ current, w.record d referenceId = some current ∧ current.Kept r' := proper
    obtain rfl : r = current := Option.some.inj (here.symm.trans here')
    exact kept
  · rw [revises.kept.details]
    rfl

end Exec

end AfriPay.Momo
