import AfriPay.Momo.StoreCalls

/-!
# Two mobile money stores in sync

What a memory and a table that have served the same calls have in common
(`InSync`), what `persist` comes to on such a table, and which calls the two
stores answer alike. They part over a reason: memory takes whatever a repeated
delivery brings, the table keeps what came with the first terminal status. And
over half of a surrogate pair in a merchant reference, which the table has as U+FFFD.
-/

namespace AfriPay.Momo
open Calls Text Storage MomoTransactionStore

/-! ## The statement `persist` -/

theorem assertTexts_ok_iff {texts : List String} : assertTexts texts = .ok () ↔ ∀ t ∈ texts, pgText t = true := by
  unfold assertTexts
  rw [← List.all_eq_true]
  split
  · rename_i all
    exact iff_of_true rfl all
  · rename_i some'
    exact iff_of_false (by rintro ⟨⟩) some'

theorem assertTexts_error {texts : List String} (refused : assertTexts texts ≠ .ok ()) : assertTexts texts = .error .other := by
  unfold assertTexts at refused ⊢
  split at refused
  · exact (refused rfl).elim
  · rename_i some'
    exact if_neg some'

/-- An amount read back from its column fits the column. -/
theorem pgNumeric_fixedPoint {n : Nat} (fits : n < 10 ^ 30) : pgNumeric (fixedPoint 12 n) = .ok n := by
  have short : (Nat.toDigits 10 (n / 10 ^ 12)).length ≤ 18 :=
    (Nat.length_toDigits_le_iff (by decide) (by decide)).2 (Nat.div_lt_of_lt_mul (by rw [← pow_add]; exact fits))
  have numeral := matchesDecimal_mono (matchesDecimal_fixedPoint_length (by decide : 0 < 12) n) short (le_refl 12)
  have value : (scaledValue 12 (fixedPoint 12 n) : ℚ) = (n : ℚ) := by
    rw [scaledValue_eq (fractionPart_length_le numeral), decimalValue_fixedPoint (by decide), div_mul_cancel₀ _ (pow_ne_zero 12 (by norm_num))]
  rw [pgNumeric, if_pos numeral, Nat.cast_injective value]

section Persist

variable {db : Database} {v : MomoValues}

/-- A text with a NUL is refused before anything is looked up. -/
theorem Database.persist_refused (texts : assertTexts v.texts ≠ .ok ()) : Database.persist db v = .error .other := by
  unfold Database.persist assertUuid
  rw [assertTexts_error texts]
  split <;> rfl

/-- What `persist` does to a row that is there: with its amount and currency unchanged it always succeeds. -/
theorem Database.persist_present {row : MomoRow} {amount : Nat} {currency : String} (here : Database.row db v.referenceId = some row)
    (uuid : isUuid v.referenceId = true) (texts : assertTexts v.texts = .ok ()) (numeric : pgNumeric v.amount = .ok amount)
    (char : pgChar 3 v.currency = .ok currency) (positive : amount ≠ 0) : ∃ db', Database.persist db v = .ok ([], db') ∧
      Database.row db' = Function.update (Database.row db) v.referenceId (some (if row.status = .pending then setStatus v row else row)) := by
  have same : ∀ a b, MomoRow.clash (Table.assign (updatable v.referenceId) (setStatus v) a) (Table.assign (updatable v.referenceId) (setStatus v) b) =
      MomoRow.clash a b := by
    intro a b
    unfold Table.assign
    split <;> split <;> rfl
  obtain ⟨updated, ok⟩ : ∃ db', db.update (updatable v.referenceId) (setStatus v) = some db' :=
    Table.update_of_free fun a _ b _ apart => (same a b).trans apart
  have found : db.find (fun r => decide (r.referenceId = v.referenceId)) = some row := here
  have ran : Database.persist db v = .ok ([], updated) := by
    simp [Database.persist, assertUuid_ok.2 uuid, texts, numeric, char, checkPositive, positive, found, ok, Storage.unique, bind, Except.bind]
    rfl
  refine ⟨updated, ran, ?_⟩
  rcases Database.persist_cases ran with ⟨_, -, absent, -, -⟩ | ⟨row', row'', there, ⟨-, revised⟩, after⟩
  · rw [absent] at here
    cases here
  · obtain rfl := Option.some.inj (there.symm.trans here)
    rw [after, revised]

/-- What `persist` does under a new reference id: it inserts the row, unless the merchant's reference is taken. -/
theorem Database.persist_absent {amount : Nat} {currency : String} (absent : Database.row db v.referenceId = none)
    (uuid : isUuid v.referenceId = true) (texts : assertTexts v.texts = .ok ()) (numeric : pgNumeric v.amount = .ok amount)
    (char : pgChar 3 v.currency = .ok currency) (positive : amount ≠ 0) :
    ((∃ j other, Database.row db j = some other ∧ other.pair = (v.type, .text v.externalId)) ∧ Database.persist db v = .error .uniqueViolation) ∨
      (∀ j other, Database.row db j = some other → other.pair ≠ (v.type, .text v.externalId)) ∧ ∃ db', Database.persist db v = .ok ([], db') ∧
        Database.row db' = Function.update (Database.row db) v.referenceId (some (v.row amount currency)) := by
  have missing : db.find (fun r => decide (r.referenceId = v.referenceId)) = none := absent
  have steps : Database.persist db v = (Storage.unique (db.insert (v.row amount currency))).map fun db' => ([], db') := by
    simp [Database.persist, assertUuid_ok.2 uuid, texts, numeric, char, checkPositive, positive, missing, bind, Except.bind]
    cases Storage.unique (db.insert (v.row amount currency)) <;> rfl
  cases inserted : db.insert (v.row amount currency) with
  | none =>
    refine .inl ⟨?_, by rw [steps, inserted]; rfl⟩
    by_contra taken
    obtain ⟨db', ok⟩ : ∃ db', db.insert (v.row amount currency) = some db' := by
      refine Table.insert_of_free fun a mem => ?_
      have other : a.pair ≠ (v.type, .text v.externalId) := fun same => taken ⟨_, a, Database.row_of_mem mem, same⟩
      have names : a.referenceId ≠ v.referenceId := by
        intro same
        have there := Database.row_of_mem mem
        rw [same, absent] at there
        cases there
      refine Bool.or_eq_false_iff.2 ⟨decide_eq_false names, Bool.and_eq_false_iff.2 ?_⟩
      by_cases type : a.type = v.type
      · exact .inr (decide_eq_false fun externalId => other (Prod.ext type (congrArg JsString.text externalId)))
      · exact .inl (decide_eq_false type)
    rw [inserted] at ok
    cases ok
  | some db' =>
    have ran : Database.persist db v = .ok ([], db') := by rw [steps, inserted]; rfl
    rcases Database.persist_cases ran with ⟨row, ⟨-, amount', currency', numeric', char', rfl⟩, -, free, after⟩ | ⟨row', -, there, -, -⟩
    · obtain rfl : amount = amount' := Except.ok.inj (numeric.symm.trans numeric')
      obtain rfl : currency = currency' := Except.ok.inj (char.symm.trans char')
      exact .inr ⟨free, db', ran, after⟩
    · rw [absent] at there
      cases there

end Persist

/-! ## In sync -/

/-- A row that could be written as it is read. -/
structure MomoRow.Storable (row : MomoRow) : Prop where
  uuid : isUuid row.referenceId = true
  texts : ∀ t ∈ [row.externalId, row.partyId] ++ row.reason.toList, pgText t = true
  amount : row.amount ≠ 0 ∧ row.amount < 10 ^ 30
  currency : pgChar 3 row.currency = .ok row.currency

/-- What a client gets of both is the same exactly if nothing of the merchant reference is lost. -/
theorem SameRecord.whole_iff {a b : MomoTransactionRecord} (same : SameRecord true a b) :
    SameRecord false a b ↔ a.externalId.isWellFormed = true := by
  have text : .text a.externalId.toWellFormed = b.externalId := same.externalId
  rw [JsString.isWellFormed_iff, text]
  exact ⟨fun exact' => exact'.externalId, fun whole =>
    ⟨⟨same.referenceId, same.type, same.amount, same.currency, whole, same.partyId⟩, same.status, same.reason⟩⟩

theorem found_iff {o o' : Option MomoTransactionRecord} (same : Option.Rel (SameRecord true) o o') :
    Option.Rel (SameRecord false) o o' ↔ ∀ r, o = some r → r.externalId.isWellFormed = true := by
  cases same with
  | none => exact iff_of_true .none nofun
  | @some a b same =>
    rw [Option.rel_some_some, SameRecord.whole_iff same]
    simp

/-- A memory and a table that hold the same records, as a table keeps them, before the calls to come. -/
structure InSync (rest : List StoreCall) (w v : World) : Prop where
  held : ∀ referenceId, Option.Rel (SameRecord true) (w.memory.get referenceId) ((Database.row v.db referenceId).map MomoRow.record)
  storable : ∀ referenceId row, Database.row v.db referenceId = some row → row.Storable
  made : ∀ c ∈ rest, c.Made
  fresh : ∀ referenceId ∈ rest.filterMap StoreCall.saves, Database.row v.db referenceId = none
  distinct : (rest.filterMap StoreCall.saves).Nodup

/-- What the memory finds by a merchant reference has exactly this one. -/
theorem Memory.findByExternalId_spec {memory : Memory} {externalId : JsString} {type : MomoTransactionType} {r : MomoTransactionRecord}
    (found : memory.findByExternalId (some externalId.json) type = some r) :
    (∃ id, memory.get id = some r) ∧ r.type = type ∧ r.externalId = externalId := by
  have chosen := List.find?_some found
  simp only [Bool.and_eq_true, decide_eq_true_eq, isString_json_iff, Option.some.injEq] at chosen
  exact ⟨(OrderedMap.mem_values_iff _).1 (List.mem_of_find?_eq_some found), chosen.2, JsString.json_injective chosen.1.symm⟩

/-- A record of the memory, of this type, whose merchant reference a text column keeps as it keeps this one. -/
def World.Rival (w : World) (type : MomoTransactionType) (externalId : JsString) (r : MomoTransactionRecord) : Prop :=
  (∃ id, w.memory.get id = some r) ∧ r.type = type ∧ r.externalId.toWellFormed = externalId.toWellFormed

namespace InSync

variable {c : StoreCall} {rest : List StoreCall} {w v : World} {referenceId : String}

theorem start {calls : List StoreCall} (made : ∀ c ∈ calls, c.Made) (distinct : (calls.filterMap StoreCall.saves).Nodup) :
    InSync calls .empty .empty where
  held _ := .none
  storable _ _ := by rintro ⟨⟩
  made := made
  fresh _ _ := rfl
  distinct := distinct

/-- What one store holds under a reference id, the other holds too. -/
theorem cases (sync : InSync rest w v) (referenceId : String) :
    (w.memory.get referenceId = none ∧ Database.row v.db referenceId = none) ∨
    ∃ r row, w.memory.get referenceId = some r ∧ Database.row v.db referenceId = some row ∧ SameRecord true r row.record := by
  have held := sync.held referenceId
  cases left : w.memory.get referenceId <;> cases right : Database.row v.db referenceId <;> rw [left, right] at held
  · exact .inl ⟨rfl, rfl⟩
  · cases held
  · cases held
  · cases held with
    | some same => exact .inr ⟨_, _, rfl, rfl, same⟩

theorem ofMemory (sync : InSync rest w v) {r : MomoTransactionRecord} (here : w.memory.get referenceId = some r) :
    ∃ row, Database.row v.db referenceId = some row ∧ SameRecord true r row.record := by
  rcases sync.cases referenceId with ⟨none, -⟩ | ⟨r', row, left, right, same⟩
  · rw [none] at here
    cases here
  · obtain rfl := Option.some.inj (left.symm.trans here)
    exact ⟨row, right, same⟩

theorem ofDatabase (sync : InSync rest w v) {row : MomoRow} (here : Database.row v.db referenceId = some row) :
    ∃ r, w.memory.get referenceId = some r ∧ SameRecord true r row.record := by
  rcases sync.cases referenceId with ⟨-, none⟩ | ⟨r, row', left, right, same⟩
  · rw [none] at here
    cases here
  · obtain rfl := Option.some.inj (right.symm.trans here)
    exact ⟨r, left, same⟩

/-- A stored record has a reference id that PostgreSQL can hold. -/
theorem plain (sync : InSync rest w v) {r : MomoTransactionRecord} (here : w.memory.get referenceId = some r) : pgText referenceId = true := by
  obtain ⟨row, there, -⟩ := sync.ofMemory here
  rw [← Database.row_referenceId there]
  exact pgText_of_isUuid (sync.storable referenceId row there).uuid

/-- After a call that has changed neither store. -/
theorem tail (sync : InSync (c :: rest) w v) : InSync rest w v where
  held := sync.held
  storable := sync.storable
  made c' mem := sync.made c' (List.mem_cons_of_mem _ mem)
  fresh id mem := by
    obtain ⟨c', mem, saves⟩ := List.mem_filterMap.1 mem
    exact sync.fresh id (List.mem_filterMap.2 ⟨c', List.mem_cons_of_mem _ mem, saves⟩)
  distinct := sync.distinct.sublist ((List.sublist_cons_self c rest).filterMap _)

/-- After a call that has written the same record to both. -/
theorem written (sync : InSync (c :: rest) w v) {memory : Memory} {db : Database} {r : MomoTransactionRecord} {row : MomoRow}
    (left : memory.get = Function.update w.memory.get referenceId (some r))
    (right : Database.row db = Function.update (Database.row v.db) referenceId (some row)) (same : SameRecord true r row.record)
    (storable : row.Storable) (spent : referenceId ∉ rest.filterMap StoreCall.saves) :
    InSync rest { w with memory } { v with db } where
  held id := by
    show Option.Rel (SameRecord true) (memory.get id) ((Database.row db id).map MomoRow.record)
    rw [left, right, Function.update_apply, Function.update_apply]
    split
    · exact .some same
    · exact sync.held id
  storable id row' here := by
    change Database.row db id = some row' at here
    rw [right, Function.update_apply] at here
    split at here
    · cases here
      exact storable
    · exact sync.storable id row' here
  made := sync.tail.made
  fresh id mem := by
    show Database.row db id = none
    rw [right, Function.update_of_ne (by rintro rfl; exact spent mem)]
    exact sync.tail.fresh id mem
  distinct := sync.tail.distinct

/-- No call to come saves under a reference id that is taken. -/
theorem spent (sync : InSync rest w v) {row : MomoRow} (here : Database.row v.db referenceId = some row) :
    referenceId ∉ rest.filterMap StoreCall.saves := by
  intro mem
  rw [sync.fresh referenceId mem] at here
  cases here

/-- A table has one row for all references it keeps alike, so the memory has one record. -/
theorem rival_eq (sync : InSync rest w v) {externalId : JsString} {type : MomoTransactionType} {r r' : MomoTransactionRecord}
    (rival : w.Rival type externalId r) (rival' : w.Rival type externalId r') : r = r' := by
  obtain ⟨⟨id, here⟩, isType, kept⟩ := rival
  obtain ⟨⟨id', here'⟩, isType', kept'⟩ := rival'
  obtain ⟨row, there, same⟩ := sync.ofMemory here
  obtain ⟨row', there', same'⟩ := sync.ofMemory here'
  -- the pair of type and merchant's reference is unique in the table
  have one : row = row' := by
    refine v.db.unique MomoRow.clash_symm (Table.mem_of_find there).1 (Table.mem_of_find there').1 ?_
    have type : row.type = row'.type := same.type.symm.trans ((isType.trans isType'.symm).trans same'.type)
    have text : row.externalId = row'.externalId := by
      refine JsString.text.inj (same.externalId.symm.trans (.trans ?_ same'.externalId))
      exact congrArg JsString.text (kept.trans kept'.symm)
    simp [MomoRow.clash, type, text]
  obtain rfl : id = id' := by rw [← Database.row_referenceId there, ← Database.row_referenceId there', one]
  exact Option.some.inj (here.symm.trans here')

/-- Both stores find the same record by the merchant's reference, unless the table has lost what tells it from another. -/
theorem findByExternalId_iff (sync : InSync rest w v) (externalId : JsString) (type : MomoTransactionType) :
    Option.Rel (SameRecord false) (w.memory.findByExternalId (some externalId.json) type)
        ((v.db.find fun r => some externalId.toWellFormed = some r.externalId && r.type = type).map MomoRow.record) ↔
      ∀ r, w.Rival type externalId r → r.externalId = externalId ∧ r.externalId.isWellFormed = true := by
  have selects (row : MomoRow) : (decide (some externalId.toWellFormed = some row.externalId) && decide (row.type = type)) = true ↔
      externalId.toWellFormed = row.externalId ∧ row.type = type := by
    simp
  cases right : v.db.find fun r => some externalId.toWellFormed = some r.externalId && r.type = type with
  | none =>
    have alone : ∀ r, ¬w.Rival type externalId r := by
      rintro r ⟨⟨id, here⟩, isType, kept⟩
      obtain ⟨row, there, same⟩ := sync.ofMemory here
      have unselected := Table.find_eq_none_iff.1 right row (Table.mem_of_find there).1
      rw [(selects row).2 ⟨kept.symm.trans (JsString.text.inj same.externalId), same.type.symm.trans isType⟩] at unselected
      cases unselected
    have none : w.memory.findByExternalId (some externalId.json) type = none := by
      refine Option.eq_none_iff_forall_ne_some.2 fun r found => ?_
      obtain ⟨here, isType, exact'⟩ := Memory.findByExternalId_spec found
      exact alone r ⟨here, isType, by rw [exact']⟩
    rw [none]
    exact iff_of_true .none fun r rival => (alone r rival).elim
  | some row =>
    obtain ⟨mem, selected⟩ := Table.mem_of_find right
    have cond := (selects row).1 selected
    obtain ⟨r, here, same⟩ := sync.ofDatabase (Database.row_of_mem mem)
    have rival : w.Rival type externalId r :=
      ⟨⟨_, here⟩, same.type.trans cond.2, (JsString.text.inj same.externalId).trans cond.1.symm⟩
    have rivals : (∀ r, w.Rival type externalId r → r.externalId = externalId ∧ r.externalId.isWellFormed = true) ↔
        r.externalId = externalId ∧ r.externalId.isWellFormed = true :=
      ⟨fun all => all r rival, fun one r' rival' => sync.rival_eq rival rival' ▸ one⟩
    rw [rivals]
    by_cases exact' : r.externalId = externalId
    · have found : w.memory.findByExternalId (some externalId.json) type = some r := by
        obtain ⟨r', found⟩ : ∃ r', w.memory.findByExternalId (some externalId.json) type = some r' := by
          refine Option.isSome_iff_exists.1 (List.find?_isSome.2 ⟨r, (OrderedMap.mem_values_iff _).2 ⟨_, here⟩, ?_⟩)
          simp [isString_json_iff, exact', rival.2.1]
        obtain ⟨here', isType, exact''⟩ := Memory.findByExternalId_spec found
        rw [found, sync.rival_eq rival ⟨here', isType, by rw [exact'']⟩]
      rw [found, Option.map_some, Option.rel_some_some, SameRecord.whole_iff same]
      exact ⟨fun whole => ⟨exact', whole⟩, fun both => both.2⟩
    · have none : w.memory.findByExternalId (some externalId.json) type = none := by
        refine Option.eq_none_iff_forall_ne_some.2 fun r' found => ?_
        obtain ⟨here', isType, exact''⟩ := Memory.findByExternalId_spec found
        exact exact' (sync.rival_eq rival ⟨here', isType, by rw [exact'']⟩ ▸ exact'')
      rw [none]
      exact iff_of_false nofun fun both => exact' both.1

theorem listPending_iff (sync : InSync rest w v) :
    SameReply (.pending w.memory.listPending) (.pending ((v.db.rows.filter (·.status = .pending)).map MomoRow.record)) ↔
      ∀ r ∈ w.memory.listPending, r.externalId.isWellFormed = true := by
  constructor
  · intro alike r mem
    obtain ⟨b, mem, same⟩ := alike.1 r mem
    obtain ⟨row, -, rfl⟩ := List.mem_map.1 mem
    rw [show r.externalId = .text row.externalId from same.externalId]
    rfl
  · intro whole
    constructor
    · intro r mem
      obtain ⟨held, pending⟩ := List.mem_filter.1 mem
      obtain ⟨id, here⟩ := (OrderedMap.mem_values_iff _).1 held
      obtain ⟨row, there, same⟩ := sync.ofMemory here
      refine ⟨row.record, List.mem_map.2 ⟨row, List.mem_filter.2 ⟨(Table.mem_of_find there).1, ?_⟩, rfl⟩, ?_⟩
      · exact decide_eq_true (same.status.symm.trans (of_decide_eq_true pending))
      · exact (SameRecord.whole_iff same).2 (whole r mem)
    · intro r mem
      obtain ⟨row, selected, rfl⟩ := List.mem_map.1 mem
      obtain ⟨mem, pending⟩ := List.mem_filter.1 selected
      obtain ⟨r, here, same⟩ := sync.ofDatabase (Database.row_of_mem mem)
      have listed : r ∈ w.memory.listPending := List.mem_filter.2 ⟨(OrderedMap.mem_values_iff _).2 ⟨_, here⟩,
        decide_eq_true (same.status.trans (of_decide_eq_true pending))⟩
      exact ⟨r, listed, (SameRecord.whole_iff same).2 (whole r listed)⟩

end InSync

end AfriPay.Momo
