import AfriPay.Momo.Protocol

/-!
# Runs of the mobile money service

Each method keeps the discipline of `Momo.Protocol`, and so do all calls
together, in any order (`momo_holds`). What a call returns it has seen in the
store: `Ensures` says what holds in the state in which it returns.
-/

namespace AfriPay.Momo
open Calls Discipline Text Storage Ledger MomoTransactionStore

/-- The discipline of the mobile money calls. -/
def discipline (d : Deployment) : Discipline (momo d) where
  Inv := Inv d
  Later := Later d
  Justified := Justified d
  refl := .refl d
  trans := .trans
  step inv just does := ⟨inv.step just does, inv.later just does⟩

abbrev Keeps {β : Type} (d : Deployment) (tid : Nat) (c : Call) (Q : β → MomoState → Prop) (p : MomoProg β) (s : MomoState) :
    Prop :=
  (discipline d).Keeps tid c Q p s

abbrev Awaited (d : Deployment) (tid : Nat) (s s' : MomoState) : Prop := (discipline d).Awaited tid s s'

/-- The call has stored nothing. -/
def Unstored (tid : Nat) (s : MomoState) : Prop := ∀ e ∈ s.own tid, stores e = none

/-- The call has posted nothing. -/
def Unposted (tid : Nat) (s : MomoState) : Prop := ∀ e ∈ s.own tid, posted e = none

/-- A later state that the call has reached without storing or posting anything. -/
structure Onward (d : Deployment) (tid : Nat) (s s' : MomoState) : Prop where
  later : Later d s s'
  inv : Inv d s'
  unstored : Unstored tid s → Unstored tid s'
  unposted : Unposted tid s → Unposted tid s'

theorem Onward.trans {d : Deployment} {tid : Nat} {s₁ s₂ s₃ : MomoState} (h : Onward d tid s₁ s₂) (h' : Onward d tid s₂ s₃) :
    Onward d tid s₁ s₃ :=
  ⟨h.later.trans h'.later, h'.inv, fun u => h'.unstored (h.unstored u), fun u => h'.unposted (h.unposted u)⟩

theorem Unposted.cons {tid : Nat} {s s' : MomoState} {e : MomoEvent} (h : Unposted tid s) (own : s'.own tid = e :: s.own tid)
    (posts : e.op.posts = none) : Unposted tid s' := by
  intro e' mem
  rw [own] at mem
  rcases List.mem_cons.1 mem with rfl | mem
  · rw [posted, posts]; rfl
  · exact h e' mem

/-- One operation that neither stores nor posts. -/
theorem Onward.cons {d : Deployment} {tid : Nat} {s s' : MomoState} {e : MomoEvent} (later : Later d s s') (inv : Inv d s')
    (own : s'.own tid = e :: s.own tid) (opens : e.op.opens = none) (posts : e.op.posts = none) : Onward d tid s s' := by
  refine ⟨later, inv, fun unstored e' mem => ?_, fun unposted => unposted.cons own posts⟩
  rw [own] at mem
  rcases List.mem_cons.1 mem with rfl | mem
  · rw [stores, opens]; exact ite_self none
  · exact unstored e' mem

section Rules

variable {d : Deployment} {tid : Nat} {c : Call} {s : MomoState} {β γ : Type}

/-- The rule of a statement, for the case that its answer comes. -/
theorem keeps_query {st : Statement} {Q : List MomoRow → MomoState → Prop}
    (just : ∀ s₁, Awaited d tid s s₁ → Justified d s₁ tid c (.query st))
    (post : ∀ s₁ s₂ rows, Awaited d tid s s₁ → st.run s₁.world.db = .ok (rows, s₂.world.db) →
      s₂.own tid = ⟨tid, c, .query st, .ok rows⟩ :: s.own tid → Later d s s₂ → Inv d s₂ → Q rows s₂) :
    Keeps d tid c Q (query st) s := by
  refine keeps_bind (keeps_op just ?_)
  intro s₁ ans s₂ awaited exec log later inv
  obtain ⟨db, queried, world⟩ := exec
  have own := awaited.own_cons log
  apply keeps_ofExcept
  intro rows answered
  cases queried with
  | ran ok =>
    cases answered
    exact post s₁ s₂ rows awaited (by rw [world]; exact ok) own later inv
  | _ => cases answered

/-- The rule of a segment of memory mode. -/
theorem keeps_inMemory {op : MemoryOp} {Q : op.Answer → MomoState → Prop}
    (just : ∀ s₁, Awaited d tid s s₁ → Justified d s₁ tid c (.memory op))
    (post : ∀ s₁ s₂ a, Awaited d tid s s₁ → op.run s₁.world.memory = .ok (a, s₂.world.memory) →
      s₂.own tid = ⟨tid, c, .memory op, .ok a⟩ :: s.own tid → Later d s s₂ → Inv d s₂ → Q a s₂) :
    Keeps d tid c Q (inMemory op) s := by
  refine keeps_bind (keeps_op just ?_)
  intro s₁ ans s₂ awaited exec log later inv
  obtain ⟨memory, segment, world⟩ := exec
  have own := awaited.own_cons log
  apply keeps_ofExcept
  intro a answered
  cases segment with
  | ran ok =>
    cases answered
    exact post s₁ s₂ a awaited (by rw [world]; exact ok) own later inv
  | threw failed => cases answered

theorem keeps_dateNow {Q : Timestamp → MomoState → Prop}
    (post : ∀ now s', Onward d tid s s' → s'.own tid = ⟨tid, c, .dateNow, now⟩ :: s.own tid → Q now s') :
    Keeps d tid c Q dateNow s := by
  apply keeps_op
  · intro s₁ _
    exact .quiet rfl rfl (by rintro referenceId r ⟨⟩)
  · intro s₁ now s₂ awaited _ log later inv
    have own := awaited.own_cons log
    exact post now s₂ (.cons later inv own rfl rfl) own

theorem keeps_getToken {type : MomoTransactionType} {Q : String → MomoState → Prop}
    (post : ∀ token s', Onward d tid s s' → Q token s') : Keeps d tid c Q (MomoService.getToken type) s := by
  refine keeps_bind (keeps_op ?_ ?_)
  · intro s₁ _
    exact .quiet rfl rfl (by rintro referenceId r ⟨⟩)
  · intro s₁ ans s₂ awaited _ log later inv
    exact keeps_ofExcept fun token _ => post token s₂ (.cons later inv (awaited.own_cons log) rfl rfl)

/-! ## The store -/

theorem keeps_find {referenceId : String} {Q : Option MomoTransactionRecord → MomoState → Prop}
    (post : ∀ s', Onward d tid s s' → (d.pool = false → ∀ r, s'.world.record d referenceId = some r →
      lastRead s' tid referenceId = some r) → Q (s'.world.record d referenceId) s') :
    Keeps d tid c Q (find d referenceId) s := by
  unfold find
  apply keeps_ite
  · intro pool
    refine keeps_bind (keeps_query (fun _ _ => .quiet rfl rfl (by rintro referenceId r ⟨⟩)) ?_)
    intro s₁ s₂ rows _ ran own later inv
    obtain ⟨_, -, ran⟩ := bind_ok ran
    obtain ⟨rfl, same⟩ := Prod.mk.inj (Except.ok.inj ran)
    have found := post s₂ (.cons later inv own rfl rfl) fun memory => by rw [pool] at memory; cases memory
    rw [World.record, if_pos pool, ← same] at found
    rwa [← @Option.head?_toList MomoRow (s₁.world.db.find _)] at found
  · intro pool
    apply keeps_inMemory (fun _ _ => .quiet rfl rfl (by rintro referenceId r ⟨⟩))
    intro s₁ s₂ a _ ran own later inv
    obtain ⟨rfl, same⟩ := Prod.mk.inj (Except.ok.inj ran)
    have here : s₂.world.record d referenceId = s₁.world.memory.get referenceId := by
      rw [s₂.world.record_memory pool, same]
    have found := post s₂ (.cons later inv own rfl rfl) fun _ r stored => by
      rw [here] at stored
      rw [lastRead, own, stored]
      simp [reads]
    rwa [here] at found

/-- What `findByExternalId` finds is the stored record of this type, and of this
reference as it is kept, if that is a string. -/
structure Found (d : Deployment) (externalId : Option Json) (type : MomoTransactionType) (r : MomoTransactionRecord)
    (s : MomoState) : Prop where
  stored : s.world.record d r.referenceId = some r
  type : r.type = type
  externalId : ∀ text, externalId = some text.json → r.externalId = keptText d.pool text

theorem MomoRow.clash_symm (a b : MomoRow) : a.clash b = b.clash a := by
  simp only [MomoRow.clash]
  congr 1
  · exact decide_eq_decide.2 eq_comm
  · congr 1 <;> exact decide_eq_decide.2 eq_comm

/-- A row of the table is the one under its reference id. -/
theorem Database.row_of_mem {db : Database} {row : MomoRow} (mem : row ∈ db.rows) : Database.row db row.referenceId = some row := by
  refine Table.find_eq_some mem (by simp) fun other mem' same => ?_
  refine db.unique MomoRow.clash_symm mem' mem ?_
  simp [MomoRow.clash, of_decide_eq_true same]

theorem keeps_findByExternalId {externalId : Option Json} {type : MomoTransactionType}
    {Q : Option MomoTransactionRecord → MomoState → Prop}
    (post : ∀ o s', Onward d tid s s' → (∀ r, o = some r → Found d externalId type r s') → Q o s') :
    Keeps d tid c Q (findByExternalId d externalId type) s := by
  unfold findByExternalId
  apply keeps_ite
  · intro pool
    refine keeps_bind (keeps_query (fun _ _ => .quiet rfl rfl (by rintro referenceId r ⟨⟩)) ?_)
    intro s₁ s₂ rows _ ran own later inv
    obtain ⟨_, -, ran⟩ := bind_ok ran
    obtain ⟨rfl, same⟩ := Prod.mk.inj (Except.ok.inj ran)
    refine post _ s₂ (.cons later inv own rfl rfl) fun r found => ?_
    rw [Option.head?_toList] at found
    obtain ⟨row, selected, rfl⟩ := Option.map_eq_some_iff.1 found
    obtain ⟨mem, cond⟩ := Table.mem_of_find selected
    simp only [Bool.and_eq_true, decide_eq_true_eq] at cond
    refine ⟨?_, cond.2, ?_⟩
    · rw [s₂.world.record_pool pool, ← same]
      exact congrArg (Option.map MomoRow.record) (Database.row_of_mem mem)
    · rintro text rfl
      rw [d.param_json] at cond
      rw [pool, keptText_pool, Option.some.inj cond.1]
      rfl
  · intro pool
    apply keeps_inMemory (fun _ _ => .quiet rfl rfl (by rintro referenceId r ⟨⟩))
    intro s₁ s₂ a _ ran own later inv
    obtain ⟨rfl, same⟩ := Prod.mk.inj (Except.ok.inj ran)
    refine post _ s₂ (.cons later inv own rfl rfl) fun r found => ?_
    have cond := List.find?_some found
    obtain ⟨k, here⟩ := (OrderedMap.mem_values_iff _).1 (List.mem_of_find?_eq_some found)
    simp only [Bool.and_eq_true, decide_eq_true_eq, isString_json_iff] at cond
    refine ⟨?_, cond.2, ?_⟩
    · have stored : s₂.world.record d k = some r := by rw [s₂.world.record_memory pool, ← same]; exact here
      rwa [inv.keyed k r stored]
    · rintro text rfl
      rw [Bool.eq_false_of_not_eq_true pool, keptText_memory]
      exact JsString.json_injective (Option.some.inj cond.1).symm

/-- Two records of one charge, the merchant reference of the second being as it is
kept with a database or without one. -/
structure SameCharge (pool : Bool) (a b : MomoTransactionRecord) : Prop where
  referenceId : a.referenceId = b.referenceId
  type : a.type = b.type
  amount : decimalValue a.amount = decimalValue b.amount
  currency : a.currency = b.currency
  externalId : keptText pool a.externalId = b.externalId
  partyId : a.partyId = b.partyId

theorem SameCharge.kept {pool : Bool} {a b b' : MomoTransactionRecord} (h : SameCharge pool a b) (kept : b.Kept b') :
    SameCharge pool a b' := by
  rw [kept]
  exact ⟨h.referenceId, h.type, h.amount, h.currency, h.externalId, h.partyId⟩

/-- The call has drawn the identifier and stored nothing yet. -/
structure Ready (tid : Nat) (referenceId : String) (s : MomoState) : Prop where
  drawn : Drawn s tid referenceId
  unstored : Unstored tid s

theorem Drawn.later {referenceId : String} {s' : MomoState} (h : Drawn s tid referenceId) (later : Later d s s') :
    Drawn s' tid referenceId := by
  obtain ⟨u, mem, name⟩ := h
  exact ⟨u, later.log.mem mem, name⟩

theorem Ready.awaited {referenceId : String} {s₁ : MomoState} (h : Ready tid referenceId s) (awaited : Awaited d tid s s₁) :
    Ready tid referenceId s₁ := by
  refine ⟨h.drawn.later awaited.later, ?_⟩
  intro e mem
  rw [awaited.own] at mem
  exact h.unstored e mem

/-- A record a charge may store. -/
structure Chargeable (r : MomoTransactionRecord) : Prop where
  pending : r.status = .pending
  reason : r.reason = none
  payable : Payable r.amount
  currency : r.currency = "EUR"

theorem pgChar_eur : pgChar 3 "EUR" = .ok "EUR" := rfl

theorem justified_save {r : MomoTransactionRecord} {op : Op} (charges : c.charges = true) (chargeable : Chargeable r)
    (ready : Ready tid r.referenceId s) (is : op = .memory (.save r) ∨ op = .query (.persist (values d r))) :
    Justified d s tid c op := by
  constructor
  · intro _ referenceId opens
    rcases is with rfl | rfl <;> cases opens <;> exact ⟨ready.drawn, ready.unstored⟩
  · rintro r' rfl
    rcases is with ⟨⟨⟩⟩ | ⟨⟨⟩⟩
    exact ⟨charges, chargeable.pending, chargeable.reason, chargeable.payable⟩
  · rintro v rfl _
    rcases is with ⟨⟨⟩⟩ | ⟨⟨⟩⟩
    refine ⟨chargeable.pending, ?_, chargeable.payable⟩
    rw [values, chargeable.reason]
    rfl
  · intro v _ other
    rw [charges] at other
    cases other
  · rintro referenceId r' rfl
    rcases is with ⟨⟨⟩⟩ | ⟨⟨⟩⟩
  · rintro request rfl
    rcases is with ⟨⟨⟩⟩ | ⟨⟨⟩⟩

theorem keeps_save {r : MomoTransactionRecord} {Q : MomoTransactionRecord → MomoState → Prop} (charges : c.charges = true)
    (chargeable : Chargeable r) (ready : Ready tid r.referenceId s) (unposted : Unposted tid s)
    (post : ∀ s' stored, Later d s s' → Inv d s' → Unposted tid s' → s'.world.record d r.referenceId = some stored →
      SameCharge d.pool r stored → Q r s') :
    Keeps d tid c Q (save d r) s := by
  have justified : ∀ {op : Op}, (op = .memory (.save r) ∨ op = .query (.persist (values d r))) →
      ∀ s₁, Awaited d tid s s₁ → Justified d s₁ tid c op :=
    fun is _ awaited => justified_save charges chargeable (ready.awaited awaited) is
  unfold save persist
  apply keeps_ite
  · intro pool
    rw [if_pos pool]
    refine keeps_bind (keeps_discard (keeps_query (justified (.inr rfl)) ?_))
    intro s₁ s₂ rows awaited ran own later inv
    -- the identifier is new, so the statement has inserted the row
    have fresh : Database.row s₁.world.db r.referenceId = none := by
      have unused := awaited.inv.unused (justified (.inr rfl) s₁ awaited) charges rfl
      rw [s₁.world.record_pool pool] at unused
      exact Option.map_eq_none_iff.1 unused
    obtain ⟨row, ⟨-, amount, currency, numeric, char, rfl⟩, here⟩ := Database.persist_opens ran fresh
    have eur : currency = r.currency := by
      rw [show (values d r).currency = "EUR" from chargeable.currency, pgChar_eur] at char
      rw [chargeable.currency]
      exact (Except.ok.inj char).symm
    refine post s₂ ((values d r).row amount currency).record later inv (unposted.cons own rfl) ?_ ?_
    · rw [s₂.world.record_pool pool]
      exact congrArg (Option.map MomoRow.record) here
    · exact ⟨rfl, rfl, (stored_value numeric).symm, eur.symm, by rw [pool]; rfl, rfl⟩
  · intro pool
    apply keeps_inMemory (justified (.inl rfl))
    intro s₁ s₂ a _ ran own later inv
    have ran : s₁.world.memory.save r = .ok (a, s₂.world.memory) := ran
    unfold Memory.save at ran
    split at ran
    · cases ran
    obtain ⟨rfl, same⟩ := Prod.mk.inj (Except.ok.inj ran)
    refine post s₂ r later inv (unposted.cons own rfl) ?_ ⟨rfl, rfl, rfl, rfl, ?_, rfl⟩
    swap
    · rw [Bool.eq_false_of_not_eq_true pool, keptText_memory]
    rw [s₂.world.record_memory pool, ← same]
    exact OrderedMap.get_set_self ..

theorem keeps_listPending {Q : List MomoTransactionRecord → MomoState → Prop}
    (post : ∀ pending s', Later d s s' → Inv d s' → Q pending s') : Keeps d tid c Q (listPending d) s := by
  unfold listPending
  apply keeps_ite
  · intro _
    refine keeps_bind (keeps_query (fun _ _ => .quiet rfl rfl (by rintro referenceId r ⟨⟩)) ?_)
    exact fun _ s₂ rows _ _ _ later inv => post _ s₂ later inv
  · intro _
    apply keeps_inMemory (fun _ _ => .quiet rfl rfl (by rintro referenceId r ⟨⟩))
    exact fun _ s₂ a _ _ _ later inv => post a s₂ later inv

/-- The reason `upsertStatus` has for its statement. -/
theorem justified_persist {s₁ : MomoState} {referenceId : String} {r : MomoTransactionRecord} (other : c.charges = false)
    (here : s₁.world.record d referenceId ≠ none) (key : r.referenceId = referenceId)
    (sanctioned : Sanctioned d s₁ tid c referenceId r.status r.reason) :
    Justified d s₁ tid c (.query (.persist (values d r))) := by
  subst key
  constructor
  · intro charges; rw [other] at charges; cases charges
  · rintro r' ⟨⟩
  · intro v _ charges; rw [other] at charges; cases charges
  · rintro v ⟨⟩ _
    exact ⟨here, r.reason, rfl, sanctioned⟩
  · rintro referenceId r' ⟨⟩
  · rintro request ⟨⟩

/-- The reason `upsertStatus` has for its segment: it keeps what it has read of a terminal record. -/
theorem justified_set {s₁ : MomoState} {referenceId : String} {r current read : MomoTransactionRecord} (other : c.charges = false)
    (sanctioned : Sanctioned d s₁ tid c referenceId r.status r.reason) (here : s₁.world.record d referenceId = some current)
    (kept : current.Kept r) (last : lastRead s₁ tid referenceId = some read)
    (final : read.status.terminal = true → r.status = read.status) :
    Justified d s₁ tid c (.memory (.set referenceId r)) := by
  constructor
  · intro charges; rw [other] at charges; cases charges
  · rintro r' ⟨⟩
  · rintro v ⟨⟩
  · rintro v ⟨⟩
  · rintro referenceId' r' ⟨⟩
    exact ⟨other, sanctioned, ⟨current, here, kept⟩, read, last, final⟩
  · rintro request ⟨⟩

/-- In SQL mode `upsertStatus` returns what the store holds. -/
theorem keeps_upsertStatus {referenceId : String} {status : MomoTransactionStatus} {reason : Option Json}
    {Q : Option MomoTransactionRecord → MomoState → Prop} (other : c.charges = false)
    (sanctioned : Sanctioned d s tid c referenceId status reason)
    (post : ∀ o s', Later d s s' → Inv d s' → (d.pool = true → o = s'.world.record d referenceId) → Q o s') :
    Keeps d tid c Q (upsertStatus d referenceId status reason) s := by
  unfold upsertStatus
  refine keeps_bind (keeps_find fun s₁ onward₁ read => ?_)
  cases found : s₁.world.record d referenceId with
  | none => exact post none s₁ onward₁.later onward₁.inv fun _ => found.symm
  | some existing =>
    apply keeps_ite
    · intro _
      exact post (some existing) s₁ onward₁.later onward₁.inv fun _ => found.symm
    · intro proceed
      refine keeps_bind (keeps_dateNow fun now s₂ onward₂ own => ?_)
      have key : existing.referenceId = referenceId := onward₁.inv.keyed referenceId existing found
      unfold persist
      by_cases pool : d.pool = true
      · simp only [if_pos pool]
        refine keeps_bind (keeps_discard (keeps_query ?_ ?_))
        · intro s₃ awaited
          obtain ⟨current, here, -⟩ := (onward₂.later.trans awaited.later).records referenceId existing found
          refine justified_persist other (by rw [here]; rintro ⟨⟩) key ?_
          exact sanctioned.later ((onward₁.later.trans onward₂.later).trans awaited.later)
        · intro s₃ s₄ rows _ _ _ later inv
          refine keeps_find fun s₅ onward₅ _ => ?_
          exact post _ s₅ (((onward₁.later.trans onward₂.later).trans later).trans onward₅.later) onward₅.inv fun _ => rfl
      · simp only [if_neg pool, Prog.pure_eq, Prog.ret_bind]
        refine keeps_bind (keeps_discard (keeps_inMemory ?_ ?_))
        · intro s₃ awaited
          obtain ⟨current, here, kept⟩ := (onward₂.later.trans awaited.later).records referenceId existing found
          refine justified_set other ?_ here ?_ (?_ : lastRead s₃ tid referenceId = some existing) fun final => ?_
          · exact sanctioned.later ((onward₁.later.trans onward₂.later).trans awaited.later)
          · rw [MomoTransactionRecord.Kept, kept]
            rfl
          · rw [lastRead, awaited.own, own]
            exact read (by simpa using pool) existing found
          · by_contra differs
            exact proceed ⟨final, differs⟩
        · intro s₃ s₄ a _ _ _ later inv
          exact post _ s₄ ((onward₁.later.trans onward₂.later).trans later) inv fun h => (pool h).elim

/-! ## The service -/

/-- A record of the charge a request asked for, as it is in the store. -/
structure ReturnsCharge (d : Deployment) (type : MomoTransactionType) (dto : ChargeDto) (r : MomoTransactionRecord)
    (s : MomoState) : Prop where
  stored : ∃ stored, s.world.record d r.referenceId = some stored ∧ SameCharge d.pool r stored ∧
    ((r.status = .pending ∧ r.reason = none) ∨ ∃ e ∈ s.log, e.call.charges = false)
  type : r.type = type
  amount : decimalValue r.amount = decimalValue dto.amount
  currency : r.currency = dto.currency
  externalId : r.externalId = dto.externalId ∨ r.externalId = keptText d.pool dto.externalId
  partyId : r.partyId = dto.partyId

theorem checkReuse_ok {existing : MomoTransactionRecord} {dto : ChargeDto} (h : MomoService.checkReuse existing dto = .ok ()) :
    (stringToNumber existing.amount).same (stringToNumber dto.amount) = true ∧ existing.currency = dto.currency ∧
      existing.partyId = dto.partyId := by
  unfold MomoService.checkReuse at h
  obtain ⟨agrees, -⟩ := else_ok h
  simpa [and_assoc] using agrees

/-- The dto a controller has let through. -/
abbrev ChargeDto.Valid (dto : ChargeDto) : Prop := validPayment dto.amount dto.currency dto.externalId dto.partyId = true

theorem validateCharge_valid {partyName : String} {body : JsonObject} {dto : ChargeDto}
    (h : validateCharge partyName body = .ok dto) : dto.Valid := by
  unfold validateCharge at h
  split at h
  · cases h
  · split at h
    · split at h
      · rename_i valid; cases h; exact valid
      · cases h
    · cases h

theorem ChargeDto.Valid.currency {dto : ChargeDto} (h : dto.Valid) : dto.currency = "EUR" := by
  simp only [ChargeDto.Valid, validPayment, Bool.and_eq_true, decide_eq_true_eq] at h
  exact h.1.1.1.2

/-- The reason a charge has to post: its record is stored, and it has not posted yet. -/
theorem justified_post {s₁ : MomoState} {request : ChargeRequest} {stored : MomoTransactionRecord}
    (here : s₁.world.record d request.referenceId = some stored) (same : Charges d.pool request stored) (asks : c.Asks request)
    (drawn : Drawn s₁ tid request.referenceId) (unposted : Unposted tid s₁) : Justified d s₁ tid c (.post request) := by
  constructor
  · rintro _ referenceId ⟨⟩
  · rintro r ⟨⟩
  · rintro v ⟨⟩
  · rintro v ⟨⟩
  · rintro referenceId r ⟨⟩
  · rintro request' ⟨⟩
    exact ⟨⟨asks, stored, here, same⟩, drawn, unposted⟩

theorem keeps_callMomo {request : ChargeRequest} {stored : MomoTransactionRecord} {Q : Unit → MomoState → Prop}
    (here : s.world.record d request.referenceId = some stored) (same : Charges d.pool request stored) (asks : c.Asks request)
    (drawn : Drawn s tid request.referenceId) (unposted : Unposted tid s)
    (post : ∀ s', Later d s s' → Inv d s' → Q () s') : Keeps d tid c Q (MomoService.callMomo d request) s := by
  unfold MomoService.callMomo
  refine keeps_bind (keeps_discard (keeps_ofExcept fun config _ => keeps_bind (keeps_op ?_ ?_)))
  · intro s₁ awaited
    obtain ⟨current, here', kept⟩ := awaited.later.records _ stored here
    refine justified_post here' (same.kept kept) asks (drawn.later awaited.later) fun e mem => ?_
    rw [awaited.own] at mem
    exact unposted e mem
  · intro s₁ ans s₂ _ _ _ later inv
    cases ans with
    | none => exact trivial
    | some status => exact keeps_ite (fun _ => trivial) fun _ => post s₂ later inv

theorem keeps_charge {type : MomoTransactionType} {dto : ChargeDto} {Q : MomoTransactionRecord → MomoState → Prop}
    (charges : c.charges = true) (asks : c.dto = .ok (type, dto)) (valid : dto.Valid) (unstarted : s.own tid = [])
    (post : ∀ r s', Later d s s' → Inv d s' → ReturnsCharge d type dto r s' → Q r s') :
    Keeps d tid c Q (MomoService.charge d type dto) s := by
  have unstored : Unstored tid s := by intro e mem; rw [unstarted] at mem; cases mem
  have unposted : Unposted tid s := by intro e mem; rw [unstarted] at mem; cases mem
  have payable := validPayment_payable valid
  unfold MomoService.charge
  refine keeps_bind (keeps_findByExternalId fun o s₁ onward₁ found => ?_)
  cases o with
  | some existing =>
    have found := found existing rfl
    refine keeps_bind (keeps_ofExcept fun _ ok => ?_)
    obtain ⟨number, currency, partyId⟩ := checkReuse_ok ok
    have untouched := onward₁.inv.untouched _ existing found.stored
    refine post existing s₁ onward₁.later onward₁.inv ⟨⟨existing, found.stored, ?_, untouched⟩, found.type, ?_, currency, ?_, partyId⟩
    · refine ⟨rfl, rfl, rfl, rfl, ?_, rfl⟩
      rw [found.externalId dto.externalId rfl, keptText_keptText]
    · exact (onward₁.inv.payable _ _ found.stored).value_eq payable number
    · exact .inr (found.externalId dto.externalId rfl)
  | none =>
    refine keeps_bind (keeps_op ?_ ?_)
    · intro s₂ _
      exact .quiet rfl rfl (by rintro referenceId r ⟨⟩)
    intro s₂ referenceId s₃ awaited _ log later inv
    have onward₃ : Onward d tid s₁ s₃ := .cons later inv (awaited.own_cons log) rfl rfl
    have drawn : Drawn s₃ tid referenceId :=
      ⟨⟨tid, c, .randomUUID, referenceId⟩, by rw [log]; exact List.mem_cons_self, rfl, rfl⟩
    refine keeps_bind (keeps_ofExcept fun config _ => ?_)
    refine keeps_bind (keeps_dateNow fun createdAt s₄ onward₄ _ => ?_)
    refine keeps_bind (keeps_dateNow fun updatedAt s₅ onward₅ _ => ?_)
    have onward := ((onward₁.trans onward₃).trans onward₄).trans onward₅
    have drawn := drawn.later (onward₄.later.trans onward₅.later)
    refine keeps_bind (keeps_save charges ⟨rfl, rfl, payable, valid.currency⟩ ⟨drawn, onward.unstored unstored⟩
      (onward.unposted unposted) fun s₆ stored later₆ inv₆ unposted₆ here same => ?_)
    refine keeps_bind (keeps_getToken fun token s₇ onward₇ => ?_)
    obtain ⟨stored', here', kept⟩ := onward₇.later.records _ stored here
    have same' := same.kept kept
    refine keeps_bind (keeps_callMomo here' ?_ ⟨dto, asks, rfl⟩ (drawn.later (later₆.trans onward₇.later)) (onward₇.unposted unposted₆) ?_)
    · exact ⟨same'.type, same'.amount, same'.currency, same'.externalId, same'.partyId⟩
    · intro s₈ later₈ inv₈
      obtain ⟨last, here₈, kept₈⟩ := later₈.records _ stored' here'
      refine post _ s₈ (((onward.later.trans later₆).trans onward₇.later).trans later₈) inv₈ ?_
      exact ⟨⟨last, here₈, same'.kept kept₈, .inl ⟨rfl, rfl⟩⟩, rfl, rfl, rfl, .inl rfl, rfl⟩

theorem validateResource_ok {resource : Json} {existing : Option MomoTransactionRecord} {status : MomoTransactionStatus}
    (h : validateResource resource existing = .ok status) :
    statusOf (resource.prop "status") = some status ∧ ∃ r, existing = some r ∧ sameDetails resource r = true := by
  unfold validateResource at h
  split at h
  · cases h
  · rename_i named
    split at h
    · cases h
    · rename_i r
      obtain ⟨-, h⟩ := else_ok h
      split at h
      · rename_i same
        cases h
        exact ⟨named, r, rfl, same⟩
      · cases h

/-- A resource that was accepted for a record sanctions its status while the record stays. -/
theorem Sanctioned.of_resource {s₁ : MomoState} {referenceId : String} {resource : Json} {r : MomoTransactionRecord}
    {status : MomoTransactionStatus} (here : s.world.record d referenceId = some r) (later : Later d s s₁)
    (ok : validateResource resource (some r) = .ok status) (reported : Reported s₁.log tid c r.type referenceId resource) :
    Sanctioned d s₁ tid c referenceId status (reasonOf (resource.prop "reason")) := by
  obtain ⟨named, r', is, same⟩ := validateResource_ok ok
  obtain rfl : r = r' := Option.some.inj is
  obtain ⟨current, here', kept⟩ := later.records referenceId r here
  have type : current.type = r.type := by rw [kept]; rfl
  exact .inr ⟨resource, current, here', type ▸ reported, sameDetails_kept kept ▸ same, named, rfl⟩

/-- In SQL mode a refresh returns what the store holds. -/
theorem keeps_refreshStatus {product : MomoTransactionType} {referenceId : String} {Q : MomoTransactionRecord → MomoState → Prop}
    (other : c.charges = false)
    (post : ∀ r s', Later d s s' → Inv d s' → (d.pool = true → s'.world.record d referenceId = some r) → Q r s') :
    Keeps d tid c Q (MomoService.refreshStatus d product referenceId) s := by
  unfold MomoService.refreshStatus
  refine keeps_bind (keeps_find fun s₁ onward₁ _ => ?_)
  cases found : s₁.world.record d referenceId with
  | none => exact trivial
  | some existing =>
    refine keeps_ite (fun _ => trivial) fun product => ?_
    refine keeps_bind (keeps_ofExcept fun config _ => keeps_bind (keeps_getToken fun token s₂ onward₂ => ?_))
    unfold MomoService.fetchStatus
    refine keeps_bind (keeps_bind (keeps_op ?_ ?_))
    · intro s₃ _
      exact .quiet rfl rfl (by rintro referenceId r ⟨⟩)
    intro s₃ response s₄ awaited _ log later inv
    refine keeps_ofExcept fun resource answered => keeps_bind (keeps_ofExcept fun status ok => ?_)
    have reported : Reported s₄.log tid c existing.type referenceId resource := by
      cases response with
      | none => cases answered
      | some response =>
        refine .inr ⟨_, response, by rw [log]; exact List.mem_cons_self, (not_not.1 product).symm, rfl, ?_⟩
        rw [not_not.1 product]
        exact answered
    have later₄ := onward₂.later.trans later
    refine keeps_bind (keeps_upsertStatus other (.of_resource found later₄ ok reported) fun o s₅ later₅ inv₅ held => ?_)
    refine post _ s₅ ((onward₁.later.trans later₄).trans later₅) inv₅ fun pool => ?_
    obtain ⟨current, here, -⟩ := (later₄.trans later₅).records referenceId existing found
    rw [held pool, here]
    rfl

theorem keeps_applyCallback {type : MomoTransactionType} {payload : Json} {Q : MomoTransactionRecord → MomoState → Prop}
    (other : c.charges = false) (callback : c.callback = some (type, payload))
    (post : ∀ r s', Later d s s' → Inv d s' → (d.pool = true → s'.world.record d r.referenceId = some r) → Q r s') :
    Keeps d tid c Q (MomoService.applyCallback d type payload) s := by
  unfold MomoService.applyCallback findReferenceIdByExternalId
  refine keeps_bind (keeps_ofExcept fun _ _ => keeps_bind (keeps_bind (keeps_findByExternalId fun o s₁ onward₁ found => ?_)))
  cases o with
  | none => exact trivial
  | some r =>
    have found := found r rfl
    refine keeps_ite (fun _ => trivial) fun _ => keeps_bind (keeps_find fun s₂ onward₂ _ => ?_)
    refine keeps_bind (keeps_ofExcept fun status ok => ?_)
    obtain ⟨existing, here, kept⟩ := onward₂.later.records r.referenceId r found.stored
    have type : existing.type = type := by rw [kept]; exact found.type
    rw [here] at ok
    have reported : Reported s₂.log tid c existing.type r.referenceId payload := .inl (type.symm ▸ callback)
    refine keeps_bind (keeps_upsertStatus other (.of_resource here (.refl d s₂) ok reported) fun o s₃ later₃ inv₃ held => ?_)
    cases o with
    | none => exact trivial
    | some updated =>
      refine post updated s₃ ((onward₁.later.trans onward₂.later).trans later₃) inv₃ fun pool => ?_
      have held := (held pool).symm
      rwa [inv₃.keyed _ updated held]

/-- A record that was in the store: it still is, up to a status that was not terminal. -/
structure Seen (d : Deployment) (s : MomoState) (r : MomoTransactionRecord) : Prop where
  stored : ∃ stored, s.world.record d r.referenceId = some stored ∧ r.Kept stored ∧ (r.status.terminal = true → stored = r)

theorem Later.final {s' : MomoState} (later : Later d s s') (pool : d.pool = true) {referenceId : String}
    {r : MomoTransactionRecord} (here : s.world.record d referenceId = some r) (final : r.status.terminal = true) :
    s'.world.record d referenceId = some r := by
  rw [s.world.record_pool pool] at here
  obtain ⟨row, there, rfl⟩ := Option.map_eq_some_iff.1 here
  obtain ⟨row', here', kept⟩ := later.rows referenceId row there
  rw [s'.world.record_pool pool]
  simp only [here', kept.final final, Option.map_some]

theorem Seen.of_stored {r : MomoTransactionRecord} (inv : Inv d s) {referenceId : String}
    (here : s.world.record d referenceId = some r) : Seen d s r := by
  refine ⟨r, ?_, .refl r, fun _ => rfl⟩
  rw [inv.keyed referenceId r here, here]

theorem Seen.later {s' : MomoState} {r : MomoTransactionRecord} (h : Seen d s r) (pool : d.pool = true)
    (later : Later d s s') : Seen d s' r := by
  obtain ⟨stored, here, kept, final⟩ := h.stored
  obtain ⟨stored', here', kept'⟩ := later.records _ stored here
  refine ⟨stored', here', kept.trans kept', fun terminal => ?_⟩
  obtain rfl := final terminal
  exact Option.some.inj (here'.symm.trans (later.final pool here terminal))

theorem keeps_reconcileEach {pending results : List MomoTransactionRecord} {Q : List MomoTransactionRecord → MomoState → Prop}
    (other : c.charges = false) (inv : Inv d s) (seen : d.pool = true → ∀ r ∈ results, Seen d s r)
    (post : ∀ rs s', Later d s s' → Inv d s' → (d.pool = true → ∀ r ∈ rs, Seen d s' r) → Q rs s') :
    Keeps d tid c Q (MomoService.reconcileEach d pending results) s := by
  induction pending generalizing s results with
  | nil => exact post results s (.refl d s) inv seen
  | cons record pending ih =>
    refine keeps_bind (keeps_catch inv (keeps_map (keeps_refreshStatus other ?_)) ?_)
    · intro r s₁ later₁ inv₁ held
      refine ih inv₁ ?_ fun rs s' later inv' => post rs s' (later₁.trans later) inv'
      intro pool r' mem
      rcases List.mem_append.1 mem with earlier | new
      · exact (seen pool r' earlier).later pool later₁
      · obtain rfl : r' = r := by simpa using new
        exact .of_stored inv₁ (held pool)
    · intro e s₁ later₁ inv₁
      refine ih inv₁ ?_ fun rs s' later inv' => post rs s' (later₁.trans later) inv'
      intro pool r' mem
      exact (seen pool r' (by simpa using mem)).later pool later₁

end Rules

/-! ## All calls -/

/-- What a call that returns has established. -/
def Ensures (d : Deployment) : Call → Returned → MomoState → Prop
  | .requestToPay body, .record r, s => ∃ dto, validateCharge "payerMsisdn" body = .ok dto ∧ ReturnsCharge d .collection dto r s
  | .transfer body, .record r, s => ∃ dto, validateCharge "payeeMsisdn" body = .ok dto ∧ ReturnsCharge d .disbursement dto r s
  | .upsertStatus referenceId _ _, .found o, s => d.pool = true → o = s.world.record d referenceId
  | .reconcilePending, .records rs, s => d.pool = true → ∀ r ∈ rs, Seen d s r
  | _, .record r, s => d.pool = true → s.world.record d r.referenceId = some r
  | _, _, _ => True

theorem momo_sound (d : Deployment) (tid : Nat) (c : Call) (s : MomoState) (_ : Inv d s) (own : s.own tid = []) :
    Keeps d tid c (Ensures d c) ((momo d).body c) s := by
  cases c with
  | requestToPay body =>
    refine keeps_bind (keeps_ofExcept fun dto ok => keeps_map ?_)
    exact keeps_charge rfl (by rw [Call.dto, ok]; rfl) (validateCharge_valid ok) own fun r _ _ _ returns => ⟨dto, ok, returns⟩
  | transfer body =>
    refine keeps_bind (keeps_ofExcept fun dto ok => keeps_map ?_)
    exact keeps_charge rfl (by rw [Call.dto, ok]; rfl) (validateCharge_valid ok) own fun r _ _ _ returns => ⟨dto, ok, returns⟩
  | collectionCallback payload => exact keeps_map (keeps_applyCallback rfl rfl fun _ _ _ _ held => held)
  | disbursementCallback payload => exact keeps_map (keeps_applyCallback rfl rfl fun _ _ _ _ held => held)
  | getCollectionStatus referenceId =>
    refine keeps_map (keeps_refreshStatus rfl fun r s' _ inv' held pool => ?_)
    rw [inv'.keyed _ r (held pool)]
    exact held pool
  | getDisbursementStatus referenceId =>
    refine keeps_map (keeps_refreshStatus rfl fun r s' _ inv' held pool => ?_)
    rw [inv'.keyed _ r (held pool)]
    exact held pool
  | reconcilePending =>
    refine keeps_map (keeps_bind (keeps_listPending fun pending s₁ _ inv₁ => ?_))
    exact keeps_reconcileEach rfl inv₁ (fun _ r mem => by cases mem) fun _ _ _ _ seen => seen
  | upsertStatus referenceId status reason =>
    exact keeps_map (keeps_upsertStatus rfl (.inl rfl) fun _ _ _ _ held => held)

theorem inv_empty (d : Deployment) : Inv d ⟨.empty, []⟩ := by
  have none : ∀ referenceId, World.empty.record d referenceId = none := by
    intro referenceId
    unfold World.record
    split <;> rfl
  refine ⟨?_, ?_, ?_, ?_, .nil, .nil, ?_, ?_, List.Pairwise.nil, ?_⟩
  · intro referenceId r here; rw [none] at here; cases here
  · intro i j r r' here; rw [none] at here; cases here
  · intro referenceId r here; rw [none] at here; cases here
  · intro e mem; cases mem
  · intro referenceId r here; rw [none] at here; cases here
  · intro e mem; cases mem
  · intro referenceId r here; rw [none] at here; cases here

/-- The reachable configurations of a deployment that started with empty stores. -/
abbrev Reachable (d : Deployment) (cfg : MomoRun) : Prop := (momo d).Steps (.initial .empty) cfg

/-- **All calls keep the discipline**, whatever their number and order. -/
theorem momo_holds {d : Deployment} {cfg : MomoRun} (run : Reachable d cfg) :
    (discipline d).protocol.Holds (fun _ => Ensures d) cfg :=
  holds (inv_empty d) (momo_sound d) run

/-- What lies between two configurations of a run. -/
theorem later_of_run {d : Deployment} {cfg cfg' : MomoRun} (run : Reachable d cfg) (steps : (momo d).Steps cfg cfg') :
    Later d cfg.shared cfg'.shared :=
  later_of_steps (momo_sound d) (momo_holds run) steps

end AfriPay.Momo
