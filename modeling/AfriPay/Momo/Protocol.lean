import AfriPay.Calls.Discipline
import AfriPay.Momo.ChargeRegister

/-!
# What the calls of the mobile money service keep

A charge is stored under an identifier its call has drawn, and posted only by
that call, once, when it is stored. A status is written only on the word of a
resource that speaks of the stored record. `Inv.step` says that operations
issued for these reasons keep the invariant of the register and of the log.
-/

namespace AfriPay.Momo
open Calls Text Storage Ledger MomoTransactionStore

/-! ## What the log says -/

/-- The identifier an event draws. -/
def mints : MomoEvent → Option String
  | ⟨_, _, .randomUUID, id⟩ => some id
  | _ => none

/-- Whether the call is a `requestToPay` or a `transfer`. -/
def Call.charges : Call → Bool
  | .requestToPay _ | .transfer _ => true
  | _ => false

/-- What the controller has made of a request for a charge. -/
def Call.dto : Call → Except Exception (MomoTransactionType × ChargeDto)
  | .requestToPay body => (MomoTransactionType.collection, ·) <$> validateCharge "payerMsisdn" body
  | .transfer body => (MomoTransactionType.disbursement, ·) <$> validateCharge "payeeMsisdn" body
  | _ => .error (.error "no charge")

/-- The request is for the charge the call asks for. -/
def Call.Asks (c : Call) (request : ChargeRequest) : Prop :=
  ∃ dto, c.dto = .ok (request.type, dto) ∧ request.externalId = dto.externalId

/-- The type and the payload of a callback. -/
def Call.callback : Call → Option (MomoTransactionType × Json)
  | .collectionCallback payload => some (.collection, payload)
  | .disbursementCallback payload => some (.disbursement, payload)
  | _ => none

/-- The reference id an operation may store a record under. -/
def Op.opens : Op → Option String
  | .memory (.save r) => some r.referenceId
  | .query (.persist v) => some v.referenceId
  | _ => none

/-- The reference id a charge stores its record under. -/
def stores (e : MomoEvent) : Option String := if e.call.charges then e.op.opens else none

/-- The request an operation sends to the provider. -/
def Op.posts : Op → Option ChargeRequest
  | .post request => some request
  | _ => none

theorem Op.post_of_posts {op : Op} {request : ChargeRequest} (h : op.posts = some request) : op = .post request := by
  unfold Op.posts at h
  split at h
  · cases h
    rfl
  · cases h

/-- The reference id a charge is posted under. -/
def posted (e : MomoEvent) : Option String := e.op.posts.map (·.referenceId)

/-- The record under this reference id that an event has read. -/
def reads (referenceId : String) : MomoEvent → Option MomoTransactionRecord
  | ⟨_, _, .memory (.find j), .ok found⟩ => if j = referenceId then found else none
  | _ => none

/-- What a call has read last under a reference id. -/
def lastRead (s : MomoState) (tid : Nat) (referenceId : String) : Option MomoTransactionRecord :=
  (s.own tid).findSome? (reads referenceId)

/-- A request that charges what a record says, the merchant reference being as it
is kept with a database or without one. -/
structure Charges (pool : Bool) (request : ChargeRequest) (r : MomoTransactionRecord) : Prop where
  type : request.type = r.type
  amount : decimalValue request.amount = decimalValue r.amount
  currency : request.currency = r.currency
  externalId : keptText pool request.externalId = r.externalId
  partyId : request.partyId = r.partyId

theorem Charges.kept {pool : Bool} {request : ChargeRequest} {r r' : MomoTransactionRecord} (h : Charges pool request r)
    (kept : r.Kept r') : Charges pool request r' := by
  rw [kept]
  exact ⟨h.type, h.amount, h.currency, h.externalId, h.partyId⟩

/-- The resource call `tid` has been given for a charge: as the payload of a
callback of that type, or in the answer to a status query under that reference. -/
def Reported (log : List MomoEvent) (tid : Nat) (c : Call) (type : MomoTransactionType) (referenceId : String) (resource : Json) :
    Prop :=
  c.callback = some (type, resource) ∨ ∃ request response, (⟨tid, c, .get request, some response⟩ : MomoEvent) ∈ log ∧
    request.type = type ∧ request.referenceId = referenceId ∧ MomoService.resourceOf type (some response) = .ok resource

/-- A resource that speaks of the stored record has this status and reason. -/
def Confirmed (d : Deployment) (s : MomoState) (tid : Nat) (c : Call) (referenceId : String) (status : MomoTransactionStatus)
    (reason : Option Json) : Prop :=
  ∃ resource r, s.world.record d referenceId = some r ∧ Reported s.log tid c r.type referenceId resource ∧
    sameDetails resource r = true ∧ statusOf (resource.prop "status") = some status ∧
    reasonOf (resource.prop "reason") = reason

/-- The reason a call has to write a status: such a resource, or that it is told to. -/
def Sanctioned (d : Deployment) (s : MomoState) (tid : Nat) (c : Call) (referenceId : String) (status : MomoTransactionStatus)
    (reason : Option Json) : Prop :=
  c = .upsertStatus referenceId status reason ∨ Confirmed d s tid c referenceId status reason

/-- The call has drawn this identifier. -/
def Drawn (s : MomoState) (tid : Nat) (referenceId : String) : Prop := ∃ u ∈ s.log, mints u = some referenceId ∧ u.tid = tid

/-! ## The discipline -/

/-- What holds between two operations. -/
structure Inv (d : Deployment) (s : MomoState) : Prop where
  keyed : ∀ referenceId r, s.world.record d referenceId = some r → r.referenceId = referenceId
  unique : Register.Unique MomoTransactionRecord.pair (s.world.record d)
  payable : ∀ referenceId r, s.world.record d referenceId = some r → Payable r.amount
  issued : ∀ e ∈ s.log, ∀ id, mints e = some id → id ∈ s.world.issued
  storing : Fresh mints stores s.log
  posting : Fresh mints posted s.log
  stored : ∀ referenceId r, s.world.record d referenceId = some r → ∃ e ∈ s.log, stores e = some referenceId
  charged : ∀ e ∈ s.log, ∀ request, e.op.posts = some request → e.call.Asks request ∧
    ∃ r, s.world.record d request.referenceId = some r ∧ Charges d.pool request r
  once : s.log.Pairwise fun e e' => ∀ referenceId, posted e = some referenceId → posted e' ≠ some referenceId
  untouched : ∀ referenceId r, s.world.record d referenceId = some r →
    (r.status = .pending ∧ r.reason = none) ∨ ∃ e ∈ s.log, e.call.charges = false

/-- What a call has to know when it issues an operation. -/
structure Justified (d : Deployment) (s : MomoState) (tid : Nat) (c : Call) (op : Op) : Prop where
  opens : c.charges = true → ∀ referenceId, op.opens = some referenceId →
    Drawn s tid referenceId ∧ ∀ e ∈ s.own tid, stores e = none
  saves : ∀ r, op = .memory (.save r) → c.charges = true ∧ r.status = .pending ∧ r.reason = none ∧ Payable r.amount
  inserts : ∀ v, op = .query (.persist v) → c.charges = true → v.status = .pending ∧ v.reason = none ∧ Payable v.amount
  updates : ∀ v, op = .query (.persist v) → c.charges = false → s.world.record d v.referenceId ≠ none ∧
    ∃ reason, v.reason = d.param reason ∧ Sanctioned d s tid c v.referenceId v.status reason
  sets : ∀ referenceId r, op = .memory (.set referenceId r) → c.charges = false ∧
    Sanctioned d s tid c referenceId r.status r.reason ∧
    (∃ current, s.world.record d referenceId = some current ∧ current.Kept r) ∧
    ∃ read, lastRead s tid referenceId = some read ∧ (read.status.terminal = true → r.status = read.status)
  posts : ∀ request, op = .post request →
    (c.Asks request ∧ ∃ r, s.world.record d request.referenceId = some r ∧ Charges d.pool request r) ∧
    Drawn s tid request.referenceId ∧ ∀ e ∈ s.own tid, posted e = none

/-- How the shared state moves on. -/
structure Later (d : Deployment) (s s' : MomoState) : Prop where
  records : Register.Le MomoTransactionRecord.Kept (s.world.record d) (s'.world.record d)
  rows : Register.Le MomoRow.Kept (Database.row s.world.db) (Database.row s'.world.db)
  log : s.log <:+ s'.log

theorem Later.refl (d : Deployment) (s : MomoState) : Later d s s :=
  ⟨.refl .refl _, .refl .refl _, List.suffix_refl _⟩

theorem Later.trans {d : Deployment} {s₁ s₂ s₃ : MomoState} (h : Later d s₁ s₂) (h' : Later d s₂ s₃) : Later d s₁ s₃ :=
  ⟨h.records.trans .trans h'.records, h.rows.trans .trans h'.rows, h.log.trans h'.log⟩

theorem sameDetails_kept {resource : Json} {r r' : MomoTransactionRecord} (kept : r.Kept r') :
    sameDetails resource r' = sameDetails resource r := by
  rw [kept]
  rfl

theorem Reported.mono {log log' : List MomoEvent} {tid : Nat} {c : Call} {type : MomoTransactionType} {referenceId : String}
    {resource : Json} (h : Reported log tid c type referenceId resource) (grows : ∀ e ∈ log, e ∈ log') :
    Reported log' tid c type referenceId resource := by
  rcases h with callback | ⟨request, response, mem, rest⟩
  · exact .inl callback
  · exact .inr ⟨request, response, grows _ mem, rest⟩

theorem Sanctioned.later {d : Deployment} {s s' : MomoState} {tid : Nat} {c : Call} {referenceId : String}
    {status : MomoTransactionStatus} {reason : Option Json} (h : Sanctioned d s tid c referenceId status reason)
    (later : Later d s s') : Sanctioned d s' tid c referenceId status reason := by
  rcases h with told | ⟨resource, r, here, reported, same, rest⟩
  · exact .inl told
  obtain ⟨r', here', kept⟩ := later.records referenceId r here
  have type : r'.type = r.type := by rw [kept]; rfl
  refine .inr ⟨resource, r', here', ?_, sameDetails_kept kept ▸ same, rest⟩
  rw [type]
  exact reported.mono fun e mem => later.log.mem mem

/-- An operation that stores nothing, writes nothing and posts nothing needs no reason. -/
theorem Justified.quiet {d : Deployment} {s : MomoState} {tid : Nat} {c : Call} {op : Op} (opens : op.opens = none)
    (posts : op.posts = none) (sets : ∀ referenceId r, op ≠ .memory (.set referenceId r)) : Justified d s tid c op := by
  constructor
  · intro _ referenceId h; rw [opens] at h; cases h
  · rintro r rfl; cases opens
  · rintro v rfl; cases opens
  · rintro v rfl; cases opens
  · intro referenceId r h; exact (sets referenceId r h).elim
  · rintro request rfl; cases posts

section Step

variable {d : Deployment} {s s' : MomoState} {tid : Nat} {c : Call} {op : Op} {ans : op.Answer}

theorem exec_issued {w w' : World} (h : exec op w ans w') (tid : Nat) (c : Call) :
    (∀ id ∈ w.issued, id ∈ w'.issued) ∧ ∀ id, mints ⟨tid, c, op, ans⟩ = some id → id ∉ w.issued ∧ id ∈ w'.issued := by
  cases op with
  | randomUUID =>
    rw [h.2.2]
    refine ⟨fun id mem => List.mem_cons_of_mem _ mem, ?_⟩
    rintro id minted
    cases minted
    exact ⟨h.2.1, List.mem_cons_self⟩
  | memory op => obtain ⟨m, -, rfl⟩ := h; exact ⟨fun _ mem => mem, by rintro id ⟨⟩⟩
  | query s => obtain ⟨db, -, rfl⟩ := h; exact ⟨fun _ mem => mem, by rintro id ⟨⟩⟩
  | dateNow => rw [show w' = w from h]; exact ⟨fun _ mem => mem, by rintro id ⟨⟩⟩
  | getToken type => rw [show w' = w from h]; exact ⟨fun _ mem => mem, by rintro id ⟨⟩⟩
  | post request => rw [show w' = w from h]; exact ⟨fun _ mem => mem, by rintro id ⟨⟩⟩
  | get request => rw [show w' = w from h]; exact ⟨fun _ mem => mem, by rintro id ⟨⟩⟩

/-- Nothing is stored under an identifier its call has drawn and not used. -/
theorem Inv.unused (inv : Inv d s) (just : Justified d s tid c op) (charges : c.charges = true) {referenceId : String}
    (opens : op.opens = some referenceId) : s.world.record d referenceId = none := by
  obtain ⟨⟨u, drawn, name, rfl⟩, idle⟩ := just.opens charges referenceId opens
  by_contra stored
  obtain ⟨r, here⟩ := Option.ne_none_iff_exists'.1 stored
  obtain ⟨e, mem, used⟩ := inv.stored referenceId r here
  refine inv.storing.unused drawn name ?_ e mem used
  exact fun e mem own => idle e (Shared.mem_own.2 ⟨mem, own⟩)

theorem Inv.proper (inv : Inv d s) (just : Justified d s tid c op) : op.Proper d s.world := by
  cases op with
  | memory op =>
    cases op with
    | save r => exact inv.unused just (just.saves r rfl).1 rfl
    | set referenceId r => exact (just.sets referenceId r rfl).2.2.1
    | _ => trivial
  | _ => trivial

/-- What is opened is opened by a charge, as its own record. -/
theorem Justified.opened (just : Justified d s tid c op) {referenceId : String} {r : MomoTransactionRecord}
    (fresh : s.world.record d referenceId = none) (opens : Opens d op referenceId r) :
    c.charges = true ∧ op.opens = some referenceId ∧ r.referenceId = referenceId ∧ r.status = .pending ∧ r.reason = none ∧
      Payable r.amount := by
  rcases opens with ⟨-, rfl, rfl⟩ | ⟨-, v, row, rfl, ⟨rfl, amount, currency, numeric, -, rfl⟩, rfl⟩
  · obtain ⟨charges, rest⟩ := just.saves r rfl
    exact ⟨charges, rfl, rfl, rest⟩
  · cases charges : c.charges with
    | false => exact ((just.updates v rfl charges).1 fresh).elim
    | true =>
      obtain ⟨pending, reason, payable⟩ := just.inserts v rfl charges
      refine ⟨rfl, rfl, rfl, pending, ?_, payable.stored numeric⟩
      simp [MomoRow.record, MomoValues.row, reason]

/-- What is revised is revised by another call than a charge. -/
theorem Justified.revised (inv : Inv d s) (just : Justified d s tid c op) {referenceId : String} {r r' : MomoTransactionRecord}
    (here : s.world.record d referenceId = some r) (revises : Revises d op referenceId r r') : c.charges = false := by
  rcases revises with ⟨-, rfl⟩ | ⟨-, v, row, row', rfl, ⟨rfl, -⟩, -, -⟩
  · exact (just.sets referenceId r' rfl).1
  · cases charges : c.charges with
    | false => rfl
    | true =>
      rw [inv.unused just charges rfl] at here
      cases here

theorem Inv.change (inv : Inv d s) (just : Justified d s tid c op) (does : (momo d).Does s ⟨tid, c, op, ans⟩ s') :
    Register.Change MomoTransactionRecord.pair (Opens d op) (Revises d op) (s.world.record d) (s'.world.record d) :=
  exec_change does.1 inv.keyed (inv.proper just)

/-- A justified operation takes nothing back. -/
theorem Inv.later (inv : Inv d s) (just : Justified d s tid c op) (does : (momo d).Does s ⟨tid, c, op, ans⟩ s') : Later d s s' := by
  have exec : Momo.exec op s.world ans s'.world := does.1
  refine ⟨?_, ?_, does.2 ▸ List.suffix_cons _ _⟩
  · exact (inv.change just does).le .refl fun _ _ _ here => Revises.kept (inv.proper just) here
  · rcases exec_rows exec with same | ⟨v, -, change⟩
    · rw [same]
      exact .refl .refl _
    · exact change.le .refl fun _ _ _ _ => RowRevises.kept

/-- A record after a justified operation was there before, or a charge has opened it. -/
theorem Inv.origin (inv : Inv d s) (just : Justified d s tid c op) (does : (momo d).Does s ⟨tid, c, op, ans⟩ s')
    {referenceId : String} {r : MomoTransactionRecord} (after : s'.world.record d referenceId = some r) :
    (∃ r₀, s.world.record d referenceId = some r₀ ∧ r₀.Kept r ∧ (r = r₀ ∨ c.charges = false)) ∨
      (c.charges = true ∧ op.opens = some referenceId ∧ r.referenceId = referenceId ∧ r.status = .pending ∧ r.reason = none ∧
        Payable r.amount) := by
  rcases (inv.change just does).origin after with before | ⟨fresh, opens⟩ | ⟨r₀, before, revises⟩
  · exact .inl ⟨r, before, .refl r, .inl rfl⟩
  · exact .inr (just.opened fresh opens)
  · exact .inl ⟨r₀, before, Revises.kept (inv.proper just) before revises, .inr (just.revised inv before revises)⟩

/-- A justified operation keeps the invariant. -/
theorem Inv.step (inv : Inv d s) (just : Justified d s tid c op) (does : (momo d).Does s ⟨tid, c, op, ans⟩ s') : Inv d s' := by
  have log : s'.log = ⟨tid, c, op, ans⟩ :: s.log := does.2
  have later := inv.later just does
  have grows : ∀ e ∈ s.log, e ∈ s'.log := fun e mem => later.log.mem mem
  have this : (⟨tid, c, op, ans⟩ : MomoEvent) ∈ s'.log := log ▸ List.mem_cons_self
  obtain ⟨issuedGrows, issuedNew⟩ := exec_issued does.1 tid c
  have unminted : ∀ n, mints ⟨tid, c, op, ans⟩ = some n → ∀ u ∈ s.log, mints u ≠ some n :=
    fun n minted u mem same => (issuedNew n minted).1 (inv.issued u mem n same)
  have stays : ∀ {c : Call} {request : ChargeRequest},
      (c.Asks request ∧ ∃ r, s.world.record d request.referenceId = some r ∧ Charges d.pool request r) →
        c.Asks request ∧ ∃ r, s'.world.record d request.referenceId = some r ∧ Charges d.pool request r := by
    rintro c request ⟨asks, r, here, charges⟩
    obtain ⟨r', here', kept⟩ := later.records _ r here
    exact ⟨asks, r', here', charges.kept kept⟩
  constructor
  case keyed =>
    intro referenceId r after
    rcases inv.origin just does after with ⟨r₀, before, kept, -⟩ | ⟨-, -, key, -⟩
    · rw [kept]
      exact inv.keyed referenceId r₀ before
    · exact key
  case unique =>
    exact (inv.change just does).unique (fun _ _ _ here revises => (Revises.kept (inv.proper just) here revises).pair) inv.unique
  case payable =>
    intro referenceId r after
    rcases inv.origin just does after with ⟨r₀, before, kept, -⟩ | ⟨-, -, -, -, -, payable⟩
    · rw [kept]
      exact inv.payable referenceId r₀ before
    · exact payable
  case issued =>
    intro e mem id minted
    rw [log] at mem
    rcases List.mem_cons.1 mem with rfl | mem
    · exact (issuedNew id minted).2
    · exact issuedGrows id (inv.issued e mem id minted)
  case storing =>
    rw [log]
    refine inv.storing.cons unminted fun n stored => ?_
    simp only [stores, Option.ite_none_right_eq_some] at stored
    exact (just.opens stored.1 n stored.2).1
  case posting =>
    rw [log]
    refine inv.posting.cons unminted fun n sent => ?_
    obtain ⟨request, posts, rfl⟩ := Option.map_eq_some_iff.1 sent
    exact (just.posts request (Op.post_of_posts posts)).2.1
  case stored =>
    intro referenceId r after
    rcases inv.origin just does after with ⟨r₀, before, -⟩ | ⟨charges, opens, -⟩
    · obtain ⟨e, mem, used⟩ := inv.stored referenceId r₀ before
      exact ⟨e, grows e mem, used⟩
    · exact ⟨_, this, by simp [stores, charges, opens]⟩
  case charged =>
    intro e mem request posts
    rw [log] at mem
    rcases List.mem_cons.1 mem with rfl | mem
    · exact stays (just.posts request (Op.post_of_posts posts)).1
    · exact stays (inv.charged e mem request posts)
  case once =>
    rw [log, List.pairwise_cons]
    refine ⟨?_, inv.once⟩
    intro e mem referenceId sent
    obtain ⟨request, posts, rfl⟩ := Option.map_eq_some_iff.1 sent
    obtain ⟨-, ⟨u, drawn, name, rfl⟩, idle⟩ := just.posts request (Op.post_of_posts posts)
    exact inv.posting.unused drawn name (fun e mem own => idle e (Shared.mem_own.2 ⟨mem, own⟩)) e mem
  case untouched =>
    intro referenceId r after
    rcases inv.origin just does after with ⟨r₀, before, -, same | other⟩ | ⟨-, -, -, pending, reason, -⟩
    · subst same
      rcases inv.untouched referenceId r before with new | ⟨e, mem, other⟩
      · exact .inl new
      · exact .inr ⟨e, grows e mem, other⟩
    · exact .inr ⟨_, this, other⟩
    · exact .inl ⟨pending, reason⟩

end Step

end AfriPay.Momo
