import AfriPay.Payments.Identifiers

/-!
# Claims and settlements over whole runs

Every call of the payment service keeps one protocol: the book only grows, a
hash is claimed only by a `submit` whose envelope was accepted for the intent,
an envelope is handed to Horizon only once its hash is stored, and a final
status is written only on a record Horizon returned for the stored hash.
`Inv.step` says which operations keep it, one lemma for each method says that
the method issues only such operations, and the rule of `Calls.Pool` carries
that over all runs.
-/

namespace AfriPay.Payments
open Calls Text Stellar Storage Ledger

/-- Some `submit` for the intent accepted an envelope of this hash with
`parsePayment`, and went on to claim the hash. -/
def Accepted (d : Deployment) (log : List PaymentEvent) (id : String) (payment : NativePayment) (hash : String) : Prop :=
  ∃ e ∈ log, ∃ signedXdr tx, e.call = .submit id signedXdr ∧ e.op.move = .claimed id hash ∧
    parsePayment d.sdk signedXdr (some payment) = .ok tx ∧ toHex tx.hash = hash

/-- Horizon answered a query for this hash with a record of the same hash, in a
ledger, whose outcome is this status. -/
def Verified {C : Type} (log : List (Event C Op Op.Answer)) (hash : String) (status : PaymentStatus) : Prop :=
  ∃ tid call result n, (⟨tid, call, .stellar (.transaction (.str hash)), some result⟩ : Event C Op Op.Answer) ∈ log ∧
    result.hash = hash ∧ result.ledger = some n ∧ 0 < n ∧ status = if result.successful then .succeeded else .failed

/-- The intent and the envelope of an event that hands an envelope to Horizon in a `submit`. -/
def handOver (e : PaymentEvent) : Option (String × Transaction) :=
  match e.call, e.op with
  | .submit id _, .stellar (.submitTransaction tx) => some (id, tx)
  | _, _ => none

/-- The event hands the envelope of `tx` to Horizon, in a `submit` for intent `id`. -/
abbrev HandsOver (e : PaymentEvent) (id : String) (tx : Transaction) : Prop := handOver e = some (id, tx)

theorem handsOver_iff {e : PaymentEvent} {id : String} {tx : Transaction} :
    HandsOver e id tx ↔ (∃ signedXdr, e.call = .submit id signedXdr) ∧ e.op = .stellar (.submitTransaction tx) := by
  constructor
  · intro h
    unfold HandsOver handOver at h
    split at h
    · rename_i call op
      cases h
      exact ⟨⟨_, call⟩, op⟩
    · cases h
  · rintro ⟨⟨signedXdr, call⟩, op⟩
    unfold HandsOver handOver
    rw [call, op]

/-- What holds between two operations. -/
structure Inv (d : Deployment) (s : PaymentState) : Prop extends Identified s where
  sound : s.world.Sound
  distinct : (s.world.book d).Distinct
  accepted : ∀ id e hash, s.world.book d id = some e → e.token = some hash → Accepted d s.log id e.details hash
  verified : ∀ id e status, s.world.book d id = some e → e.outcome = some status →
    ∃ hash, e.token = some hash ∧ Verified s.log hash status
  handedOver : ∀ ev ∈ s.log, ∀ tx, ev.op = .stellar (.submitTransaction tx) →
    ∃ id e, HandsOver ev id tx ∧ s.world.book d id = some e ∧ e.token = some (toHex tx.hash)

/-- What a call has to know when it issues an operation. -/
structure Justified (d : Deployment) (s : PaymentState) (tid : Nat) (c : Call) (op : Op) : Prop where
  create : ∀ i, op = .memory (.createIntent i) → i.transactionHash = none ∧ i.status = .pending
  insert : ∀ v, op = .query (.insertIntent v) → v.status = .pending
  stores : ∀ n, op.stores = some n → Drawn tid n s
  claims : ∀ id hash, op.move = .claimed id hash → ∃ signedXdr tx e, c = .submit id signedXdr ∧
    s.world.book d id = some e ∧ parsePayment d.sdk signedXdr (some e.details) = .ok tx ∧ toHex tx.hash = hash
  settles : ∀ id hash status, op.move = .settled id hash status → status ≠ .pending → Verified s.log hash status
  submits : ∀ tx, op = .stellar (.submitTransaction tx) → ∃ id signedXdr e, c = .submit id signedXdr ∧
    s.world.book d id = some e ∧ e.token = some (toHex tx.hash)

/-- How the shared state moves on: the book and the log grow, links stay. -/
structure Later (d : Deployment) (s s' : PaymentState) : Prop where
  book : Book.Le (s.world.book d) (s'.world.book d)
  links : ∀ id l, s.world.link d id = some l → s'.world.link d id = some l
  log : s.log <:+ s'.log

theorem Later.refl (d : Deployment) (s : PaymentState) : Later d s s := ⟨.refl _, fun _ _ h => h, List.suffix_refl _⟩

theorem Later.trans {d : Deployment} {s₁ s₂ s₃ : PaymentState} (h : Later d s₁ s₂) (h' : Later d s₂ s₃) : Later d s₁ s₃ :=
  ⟨h.book.trans h'.book, fun id l hl => h'.links id l (h.links id l hl), h.log.trans h'.log⟩

theorem Accepted.mono {d : Deployment} {log log' : List PaymentEvent} {id : String} {payment : NativePayment} {hash : String}
    (h : Accepted d log id payment hash) (grows : ∀ e ∈ log, e ∈ log') : Accepted d log' id payment hash := by
  obtain ⟨e, mem, rest⟩ := h
  exact ⟨e, grows e mem, rest⟩

theorem Verified.mono {C : Type} {log log' : List (Event C Op Op.Answer)} {hash : String} {status : PaymentStatus} (h : Verified log hash status)
    (grows : ∀ e ∈ log, e ∈ log') : Verified log' hash status := by
  obtain ⟨tid, call, result, n, mem, rest⟩ := h
  exact ⟨tid, call, result, n, grows _ mem, rest⟩

/-- An operation that changes no intent, stores no record and hands nothing over needs no reason. -/
theorem Justified.quiet {d : Deployment} {s : PaymentState} {tid : Nat} {c : Call} {op : Op} (quiet : op.quiet = true) :
    Justified d s tid c op := by
  obtain ⟨idle, -, none, local'⟩ := op.quiet_spec quiet
  constructor
  · rintro i rfl; cases none
  · rintro v rfl; cases idle
  · intro n stored; rw [none] at stored; cases stored
  · intro id hash claimed; rw [idle] at claimed; cases claimed
  · intro id hash status settled; rw [idle] at settled; cases settled
  · intro tx submitted; exact (local' tx submitted).elim

/-! ## What an operation does besides its move -/

/-- What a statement may do to `payment_links`. -/
theorem Database.run_links {pgTime : Json → Option Timestamp} {now : Timestamp} {db db' : Database} {s : Statement}
    {rows : List s.Row} (h : s.run pgTime now db = .ok (rows, db')) :
    db'.links = db.links ∨ ∃ row, db.links.insert row = some db'.links := by
  cases s with
  | selectIntent | selectLink | selectIntents => exact .inl (congrArg Database.links (Statement.run_reads rfl h))
  | claimHash id hash =>
    obtain ⟨_, -, rfl, -⟩ := Database.claimHash_ok h
    exact .inl rfl
  | settle id hash status =>
    obtain ⟨_, -, rfl⟩ := Database.settle_ok h
    exact .inl rfl
  | insertIntent v =>
    rcases Database.insertIntent_cases h with ⟨_, -, -, rfl⟩ | ⟨-, same, -⟩
    · exact .inl rfl
    · exact .inl same
  | insertLink v =>
    obtain ⟨_, _, -, -, inserted, rfl⟩ := Database.insertLink_ok h
    exact .inr ⟨_, inserted⟩

section Exec

variable {d : Deployment} {op : Op} {w w' : World} {ans : op.Answer}

/-- A stored link stays as it is, if no other is stored under its identifier. -/
theorem exec_link (h : exec d op w ans w') (fresh : ∀ n, op.stores = some n → w.memory.links.get n = none)
    {id : String} {l : PaymentLink} (stored : w.link d id = some l) : w'.link d id = some l := by
  unfold World.link at stored ⊢
  split at stored
  · rename_i pool
    have kept : ∀ links : Table LinkRow LinkRow.clash, (links = w.db.links ∨ ∃ row, w.db.links.insert row = some links) →
        (links.find (·.id = id)).map (PaymentIntentStore.linkOf d) = some l := by
      rintro links (rfl | ⟨row, inserted⟩)
      · exact stored
      · rw [Table.find_insert inserted (·.id) id]
        obtain ⟨r, found, rfl⟩ := Option.map_eq_some_iff.1 stored
        rw [found]
        rfl
    cases op with
    | randomUUID => rw [if_pos pool, h.2]; exact stored
    | stellar request => rw [if_pos pool, show w' = w from h]; exact stored
    | memory op => obtain ⟨m, -, rfl⟩ := h; rw [if_pos pool]; exact stored
    | query s =>
      obtain ⟨db, queried, rfl⟩ := h
      rw [if_pos pool]
      cases queried with
      | ran ok => exact kept _ (Database.run_links ok)
      | unanswered ok => exact kept _ (Database.run_links ok)
      | refused failed => exact stored
      | unreached => exact stored
  · rename_i pool
    rw [if_neg pool]
    rcases exec_memory h with same | ⟨j, i, set, -⟩ | ⟨l', set, stores⟩
    · rw [same]; exact stored
    · rw [set]; exact stored
    · rw [set]
      show (w.memory.links.set l'.id l').get id = some l
      rw [OrderedMap.get_set_ne _ _ ?_, stored]
      rintro rfl
      rw [fresh _ stores] at stored
      cases stored

end Exec

/-! ## One operation -/

section Step

variable {d : Deployment} {s s' : PaymentState} {tid : Nat} {c : Call} {op : Op} {ans : op.Answer}

theorem Inv.proper (inv : Inv d s) (just : Justified d s tid c op) : op.Proper s.world.memory := by
  have claimed : ∀ id hash, op.move = .claimed id hash → hash ≠ "" := by
    intro id hash move
    obtain ⟨-, tx, -, -, -, -, rfl⟩ := just.claims id hash move
    exact toHex_ne_empty tx.hash
  cases op with
  | randomUUID => trivial
  | stellar request => trivial
  | memory op =>
    cases op with
    | createIntent i =>
      obtain ⟨unclaimed, pending⟩ := just.create i rfl
      exact ⟨unclaimed, pending, (inv.unused (just.stores _ rfl)).1⟩
    | claimHash id hash now => exact claimed id hash rfl
    | _ => trivial
  | query st =>
    cases st with
    | insertIntent v => exact just.insert v rfl
    | claimHash id hash => exact claimed id hash rfl
    | _ => trivial

theorem entry_final {i : PaymentIntent} {status : PaymentStatus} (h : i.entry.outcome = some status) :
    status ≠ .pending ∧ i.status = status := by
  simp only [PaymentIntent.entry, finalStatus] at h
  split at h
  · cases h
  · rename_i final
    cases h
    exact ⟨final, rfl⟩

theorem book_final {w : World} {id : String} {e : IntentEntry} {status : PaymentStatus} (here : w.book d id = some e)
    (h : e.outcome = some status) : status ≠ .pending := by
  obtain ⟨i, -, rfl⟩ := Option.map_eq_some_iff.1 here
  exact (entry_final h).1

/-- A justified operation keeps the invariant and takes nothing back. -/
theorem Inv.step (inv : Inv d s) (just : Justified d s tid c op) (does : (payments d).Does s ⟨tid, c, op, ans⟩ s') :
    Inv d s' ∧ Later d s s' := by
  obtain ⟨exec, log⟩ := does
  have exec : Payments.exec d op s.world ans s'.world := exec
  obtain ⟨sound, may⟩ := exec_may inv.sound (inv.proper just) exec
  have grows : ∀ e ∈ s.log, e ∈ s'.log := fun e mem => log ▸ List.mem_cons_of_mem _ mem
  have here : (⟨tid, c, op, ans⟩ : PaymentEvent) ∈ s'.log := log ▸ List.mem_cons_self
  have later : Later d s s' :=
    ⟨may.le, fun id l => exec_link exec fun n stores => (inv.unused (just.stores n stores)).2, log ▸ List.suffix_cons _ _⟩
  have named := inv.toIdentified.step just.stores exec log
  refine ⟨⟨named, sound, may.distinct inv.distinct, ?accepted, ?verified, ?handedOver⟩, later⟩
  case accepted =>
    intro id e hash found token
    rcases may.token_origin found token with ⟨e₀, before, held, details⟩ | ⟨e₀, move, before, details⟩
    · rw [← details]
      exact (inv.accepted id e₀ hash before held).mono grows
    · obtain ⟨signedXdr, tx, e₁, call, entry, parsed, hex⟩ := just.claims id hash move
      obtain rfl : e₀ = e₁ := Option.some.inj (before.symm.trans entry)
      exact ⟨_, here, signedXdr, tx, call, move, details ▸ parsed, hex⟩
  case verified =>
    intro id e status found outcome
    rcases may.outcome_origin found outcome with ⟨e₀, before, settled⟩ | ⟨hash, move, held⟩
    · obtain ⟨hash, held, verified⟩ := inv.verified id e₀ status before settled
      obtain ⟨e₁, after, le⟩ := may.le id e₀ before
      obtain rfl : e = e₁ := Option.some.inj (found.symm.trans after)
      exact ⟨hash, le.token hash held, verified.mono grows⟩
    · exact ⟨hash, held, (just.settles id hash status move (book_final found outcome)).mono grows⟩
  case handedOver =>
    intro ev mem tx submit
    have stays : ∀ {id : String} {e : IntentEntry}, s.world.book d id = some e → e.token = some (toHex tx.hash) →
        ∃ e', s'.world.book d id = some e' ∧ e'.token = some (toHex tx.hash) := by
      intro id e before held
      obtain ⟨e', after, le⟩ := may.le id e before
      exact ⟨e', after, le.token _ held⟩
    rw [log] at mem
    rcases List.mem_cons.1 mem with rfl | mem
    · obtain ⟨id, signedXdr, e, call, before, held⟩ := just.submits tx submit
      obtain ⟨e', after, held'⟩ := stays before held
      exact ⟨id, e', handsOver_iff.2 ⟨⟨signedXdr, call⟩, submit⟩, after, held'⟩
    · obtain ⟨id, e, handsOver, before, held⟩ := inv.handedOver ev mem tx submit
      obtain ⟨e', after, held'⟩ := stays before held
      exact ⟨id, e', handsOver, after, held'⟩

end Step

end AfriPay.Payments
