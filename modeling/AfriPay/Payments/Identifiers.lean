import AfriPay.Calls.Discipline
import AfriPay.Payments.IntentBook

/-!
# Identifiers of records

A call draws the identifier of a record and stores at most one record, under this
identifier. So whatever calls there are, nobody else stores anything under it.
-/

namespace AfriPay.Payments
open Calls Text Stellar Storage

/-- What calls of any kind share over a payment store. -/
abbrev StoreState (C : Type) := Shared C Op Op.Answer World

section

variable {C : Type}

/-- The identifier an event draws. -/
def mints : Event C Op Op.Answer → Option String
  | ⟨_, _, .randomUUID, id⟩ => some id
  | _ => none

/-- The identifier an operation stores a record of the in-memory branch under. -/
def Op.stores : Op → Option String
  | .memory (.createIntent i) => some i.id
  | .memory (.saveLink l) => some l.id
  | _ => none

theorem Op.quiet_spec {op : Op} (h : op.quiet = true) :
    op.move = .idle ∧ op.settles = none ∧ op.stores = none ∧ ∀ tx, op ≠ .stellar (.submitTransaction tx) := by
  cases op with
  | randomUUID => exact ⟨rfl, rfl, rfl, nofun⟩
  | memory op => cases op <;> first | exact ⟨rfl, rfl, rfl, nofun⟩ | cases h
  | query s => cases s <;> first | exact ⟨rfl, rfl, rfl, nofun⟩ | cases h
  | stellar request =>
    refine ⟨rfl, rfl, rfl, ?_⟩
    rintro tx ⟨⟩
    cases h

/-- The call has drawn the identifier and stored nothing yet. -/
def Drawn (tid : Nat) (id : String) (s : StoreState C) : Prop :=
  (∃ u ∈ s.log, mints u = some id ∧ u.tid = tid) ∧ ∀ e ∈ s.own tid, e.op.stores = none

/-- Identifiers are drawn once, and what is stored is stored under one its call has drawn. -/
structure Identified (s : StoreState C) : Prop where
  issued : ∀ e ∈ s.log, ∀ id, mints e = some id → id ∈ s.world.issued
  fresh : Fresh mints (fun e => e.op.stores) s.log
  storedIntents : ∀ id, s.world.memory.intents.get id ≠ none → ∃ e ∈ s.log, e.op.stores = some id
  storedLinks : ∀ id, s.world.memory.links.get id ≠ none → ∃ e ∈ s.log, e.op.stores = some id

/-! ## What an operation does to the maps -/

/-- What a segment may do to the maps. -/
theorem MemoryOp.run_cases {m m' : Memory} {op : MemoryOp} {a : op.Answer} (h : op.run m = .ok (a, m')) :
    m' = m ∨
      (∃ id i, m' = { m with intents := m.intents.set id i } ∧
        (m.intents.get id ≠ none ∨ (Op.memory op).stores = some id)) ∨
      (∃ l, m' = { m with links := m.links.set l.id l } ∧ op = .saveLink l) := by
  cases op with
  | findIntent | findLink | listIntents => exact .inl (MemoryOp.run_reads rfl h)
  | saveLink l => cases h; exact .inr (.inr ⟨l, rfl, rfl⟩)
  | createIntent i =>
    obtain rfl : (m.createIntent i).2 = m' := congrArg Prod.snd (Except.ok.inj h)
    unfold Memory.createIntent
    split
    · exact .inl rfl
    · exact .inr (.inl ⟨i.id, i, rfl, .inr rfl⟩)
  | claimHash id hash now =>
    obtain ⟨i, found, -, -, -, after⟩ := Memory.claimHash_ok h
    exact .inr (.inl ⟨id, _, after, .inl (by simp [found])⟩)
  | settle id hash status now =>
    obtain ⟨i, found, -, ⟨-, same⟩ | ⟨-, -, after⟩⟩ := Memory.settle_ok h
    · exact .inl same
    · exact .inr (.inl ⟨id, _, after, .inl (by simp [found])⟩)

section Exec

variable {d : Deployment} {op : Op} {w w' : World} {ans : op.Answer}

theorem exec_issued (h : exec d op w ans w') (tid : Nat) (c : C) :
    (∀ id ∈ w.issued, id ∈ w'.issued) ∧ ∀ id, mints ⟨tid, c, op, ans⟩ = some id → id ∉ w.issued ∧ id ∈ w'.issued := by
  cases op with
  | randomUUID =>
    rw [h.2]
    refine ⟨fun id mem => List.mem_cons_of_mem _ mem, ?_⟩
    rintro id minted
    cases minted
    exact ⟨h.1.2, List.mem_cons_self⟩
  | stellar request => rw [show w' = w from h]; exact ⟨fun _ mem => mem, by rintro id ⟨⟩⟩
  | memory op => obtain ⟨m, -, rfl⟩ := h; exact ⟨fun _ mem => mem, by rintro id ⟨⟩⟩
  | query s => obtain ⟨db, -, rfl⟩ := h; exact ⟨fun _ mem => mem, by rintro id ⟨⟩⟩

/-- A segment changes the maps as `run_cases` says; nothing else does. -/
theorem exec_memory (h : exec d op w ans w') : w'.memory = w.memory ∨
      (∃ id i, w'.memory = { w.memory with intents := w.memory.intents.set id i } ∧
        (w.memory.intents.get id ≠ none ∨ op.stores = some id)) ∨
      (∃ l, w'.memory = { w.memory with links := w.memory.links.set l.id l } ∧ op.stores = some l.id) := by
  cases op with
  | randomUUID => rw [h.2]; exact .inl rfl
  | stellar request => rw [show w' = w from h]; exact .inl rfl
  | query s => obtain ⟨db, -, rfl⟩ := h; exact .inl rfl
  | memory op =>
    obtain ⟨m, segment, rfl⟩ := h
    cases segment with
    | threw failed => exact .inl rfl
    | ran ok =>
      rcases MemoryOp.run_cases ok with same | set | ⟨l, set, rfl⟩
      · exact .inl same
      · exact .inr (.inl set)
      · exact .inr (.inr ⟨l, set, rfl⟩)

theorem exec_stored (h : exec d op w ans w') (id : String) :
    (w'.memory.intents.get id ≠ none → w.memory.intents.get id ≠ none ∨ op.stores = some id) ∧
      (w'.memory.links.get id ≠ none → w.memory.links.get id ≠ none ∨ op.stores = some id) := by
  rcases exec_memory h with same | ⟨j, i, set, known⟩ | ⟨l, set, stores⟩
  · rw [same]; exact ⟨.inl, .inl⟩
  · rw [set]
    refine ⟨fun stored => ?_, .inl⟩
    rw [OrderedMap.get_set] at stored
    split at stored
    · rename_i same; rw [same]; exact known
    · exact .inl stored
  · rw [set]
    refine ⟨.inl, fun stored => ?_⟩
    rw [OrderedMap.get_set] at stored
    split at stored
    · rename_i same; rw [same]; exact .inr stores
    · exact .inl stored

end Exec

/-! ## One operation -/

section Step

variable {d : Deployment} {s s' : StoreState C} {tid : Nat} {c : C} {op : Op} {ans : op.Answer}

/-- No record is stored under an identifier its call has drawn and not used. -/
theorem Identified.unused (named : Identified s) {n : String} (drawn : Drawn tid n s) :
    s.world.memory.intents.get n = none ∧ s.world.memory.links.get n = none := by
  obtain ⟨⟨u, mem, name, rfl⟩, idle⟩ := drawn
  have unused := named.fresh.unused mem name fun e mem own => idle e (Shared.mem_own.2 ⟨mem, own⟩)
  constructor
  · by_contra stored
    obtain ⟨e, mem, used⟩ := named.storedIntents n stored
    exact unused e mem used
  · by_contra stored
    obtain ⟨e, mem, used⟩ := named.storedLinks n stored
    exact unused e mem used

/-- An operation keeps this, if it stores a record only under an identifier its call has drawn. -/
theorem Identified.step (named : Identified s) (drawn : ∀ n, op.stores = some n → Drawn tid n s)
    (exec : exec d op s.world ans s'.world) (log : s'.log = ⟨tid, c, op, ans⟩ :: s.log) : Identified s' := by
  obtain ⟨issuedGrows, issuedNew⟩ := exec_issued exec tid c
  have grows : ∀ e ∈ s.log, e ∈ s'.log := fun e mem => log ▸ List.mem_cons_of_mem _ mem
  have here : (⟨tid, c, op, ans⟩ : Event C Op Op.Answer) ∈ s'.log := log ▸ List.mem_cons_self
  refine ⟨?issued, ?fresh, ?intents, ?links⟩
  case issued =>
    intro e mem id minted
    rw [log] at mem
    rcases List.mem_cons.1 mem with rfl | mem
    · exact (issuedNew id minted).2
    · exact issuedGrows id (named.issued e mem id minted)
  case fresh =>
    rw [log]
    refine named.fresh.cons ?_ fun n stores => (drawn n stores).1
    intro n minted u mem same
    exact (issuedNew n minted).1 (named.issued u mem n same)
  case intents =>
    intro id stored
    rcases (exec_stored exec id).1 stored with before | stores
    · obtain ⟨e, mem, used⟩ := named.storedIntents id before
      exact ⟨e, grows e mem, used⟩
    · exact ⟨_, here, stores⟩
  case links =>
    intro id stored
    rcases (exec_stored exec id).2 stored with before | stores
    · obtain ⟨e, mem, used⟩ := named.storedLinks id before
      exact ⟨e, grows e mem, used⟩
    · exact ⟨_, here, stores⟩

/-- Nothing is stored yet. -/
theorem identified_empty : Identified (⟨.empty, []⟩ : StoreState C) := by
  refine ⟨?_, .nil, ?_, ?_⟩
  · intro e mem; cases mem
  · intro id stored; exact (stored rfl).elim
  · intro id stored; exact (stored rfl).elim

end Step

end

end AfriPay.Payments
