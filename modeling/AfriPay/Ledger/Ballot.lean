import Mathlib.Data.List.Nodup
import Mathlib.Data.List.Perm.Subperm
import AfriPay.Ledger.Trail

/-!
# Ballots

A member opens a ballot on something, members approve it, and it is executed
once enough of them have. Every event may do one deed to one ballot. What an
executed ballot has behind it is found in the log, before its execution.
-/

namespace AfriPay.Ledger

/-- What is voted on, and by whom it has been approved so far. -/
structure Ballot (δ α : Type) where
  details : δ
  approvals : List α
  executed : Bool

/-- What happens to a ballot. Its opener approves it. -/
inductive Deed (δ α : Type) where
  | opened (details : δ) (a : α)
  | approved (a : α)
  | executed

def Deed.opens {δ α : Type} : Deed δ α → Bool
  | .opened _ _ => true
  | _ => false

def Deed.executes {δ α : Type} : Deed δ α → Bool
  | .executed => true
  | _ => false

namespace Ballot

variable {ε κ δ α : Type}

/-- The ballot an event is about, given what events do. -/
def keyOf (deed : ε → Option (κ × Deed δ α)) (e : ε) : Option κ := (deed e).map Prod.fst

/-- What an event makes of a ballot. -/
inductive Handles (deed : ε → Option (κ × Deed δ α)) (e : ε) : Option (Ballot δ α) → Ballot δ α → Prop where
  | opened {k : κ} {d : δ} {a : α} (does : deed e = some (k, .opened d a)) : Handles deed e none ⟨d, [a], false⟩
  | kept {k : κ} {d : Deed δ α} {r r' : Ballot δ α} (does : deed e = some (k, d)) (later : d.opens = false)
      (details : r'.details = r.details) : Handles deed e (some r) r'

def opening (deed : ε → Option (κ × Deed δ α)) (e : ε) : Bool := (deed e).any fun d => d.2.opens

/-- The event opened a ballot on these details. -/
def OpenedOn (deed : ε → Option (κ × Deed δ α)) (e : ε) (d : δ) : Prop := ∃ k a, deed e = some (k, .opened d a)

/-- A ballot was opened once, with the details it has. -/
theorem opened_once [DecidableEq κ] {deed : ε → Option (κ × Deed δ α)} {log : List ε} {b : Register κ (Ballot δ α)} {k : κ}
    {r : Ballot δ α} (traced : Traced (keyOf deed) (Handles deed) log b) (here : b k = some r) :
    ∃ x a, (about (keyOf deed) k log).filter (opening deed) = [x] ∧ deed x = some (k, .opened r.details a) := by
  have first : ∀ e r, Handles deed e none r → opening deed e = true ∧ OpenedOn deed e r.details := by
    intro e r handles
    cases handles with
    | @opened k d a does => exact ⟨by simp [opening, does, Deed.opens], k, a, does⟩
  have later : ∀ e r r', Handles deed e (some r) r' →
      opening deed e = false ∧ ∀ x, OpenedOn deed x r.details → OpenedOn deed x r'.details := by
    intro e r r' handles
    cases handles with
    | kept does later details =>
      refine ⟨by simp [opening, does, later], fun x opened => ?_⟩
      rw [details]
      exact opened
  obtain ⟨x, only, k', a, does⟩ := (traced k).opening first later here
  have member : x ∈ about (keyOf deed) k log := by
    have mem : x ∈ (about (keyOf deed) k log).filter (opening deed) := by rw [only]; exact List.mem_cons_self
    exact List.mem_of_mem_filter mem
  have own : keyOf deed x = some k := by simpa using (List.mem_filter.1 member).2
  simp only [keyOf, does, Option.map_some, Option.some.injEq] at own
  subst own
  exact ⟨x, a, only, does⟩

/-- The members who have not approved yet complete the approvals. -/
theorem complete {α : Type} [DecidableEq α] {members approvals order : List α} (known : ∀ a ∈ approvals, a ∈ members)
    (rest : order.Perm (members.filter fun a => a ∉ approvals)) (a : α) : a ∈ approvals ++ order ↔ a ∈ members := by
  rw [List.mem_append, rest.mem_iff, List.mem_filter]
  constructor
  · rintro (approved | ⟨member, -⟩)
    · exact known a approved
    · exact member
  · intro member
    by_cases approved : a ∈ approvals
    · exact .inl approved
    · exact .inr ⟨member, decide_eq_true approved⟩

/-- Distinct members who all approve are enough for any threshold they can reach. -/
theorem enough {α : Type} {members approvals : List α} {threshold : Nat} (distinct : members.Nodup) (reachable : threshold ≤ members.length)
    (all : ∀ a, a ∈ approvals ↔ a ∈ members) : threshold ≤ approvals.length :=
  Nat.le_trans reachable (distinct.subperm fun a member => (all a).2 member).length_le

end Ballot

/-- The rules of a vote: the deed an event does and whom it is signed by, the members, and how many must approve. -/
structure Voting (ε κ δ α : Type) where
  deed : ε → Option (κ × Deed δ α)
  Signed : ε → α → Prop
  Member : α → Prop
  threshold : Nat

namespace Voting

variable {ε κ δ α : Type} (v : Voting ε κ δ α)

/-- In the log, newest event first, `a` signs for `details` under the key `k`. -/
def Consented (log : List ε) (k : κ) (details : δ) (a : α) : Prop :=
  ∃ e ∈ log, v.Signed e a ∧ (v.deed e = some (k, .opened details a) ∨ v.deed e = some (k, .approved a))

/-- The keys of the ballots that had a certain kind of deed done to them, newest first. -/
def keys (sort : Deed δ α → Bool) (log : List ε) : List κ :=
  log.filterMap fun e => (v.deed e).bind fun d => if sort d.2 then some d.1 else none

def openings (log : List ε) : List κ := v.keys Deed.opens log

def executions (log : List ε) : List κ := v.keys Deed.executes log

/-- The execution of a ballot, and the consent given before it. -/
def Passed (log : List ε) (k : κ) (r : Ballot δ α) : Prop :=
  v.threshold ≤ r.approvals.length ∧ ∃ later e earlier, log = later ++ e :: earlier ∧ v.deed e = some (k, .executed) ∧
    ∀ a ∈ r.approvals, v.Consented earlier k r.details a

/-- What a ballot has behind it. -/
structure Backed (log : List ε) (k : κ) (r : Ballot δ α) : Prop where
  distinct : r.approvals.Nodup
  members : ∀ a ∈ r.approvals, v.Member a
  consented : ∀ a ∈ r.approvals, v.Consented log k r.details a
  passed : r.executed = true → v.Passed log k r

/-- All ballots are backed, and none is opened or executed twice. -/
structure Sound (log : List ε) (b : Register κ (Ballot δ α)) : Prop where
  backed : ∀ k r, b k = some r → v.Backed log k r
  openedOnce : (v.openings log).Nodup
  executedOnce : (v.executions log).Nodup
  known : ∀ k ∈ v.openings log, ∃ r, b k = some r
  done : ∀ k ∈ v.executions log, ∃ r, b k = some r ∧ r.executed = true

variable [DecidableEq κ]

/-- What one event may do. -/
inductive Step (e : ε) (b : Register κ (Ballot δ α)) : Register κ (Ballot δ α) → Prop where
  | same (idle : v.deed e = none) : Step e b b
  | opened {k : κ} {d : δ} {a : α} (deed : v.deed e = some (k, .opened d a)) (signed : v.Signed e a) (member : v.Member a)
      (fresh : b k = none) : Step e b (Function.update b k (some ⟨d, [a], false⟩))
  | approved {k : κ} {r : Ballot δ α} {a : α} (deed : v.deed e = some (k, .approved a)) (signed : v.Signed e a)
      (member : v.Member a) (here : b k = some r) (pending : r.executed = false) (first : a ∉ r.approvals) :
      Step e b (Function.update b k (some { r with approvals := r.approvals ++ [a] }))
  | executed {k : κ} {r : Ballot δ α} (deed : v.deed e = some (k, .executed)) (here : b k = some r)
      (pending : r.executed = false) (enough : v.threshold ≤ r.approvals.length) :
      Step e b (Function.update b k (some { r with executed := true }))

variable {v} {e : ε} {log : List ε} {b b' : Register κ (Ballot δ α)} {k : κ} {r : Ballot δ α}

/-! ## The log grows -/

omit [DecidableEq κ] in
theorem Consented.later {d : δ} {a : α} (h : v.Consented log k d a) (e : ε) : v.Consented (e :: log) k d a := by
  obtain ⟨e₀, mem, signed, deed⟩ := h
  exact ⟨e₀, List.mem_cons_of_mem e mem, signed, deed⟩

omit [DecidableEq κ] in
theorem Backed.later (h : v.Backed log k r) (e : ε) : v.Backed (e :: log) k r := by
  refine ⟨h.distinct, h.members, fun a mem => (h.consented a mem).later e, fun executed => ?_⟩
  obtain ⟨enough, later, x, earlier, rfl, deed, consented⟩ := h.passed executed
  exact ⟨enough, e :: later, x, earlier, rfl, deed, consented⟩

omit [DecidableEq κ] in
theorem keys_new {sort : Deed δ α → Bool} {d : Deed δ α} (deed : v.deed e = some (k, d)) (this : sort d = true) :
    v.keys sort (e :: log) = k :: v.keys sort log := by
  simp [keys, deed, this]

omit [DecidableEq κ] in
theorem keys_same {sort : Deed δ α → Bool} (other : ∀ k d, v.deed e = some (k, d) → sort d = false) :
    v.keys sort (e :: log) = v.keys sort log := by
  cases deed : v.deed e with
  | none => simp [keys, deed]
  | some d => simp [keys, deed, other d.1 d.2 deed]

omit [DecidableEq κ] in
theorem keys_idle {sort : Deed δ α → Bool} {d : Deed δ α} (deed : v.deed e = some (k, d)) (other : sort d = false) :
    v.keys sort (e :: log) = v.keys sort log := by
  refine keys_same fun k' d' here => ?_
  rw [deed] at here
  cases here
  exact other

/-! ## One event -/

/-- An executed ballot stays as it is. -/
theorem Step.frozen (h : v.Step e b b') (here : b k = some r) (executed : r.executed = true) : b' k = some r := by
  have other : ∀ {j r₀ x}, b j = some r₀ → r₀.executed = false → Function.update b j x k = some r := by
    intro j r₀ x here₀ pending
    have ne : k ≠ j := by
      rintro rfl
      rw [here] at here₀
      cases here₀
      rw [executed] at pending
      cases pending
    rw [Function.update_of_ne ne, here]
  cases h with
  | same => exact here
  | opened deed signed member fresh =>
    rename_i j d a
    have ne : k ≠ j := by
      rintro rfl
      rw [here] at fresh
      cases fresh
    rw [Function.update_of_ne ne, here]
  | approved deed signed member here₀ pending first => exact other here₀ pending
  | executed deed here₀ pending enough => exact other here₀ pending

theorem Step.backed (h : v.Step e b b') (sound : v.Sound log b) : ∀ k r, b' k = some r → v.Backed (e :: log) k r := by
  have old : ∀ k r, b k = some r → v.Backed (e :: log) k r := fun k r here => (sound.backed k r here).later e
  cases h with
  | same => exact old
  | @opened j d a deed signed member fresh =>
    apply Register.forall_update old
    refine ⟨List.nodup_singleton a, ?_, ?_, by rintro ⟨⟩⟩
    · intro x mem
      rw [List.mem_singleton.1 mem]
      exact member
    · intro x mem
      rw [List.mem_singleton.1 mem]
      exact ⟨e, List.mem_cons_self, signed, .inl deed⟩
  | @approved j r₀ a deed signed member here pending first =>
    have backed := old j r₀ here
    apply Register.forall_update old
    refine ⟨?_, ?_, ?_, fun executed => ?_⟩
    · rw [← List.concat_eq_append]
      exact backed.distinct.concat first
    · intro x mem
      rcases List.mem_append.1 mem with old | last
      · exact backed.members x old
      · rw [List.mem_singleton.1 last]
        exact member
    · intro x mem
      rcases List.mem_append.1 mem with old | last
      · exact backed.consented x old
      · rw [List.mem_singleton.1 last]
        exact ⟨e, List.mem_cons_self, signed, .inr deed⟩
    · rw [pending] at executed
      cases executed
  | @executed j r₀ deed here pending enough =>
    have backed := old j r₀ here
    apply Register.forall_update old
    exact ⟨backed.distinct, backed.members, backed.consented,
      fun _ => ⟨enough, [], e, log, rfl, deed, (sound.backed j r₀ here).consented⟩⟩

/-- A ballot stays, whatever becomes of it. -/
theorem Step.stays (h : v.Step e b b') (here : b k = some r) : ∃ r', b' k = some r' := by
  have stays : ∀ j x, ∃ r', Function.update b j (some x) k = some r' := by
    intro j x
    by_cases same : k = j
    · subst same
      exact ⟨x, Function.update_self ..⟩
    · exact ⟨r, by rw [Function.update_of_ne same, here]⟩
  cases h with
  | same => exact ⟨r, here⟩
  | opened => exact stays _ _
  | approved => exact stays _ _
  | executed => exact stays _ _

/-- Whatever was opened before the event is there and not opened again. -/
theorem Step.openings (h : v.Step e b b') (sound : v.Sound log b) :
    (v.openings (e :: log)).Nodup ∧ ∀ k ∈ v.openings (e :: log), ∃ r, b' k = some r := by
  have old : ∀ k ∈ v.openings log, ∃ r, b' k = some r := by
    intro k mem
    obtain ⟨r, here⟩ := sound.known k mem
    exact h.stays here
  unfold Voting.openings at *
  cases h with
  | same idle =>
    rw [keys_same fun k d here => by rw [idle] at here; cases here]
    exact ⟨sound.openedOnce, old⟩
  | @opened j d a deed signed member fresh =>
    rw [keys_new deed rfl]
    constructor
    · refine List.nodup_cons.2 ⟨fun mem => ?_, sound.openedOnce⟩
      obtain ⟨r, here⟩ := sound.known j mem
      rw [fresh] at here
      cases here
    · intro k mem
      rcases List.mem_cons.1 mem with rfl | mem
      · exact ⟨_, Function.update_self ..⟩
      · exact old k mem
  | approved deed signed member here pending first =>
    rw [keys_idle deed rfl]
    exact ⟨sound.openedOnce, old⟩
  | executed deed here pending enough =>
    rw [keys_idle deed rfl]
    exact ⟨sound.openedOnce, old⟩

/-- What has been executed before the event is neither executed again nor undone. -/
theorem Step.executions (h : v.Step e b b') (sound : v.Sound log b) :
    (v.executions (e :: log)).Nodup ∧ ∀ k ∈ v.executions (e :: log), ∃ r, b' k = some r ∧ r.executed = true := by
  have old : ∀ k ∈ v.executions log, ∃ r, b' k = some r ∧ r.executed = true := by
    intro k mem
    obtain ⟨r, here, executed⟩ := sound.done k mem
    exact ⟨r, h.frozen here executed, executed⟩
  unfold Voting.executions at *
  cases h with
  | same idle =>
    rw [keys_same fun k d here => by rw [idle] at here; cases here]
    exact ⟨sound.executedOnce, old⟩
  | opened deed signed member fresh =>
    rw [keys_idle deed rfl]
    exact ⟨sound.executedOnce, old⟩
  | approved deed signed member here pending first =>
    rw [keys_idle deed rfl]
    exact ⟨sound.executedOnce, old⟩
  | @executed j r deed here pending enough =>
    rw [keys_new deed rfl]
    constructor
    · refine List.nodup_cons.2 ⟨fun mem => ?_, sound.executedOnce⟩
      obtain ⟨r', here', executed⟩ := sound.done j mem
      rw [here] at here'
      cases here'
      rw [pending] at executed
      cases executed
    · intro k mem
      rcases List.mem_cons.1 mem with rfl | mem
      · exact ⟨_, Function.update_self .., rfl⟩
      · exact old k mem

theorem Step.sound (h : v.Step e b b') (sound : v.Sound log b) : v.Sound (e :: log) b' :=
  ⟨h.backed sound, (h.openings sound).1, (h.executions sound).1, (h.openings sound).2, (h.executions sound).2⟩

omit [DecidableEq κ] in
/-- Before anything has happened to any ballot. -/
theorem Sound.initial (idle : ∀ e ∈ log, v.deed e = none) : v.Sound log (fun _ => none) := by
  have empty : ∀ sort, v.keys sort log = [] := by
    intro sort
    refine List.filterMap_eq_nil_iff.2 fun e mem => ?_
    rw [idle e mem]
    rfl
  have opened : v.openings log = [] := empty Deed.opens
  have executed : v.executions log = [] := empty Deed.executes
  refine ⟨by rintro k r ⟨⟩, ?_, ?_, ?_, ?_⟩
  · rw [opened]
    exact List.nodup_nil
  · rw [executed]
    exact List.nodup_nil
  · rw [opened]
    rintro k ⟨⟩
  · rw [executed]
    rintro k ⟨⟩

end Voting

end AfriPay.Ledger
