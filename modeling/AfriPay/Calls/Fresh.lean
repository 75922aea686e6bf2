import AfriPay.Calls.Pool

/-!
# Names a call makes for itself

A call may draw a new name (a random identifier) and store something under it
later. `Fresh` is the invariant of the log that makes such a name private: each
name is drawn once, and used by the call that drew it. `Fresh.unused` is what a
call then knows about a name it has drawn and not used yet.
-/

namespace AfriPay.Calls

variable {C Op : Type} {Ans : Op → Type} {ε α W ν : Type}

/-- The operations of call number `tid`. -/
def Shared.own (s : Shared C Op Ans W) (tid : Nat) : List (Event C Op Ans) := s.log.filter (·.tid = tid)

theorem Shared.mem_own {s : Shared C Op Ans W} {tid : Nat} {e : Event C Op Ans} :
    e ∈ s.own tid ↔ e ∈ s.log ∧ e.tid = tid := by simp [own]

/-- Other calls add nothing to a call's own operations. -/
theorem Protocol.Others.own {S : System C Op Ans ε α W} {P : Protocol S} {tid : Nat} {s s' : Shared C Op Ans W}
    (h : P.Others tid s s') : s'.own tid = s.own tid := by
  obtain ⟨new, log, others⟩ := Others.log h
  have none : new.filter (fun e => decide (e.tid = tid)) = [] := by
    refine List.filter_eq_nil_iff.2 fun e mem => ?_
    simpa using others e mem
  rw [Shared.own, log, List.filter_append, none, List.nil_append, Shared.own]

/-- `mints` names the events that draw a name, `uses` those that use one. -/
structure Fresh (mints uses : Event C Op Ans → Option ν) (log : List (Event C Op Ans)) : Prop where
  once : ∀ u ∈ log, ∀ v ∈ log, ∀ n, mints u = some n → mints v = some n → u.tid = v.tid
  owned : ∀ e ∈ log, ∀ n, uses e = some n → ∃ u ∈ log, mints u = some n ∧ u.tid = e.tid

namespace Fresh

variable {mints uses : Event C Op Ans → Option ν} {log : List (Event C Op Ans)}

theorem nil : Fresh mints uses [] := ⟨by simp, by simp⟩

theorem cons (h : Fresh mints uses log) {e : Event C Op Ans}
    (new : ∀ n, mints e = some n → ∀ u ∈ log, mints u ≠ some n)
    (own : ∀ n, uses e = some n → ∃ u ∈ log, mints u = some n ∧ u.tid = e.tid) : Fresh mints uses (e :: log) := by
  constructor
  · intro u hu v hv n nu nv
    rcases List.mem_cons.1 hu with rfl | earlier <;> rcases List.mem_cons.1 hv with rfl | earlier'
    · rfl
    · exact (new n nu v earlier' nv).elim
    · exact (new n nv u earlier nu).elim
    · exact h.once u earlier v earlier' n nu nv
  · intro e' he' n used
    rcases List.mem_cons.1 he' with rfl | he'
    · obtain ⟨u, hu, minted⟩ := own n used
      exact ⟨u, List.mem_cons_of_mem _ hu, minted⟩
    · obtain ⟨u, hu, minted⟩ := h.owned e' he' n used
      exact ⟨u, List.mem_cons_of_mem _ hu, minted⟩

/-- A name its call has drawn and not used is used by nobody. -/
theorem unused (h : Fresh mints uses log) {u : Event C Op Ans} {n : ν} (drawn : u ∈ log) (name : mints u = some n)
    (idle : ∀ e ∈ log, e.tid = u.tid → uses e = none) : ∀ e ∈ log, uses e ≠ some n := by
  intro e mem used
  obtain ⟨v, hv, minted, owner⟩ := h.owned e mem n used
  have same := h.once u drawn v hv n name minted
  rw [idle e mem (owner.symm.trans same.symm)] at used
  cases used

end Fresh

end AfriPay.Calls
