import AfriPay.Calls.Waiting

/-!
# What a call has done

The operations of one call with their answers, oldest first, lead its body to what
is left of it (`traced`). A call over some operations that is part of a larger one
has its own share of them (`Follows.of_bind`).
-/

namespace AfriPay.Calls

variable {C Op : Type} {Ans : Op → Type} {ε α β W : Type}

/-- An operation with its answer. -/
abbrev Done (Op : Type) (Ans : Op → Type) := Σ op : Op, Ans op

namespace Prog

/-- These operations, so answered, lead `p` to `q`. -/
def Follows (q : Prog Op Ans ε α) : List (Done Op Ans) → Prog Op Ans ε α → Prop
  | [], p => p = q
  | e :: es, p => ∃ next, p = act e.1 next ∧ Follows q es (next e.2)

theorem Follows.snoc {p : Prog Op Ans ε α} {es : List (Done Op Ans)} {op : Op} {next : Ans op → Prog Op Ans ε α}
    (h : Follows (.act op next) es p) (ans : Ans op) : Follows (next ans) (es ++ [⟨op, ans⟩]) p := by
  induction es generalizing p with
  | nil => exact ⟨next, h, rfl⟩
  | cons e es ih =>
    obtain ⟨next', first, rest⟩ := h
    exact ⟨next', first, ih rest⟩

theorem follows_ofExcept {x : Except ε α} {es : List (Done Op Ans)} {a : α} (h : Follows (.ret a) es (ofExcept x : Prog Op Ans ε α)) :
    es = [] ∧ x = .ok a := by
  cases x with
  | ok b =>
    cases es with
    | nil =>
      cases h
      exact ⟨rfl, rfl⟩
    | cons e es =>
      obtain ⟨next, first, -⟩ := h
      cases first
  | error e =>
    cases es with
    | nil => cases h
    | cons e es =>
      obtain ⟨next, first, -⟩ := h
      cases first

/-- A sequence that has returned has first done all of `p`. -/
theorem Follows.of_bind {p : Prog Op Ans ε α} {f : α → Prog Op Ans ε β} {es : List (Done Op Ans)} {b : β}
    (h : Follows (.ret b) es (p >>= f)) :
    ∃ es₁ es₂ a, es = es₁ ++ es₂ ∧ Follows (.ret a) es₁ p ∧ Follows (.ret b) es₂ (f a) := by
  induction p generalizing es with
  | ret a => exact ⟨[], es, a, rfl, rfl, h⟩
  | fail e =>
    cases es with
    | nil => cases h
    | cons e es =>
      obtain ⟨next, first, -⟩ := h
      cases first
  | act op next ih =>
    cases es with
    | nil => cases h
    | cons e es =>
      obtain ⟨op', ans⟩ := e
      obtain ⟨next', first, rest⟩ := h
      cases first
      obtain ⟨es₁, es₂, a, rfl, before, after⟩ := ih ans rest
      exact ⟨⟨op', ans⟩ :: es₁, es₂, a, rfl, ⟨next, rfl, before⟩, after⟩

end Prog

/-- What call number `tid` has done, oldest first. -/
def Shared.trace (s : Shared C Op Ans W) (tid : Nat) : List (Done Op Ans) :=
  (s.log.filter fun e => e.tid = tid).reverse.map fun e => ⟨e.op, e.ans⟩

namespace System

variable {S : System C Op Ans ε α W} {cfg : Config C Op Ans ε α W} {w : W}

theorem trace_does {s s' : Shared C Op Ans W} {e : Event C Op Ans} (does : S.Does s e s') :
    s'.trace e.tid = s.trace e.tid ++ [⟨e.op, e.ans⟩] := by
  simp [Shared.trace, does.2, List.filter_cons_of_pos]

theorem trace_other {s s' : Shared C Op Ans W} {e : Event C Op Ans} (does : S.Does s e s') {tid : Nat} (other : e.tid ≠ tid) :
    s'.trace tid = s.trace tid := by
  simp [Shared.trace, does.2, other]

/-- Only calls that have started do anything. -/
theorem logged_started (run : S.Steps (.initial w) cfg) : ∀ e ∈ cfg.shared.log, e.tid < cfg.calls.length := by
  induction run with
  | refl => intro e mem; cases mem
  | tail _ step ih =>
    intro e mem
    cases step with
    | start c =>
      have lt := ih e mem
      rw [List.length_append]
      omega
    | act waiting does =>
      rw [does.2] at mem
      rw [List.length_set]
      rcases List.mem_cons.1 mem with rfl | mem
      · exact (List.getElem?_eq_some_iff.1 waiting).1
      · exact ih e mem

theorem trace_unstarted (run : S.Steps (.initial w) cfg) {tid : Nat} (unstarted : cfg.calls.length ≤ tid) :
    cfg.shared.trace tid = [] := by
  have none : cfg.shared.log.filter (fun e => decide (e.tid = tid)) = [] := by
    refine List.filter_eq_nil_iff.2 fun e mem => ?_
    have lt := logged_started run e mem
    simp only [decide_eq_true_eq]
    omega
  rw [Shared.trace, none]
  rfl

/-- What a call has done leads its body to what is left of it. -/
theorem traced (run : S.Steps (.initial w) cfg) {tid : Nat} {c : C} {p : Prog Op Ans ε α} (here : cfg.calls[tid]? = some (c, p)) :
    p.Follows (cfg.shared.trace tid) (S.body c) := by
  induction run generalizing tid c p with
  | refl => cases here
  | @tail mid last run step ih =>
    cases step with
    | start c₁ =>
      rcases call_started.1 here with earlier | ⟨rfl, new⟩
      · exact ih earlier
      · cases new
        rw [trace_unstarted run (Nat.le_refl _)]
        rfl
    | @act tid₁ c₁ op next ans s' waiting does =>
      by_cases same : tid₁ = tid
      · subst same
        rw [List.getElem?_set_self (List.getElem?_eq_some_iff.1 waiting).1] at here
        obtain ⟨rfl, rfl⟩ := Prod.mk.inj (Option.some.inj here)
        have grown : s'.trace tid₁ = mid.shared.trace tid₁ ++ [⟨op, ans⟩] := trace_does does
        rw [grown]
        exact (ih waiting).snoc ans
      · rw [List.getElem?_set_ne same] at here
        have kept : s'.trace tid = mid.shared.trace tid := trace_other does same
        rw [kept]
        exact ih here

end System

end AfriPay.Calls
