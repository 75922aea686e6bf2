import AfriPay.Calls.Discipline

/-!
# The course of one call

`Discipline.Course` says of the rest of a call what it knows when it issues an
operation, what holds when it returns and what holds when it throws. Between two
operations other calls may do whatever the discipline allows them. A call whose
operations are all justified keeps the discipline (`keeps_of_course`); and once
all calls do, more can be said of a single one without proving that again
(`course_of_run`).
-/

namespace AfriPay.Calls

variable {C Op : Type} {Ans : Op → Type} {ε α β γ W : Type}

namespace Discipline

variable {S : System C Op Ans ε α W} (D : Discipline S)

/-- From `s` on, the rest of call `tid` satisfies `A` wherever it issues an
operation, and ends in a state that satisfies `Q` of its result or `E` of its
exception. -/
def Course (tid : Nat) (c : C) (A : Shared C Op Ans W → Op → Prop) (Q : β → Shared C Op Ans W → Prop)
    (E : ε → Shared C Op Ans W → Prop) : Prog Op Ans ε β → Shared C Op Ans W → Prop
  | .ret a, s => Q a s
  | .fail e, s => E e s
  | .act op next, s => ∀ s₁, D.Awaited tid s s₁ → A s₁ op ∧ ∀ ans s₂, S.exec op s₁.world ans s₂.world →
      s₂.log = ⟨tid, c, op, ans⟩ :: s₁.log → D.Later s₁ s₂ → D.Inv s₂ → Course tid c A Q E (next ans) s₂

section Rules

variable {D} {tid : Nat} {c : C} {s : Shared C Op Ans W} {A : Shared C Op Ans W → Op → Prop}
  {E : ε → Shared C Op Ans W → Prop}

/-- The rule of sequencing. -/
theorem course_bind {Q : γ → Shared C Op Ans W → Prop} {p : Prog Op Ans ε β} {f : β → Prog Op Ans ε γ}
    (h : D.Course tid c A (fun a s' => D.Course tid c A Q E (f a) s') E p s) : D.Course tid c A Q E (p >>= f) s := by
  induction p generalizing s with
  | ret a => exact h
  | fail e => exact h
  | act op next ih =>
    intro s₁ awaited
    obtain ⟨asserted, rest⟩ := h s₁ awaited
    exact ⟨asserted, fun ans s₂ exec log later inv => ih ans (rest ans s₂ exec log later inv)⟩

theorem course_ofExcept {Q : β → Shared C Op Ans W → Prop} {x : Except ε β} (ok : ∀ a, x = .ok a → Q a s)
    (error : ∀ e, x = .error e → E e s) : D.Course tid c A Q E (.ofExcept x) s := by
  cases x with
  | ok a => exact ok a rfl
  | error e => exact error e rfl

theorem course_ite {Q : β → Shared C Op Ans W → Prop} {cond : Prop} [Decidable cond] {p q : Prog Op Ans ε β}
    (h : cond → D.Course tid c A Q E p s) (h' : ¬ cond → D.Course tid c A Q E q s) :
    D.Course tid c A Q E (if cond then p else q) s := by
  by_cases hc : cond
  · rw [if_pos hc]; exact h hc
  · rw [if_neg hc]; exact h' hc

theorem course_map {Q : γ → Shared C Op Ans W → Prop} {p : Prog Op Ans ε β} {f : β → γ}
    (h : D.Course tid c A (fun a s' => Q (f a) s') E p s) : D.Course tid c A Q E (f <$> p) s := by
  rw [← bind_pure_comp]
  exact course_bind h

/-- The rule of consequence, for what is asserted on the way and for exceptions. -/
theorem Course.mono {A' : Shared C Op Ans W → Op → Prop} {E' : ε → Shared C Op Ans W → Prop} {Q : β → Shared C Op Ans W → Prop}
    {p : Prog Op Ans ε β} (h : D.Course tid c A Q E p s) (asserted : ∀ s' op, A s' op → A' s' op) (thrown : ∀ e s', E e s' → E' e s') :
    D.Course tid c A' Q E' p s := by
  induction p generalizing s with
  | ret a => exact h
  | fail e => exact thrown e s h
  | act op next ih =>
    intro s₁ awaited
    obtain ⟨before, rest⟩ := h s₁ awaited
    exact ⟨asserted s₁ op before, fun ans s₂ exec log later inv => ih ans (rest ans s₂ exec log later inv)⟩

/-- A call that issues justified operations only keeps the discipline. -/
theorem keeps_of_course {Q : β → Shared C Op Ans W → Prop} {p : Prog Op Ans ε β}
    (h : D.Course tid c (fun s' op => D.Justified s' tid c op) Q (fun _ _ => True) p s) : D.Keeps tid c Q p s := by
  induction p generalizing s with
  | ret a => exact h
  | fail e => exact h
  | act op next ih =>
    intro s₁ others inv ans s₂ does
    obtain ⟨just, rest⟩ := h s₁ ⟨others_later others, others.own, inv⟩
    obtain ⟨inv', later⟩ := D.step inv just does
    exact ⟨inv', ⟨later, just⟩, ih ans (rest ans s₂ does.1 does.2 later inv')⟩

end Rules

section Runs

variable {D} {Q₀ : Nat → C → α → Shared C Op Ans W → Prop} {cfg cfg' : Config C Op Ans ε α W} {w : W} {c : C}
  {A : Shared C Op Ans W → Op → Prop} {Q : α → Shared C Op Ans W → Prop} {E : ε → Shared C Op Ans W → Prop}

theorem Awaited.refl {tid : Nat} {s : Shared C Op Ans W} (inv : D.Inv s) : D.Awaited tid s s := ⟨D.refl s, rfl, inv⟩

/-- A step of another call, or of none. -/
theorem Awaited.step {tid : Nat} {s : Shared C Op Ans W} (h : D.Awaited tid s cfg.shared) (holds : D.protocol.Holds Q₀ cfg)
    {op : Op} {next : Ans op → Prog Op Ans ε α} {tid' : Nat} {c' : C} {ans : Ans op} {s' : Shared C Op Ans W} (other : tid' ≠ tid)
    (waiting : cfg.calls[tid']? = some (c', .act op next)) (does : S.Does cfg.shared ⟨tid', c', op, ans⟩ s') :
    D.Awaited tid s s' := by
  obtain ⟨inv, ⟨later, -⟩, -⟩ := holds.act waiting does
  refine ⟨D.trans h.later later, ?_, inv⟩
  rw [← h.own, Shared.own, Shared.own, does.2, List.filter_cons_of_neg (by simpa using other)]

/-- **The rule of a single call.** Where its body has a course from every state
it may start in, so has, in every reachable configuration, what is left of it,
from a state it has seen with only other calls at work since. -/
theorem course_of_run (holds : ∀ {cfg}, S.Steps (.initial w) cfg → D.protocol.Holds Q₀ cfg)
    (course : ∀ tid s, D.Inv s → s.own tid = [] → D.Course tid c A Q E (S.body c) s) (run : S.Steps (.initial w) cfg)
    {tid : Nat} {p : Prog Op Ans ε α} (here : cfg.calls[tid]? = some (c, p)) :
    ∃ s, D.Awaited tid s cfg.shared ∧ D.Course tid c A Q E p s := by
  induction run generalizing tid p with
  | refl => cases here
  | @tail mid last run step ih =>
    cases step with
    | start c₁ =>
      rcases System.call_started.1 here with earlier | ⟨rfl, new⟩
      · exact ih earlier
      · cases new
        refine ⟨mid.shared, .refl (holds run).inv, course _ _ (holds run).inv ?_⟩
        refine List.filter_eq_nil_iff.2 fun e mem => ?_
        have started := (holds run).started e mem
        simp only [decide_eq_true_eq]
        omega
    | @act tid₁ c₁ op next ans s' waiting does =>
      by_cases same : tid₁ = tid
      · subst same
        rw [List.getElem?_set_self (List.getElem?_eq_some_iff.1 waiting).1] at here
        obtain ⟨rfl, rfl⟩ := Prod.mk.inj (Option.some.inj here)
        obtain ⟨s, awaited, before⟩ := ih waiting
        obtain ⟨inv, ⟨later, -⟩, -⟩ := (holds run).act waiting does
        exact ⟨s', .refl inv, (before mid.shared awaited).2 ans s' does.1 does.2 later inv⟩
      · rw [List.getElem?_set_ne same] at here
        obtain ⟨s, awaited, before⟩ := ih here
        exact ⟨s, awaited.step (holds run) same waiting does, before⟩

/-- What the call knows when it issues an operation. -/
theorem asserted_of_step (holds : ∀ {cfg}, S.Steps (.initial w) cfg → D.protocol.Holds Q₀ cfg)
    (course : ∀ tid s, D.Inv s → s.own tid = [] → D.Course tid c A Q E (S.body c) s) (run : S.Steps (.initial w) cfg)
    (step : S.Step cfg cfg') {e : Event C Op Ans} (log : cfg'.shared.log = e :: cfg.shared.log) (call : e.call = c) :
    A cfg.shared e.op := by
  cases step with
  | start c₁ => exact (List.cons_ne_self e _ log.symm).elim
  | @act tid c₁ op next ans s' waiting does =>
    obtain rfl : (⟨tid, c₁, op, ans⟩ : Event C Op Ans) = e := (List.cons.inj (does.2.symm.trans log)).1
    obtain rfl : c₁ = c := call
    obtain ⟨s, awaited, rest⟩ := course_of_run holds course run waiting
    exact (rest cfg.shared awaited).1

end Runs

end Discipline

end AfriPay.Calls
