import AfriPay.Calls.Discipline

/-!
# What a call may still do

Facts about runs that need no invariant. What is true of every operation a body
can come to, whatever the answers, is true of every operation that waits in a
run and of every one logged (`each_waiting`, `each_logged`), and a call that has
ended stays as it is (`ended_stays`). `Along` is a preorder that every justified
operation of a discipline moves along; so does a run, and so does what happens
between the end of a call and the present.
-/

namespace AfriPay.Calls

variable {C Op : Type} {Ans : Op → Type} {ε α W : Type}

namespace Prog

/-- `P` holds of every operation the call can come to, and of what follows it. -/
def Each (P : (op : Op) → (Ans op → Prog Op Ans ε α) → Prop) : Prog Op Ans ε α → Prop
  | ret _ | fail _ => True
  | act op next => P op next ∧ ∀ ans, Each P (next ans)

/-- The call has returned or thrown. -/
def Ended : Prog Op Ans ε α → Prop
  | ret _ | fail _ => True
  | act _ _ => False

/-- Some answers of the outside lead the call to return `a`. -/
def CanReturn (a : α) : Prog Op Ans ε α → Prop
  | ret b => b = a
  | fail _ => False
  | act _ next => ∃ ans, CanReturn a (next ans)

theorem canReturn_ofExcept {a : α} {x : Except ε α} : (ofExcept x : Prog Op Ans ε α).CanReturn a ↔ x = .ok a := by
  cases x <;> simp [CanReturn]

theorem each_of_all {P : (op : Op) → (Ans op → Prog Op Ans ε α) → Prop} (all : ∀ op next, P op next) (p : Prog Op Ans ε α) :
    p.Each P := by
  induction p with
  | ret a => trivial
  | fail e => trivial
  | act op next ih => exact ⟨all op next, ih⟩

theorem Each.mono {P P' : (op : Op) → (Ans op → Prog Op Ans ε α) → Prop} {p : Prog Op Ans ε α} (h : p.Each P)
    (weaker : ∀ op next, P op next → P' op next) : p.Each P' := by
  induction p with
  | ret a => trivial
  | fail e => trivial
  | act op next ih => exact ⟨weaker op next h.1, fun ans => ih ans (h.2 ans)⟩

theorem Ended.each {P : (op : Op) → (Ans op → Prog Op Ans ε α) → Prop} {p : Prog Op Ans ε α} (h : p.Ended) : p.Each P := by
  cases p with
  | ret a => trivial
  | fail e => trivial
  | act op next => exact h.elim

/-! What is true of an operation whatever follows it is proved along the structure of a call. -/

section Rules

variable {β : Type} {P : Op → Prop}

theorem each_bind {p : Prog Op Ans ε α} {f : α → Prog Op Ans ε β} (first : p.Each fun op _ => P op)
    (rest : ∀ a, (f a).Each fun op _ => P op) : (p >>= f).Each fun op _ => P op := by
  induction p with
  | ret a => exact rest a
  | fail e => trivial
  | act op next ih => exact ⟨first.1, fun ans => ih ans (first.2 ans)⟩

/-- What follows synchronous code may rest on what the code has returned. -/
theorem each_ofExcept_bind {x : Except ε α} {f : α → Prog Op Ans ε β} (rest : ∀ a, x = .ok a → (f a).Each fun op _ => P op) :
    (ofExcept x >>= f).Each fun op _ => P op := by
  cases x with
  | ok a => exact rest a rfl
  | error e => trivial

theorem each_await_bind {op : Op} {f : Ans op → Prog Op Ans ε β} (here : P op) (rest : ∀ ans, (f ans).Each fun op _ => P op) :
    (await op >>= f).Each fun op _ => P op :=
  ⟨here, rest⟩

theorem each_map {p : Prog Op Ans ε α} {f : α → β} (h : p.Each fun op _ => P op) : (f <$> p).Each fun op _ => P op := by
  rw [← bind_pure_comp]
  exact each_bind h fun _ => trivial

theorem each_ofExcept (x : Except ε α) : (ofExcept x : Prog Op Ans ε α).Each fun op _ => P op := by
  cases x <;> trivial

theorem each_ite {cond : Prop} [Decidable cond] {p q : Prog Op Ans ε α} (yes : cond → p.Each fun op _ => P op)
    (no : ¬cond → q.Each fun op _ => P op) : (if cond then p else q).Each fun op _ => P op := by
  split
  · exact yes ‹_›
  · exact no ‹_›

theorem each_embed {Op' : Type} {Ans' : Op' → Type} {inj : Op → Op'} {back : ∀ op, Ans' (inj op) → Ans op} {P : Op' → Prop}
    {p : Prog Op Ans ε α} (h : p.Each fun op _ => P (inj op)) : (embed inj back p).Each fun op _ => P op := by
  induction p with
  | ret a => trivial
  | fail e => trivial
  | act op next ih => exact ⟨h.1, fun ans => ih _ (h.2 _)⟩

end Rules

theorem ended_map_ofExcept {β : Type} (f : α → β) (x : Except ε α) : (f <$> (ofExcept x : Prog Op Ans ε α)).Ended := by
  cases x <;> exact trivial

end Prog

namespace System

variable {S : System C Op Ans ε α W} {cfg cfg' : Config C Op Ans ε α W} {w : W}

/-- A call is where it was, has just started, or has done the operation it waited for. -/
theorem Step.call (step : S.Step cfg cfg') {tid : Nat} {c : C} {p : Prog Op Ans ε α} (here : cfg'.calls[tid]? = some (c, p)) :
    cfg.calls[tid]? = some (c, p) ∨ p = S.body c ∨
      ∃ op next ans, cfg.calls[tid]? = some (c, .act op next) ∧ p = next ans := by
  cases step with
  | start c₁ =>
    rcases call_started.1 here with earlier | ⟨-, new⟩
    · exact .inl earlier
    · cases new
      exact .inr (.inl rfl)
  | @act tid₁ c₁ op next ans s' waiting does =>
    by_cases same : tid₁ = tid
    · subst same
      rw [List.getElem?_set_self (List.getElem?_eq_some_iff.1 waiting).1] at here
      obtain ⟨rfl, rfl⟩ := Prod.mk.inj (Option.some.inj here)
      exact .inr (.inr ⟨op, next, ans, waiting, rfl⟩)
    · rw [List.getElem?_set_ne same] at here
      exact .inl here

/-- A step that logs an operation lets the call that waited for it go on. -/
theorem Step.logged (step : S.Step cfg cfg') {e : Event C Op Ans} (log : cfg'.shared.log = e :: cfg.shared.log) :
    ∃ next, cfg.calls[e.tid]? = some (e.call, .act e.op next) ∧ cfg'.calls[e.tid]? = some (e.call, next e.ans) ∧
      S.exec e.op cfg.shared.world e.ans cfg'.shared.world := by
  cases step with
  | start c => exact (List.cons_ne_self e _ log.symm).elim
  | @act tid c op next ans s' waiting does =>
    obtain rfl : (⟨tid, c, op, ans⟩ : Event C Op Ans) = e := (List.cons.inj (does.2.symm.trans log)).1
    exact ⟨next, waiting, List.getElem?_set_self (List.getElem?_eq_some_iff.1 waiting).1, does.1⟩

/-- A waiting call that a step ends has done the operation it waited for. -/
theorem Step.ends (step : S.Step cfg cfg') {tid : Nat} {c c' : C} {op : Op} {next : Ans op → Prog Op Ans ε α} {p : Prog Op Ans ε α}
    (waiting : cfg.calls[tid]? = some (c, .act op next)) (here : cfg'.calls[tid]? = some (c', p)) (ended : p.Ended) :
    ∃ ans, p = next ans ∧ cfg'.shared.log = ⟨tid, c, op, ans⟩ :: cfg.shared.log := by
  have lt := (List.getElem?_eq_some_iff.1 waiting).1
  cases step with
  | start c₁ =>
    rw [List.getElem?_append_left lt, waiting] at here
    cases here
    exact ended.elim
  | @act tid₁ c₁ op₁ next₁ ans s' waiting₁ does =>
    by_cases same : tid₁ = tid
    · subst same
      rw [waiting] at waiting₁
      cases waiting₁
      rw [List.getElem?_set_self lt] at here
      cases here
      exact ⟨ans, rfl, does.2⟩
    · rw [List.getElem?_set_ne same, waiting] at here
      cases here
      exact ended.elim

/-- What is true of all a body can come to is true of what is left of a call. -/
theorem each_waiting {P : C → (op : Op) → (Ans op → Prog Op Ans ε α) → Prop} (each : ∀ c, (S.body c).Each (P c))
    (run : S.Steps (.initial w) cfg) {tid : Nat} {c : C} {p : Prog Op Ans ε α} (here : cfg.calls[tid]? = some (c, p)) :
    p.Each (P c) := by
  induction run generalizing tid c p with
  | refl => cases here
  | tail _ step ih =>
    rcases step.call here with before | rfl | ⟨op, next, ans, waiting, rfl⟩
    · exact ih before
    · exact each c
    · exact (ih waiting).2 ans

/-- An operation in the log was logged by a step of the run, when the log was what is older. -/
theorem happened (run : S.Steps (.initial w) cfg) {e : Event C Op Ans} {newer older : List (Event C Op Ans)}
    (log : cfg.shared.log = newer ++ e :: older) :
    ∃ cfg₀ cfg₁, S.Steps (.initial w) cfg₀ ∧ cfg₀.shared.log = older ∧ S.Step cfg₀ cfg₁ ∧ cfg₁.shared.log = e :: older ∧
      S.Steps cfg₁ cfg := by
  induction run generalizing newer with
  | refl => simp [Config.initial] at log
  | @tail mid last run step ih =>
    have before : ∀ newer, mid.shared.log = newer ++ e :: older → ∃ cfg₀ cfg₁, S.Steps (.initial w) cfg₀ ∧ cfg₀.shared.log = older ∧
        S.Step cfg₀ cfg₁ ∧ cfg₁.shared.log = e :: older ∧ S.Steps cfg₁ last := by
      intro newer log
      obtain ⟨cfg₀, cfg₁, run₀, log₀, step₀, log₁, steps⟩ := ih log
      exact ⟨cfg₀, cfg₁, run₀, log₀, step₀, log₁, steps.tail step⟩
    cases step with
    | start c => exact before newer log
    | @act tid c op next ans s' waiting does =>
      have grown : (⟨tid, c, op, ans⟩ : Event C Op Ans) :: mid.shared.log = newer ++ e :: older := does.2.symm.trans log
      cases newer with
      | nil =>
        obtain ⟨rfl, same⟩ := List.cons.inj grown
        exact ⟨mid, _, run, same, .act waiting does, by rw [does.2, same], .refl⟩
      | cons e' newer => exact before newer (List.cons.inj grown).2

/-- What is true of all operations a body can come to is true of all it has done. -/
theorem each_logged {P : C → Op → Prop} (each : ∀ c, (S.body c).Each fun op _ => P c op) (run : S.Steps (.initial w) cfg) :
    ∀ e ∈ cfg.shared.log, P e.call e.op := by
  induction run with
  | refl => intro e mem; cases mem
  | @tail mid last run step ih =>
    cases step with
    | start c => exact ih
    | act waiting does =>
      intro e mem
      rw [does.2] at mem
      rcases List.mem_cons.1 mem with rfl | mem
      · exact (each_waiting each run waiting).1
      · exact ih e mem

/-- A call that has started stays the same call. -/
theorem call_stays (steps : S.Steps cfg cfg') {tid : Nat} {c : C} {p : Prog Op Ans ε α} (here : cfg.calls[tid]? = some (c, p)) :
    ∃ p', cfg'.calls[tid]? = some (c, p') := by
  induction steps with
  | refl => exact ⟨p, here⟩
  | tail _ step ih =>
    obtain ⟨p', before⟩ := ih
    have lt := (List.getElem?_eq_some_iff.1 before).1
    cases step with
    | start c₁ => exact ⟨p', by rw [List.getElem?_append_left lt]; exact before⟩
    | @act tid₁ c₁ op next ans s' waiting does =>
      by_cases same : tid₁ = tid
      · subst same
        obtain rfl : c₁ = c := congrArg Prod.fst (Option.some.inj (waiting.symm.trans before))
        exact ⟨next ans, List.getElem?_set_self lt⟩
      · exact ⟨p', by rw [List.getElem?_set_ne same]; exact before⟩

/-- An operation in the log is of a call of the run. -/
theorem logged_call (run : S.Steps (.initial w) cfg) {e : Event C Op Ans} (mem : e ∈ cfg.shared.log) :
    ∃ p, cfg.calls[e.tid]? = some (e.call, p) := by
  obtain ⟨newer, older, split⟩ := List.append_of_mem mem
  obtain ⟨cfg₀, cfg₁, -, rfl, step, log, steps⟩ := happened run split
  obtain ⟨next, -, after, -⟩ := step.logged log
  exact call_stays steps after

/-- A call that has ended stays as it is. -/
theorem ended_stays (steps : S.Steps cfg cfg') {tid : Nat} {c : C} {p : Prog Op Ans ε α} (here : cfg.calls[tid]? = some (c, p))
    (ended : p.Ended) : cfg'.calls[tid]? = some (c, p) := by
  induction steps with
  | refl => exact here
  | tail _ step ih =>
    cases step with
    | start c₁ =>
      rw [List.getElem?_append_left (List.getElem?_eq_some_iff.1 ih).1]
      exact ih
    | @act tid₁ c₁ op next ans s' waiting does =>
      have other : tid₁ ≠ tid := by
        rintro rfl
        rw [ih] at waiting
        cases waiting
        exact ended
      rw [List.getElem?_set_ne other]
      exact ih

end System

namespace Discipline

variable {S : System C Op Ans ε α W} {D : Discipline S}

/-- Every justified operation moves the shared state along `R`. -/
structure Along (D : Discipline S) (R : Shared C Op Ans W → Shared C Op Ans W → Prop) : Prop where
  refl : ∀ s, R s s
  trans : ∀ {s₁ s₂ s₃}, R s₁ s₂ → R s₂ s₃ → R s₁ s₃
  step : ∀ {s s' e}, D.Inv s → D.Justified s e.tid e.call e.op → S.Does s e s' → R s s'

namespace Along

variable {R : Shared C Op Ans W → Shared C Op Ans W → Prop} {Q : Nat → C → α → Shared C Op Ans W → Prop}
  {cfg cfg' : Config C Op Ans ε α W}

theorem others (along : D.Along R) {tid : Nat} {s s' : Shared C Op Ans W} (h : D.protocol.Others tid s s') : R s s' := by
  induction h with
  | refl => exact along.refl s
  | tail _ step ih =>
    obtain ⟨e, -, does, inv, ⟨-, just⟩, -⟩ := step
    exact along.trans ih (along.step inv just does)

/-- A run moves along `R`. -/
theorem steps (along : D.Along R) (sound : ∀ tid c s, D.Inv s → s.own tid = [] → D.Keeps tid c (Q tid c) (S.body c) s)
    (h : D.protocol.Holds Q cfg) (steps : S.Steps cfg cfg') : R cfg.shared cfg'.shared := by
  refine Protocol.Holds.stable (Q := Q) (F := fun s => R cfg.shared s) ?_ ?_ h steps (along.refl _)
  · intro tid c s inv unstarted
    exact sound tid c s inv (List.filter_eq_nil_iff.2 fun e mem => by simpa using unstarted e mem)
  · exact fun _ _ _ does inv guar before => along.trans before (along.step inv guar.2 does)

/-- A call that has returned satisfied its postcondition in a state from which the present one lies along `R`. -/
theorem returned (along : D.Along R) (h : D.protocol.Holds Q cfg) {tid : Nat} {c : C} {a : α}
    (done : cfg.calls[tid]? = some (c, .ret a)) : ∃ s, R s cfg.shared ∧ Q tid c a s := by
  obtain ⟨s, others, post⟩ := h.returned done
  exact ⟨s, along.others others, post⟩

end Along

end Discipline

end AfriPay.Calls
