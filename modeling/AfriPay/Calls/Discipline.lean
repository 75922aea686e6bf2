import AfriPay.Calls.Fresh

/-!
# Disciplined calls

The protocols of this development have one shape: an invariant of the shared
state, an order in which that state moves on, and, for each operation, what a
call has to know to issue it. `Discipline` says that such an operation keeps
the invariant and moves on; a call is then proved operation by operation with
the rules for `Keeps`, and `Discipline.holds` puts all calls together.
-/

namespace AfriPay.Calls

variable {C Op : Type} {Ans : Op → Type} {ε α β γ W : Type}

structure Discipline (S : System C Op Ans ε α W) where
  Inv : Shared C Op Ans W → Prop
  /-- How the shared state moves on. -/
  Later : Shared C Op Ans W → Shared C Op Ans W → Prop
  /-- What call `tid` has to know when it issues an operation. -/
  Justified : Shared C Op Ans W → Nat → C → Op → Prop
  refl : ∀ s, Later s s
  trans : ∀ {s₁ s₂ s₃}, Later s₁ s₂ → Later s₂ s₃ → Later s₁ s₃
  step : ∀ {s s' tid c op ans}, Inv s → Justified s tid c op → S.Does s ⟨tid, c, op, ans⟩ s' → Inv s' ∧ Later s s'

namespace Discipline

variable {S : System C Op Ans ε α W} (D : Discipline S)

def protocol : Protocol S := ⟨D.Inv, fun s e s' => D.Later s s' ∧ D.Justified s e.tid e.call e.op⟩

/-- From `s` on, the rest `p` of a call keeps the discipline, and `Q` holds when it returns. -/
abbrev Keeps (tid : Nat) (c : C) (Q : β → Shared C Op Ans W → Prop) (p : Prog Op Ans ε β) (s : Shared C Op Ans W) : Prop :=
  D.protocol.Safe tid c Q (fun _ _ => True) p s

/-- Only other calls have been at work since `s`. -/
structure Awaited (tid : Nat) (s s' : Shared C Op Ans W) : Prop where
  later : D.Later s s'
  own : s'.own tid = s.own tid
  inv : D.Inv s'

section Rules

variable {D} {tid : Nat} {c : C} {s : Shared C Op Ans W}

theorem others_later {s' : Shared C Op Ans W} (h : D.protocol.Others tid s s') : D.Later s s' := by
  induction h with
  | refl => exact D.refl s
  | tail _ step ih =>
    obtain ⟨e, -, -, -, ⟨later, -⟩, -⟩ := step
    exact D.trans ih later

/-- The rule of one operation. -/
theorem keeps_op {Q : β → Shared C Op Ans W → Prop} {op : Op} {next : Ans op → Prog Op Ans ε β}
    (just : ∀ s₁, D.Awaited tid s s₁ → D.Justified s₁ tid c op)
    (rest : ∀ s₁ ans s₂, D.Awaited tid s s₁ → S.exec op s₁.world ans s₂.world →
      s₂.log = ⟨tid, c, op, ans⟩ :: s₁.log → D.Later s s₂ → D.Inv s₂ → D.Keeps tid c Q (next ans) s₂) :
    D.Keeps tid c Q (.act op next) s := by
  intro s₁ others inv ans s₂ does
  have awaited : D.Awaited tid s s₁ := ⟨others_later others, others.own, inv⟩
  obtain ⟨inv', later⟩ := D.step inv (just s₁ awaited) does
  exact ⟨inv', ⟨later, just s₁ awaited⟩, rest s₁ ans s₂ awaited does.1 does.2 (D.trans awaited.later later) inv'⟩

theorem keeps_bind {Q : γ → Shared C Op Ans W → Prop} {p : Prog Op Ans ε β} {f : β → Prog Op Ans ε γ}
    (h : D.Keeps tid c (fun a s' => D.Keeps tid c Q (f a) s') p s) : D.Keeps tid c Q (p >>= f) s :=
  Protocol.safe_bind.2 h

theorem keeps_ite {Q : β → Shared C Op Ans W → Prop} {cond : Prop} [Decidable cond] {p q : Prog Op Ans ε β}
    (h : cond → D.Keeps tid c Q p s) (h' : ¬ cond → D.Keeps tid c Q q s) :
    D.Keeps tid c Q (if cond then p else q) s := by
  by_cases hc : cond
  · rw [if_pos hc]; exact h hc
  · rw [if_neg hc]; exact h' hc

theorem keeps_ofExcept {Q : β → Shared C Op Ans W → Prop} {x : Except ε β} (h : ∀ a, x = .ok a → Q a s) :
    D.Keeps tid c Q (.ofExcept x) s :=
  Protocol.safe_ofExcept.2 ⟨h, fun _ _ => trivial⟩

theorem keeps_map {Q : γ → Shared C Op Ans W → Prop} {p : Prog Op Ans ε β} {f : β → γ}
    (h : D.Keeps tid c (fun a s' => Q (f a) s') p s) : D.Keeps tid c Q (f <$> p) s := by
  rw [← bind_pure_comp]
  exact keeps_bind h

theorem keeps_discard {Q : Unit → Shared C Op Ans W → Prop} {p : Prog Op Ans ε β}
    (h : D.Keeps tid c (fun _ s' => Q () s') p s) : D.Keeps tid c Q (discard p) s :=
  keeps_map h

/-- The rule of `try`/`catch`: of the exception's state only the invariant is known. -/
theorem keeps_catch {Q : β → Shared C Op Ans W → Prop} {p : Prog Op Ans ε β} {h : ε → Prog Op Ans ε β} (inv : D.Inv s)
    (hp : D.Keeps tid c Q p s) (handled : ∀ e s', D.Later s s' → D.Inv s' → D.Keeps tid c Q (h e) s') :
    D.Keeps tid c Q (tryCatch p h) s := by
  induction p generalizing s with
  | ret a => exact hp
  | fail e => exact handled e s (D.refl s) inv
  | act op next ih =>
    intro s₁ others inv₁ ans s₂ does
    obtain ⟨inv₂, guar, rest⟩ := hp s₁ others inv₁ ans s₂ does
    have later := D.trans (others_later others) guar.1
    exact ⟨inv₂, guar, ih ans inv₂ rest fun e s' later' => handled e s' (D.trans later later')⟩

/-- The operation just logged comes first among the call's own. -/
theorem Awaited.own_cons {s₁ s₂ : Shared C Op Ans W} (h : D.Awaited tid s s₁) {op : Op} {ans : Ans op}
    (log : s₂.log = ⟨tid, c, op, ans⟩ :: s₁.log) : s₂.own tid = ⟨tid, c, op, ans⟩ :: s.own tid := by
  rw [Shared.own, log, List.filter_cons_of_pos (by simp), ← h.own, Shared.own]

end Rules

section Runs

variable {D} {Q : Nat → C → α → Shared C Op Ans W → Prop} {cfg cfg' : Config C Op Ans ε α W} {w : W}

/-- **Disciplined calls.** If every call keeps the discipline from any state
that satisfies the invariant, every reachable configuration does. -/
theorem holds (inv : D.Inv ⟨w, []⟩)
    (sound : ∀ tid c s, D.Inv s → s.own tid = [] → D.Keeps tid c (Q tid c) (S.body c) s)
    (run : S.Steps (.initial w) cfg) : D.protocol.Holds Q cfg := by
  refine Protocol.reach ?_ (.initial inv) run
  intro tid c s inv unstarted
  exact sound tid c s inv (List.filter_eq_nil_iff.2 fun e mem => by simpa using unstarted e mem)

/-- What lies between two configurations of a run. -/
theorem later_of_steps
    (sound : ∀ tid c s, D.Inv s → s.own tid = [] → D.Keeps tid c (Q tid c) (S.body c) s)
    (h : D.protocol.Holds Q cfg) (steps : S.Steps cfg cfg') : D.Later cfg.shared cfg'.shared := by
  refine Protocol.Holds.stable (Q := Q) (F := fun s => D.Later cfg.shared s) ?_ ?_ h steps (D.refl _)
  · intro tid c s inv unstarted
    exact sound tid c s inv (List.filter_eq_nil_iff.2 fun e mem => by simpa using unstarted e mem)
  · exact fun _ _ _ _ _ guar before => D.trans before guar.1

/-- The operation a step logs is justified where it happens. -/
theorem justified_of_step (h : D.protocol.Holds Q cfg) (step : S.Step cfg cfg') {e : Event C Op Ans}
    (log : cfg'.shared.log = e :: cfg.shared.log) :
    S.Does cfg.shared e cfg'.shared ∧ D.Justified cfg.shared e.tid e.call e.op := by
  rcases h.guar step with same | ⟨e', does, -, just⟩
  · rw [same] at log
    exact (List.cons_ne_self e _ log.symm).elim
  · obtain rfl : e' = e := (List.cons.inj (does.2.symm.trans log)).1
    exact ⟨does, just⟩

/-- A call that has returned satisfied its postcondition in a state the present one is later than. -/
theorem returned (h : D.protocol.Holds Q cfg) {tid : Nat} {c : C} {a : α} (done : cfg.calls[tid]? = some (c, .ret a)) :
    ∃ s, D.Later s cfg.shared ∧ Q tid c a s := by
  obtain ⟨s, others, post⟩ := h.returned done
  exact ⟨s, others_later others, post⟩

end Runs

end Discipline

end AfriPay.Calls
