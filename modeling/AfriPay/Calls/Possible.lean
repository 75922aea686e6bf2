import AfriPay.Calls.Pool

/-!
# What a call can come to

`Protocol.Safe` holds whatever the outside answers. `Prog.Can` is its counterpart:
some answers lead the call, left to itself, to return as `Q` says. Where a call
can do so, a run from any configuration with that world lets it, with all other
calls left where they are (`System.alone`).
-/

namespace AfriPay.Calls

variable {C Op : Type} {Ans : Op → Type} {ε α β W : Type}

namespace Prog

/-- From the world `w`, with operations that do as `exec` says, the call can return so that `Q` holds. -/
def Can (exec : (op : Op) → W → Ans op → W → Prop) (Q : α → W → Prop) : Prog Op Ans ε α → W → Prop
  | ret a, w => Q a w
  | fail _, _ => False
  | act op next, w => ∃ ans w', exec op w ans w' ∧ Can exec Q (next ans) w'

section Rules

variable {exec : (op : Op) → W → Ans op → W → Prop} {Q : α → W → Prop} {w : W}

/-- The rule of sequencing. -/
theorem can_bind {R : β → W → Prop} {p : Prog Op Ans ε α} {f : α → Prog Op Ans ε β} :
    (p >>= f).Can exec R w ↔ p.Can exec (fun a w' => (f a).Can exec R w') w := by
  induction p generalizing w with
  | ret a => exact Iff.rfl
  | fail e => exact Iff.rfl
  | act op next ih =>
    refine exists_congr fun ans => exists_congr fun w' => and_congr_right fun _ => ?_
    exact ih ans

theorem Can.mono {R : α → W → Prop} {p : Prog Op Ans ε α} (h : p.Can exec Q w) (weaker : ∀ a w', Q a w' → R a w') : p.Can exec R w := by
  induction p generalizing w with
  | ret a => exact weaker a w h
  | fail e => exact h
  | act op next ih =>
    obtain ⟨ans, w', does, rest⟩ := h
    exact ⟨ans, w', does, ih ans rest⟩

/-- A call that can return with some of the answers can do so. -/
theorem Can.of_le {exec' : (op : Op) → W → Ans op → W → Prop} (le : ∀ op w ans w', exec' op w ans w' → exec op w ans w')
    {p : Prog Op Ans ε α} (h : p.Can exec' Q w) : p.Can exec Q w := by
  induction p generalizing w with
  | ret a => exact h
  | fail e => exact h
  | act op next ih =>
    obtain ⟨ans, w', does, rest⟩ := h
    exact ⟨ans, w', le op w ans w' does, ih ans rest⟩

theorem can_ofExcept {x : Except ε α} {a : α} (returned : x = .ok a) (h : Q a w) : (ofExcept x : Prog Op Ans ε α).Can exec Q w := by
  subst returned
  exact h

theorem can_ite {cond : Prop} [Decidable cond] {p q : Prog Op Ans ε α} (yes : cond → p.Can exec Q w) (no : ¬cond → q.Can exec Q w) :
    (if cond then p else q).Can exec Q w := by
  split
  · exact yes ‹_›
  · exact no ‹_›

theorem can_map {R : β → W → Prop} {f : α → β} {p : Prog Op Ans ε α} (h : p.Can exec (fun a w' => R (f a) w') w) :
    (f <$> p).Can exec R w := by
  rw [← bind_pure_comp]
  exact can_bind.2 h

end Rules

end Prog

namespace System

variable {S : System C Op Ans ε α W}

/-- What is left of a call runs to its end, and the other calls stay where they are. -/
theorem alone_from {Q : α → W → Prop} {c : C} {others : List (C × Prog Op Ans ε α)} (p : Prog Op Ans ε α)
    (s : Shared C Op Ans W) (can : p.Can S.exec Q s.world) :
    ∃ a s', S.Steps ⟨s, others ++ [(c, p)]⟩ ⟨s', others ++ [(c, .ret a)]⟩ ∧ Q a s'.world := by
  induction p generalizing s with
  | ret a => exact ⟨a, s, .refl, can⟩
  | fail e => exact can.elim
  | act op next ih =>
    obtain ⟨ans, w, does, rest⟩ := can
    obtain ⟨a, s', steps, post⟩ := ih ans ⟨w, ⟨others.length, c, op, ans⟩ :: s.log⟩ rest
    refine ⟨a, s', .head ?_ steps, post⟩
    have waiting : (others ++ [(c, Prog.act op next)])[others.length]? = some (c, Prog.act op next) := by simp
    have done : S.Does s ⟨others.length, c, op, ans⟩ ⟨w, ⟨others.length, c, op, ans⟩ :: s.log⟩ := ⟨does, rfl⟩
    have step : S.Step ⟨s, others ++ [(c, .act op next)]⟩ _ := .act waiting done
    rwa [List.set_append_right _ _ (Nat.le_refl _), Nat.sub_self, List.set_cons_zero] at step

/-- **A call alone.** Whatever is in progress, a call that can return so that `Q` holds can be
started and left to itself, and does. -/
theorem alone {Q : α → W → Prop} {cfg : Config C Op Ans ε α W} (c : C) (can : (S.body c).Can S.exec Q cfg.shared.world) :
    ∃ a s', S.Steps cfg ⟨s', cfg.calls ++ [(c, .ret a)]⟩ ∧ Q a s'.world := by
  obtain ⟨a, s', steps, post⟩ := @alone_from C Op Ans ε α W S Q c cfg.calls (S.body c) cfg.shared can
  exact ⟨a, s', .head (.start cfg c) steps, post⟩

end System

end AfriPay.Calls
