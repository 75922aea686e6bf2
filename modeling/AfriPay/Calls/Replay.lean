import AfriPay.Calls.Pool

/-!
# Executable runs

`System.Step` leaves the order of the calls and the answers of the outside
open. A schedule fixes both, and `replay` computes where it leads; every
configuration it computes is reachable (`replay_steps`).
-/

namespace AfriPay.Calls

/-- One entry of a schedule: a call starts, or a waiting call does its
operation, with the choice `x` made for the outside. -/
inductive Scheduled (C X : Type) where
  | start (c : C)
  | act (tid : Nat) (x : X)

variable {C Op : Type} {Ans : Op → Type} {ε α W X : Type}

/-- `effect x op w` is what `op` answers and does to `w` when the outside chooses `x`. -/
abbrev Effect (Op : Type) (Ans : Op → Type) (W X : Type) := X → (op : Op) → W → Option (Ans op × W)

def System.after (S : System C Op Ans ε α W) (effect : Effect Op Ans W X) (cfg : Config C Op Ans ε α W) :
    Scheduled C X → Option (Config C Op Ans ε α W)
  | .start c => some { cfg with calls := cfg.calls ++ [(c, S.body c)] }
  | .act tid x =>
    match cfg.calls[tid]? with
    | some (c, .act op next) =>
      (effect x op cfg.shared.world).map fun (ans, w) =>
        ⟨⟨w, ⟨tid, c, op, ans⟩ :: cfg.shared.log⟩, cfg.calls.set tid (c, next ans)⟩
    | _ => none

def System.replay (S : System C Op Ans ε α W) (effect : Effect Op Ans W X) :
    List (Scheduled C X) → Config C Op Ans ε α W → Option (Config C Op Ans ε α W)
  | [], cfg => some cfg
  | x :: xs, cfg => (S.after effect cfg x).bind (S.replay effect xs)

theorem System.after_step {S : System C Op Ans ε α W} {effect : Effect Op Ans W X}
    (sound : ∀ x op w ans w', effect x op w = some (ans, w') → S.exec op w ans w') {cfg cfg' : Config C Op Ans ε α W}
    {x : Scheduled C X} (h : S.after effect cfg x = some cfg') : S.Step cfg cfg' := by
  cases x with
  | start c => cases h; exact .start cfg c
  | act tid x =>
    simp only [System.after] at h
    split at h
    · rename_i c op next waiting
      obtain ⟨⟨ans, w⟩, chosen, rfl⟩ := Option.map_eq_some_iff.1 h
      exact .act waiting ⟨sound _ _ _ _ _ chosen, rfl⟩
    · cases h

/-- What a waiting call does is logged. -/
theorem System.after_log {S : System C Op Ans ε α W} {effect : Effect Op Ans W X} {cfg cfg' : Config C Op Ans ε α W} {tid : Nat} {x : X}
    (h : S.after effect cfg (.act tid x) = some cfg') : ∃ e, e.tid = tid ∧ cfg'.shared.log = e :: cfg.shared.log := by
  simp only [System.after] at h
  split at h
  · obtain ⟨⟨ans, w⟩, -, rfl⟩ := Option.map_eq_some_iff.1 h
    exact ⟨_, rfl, rfl⟩
  · cases h

/-- A replayed schedule is a run. -/
theorem System.replay_steps {S : System C Op Ans ε α W} {effect : Effect Op Ans W X}
    (sound : ∀ x op w ans w', effect x op w = some (ans, w') → S.exec op w ans w') {cfg cfg' : Config C Op Ans ε α W}
    {xs : List (Scheduled C X)} (h : S.replay effect xs cfg = some cfg') : S.Steps cfg cfg' := by
  induction xs generalizing cfg with
  | nil => cases h; exact .refl
  | cons x xs ih =>
    obtain ⟨mid, step, rest⟩ := Option.bind_eq_some_iff.1 h
    exact .head (S.after_step sound step) (ih rest)

/-- A schedule replayed as long as `good` finds no fault with a step. -/
def System.replayChecked (S : System C Op Ans ε α W) (effect : Effect Op Ans W X)
    (good : Config C Op Ans ε α W → Config C Op Ans ε α W → Bool) :
    List (Scheduled C X) → Config C Op Ans ε α W → Option (Config C Op Ans ε α W)
  | [], cfg => some cfg
  | x :: xs, cfg => (S.after effect cfg x).bind fun mid => if good cfg mid then S.replayChecked effect good xs mid else none

theorem System.replayChecked_steps {S : System C Op Ans ε α W} {effect : Effect Op Ans W X}
    (sound : ∀ x op w ans w', effect x op w = some (ans, w') → S.exec op w ans w')
    {good : Config C Op Ans ε α W → Config C Op Ans ε α W → Bool} {cfg cfg' : Config C Op Ans ε α W} {xs : List (Scheduled C X)}
    (h : S.replayChecked effect good xs cfg = some cfg') :
    Relation.ReflTransGen (fun a b => S.Step a b ∧ good a b = true) cfg cfg' := by
  induction xs generalizing cfg with
  | nil => cases h; exact .refl
  | cons x xs ih =>
    obtain ⟨mid, step, rest⟩ := Option.bind_eq_some_iff.1 h
    split at rest
    · rename_i checked
      exact .head ⟨S.after_step sound step, checked⟩ (ih rest)
    · cases rest

end AfriPay.Calls
