import Mathlib.Data.List.Forall2
import AfriPay.Calls.Sequential

/-!
# Two runs side by side

The same requests served in two worlds, with calls that need not take the same
operations: `Lockstep` says of two calls that they end alike from two given
worlds, both returning or both throwing. Its rules follow the calls, and let
either side do an operation alone. `serve_alike_after_iff` puts the requests
together: the results are alike if, and only if, each request is one the two
sides treat alike after those before it.
-/

namespace AfriPay.Calls

variable {Op : Type} {Ans : Op → Type} {ε α β γ δ W V R : Type}

/-- Two results that are both returned or both thrown. -/
def SameResult (S : α → β → Prop) (E : ε → ε → Prop) : Except ε α → Except ε β → Prop
  | .ok a, .ok b => S a b
  | .error e, .error e' => E e e'
  | _, _ => False

/-- What two calls come to: `Q` of their results and worlds, or `E` of their exceptions and worlds. -/
def EndsAlike (E : ε → ε → W → V → Prop) (Q : α → β → W → V → Prop) :
    Except ε α × Nat × W → Except ε β × Nat × V → Prop
  | (.ok a, _, w), (.ok b, _, v) => Q a b w v
  | (.error e, _, w), (.error e', _, v) => E e e' w v
  | _, _ => False

/-- From `w` and `v` on, the calls end alike, each with its own outside. -/
def Lockstep (left : Outside Op Ans W) (right : Outside Op Ans V) (E : ε → ε → W → V → Prop) (Q : α → β → W → V → Prop)
    (p : Prog Op Ans ε α) (q : Prog Op Ans ε β) (w : W) (v : V) : Prop :=
  ∀ m n, EndsAlike E Q (p.run left m w) (q.run right n v)

namespace Lockstep

variable {left : Outside Op Ans W} {right : Outside Op Ans V} {E : ε → ε → W → V → Prop} {Q : α → β → W → V → Prop}
  {w : W} {v : V}

theorem ret {a : α} {b : β} (h : Q a b w v) : Lockstep left right E Q (.ret a) (.ret b) w v := fun _ _ => h

theorem fail {e e' : ε} (h : E e e' w v) : Lockstep left right E Q (.fail e) (.fail e') w v := fun _ _ => h

/-- Synchronous code with the same outcome on both sides. -/
theorem ofExcept {x : Except ε α} {Q : α → α → W → V → Prop} (returned : ∀ a, x = .ok a → Q a a w v)
    (threw : ∀ e, x = .error e → E e e w v) : Lockstep left right E Q (.ofExcept x) (.ofExcept x) w v := by
  cases x with
  | ok a => exact ret (returned a rfl)
  | error e => exact fail (threw e rfl)

/-- The rule of sequencing. -/
theorem bind {S : γ → δ → W → V → Prop} {p : Prog Op Ans ε α} {q : Prog Op Ans ε β} {f : α → Prog Op Ans ε γ}
    {g : β → Prog Op Ans ε δ} (h : Lockstep left right E (fun a b w v => Lockstep left right E S (f a) (g b) w v) p q w v) :
    Lockstep left right E S (p >>= f) (q >>= g) w v := by
  intro m n
  have first := h m n
  rw [Prog.run_bind, Prog.run_bind]
  generalize p.run left m w = x at first ⊢
  generalize q.run right n v = y at first ⊢
  obtain ⟨_ | a, m', w'⟩ := x <;> obtain ⟨_ | b, n', v'⟩ := y
  · exact first
  · exact first.elim
  · exact first.elim
  · exact first m' n'

/-- The rule of consequence. -/
theorem weaken {E' : ε → ε → W → V → Prop} {Q' : α → β → W → V → Prop} {p : Prog Op Ans ε α} {q : Prog Op Ans ε β}
    (h : Lockstep left right E Q p q w v) (threw : ∀ e e' w v, E e e' w v → E' e e' w v)
    (returned : ∀ a b w v, Q a b w v → Q' a b w v) : Lockstep left right E' Q' p q w v := by
  intro m n
  have ended := h m n
  generalize p.run left m w = x at ended ⊢
  generalize q.run right n v = y at ended ⊢
  obtain ⟨_ | a, m', w'⟩ := x <;> obtain ⟨_ | b, n', v'⟩ := y
  · exact threw _ _ w' v' ended
  · exact ended.elim
  · exact ended.elim
  · exact returned a b w' v' ended

theorem mono {Q' : α → β → W → V → Prop} {p : Prog Op Ans ε α} {q : Prog Op Ans ε β} (h : Lockstep left right E Q p q w v)
    (weaker : ∀ a b w v, Q a b w v → Q' a b w v) : Lockstep left right E Q' p q w v :=
  h.weaken (fun _ _ _ _ threw => threw) weaker

theorem map {S : γ → δ → W → V → Prop} {p : Prog Op Ans ε α} {q : Prog Op Ans ε β} {f : α → γ} {g : β → δ}
    (h : Lockstep left right E (fun a b w v => S (f a) (g b) w v) p q w v) :
    Lockstep left right E S (f <$> p) (g <$> q) w v := by
  rw [← bind_pure_comp, ← bind_pure_comp]
  exact bind (h.mono fun _ _ _ _ => ret)

/-- The left side does an operation alone. -/
theorem actLeft {op : Op} {next : Ans op → Prog Op Ans ε α} {q : Prog Op Ans ε β}
    (h : ∀ m, Lockstep left right E Q (next (left m op w).1) q (left m op w).2 v) : Lockstep left right E Q (.act op next) q w v :=
  fun m n => h m (m + 1) n

/-- The right side does an operation alone. -/
theorem actRight {op : Op} {next : Ans op → Prog Op Ans ε β} {p : Prog Op Ans ε α}
    (h : ∀ n, Lockstep left right E Q p (next (right n op v).1) w (right n op v).2) : Lockstep left right E Q p (.act op next) w v :=
  fun m n => h n m (n + 1)

/-- Both sides do an operation. -/
theorem act {op op' : Op} {next : Ans op → Prog Op Ans ε α} {next' : Ans op' → Prog Op Ans ε β}
    (h : ∀ m n, Lockstep left right E Q (next (left m op w).1) (next' (right n op' v).1) (left m op w).2 (right n op' v).2) :
    Lockstep left right E Q (.act op next) (.act op' next') w v :=
  actLeft fun m => actRight fun n => h m n

end Lockstep

/-- Each request satisfies `P` in the world it is served in. -/
def Along (outside : Outside Op Ans W) (handle : R → Prog Op Ans ε α) (P : R → W → Prop) : List R → Nat → W → Prop
  | [], _, _ => True
  | r :: rs, n, w => P r w ∧ Along outside handle P rs ((handle r).run outside n w).2.1 ((handle r).run outside n w).2.2

/-- **Requests served side by side**, with a condition that looks at the left
world. If a request is treated alike exactly when it satisfies `P` there, and
`I`, which may speak of the requests to come, is then kept, the results of a list
of requests are alike exactly if all satisfy `P` in turn. -/
theorem serve_alike_along_iff {left : Outside Op Ans W} {right : Outside Op Ans V} {handle : R → Prog Op Ans ε α}
    {handle' : R → Prog Op Ans ε β} {I : List R → W → V → Prop} {S : α → β → Prop} {E : ε → ε → Prop} {P : R → W → Prop}
    (alike : ∀ r rs w v m n, I (r :: rs) w v →
      (SameResult S E ((handle r).run left m w).1 ((handle' r).run right n v).1 ↔ P r w) ∧
        (P r w → I rs ((handle r).run left m w).2.2 ((handle' r).run right n v).2.2))
    (requests : List R) {w : W} {v : V} (m n : Nat) (inv : I requests w v) :
    List.Forall₂ (SameResult S E) (serve left handle requests m w).1 (serve right handle' requests n v).1 ↔
      Along left handle P requests m w := by
  induction requests generalizing w v m n with
  | nil => simp [serve, Along]
  | cons r rs ih =>
    obtain ⟨same, kept⟩ := alike r rs w v m n inv
    rw [serve, serve, Along, List.forall₂_cons, same]
    exact and_congr_right fun good => ih _ _ (kept good)

/-- **Requests served side by side**, with a condition that looks at the requests
before. If the two sides treat a request that satisfies `P` after those alike and
keep `I`, and treat no other request alike, then what they return for a list of
requests is alike exactly if all satisfy `P` in turn. -/
theorem serve_alike_after_iff {left : Outside Op Ans W} {right : Outside Op Ans V} {handle : R → Prog Op Ans ε α}
    {handle' : R → Prog Op Ans ε β} {I : List R → W → V → Prop} {S : α → β → Prop} {E : ε → ε → Prop} {P : List R → R → Prop}
    (requests : List R)
    (alike : ∀ done r w v, done ++ [r] <+: requests → P done r → I done w v →
      Lockstep left right (fun e e' w v => E e e' ∧ I (done ++ [r]) w v) (fun a b w v => S a b ∧ I (done ++ [r]) w v)
        (handle r) (handle' r) w v)
    (unlike : ∀ done r w v m n, done ++ [r] <+: requests → ¬ P done r → I done w v →
      ¬ SameResult S E ((handle r).run left m w).1 ((handle' r).run right n v).1)
    {w : W} {v : V} (m n : Nat) (inv : I [] w v) :
    List.Forall₂ (SameResult S E) (serve left handle requests m w).1 (serve right handle' requests n v).1 ↔
      ∀ done r rest, requests = done ++ r :: rest → P done r := by
  suffices h : ∀ rest done w v m n, requests = done ++ rest → I done w v →
      (List.Forall₂ (SameResult S E) (serve left handle rest m w).1 (serve right handle' rest n v).1 ↔
        ∀ mid r after, rest = mid ++ r :: after → P (done ++ mid) r) from h requests [] w v m n rfl inv
  intro rest
  induction rest with
  | nil => simp [serve]
  | cons r rest ih =>
    intro done w v m n whole inv
    have later : (∀ mid r' after, r :: rest = mid ++ r' :: after → P (done ++ mid) r') ↔
        P done r ∧ ∀ mid r' after, rest = mid ++ r' :: after → P (done ++ [r] ++ mid) r' := by
      constructor
      · intro all
        refine ⟨by simpa using all [] r rest rfl, fun mid r' after same => ?_⟩
        simpa using all (r :: mid) r' after (by rw [same, List.cons_append])
      · rintro ⟨first, others⟩ mid r' after same
        cases mid with
        | nil =>
          obtain ⟨rfl, -⟩ := List.cons.inj same
          simpa using first
        | cons r₀ mid =>
          obtain ⟨rfl, later⟩ := List.cons.inj same
          simpa using others mid r' after later
    rw [serve, serve, List.forall₂_cons, later]
    have start : done ++ [r] <+: requests := ⟨rest, by rw [whole, List.append_assoc, List.singleton_append]⟩
    by_cases good : P done r
    · have ended := alike done r w v start good inv m n
      have rest_iff := fun w v m n => ih (done ++ [r]) w v m n (by rw [whole, List.append_assoc, List.singleton_append])
      generalize (handle r).run left m w = x at ended ⊢
      generalize (handle' r).run right n v = y at ended ⊢
      obtain ⟨_ | a, m', w'⟩ := x <;> obtain ⟨_ | b, n', v'⟩ := y
      · exact and_congr (iff_of_true ended.1 good) (rest_iff _ _ _ _ ended.2)
      · exact ended.elim
      · exact ended.elim
      · exact and_congr (iff_of_true ended.1 good) (rest_iff _ _ _ _ ended.2)
    · exact iff_of_false (fun same => unlike done r w v m n start good inv same.1) (fun all => good all.1)

end AfriPay.Calls
