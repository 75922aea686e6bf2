import Mathlib.Logic.Relation
import AfriPay.Calls.Program

/-!
# Interleaved calls over shared state

A `System` says what each call runs and what each operation may do to the
shared world. A configuration holds the world, the log of the operations done
so far (newest first, each with the call that did it) and all calls ever
started. A step starts a call or lets one call do its next operation; nothing
bounds the number of calls or fixes their order.

Safety is proved call by call. A `Protocol` names an invariant of the shared
state and a guarantee every operation keeps. `Protocol.Safe` says that one
call keeps both, whatever the other calls do between its operations as long as
they keep them too; `Protocol.reach` puts the calls together.
-/

namespace AfriPay.Calls

/-- Calls `C` over operations `Op`, and the effect of each operation on the
world `W`. `exec op w ans w'` is a relation: the answer may depend on parties
outside the program. -/
structure System (C Op : Type) (Ans : Op → Type) (ε α W : Type) where
  body : C → Prog Op Ans ε α
  exec : (op : Op) → W → Ans op → W → Prop

/-- One operation done by call number `tid`. -/
structure Event (C Op : Type) (Ans : Op → Type) where
  tid : Nat
  call : C
  op : Op
  ans : Ans op

/-- The shared world and the operations that led to it, newest first. -/
structure Shared (C Op : Type) (Ans : Op → Type) (W : Type) where
  world : W
  log : List (Event C Op Ans)

/-- The shared state and every call started so far, by number. -/
structure Config (C Op : Type) (Ans : Op → Type) (ε α W : Type) where
  shared : Shared C Op Ans W
  calls : List (C × Prog Op Ans ε α)

variable {C Op : Type} {Ans : Op → Type} {ε α β W : Type}

/-- No call has started. -/
def Config.initial (w : W) : Config C Op Ans ε α W := ⟨⟨w, []⟩, []⟩

namespace System

variable (S : System C Op Ans ε α W)

/-- An operation on the shared state: the world changes as `exec` allows and
the event is logged. -/
def Does (s : Shared C Op Ans W) (e : Event C Op Ans) (s' : Shared C Op Ans W) : Prop :=
  S.exec e.op s.world e.ans s'.world ∧ s'.log = e :: s.log

inductive Step : Config C Op Ans ε α W → Config C Op Ans ε α W → Prop where
  | start (cfg : Config C Op Ans ε α W) (c : C) :
      Step cfg { cfg with calls := cfg.calls ++ [(c, S.body c)] }
  | act {cfg : Config C Op Ans ε α W} {tid : Nat} {c : C} {op : Op}
      {next : Ans op → Prog Op Ans ε α} {ans : Ans op} {s' : Shared C Op Ans W}
      (waiting : cfg.calls[tid]? = some (c, .act op next))
      (does : S.Does cfg.shared ⟨tid, c, op, ans⟩ s') :
      Step cfg ⟨s', cfg.calls.set tid (c, next ans)⟩

/-- The calls after one more has started. -/
theorem call_started {calls : List β} {started call : β} {tid : Nat} :
    (calls ++ [started])[tid]? = some call ↔ calls[tid]? = some call ∨ tid = calls.length ∧ call = started := by
  rcases Nat.lt_or_ge tid calls.length with lt | ge
  · rw [List.getElem?_append_left lt]
    exact (or_iff_left fun last => absurd last.1 (Nat.ne_of_lt lt)).symm
  · rw [List.getElem?_append_right ge, List.getElem?_singleton, List.getElem?_eq_none ge]
    split
    · rename_i first
      have last : tid = calls.length := by omega
      simp [last, eq_comm]
    · rename_i later
      have past : tid ≠ calls.length := by omega
      simp [past]

/-- Any number of steps. -/
abbrev Steps : Config C Op Ans ε α W → Config C Op Ans ε α W → Prop :=
  Relation.ReflTransGen S.Step

end System

/-- What the calls of a system keep together: an invariant of the shared state
and a guarantee for each operation. -/
structure Protocol (S : System C Op Ans ε α W) where
  Inv : Shared C Op Ans W → Prop
  Guar : Shared C Op Ans W → Event C Op Ans → Shared C Op Ans W → Prop

namespace Protocol

variable {S : System C Op Ans ε α W} (P : Protocol S)

/-- One operation of another call that keeps the protocol. -/
def OtherStep (tid : Nat) (s s' : Shared C Op Ans W) : Prop :=
  ∃ e, e.tid ≠ tid ∧ S.Does s e s' ∧ P.Inv s ∧ P.Guar s e s' ∧ P.Inv s'

/-- What may happen between two operations of call number `tid`. -/
abbrev Others (tid : Nat) : Shared C Op Ans W → Shared C Op Ans W → Prop :=
  Relation.ReflTransGen (P.OtherStep tid)

/-- The rest `p` of call number `tid` keeps the protocol from `s` on. It ends
in a state that satisfies `Q` of its result, or `E` of its exception. -/
def Safe (tid : Nat) (c : C) (Q : β → Shared C Op Ans W → Prop) (E : ε → Shared C Op Ans W → Prop) :
    Prog Op Ans ε β → Shared C Op Ans W → Prop
  | .ret a, s => Q a s
  | .fail e, s => E e s
  | .act op next, s => ∀ s₁, P.Others tid s s₁ → P.Inv s₁ → ∀ ans s₂, S.Does s₁ ⟨tid, c, op, ans⟩ s₂ →
      P.Inv s₂ ∧ P.Guar s₁ ⟨tid, c, op, ans⟩ s₂ ∧ Safe tid c Q E (next ans) s₂

section Rules

variable {P} {tid : Nat} {c : C} {s : Shared C Op Ans W}
  {Q : β → Shared C Op Ans W → Prop} {E : ε → Shared C Op Ans W → Prop}

@[simp] theorem safe_ret {a : β} : P.Safe tid c Q E (.ret a) s ↔ Q a s := Iff.rfl
@[simp] theorem safe_fail {e : ε} : P.Safe tid c Q E (.fail e) s ↔ E e s := Iff.rfl

/-- The rule of sequencing. -/
theorem safe_bind {γ : Type} {R : γ → Shared C Op Ans W → Prop} {p : Prog Op Ans ε β} {f : β → Prog Op Ans ε γ} :
    P.Safe tid c R E (p >>= f) s ↔ P.Safe tid c (fun a s' => P.Safe tid c R E (f a) s') E p s := by
  induction p generalizing s with
  | ret a => rfl
  | fail e => rfl
  | act op next ih =>
    refine forall_congr' fun s₁ => imp_congr_right fun _ => imp_congr_right fun _ =>
      forall_congr' fun ans => forall_congr' fun s₂ => imp_congr_right fun _ => ?_
    exact and_congr_right fun _ => and_congr_right fun _ => ih ans

theorem safe_ofExcept {x : Except ε β} :
    P.Safe tid c Q E (.ofExcept x) s ↔ (∀ a, x = .ok a → Q a s) ∧ (∀ e, x = .error e → E e s) := by
  cases x with
  | ok a => simp
  | error e => simp

/-- The rule of consequence. -/
theorem safe_mono {Q' : β → Shared C Op Ans W → Prop} {p : Prog Op Ans ε β} (h : P.Safe tid c Q E p s)
    (weaker : ∀ a s', Q a s' → Q' a s') : P.Safe tid c Q' E p s := by
  induction p generalizing s with
  | ret a => exact weaker a s h
  | fail e => exact h
  | act op next ih =>
    intro s₁ others inv ans s₂ does
    obtain ⟨inv', guar, rest⟩ := h s₁ others inv ans s₂ does
    exact ⟨inv', guar, ih ans rest⟩

/-- The log only grows under interference, and by events of other calls. -/
theorem Others.log {s s' : Shared C Op Ans W} (h : P.Others tid s s') :
    ∃ new, s'.log = new ++ s.log ∧ ∀ e ∈ new, e.tid ≠ tid := by
  induction h with
  | refl => exact ⟨[], rfl, by simp⟩
  | tail _ step ih =>
    obtain ⟨new, hlog, hnew⟩ := ih
    obtain ⟨e, he, does, -⟩ := step
    refine ⟨e :: new, by rw [does.2, hlog]; rfl, ?_⟩
    intro e' mem
    rcases List.mem_cons.1 mem with rfl | mem
    · exact he
    · exact hnew e' mem

end Rules

/-- Every call keeps the protocol from any state that satisfies the invariant,
started under a number no event has yet. At its end it satisfies `Q`. -/
def Sound (Q : Nat → C → α → Shared C Op Ans W → Prop) : Prop :=
  ∀ tid c s, P.Inv s → (∀ e ∈ s.log, e.tid ≠ tid) → P.Safe tid c (Q tid c) (fun _ _ => True) (S.body c) s

/-- What holds in every reachable configuration: the invariant; the log names
started calls only; and each call is safe from a state it has seen, with only
other calls at work since. -/
structure Holds (Q : Nat → C → α → Shared C Op Ans W → Prop) (cfg : Config C Op Ans ε α W) : Prop where
  inv : P.Inv cfg.shared
  started : ∀ e ∈ cfg.shared.log, e.tid < cfg.calls.length
  safe : ∀ tid c p, cfg.calls[tid]? = some (c, p) →
    ∃ s, P.Others tid s cfg.shared ∧ P.Safe tid c (Q tid c) (fun _ _ => True) p s

section Reach

variable {P} {Q : Nat → C → α → Shared C Op Ans W → Prop} {cfg cfg' : Config C Op Ans ε α W}

theorem Holds.initial {w : W} (inv : P.Inv ⟨w, []⟩) : P.Holds Q (Config.initial w) :=
  ⟨inv, by simp [Config.initial], by simp [Config.initial]⟩

/-- A waiting call's next operation keeps the protocol. -/
theorem Holds.act (h : P.Holds Q cfg) {tid : Nat} {c : C} {op : Op} {next : Ans op → Prog Op Ans ε α}
    (waiting : cfg.calls[tid]? = some (c, .act op next)) {ans : Ans op} {s' : Shared C Op Ans W}
    (does : S.Does cfg.shared ⟨tid, c, op, ans⟩ s') :
    P.Inv s' ∧ P.Guar cfg.shared ⟨tid, c, op, ans⟩ s' ∧ P.Safe tid c (Q tid c) (fun _ _ => True) (next ans) s' := by
  obtain ⟨s, others, safe⟩ := h.safe tid c _ waiting
  exact safe cfg.shared others h.inv ans s' does

theorem Holds.step (sound : P.Sound Q) (h : P.Holds Q cfg) (step : S.Step cfg cfg') : P.Holds Q cfg' := by
  cases step with
  | start c =>
    refine ⟨h.inv, fun e he => by simpa using Nat.lt_succ_of_lt (h.started e he), ?_⟩
    intro tid c' p hp
    rcases Nat.lt_trichotomy tid cfg.calls.length with lt | rfl | gt
    · exact h.safe tid c' p (by simpa [List.getElem?_append_left lt] using hp)
    · obtain ⟨rfl, rfl⟩ : c = c' ∧ S.body c = p := by simpa using hp
      exact ⟨cfg.shared, .refl, sound _ _ _ h.inv fun e he => Nat.ne_of_lt (h.started e he)⟩
    · rw [List.getElem?_eq_none (by simp only [List.length_append, List.length_singleton]; omega)] at hp
      cases hp
  | @act tid c op next ans s' waiting does =>
    obtain ⟨inv', guar, rest⟩ := h.act waiting does
    have lt : tid < cfg.calls.length := (List.getElem?_eq_some_iff.1 waiting).1
    refine ⟨inv', ?_, ?_⟩
    · intro e he
      rw [does.2] at he
      rcases List.mem_cons.1 he with rfl | he
      · simpa using lt
      · simpa using h.started e he
    · intro tid' c' p hp
      by_cases same : tid' = tid
      · subst same
        obtain ⟨rfl, rfl⟩ : c = c' ∧ next ans = p := by simpa [lt] using hp
        exact ⟨s', .refl, rest⟩
      · obtain ⟨s, others, safe⟩ := h.safe tid' c' p (by simpa [List.getElem?_set_ne (Ne.symm same)] using hp)
        exact ⟨s, others.tail ⟨_, Ne.symm same, does, h.inv, guar, inv'⟩, safe⟩

/-- **The invariant rule.** If every call keeps the protocol, every reachable
configuration does. -/
theorem reach (sound : P.Sound Q) (h : P.Holds Q cfg) (steps : S.Steps cfg cfg') : P.Holds Q cfg' := by
  induction steps with
  | refl => exact h
  | tail _ step ih => exact ih.step sound step

/-- A step from a configuration that keeps the protocol is idle or keeps the guarantee. -/
theorem Holds.guar (h : P.Holds Q cfg) (step : S.Step cfg cfg') :
    cfg'.shared = cfg.shared ∨ ∃ e, S.Does cfg.shared e cfg'.shared ∧ P.Guar cfg.shared e cfg'.shared := by
  cases step with
  | start c => exact .inl rfl
  | act waiting does => exact .inr ⟨_, does, (h.act waiting does).2.1⟩

/-- A call that has returned satisfied its postcondition when it did. -/
theorem Holds.returned (h : P.Holds Q cfg) {tid : Nat} {c : C} {a : α} (done : cfg.calls[tid]? = some (c, .ret a)) :
    ∃ s, P.Others tid s cfg.shared ∧ Q tid c a s :=
  h.safe tid c _ done

/-- A call that returns in this step satisfies its postcondition after it. -/
theorem Holds.returns (h : P.Holds Q cfg) (step : S.Step cfg cfg') {tid : Nat} {c c' : C} {op : Op}
    {next : Ans op → Prog Op Ans ε α} {a : α} (waiting : cfg.calls[tid]? = some (c, .act op next))
    (done : cfg'.calls[tid]? = some (c', .ret a)) : Q tid c' a cfg'.shared := by
  have lt : tid < cfg.calls.length := (List.getElem?_eq_some_iff.1 waiting).1
  cases step with
  | start c₁ =>
    rw [List.getElem?_append_left lt, waiting] at done
    cases done
  | @act tid₁ c₁ op₁ next₁ ans s' waiting₁ does =>
    by_cases same : tid₁ = tid
    · subst same
      rw [List.getElem?_set_self lt] at done
      obtain ⟨rfl, returned⟩ := Prod.mk.inj (Option.some.inj done)
      have safe := (h.act waiting₁ does).2.2
      rwa [returned] at safe
    · rw [List.getElem?_set_ne same, waiting] at done
      cases done

/-- A fact every guaranteed operation keeps holds along every run. -/
theorem Holds.stable (sound : P.Sound Q) {F : Shared C Op Ans W → Prop}
    (one : ∀ s e s', S.Does s e s' → P.Inv s → P.Guar s e s' → F s → F s')
    (h : P.Holds Q cfg) (steps : S.Steps cfg cfg') (hF : F cfg.shared) : F cfg'.shared := by
  induction steps with
  | refl => exact hF
  | @tail mid last run step ih =>
    have holds := reach sound h run
    rcases holds.guar step with same | ⟨e, does, guar⟩
    · rwa [same]
    · exact one _ e _ does holds.inv guar ih

end Reach

end Protocol

end AfriPay.Calls
