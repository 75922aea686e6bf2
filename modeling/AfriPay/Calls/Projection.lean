import Mathlib.Data.List.GetD
import Mathlib.Data.List.Nodup
import AfriPay.Calls.Traces

/-!
# A run seen from another system

Two systems have the same operations over the same world. A call of the one may do,
operation by operation, what a call of the other does, whatever the two return; the
rest of its calls leave the world as it is. Then to each run of the one belongs a
run of the other, with the calls that have a name there and no others
(`System.projected`).
-/

namespace AfriPay.Calls

variable {C C' Op : Type} {Ans : Op → Type} {ε α β γ δ W : Type}

/-- The calls issue the same operations and end alike, whatever they return. -/
inductive Prog.Alike : Prog Op Ans ε α → Prog Op Ans ε β → Prop where
  | ret (a : α) (b : β) : Alike (.ret a) (.ret b)
  | fail (e : ε) : Alike (.fail e) (.fail e)
  | act {op : Op} {next : Ans op → Prog Op Ans ε α} {next' : Ans op → Prog Op Ans ε β} (rest : ∀ ans, Alike (next ans) (next' ans)) :
      Alike (.act op next) (.act op next')

theorem Prog.Alike.refl (p : Prog Op Ans ε α) : p.Alike p := by
  induction p with
  | ret a => exact .ret a a
  | fail e => exact .fail e
  | act op next ih => exact .act ih

/-- What is made of the results makes no difference. -/
theorem Prog.Alike.map {p : Prog Op Ans ε α} {q : Prog Op Ans ε β} (h : p.Alike q) (f : α → γ) (g : β → δ) :
    (f <$> p).Alike (g <$> q) := by
  induction h with
  | ret a b => exact .ret (f a) (g b)
  | fail e => exact .fail e
  | act _ ih => exact .act ih

namespace System

/-- The operation leaves the world as it is. -/
def Idle (S : System C Op Ans ε α W) (op : Op) : Prop := ∀ w ans w', S.exec op w ans w' → w' = w

/-- What a call is to the other system: the call of this name, or nothing. -/
inductive Seen (S : System C Op Ans ε α W) (S' : System C' Op Ans ε β W) (c : C) : Option C' → Prop where
  | named {c' : C'} (same : (S.body c).Alike (S'.body c')) : Seen S S' c (some c')
  | unseen (idle : (S.body c).Each fun op _ => S.Idle op) : Seen S S' c none

/-- An operation of a call that has a name. -/
def seenEvent (name : C → Option C') (e : Event C Op Ans) : Option (Nat × C' × (op : Op) × Ans op) :=
  (name e.call).map fun c' => (e.tid, c', ⟨e.op, e.ans⟩)

/-- The run `cfg` is, for the other system, the run `cfg'`. Its call number `k` is the call number `origin[k]`. -/
structure Projected (S : System C Op Ans ε α W) (S' : System C' Op Ans ε β W) (name : C → Option C') (w : W) (origin : List Nat)
    (cfg : Config C Op Ans ε α W) (cfg' : Config C' Op Ans ε β W) : Prop where
  run : S'.Steps (.initial w) cfg'
  world : cfg'.shared.world = cfg.shared.world
  distinct : origin.Nodup
  count : origin.length = cfg'.calls.length
  named : ∀ k tid : Nat, origin[k]? = some tid → ∃ c p c' p', cfg.calls[tid]? = some (c, p) ∧ cfg'.calls[k]? = some (c', p') ∧
    name c = some c' ∧ p.Alike p'
  others : ∀ tid c p, cfg.calls[tid]? = some (c, p) → tid ∉ origin → name c = none ∧ p.Each fun op _ => S.Idle op
  log : cfg.shared.log.filterMap (seenEvent name) = cfg'.shared.log.map fun e => (origin.getD e.tid 0, e.call, ⟨e.op, e.ans⟩)

section Steps

variable {S : System C Op Ans ε α W} {S' : System C' Op Ans ε β W} {name : C → Option C'} {w : W} {origin : List Nat}
  {cfg : Config C Op Ans ε α W} {cfg' : Config C' Op Ans ε β W}

theorem Projected.lt (h : S.Projected S' name w origin cfg cfg') {tid : Nat} (mem : tid ∈ origin) : tid < cfg.calls.length := by
  obtain ⟨k, here⟩ := List.getElem?_of_mem mem
  obtain ⟨c, p, c', p', call, -⟩ := h.named k tid here
  exact (List.getElem?_eq_some_iff.1 call).1

/-- A call that starts. -/
theorem Projected.start (h : S.Projected S' name w origin cfg cfg') {c : C} (seen : Seen S S' c (name c)) :
    ∃ origin' cfg'', S.Projected S' name w origin' { cfg with calls := cfg.calls ++ [(c, S.body c)] } cfg'' := by
  have outside : cfg.calls.length ∉ origin := fun mem => absurd (h.lt mem) (Nat.lt_irrefl _)
  have stays : ∀ tid ∈ origin, (cfg.calls ++ [(c, S.body c)])[tid]? = cfg.calls[tid]? := fun tid mem =>
    List.getElem?_append_left (h.lt mem)
  generalize named : name c = n at seen
  cases seen with
  | unseen idle =>
    refine ⟨origin, cfg', h.run, h.world, h.distinct, h.count, fun k tid here => ?_, fun tid c₁ p call out => ?_, h.log⟩
    · rw [stays tid (List.mem_of_getElem? here)]
      exact h.named k tid here
    · rcases call_started.1 call with earlier | ⟨-, new⟩
      · exact h.others tid c₁ p earlier out
      · cases new
        exact ⟨named, idle⟩
  | @named c' same =>
    have count := h.count
    refine ⟨origin ++ [cfg.calls.length], { cfg' with calls := cfg'.calls ++ [(c', S'.body c')] }, h.run.tail (.start cfg' c'), h.world,
      ?_, by simp [count], fun k tid here => ?_, fun tid c₁ p call out => ?_, ?_⟩
    · rw [List.nodup_append]
      refine ⟨h.distinct, by simp, fun a mem b last => ?_⟩
      rw [List.mem_singleton.1 last]
      rintro rfl
      exact outside mem
    · rcases call_started.1 here with earlier | ⟨rfl, rfl⟩
      · obtain ⟨c₁, p, c₁', p', call, call', rest⟩ := h.named k tid earlier
        exact ⟨c₁, p, c₁', p', call_started.2 (.inl call), call_started.2 (.inl call'), rest⟩
      · exact ⟨c, S.body c, c', S'.body c', List.getElem?_concat_length, call_started.2 (.inr ⟨count, rfl⟩), named, same⟩
    · rcases call_started.1 call with earlier | ⟨rfl, -⟩
      · exact h.others tid c₁ p earlier fun mem => out (List.mem_append_left _ mem)
      · exact (out (by simp)).elim
    · rw [h.log]
      refine List.map_congr_left fun e mem => ?_
      have lt := System.logged_started h.run e mem
      rw [List.getD_append _ _ _ _ (by omega)]

/-- An operation of a call that has a name is an operation of the call of this name. -/
theorem Projected.act_named (exec : ∀ op w ans w', S.exec op w ans w' → S'.exec op w ans w') (h : S.Projected S' name w origin cfg cfg')
    {tid : Nat} {c : C} {op : Op} {next : Ans op → Prog Op Ans ε α} {ans : Ans op} {s' : Shared C Op Ans W}
    (waiting : cfg.calls[tid]? = some (c, .act op next)) (does : S.Does cfg.shared ⟨tid, c, op, ans⟩ s') (mem : tid ∈ origin) :
    ∃ cfg'', S.Projected S' name w origin ⟨s', cfg.calls.set tid (c, next ans)⟩ cfg'' := by
  obtain ⟨k, number⟩ := List.getElem?_of_mem mem
  obtain ⟨c₁, p, c', p', call, call', named, alike⟩ := h.named k tid number
  rw [waiting] at call
  cases call
  cases alike with
  | @act _ _ next' rest =>
    have done : S'.Does cfg'.shared ⟨k, c', op, ans⟩ ⟨s'.world, ⟨k, c', op, ans⟩ :: cfg'.shared.log⟩ :=
      ⟨h.world ▸ exec _ _ _ _ does.1, rfl⟩
    have lt := (List.getElem?_eq_some_iff.1 waiting).1
    refine ⟨_, h.run.tail (.act call' done), rfl, h.distinct, by simp [h.count], fun k' tid' number' => ?_, fun tid' c₂ p₂ call₂ out => ?_, ?_⟩
    · by_cases same : tid = tid'
      · subst same
        obtain rfl : k = k' := (List.getElem?_inj (List.getElem?_eq_some_iff.1 number).1 h.distinct).1 (number.trans number'.symm)
        exact ⟨c, next ans, c', next' ans, List.getElem?_set_self lt, List.getElem?_set_self (List.getElem?_eq_some_iff.1 call').1, named, rest ans⟩
      · have other : k ≠ k' := by
          rintro rfl
          exact same (Option.some.inj (number.symm.trans number'))
        obtain ⟨c₂, p₂, c₂', p₂', call₂, call₂', rest⟩ := h.named k' tid' number'
        exact ⟨c₂, p₂, c₂', p₂', by rw [List.getElem?_set_ne same]; exact call₂, by rw [List.getElem?_set_ne other]; exact call₂', rest⟩
    · have other : tid ≠ tid' := by
        rintro rfl
        exact out mem
      rw [List.getElem?_set_ne other] at call₂
      exact h.others tid' c₂ p₂ call₂ out
    · rw [does.2]
      simp [seenEvent, named, h.log, number]

/-- An operation of any other call is none of the other system. -/
theorem Projected.act_other (h : S.Projected S' name w origin cfg cfg') {tid : Nat} {c : C} {op : Op} {next : Ans op → Prog Op Ans ε α}
    {ans : Ans op} {s' : Shared C Op Ans W} (waiting : cfg.calls[tid]? = some (c, .act op next))
    (does : S.Does cfg.shared ⟨tid, c, op, ans⟩ s') (out : tid ∉ origin) :
    S.Projected S' name w origin ⟨s', cfg.calls.set tid (c, next ans)⟩ cfg' := by
  obtain ⟨unnamed, idle, rest⟩ := h.others tid c _ waiting out
  have lt := (List.getElem?_eq_some_iff.1 waiting).1
  refine ⟨h.run, h.world.trans (idle _ _ _ does.1).symm, h.distinct, h.count, fun k tid' number => ?_, fun tid' c₁ p₁ call₁ out' => ?_, ?_⟩
  · have other : tid ≠ tid' := by
      rintro rfl
      exact out (List.mem_of_getElem? number)
    rw [List.getElem?_set_ne other]
    exact h.named k tid' number
  · by_cases same : tid = tid'
    · subst same
      rw [List.getElem?_set_self lt] at call₁
      cases call₁
      exact ⟨unnamed, rest ans⟩
    · rw [List.getElem?_set_ne same] at call₁
      exact h.others tid' c₁ p₁ call₁ out'
  · rw [does.2, List.filterMap_cons_none (by simp [seenEvent, unnamed])]
    exact h.log

/-- **Each run, for the calls that have a name, is a run of the other system.** -/
theorem projected (exec : ∀ op w ans w', S.exec op w ans w' → S'.exec op w ans w') (run : S.Steps (.initial w) cfg)
    (seen : ∀ call ∈ cfg.calls, Seen S S' call.1 (name call.1)) : ∃ origin cfg', S.Projected S' name w origin cfg cfg' := by
  induction run with
  | refl => exact ⟨[], .initial w, .refl, rfl, .nil, rfl, by simp, by simp [Config.initial], rfl⟩
  | @tail mid last run step ih =>
    obtain ⟨origin, cfg', projected⟩ := ih fun call mem => by
      rcases call with ⟨c, p⟩
      obtain ⟨tid, here⟩ := List.getElem?_of_mem mem
      obtain ⟨p', after⟩ := System.call_stays (.single step) here
      exact seen (c, p') (List.mem_of_getElem? after)
    cases step with
    | start c => exact projected.start (seen (c, S.body c) (by simp))
    | @act tid c op next ans s' waiting does =>
      by_cases mem : tid ∈ origin
      · obtain ⟨cfg'', after⟩ := projected.act_named exec waiting does mem
        exact ⟨origin, cfg'', after⟩
      · exact ⟨origin, cfg', projected.act_other waiting does mem⟩

/-- An operation of a call that has a name is in the other log, under this name. -/
theorem Projected.mem_log (h : S.Projected S' name w origin cfg cfg') {e : Event C Op Ans} (mem : e ∈ cfg.shared.log) {c' : C'}
    (named : name e.call = some c') : ∃ e' ∈ cfg'.shared.log, e'.call = c' ∧ (⟨e'.op, e'.ans⟩ : (op : Op) × Ans op) = ⟨e.op, e.ans⟩ := by
  have seen : (e.tid, c', (⟨e.op, e.ans⟩ : (op : Op) × Ans op)) ∈ cfg.shared.log.filterMap (seenEvent name) :=
    List.mem_filterMap.2 ⟨e, mem, by rw [seenEvent, named]; rfl⟩
  rw [h.log, List.mem_map] at seen
  obtain ⟨e', mem', same⟩ := seen
  obtain ⟨-, rest⟩ := Prod.mk.inj same
  obtain ⟨call, done⟩ := Prod.mk.inj rest
  exact ⟨e', mem', call, done⟩

end Steps

end System

end AfriPay.Calls
