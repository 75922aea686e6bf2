import Mathlib.Data.List.GetD
import Mathlib.Data.List.Nodup
import AfriPay.Calls.Traces

/-!
# Services behind a gate

A server answers requests from several services. A request first passes a gate: it
is thrown back, answered, or named as a call of one service. The call then runs, its
operations among those of all others.

To each service its part in a run of the server is a run of its own, with the calls
the gate has let through and no others (`Server.mirrored`). What holds of the runs of
a service holds of it behind the gate.
-/

namespace AfriPay.Calls

/-- An operation of the gate, or of one of the services. -/
abbrev GatedOp (G : Type) {I : Type} (Op : I → Type) := G ⊕ (Σ i, Op i)

abbrev GatedAns {G I : Type} {Op : I → Type} (GAns : G → Type) (Ans : (i : I) → Op i → Type) : GatedOp G Op → Type
  | .inl g => GAns g
  | .inr o => Ans o.1 o.2

structure Server {I : Type} (C Op : I → Type) (Ans : (i : I) → Op i → Type) (ε : Type) (α W : I → Type) (G : Type) (GAns : G → Type)
    (R ε' β V : Type) where
  service : (i : I) → System (C i) (Op i) (Ans i) ε (α i) (W i)
  /-- What comes of a request: an answer, or the call of a service. -/
  gate : R → Prog G GAns ε' (β ⊕ Σ i, C i)
  /-- How what a service returns is answered. -/
  reply : R → (i : I) → α i → Except ε' β
  fault : ε → ε'
  exec : (g : G) → V → GAns g → V → Prop

namespace Server

variable {I : Type} {C Op : I → Type} {Ans : (i : I) → Op i → Type} {ε : Type} {α W : I → Type} {G : Type} {GAns : G → Type}
  {R ε' β V : Type} (Z : Server C Op Ans ε α W G GAns R ε' β V)

/-- What is left of the call of a service. -/
def serving (r : R) (i : I) : Prog (Op i) (Ans i) ε (α i) → Prog (GatedOp G Op) (GatedAns GAns Ans) ε' β
  | .ret a => .ofExcept (Z.reply r i a)
  | .fail e => .fail (Z.fault e)
  | .act op next => .act (.inr ⟨i, op⟩) fun ans => serving r i (next ans)

/-- What is left of a request that has not passed the gate. -/
def atGate (r : R) : Prog G GAns ε' (β ⊕ Σ i, C i) → Prog (GatedOp G Op) (GatedAns GAns Ans) ε' β
  | .ret (.inl b) => .ret b
  | .ret (.inr x) => Z.serving r x.1 ((Z.service x.1).body x.2)
  | .fail e => .fail e
  | .act g next => .act (.inl g) fun ans => atGate r (next ans)

/-- The server, which holds the gate's state and each service's world. -/
def system : System R (GatedOp G Op) (GatedAns GAns Ans) ε' β (V × ∀ i, W i) where
  body r := Z.atGate r (Z.gate r)
  exec
    | .inl g, w, ans, w' => Z.exec g w.1 ans w'.1 ∧ w'.2 = w.2
    | .inr o, w, ans, w' => w'.1 = w.1 ∧ (Z.service o.1).exec o.2 (w.2 o.1) ans (w'.2 o.1) ∧ ∀ j, j ≠ o.1 → w'.2 j = w.2 j

abbrev Run (_ : Server C Op Ans ε α W G GAns R ε' β V) := Config R (GatedOp G Op) (GatedAns GAns Ans) ε' β (V × ∀ i, W i)

/-- An operation of the gate among those of the server. -/
abbrev gateDone (e : Done G GAns) : Done (GatedOp G Op) (GatedAns GAns Ans) := ⟨.inl e.1, e.2⟩

/-- The operation of the service `i` that an event is, with the number of the request. -/
def eventOf [DecidableEq I] (i : I) : Event R (GatedOp G Op) (GatedAns GAns Ans) → Option (Nat × Done (Op i) (Ans i))
  | ⟨_, _, .inl _, _⟩ => none
  | ⟨tid, _, .inr ⟨j, op⟩, ans⟩ => if same : j = i then some (tid, same ▸ ⟨op, ans⟩) else none

/-- Request number `tid` began with all that the gate asks of `r`, and the gate returned `x`. -/
def Passed (r : R) (x : β ⊕ Σ i, C i) (trace : List (Done (GatedOp G Op) (GatedAns GAns Ans))) : Prop :=
  ∃ es rest, trace = es.map gateDone ++ rest ∧ (Prog.ret x).Follows es (Z.gate r)

/-- A request that has not come to the service `i`, and will not unless the gate lets it. -/
inductive Elsewhere (i : I) (r : R) (trace : List (Done (GatedOp G Op) (GatedAns GAns Ans))) :
    Prog (GatedOp G Op) (GatedAns GAns Ans) ε' β → Prop where
  | gate (es : List (Done G GAns)) (g : Prog G GAns ε' (β ⊕ Σ i, C i)) (done : trace = es.map gateDone)
      (follows : g.Follows es (Z.gate r)) (waiting : ∀ x, g ≠ .ret (.inr x)) : Elsewhere i r trace (Z.atGate r g)
  | service (j : I) (q : Prog (Op j) (Ans j) ε (α j)) (other : j ≠ i) : Elsewhere i r trace (Z.serving r j q)

/-- The run of the server `cfg` is, for the service `i`, the run `cfg'`. Its call number `k`
is the request number `origin[k]`. -/
structure Mirrors [DecidableEq I] (i : I) (w : W i) (origin : List Nat) (cfg : Z.Run)
    (cfg' : Config (C i) (Op i) (Ans i) ε (α i) (W i)) : Prop where
  run : (Z.service i).Steps (.initial w) cfg'
  world : cfg.shared.world.2 i = cfg'.shared.world
  distinct : origin.Nodup
  count : origin.length = cfg'.calls.length
  served : ∀ k tid : Nat, origin[k]? = some tid → ∃ r c q, cfg.calls[tid]? = some (r, Z.serving r i q) ∧ cfg'.calls[k]? = some (c, q) ∧
    Z.Passed r (.inr ⟨i, c⟩) (cfg.shared.trace tid)
  log : cfg.shared.log.filterMap (eventOf i) = cfg'.shared.log.map fun e => (origin.getD e.tid 0, ⟨e.op, e.ans⟩)

/-- The requests outside `origin` are elsewhere. -/
def Idle (i : I) (origin : List Nat) (cfg : Z.Run) : Prop :=
  ∀ tid r p, cfg.calls[tid]? = some (r, p) → tid ∉ origin → Z.Elsewhere i r (cfg.shared.trace tid) p

section Steps

variable {Z}

theorem Passed.grows {r : R} {x : β ⊕ Σ i, C i} {trace more : List (Done (GatedOp G Op) (GatedAns GAns Ans))} (h : Z.Passed r x trace) :
    Z.Passed r x (trace ++ more) := by
  obtain ⟨es, rest, rfl, follows⟩ := h
  exact ⟨es, rest ++ more, List.append_assoc .., follows⟩

variable [DecidableEq I] {i : I} {w : W i} {origin : List Nat} {cfg cfg₁ : Z.Run} {cfg' : Config (C i) (Op i) (Ans i) ε (α i) (W i)}

theorem Mirrors.mem_lt (m : Z.Mirrors i w origin cfg cfg') {tid : Nat} (mem : tid ∈ origin) : tid < cfg.calls.length := by
  obtain ⟨k, here⟩ := List.getElem?_of_mem mem
  obtain ⟨r, c, q, call, -⟩ := m.served k tid here
  exact (List.getElem?_eq_some_iff.1 call).1

/-- What the other requests do, and the gate, changes nothing for the service. -/
theorem Mirrors.persists (m : Z.Mirrors i w origin cfg cfg') (world : cfg₁.shared.world.2 i = cfg.shared.world.2 i)
    (calls : ∀ tid ∈ origin, cfg₁.calls[tid]? = cfg.calls[tid]? ∧ cfg₁.shared.trace tid = cfg.shared.trace tid)
    (log : cfg₁.shared.log.filterMap (eventOf i) = cfg.shared.log.filterMap (eventOf i)) : Z.Mirrors i w origin cfg₁ cfg' := by
  refine ⟨m.run, world.trans m.world, m.distinct, m.count, fun k tid here => ?_, log.trans m.log⟩
  obtain ⟨same, trace⟩ := calls tid (List.mem_of_getElem? here)
  obtain ⟨r, c, q, call, inner, passed⟩ := m.served k tid here
  exact ⟨r, c, q, same.trans call, inner, trace ▸ passed⟩

/-- A request the gate lets through to the service is a call that starts there. -/
theorem Mirrors.admits (m : Z.Mirrors i w origin cfg cfg') {tid : Nat} {r : R} {c : C i} (outside : tid ∉ origin)
    (here : cfg.calls[tid]? = some (r, Z.serving r i ((Z.service i).body c))) (passed : Z.Passed r (.inr ⟨i, c⟩) (cfg.shared.trace tid)) :
    Z.Mirrors i w (origin ++ [tid]) cfg { cfg' with calls := cfg'.calls ++ [(c, (Z.service i).body c)] } := by
  have count := m.count
  refine ⟨m.run.tail (.start cfg' c), m.world, ?_, by simp [count], ?_, ?_⟩
  · rw [List.nodup_append]
    refine ⟨m.distinct, by simp, fun a mem b last => ?_⟩
    rw [List.mem_singleton.1 last]
    rintro rfl
    exact outside mem
  · intro k tid' at_
    rcases System.call_started.1 at_ with earlier | ⟨rfl, rfl⟩
    · obtain ⟨r', c', q, call, inner, passed'⟩ := m.served k tid' earlier
      exact ⟨r', c', q, call, System.call_started.2 (.inl inner), passed'⟩
    · exact ⟨r, c, _, here, System.call_started.2 (.inr ⟨count, rfl⟩), passed⟩
  · rw [m.log]
    refine List.map_congr_left fun e mem => ?_
    have lt := System.logged_started m.run e mem
    rw [List.getD_append _ _ _ _ (by omega)]

/-- Where a request stands once the gate has done what it has. -/
theorem Mirrors.enters (m : Z.Mirrors i w origin cfg cfg') {tid : Nat} {r : R} {es : List (Done G GAns)}
    {g : Prog G GAns ε' (β ⊕ Σ i, C i)} (outside : tid ∉ origin) (here : cfg.calls[tid]? = some (r, Z.atGate r g))
    (trace : cfg.shared.trace tid = es.map gateDone) (follows : g.Follows es (Z.gate r))
    (others : ∀ tid' r' p, tid' ≠ tid → cfg.calls[tid']? = some (r', p) → tid' ∉ origin → Z.Elsewhere i r' (cfg.shared.trace tid') p) :
    ∃ origin' cfg'', Z.Mirrors i w origin' cfg cfg'' ∧ Z.Idle i origin' cfg := by
  have idle : Z.Elsewhere i r (cfg.shared.trace tid) (Z.atGate r g) → Z.Idle i origin cfg := by
    intro elsewhere tid' r' p call out
    by_cases same : tid' = tid
    · subst same
      rw [here] at call
      cases call
      exact elsewhere
    · exact others tid' r' p same call out
  by_cases waiting : ∀ x, g ≠ .ret (.inr x)
  · exact ⟨origin, cfg', m, idle (.gate es g trace follows waiting)⟩
  · simp only [ne_eq, not_forall, not_not] at waiting
    obtain ⟨⟨j, c⟩, rfl⟩ := waiting
    by_cases same : j = i
    · subst same
      refine ⟨_, _, m.admits outside here ⟨es, [], by rw [trace, List.append_nil], follows⟩, ?_⟩
      intro tid' r' p call out
      simp only [List.mem_append, List.mem_singleton, not_or] at out
      exact others tid' r' p out.2 call out.1
    · exact ⟨origin, cfg', m, idle (.service j _ same)⟩

/-- An operation of a call the gate has let through is the service's own. -/
theorem Mirrors.serves (m : Z.Mirrors i w origin cfg cfg') (idle : Z.Idle i origin cfg) {k tid : Nat} (number : origin[k]? = some tid)
    {r : R} {c : C i} {op : Op i} {next : Ans i op → Prog (Op i) (Ans i) ε (α i)} {ans : Ans i op}
    {s' : Shared R (GatedOp G Op) (GatedAns GAns Ans) (V × ∀ i, W i)} (inner : cfg'.calls[k]? = some (c, .act op next))
    (call : cfg.calls[tid]? = some (r, Z.serving r i (.act op next))) (passed : Z.Passed r (.inr ⟨i, c⟩) (cfg.shared.trace tid))
    (does : Z.system.Does cfg.shared ⟨tid, r, .inr ⟨i, op⟩, ans⟩ s') :
    ∃ cfg'', Z.Mirrors i w origin ⟨s', cfg.calls.set tid (r, Z.serving r i (next ans))⟩ cfg'' ∧
      Z.Idle i origin ⟨s', cfg.calls.set tid (r, Z.serving r i (next ans))⟩ := by
  obtain ⟨⟨-, exec, -⟩, log⟩ := does
  have done : (Z.service i).Does cfg'.shared ⟨k, c, op, ans⟩ ⟨s'.world.2 i, ⟨k, c, op, ans⟩ :: cfg'.shared.log⟩ :=
    ⟨m.world ▸ exec, rfl⟩
  have others : ∀ tid', tid ≠ tid' → s'.trace tid' = cfg.shared.trace tid' := by
    intro tid' other
    simp [Shared.trace, log, other]
  have lt := (List.getElem?_eq_some_iff.1 call).1
  refine ⟨_, ⟨m.run.tail (.act inner done), rfl, m.distinct, by simp [m.count], ?_, ?_⟩, ?_⟩
  · intro k' tid' number'
    by_cases same : tid = tid'
    · subst same
      obtain rfl : k = k' := (List.getElem?_inj (List.getElem?_eq_some_iff.1 number).1 m.distinct).1 (number.trans number'.symm)
      refine ⟨r, c, next ans, List.getElem?_set_self lt, List.getElem?_set_self (List.getElem?_eq_some_iff.1 inner).1, ?_⟩
      have grown : s'.trace tid = cfg.shared.trace tid ++ [⟨.inr ⟨i, op⟩, ans⟩] := by simp [Shared.trace, log]
      rw [grown]
      exact passed.grows
    · obtain ⟨r', c', q, call', inner', passed'⟩ := m.served k' tid' number'
      have other : k ≠ k' := by
        rintro rfl
        exact same (Option.some.inj (number.symm.trans number'))
      refine ⟨r', c', q, ?_, ?_, (others tid' same) ▸ passed'⟩
      · rw [List.getElem?_set_ne same]; exact call'
      · rw [List.getElem?_set_ne other]; exact inner'
  · rw [log]
    simp [eventOf, m.log, number]
  · intro tid' r' p call' out
    have other : tid ≠ tid' := by
      rintro rfl
      exact out (List.mem_of_getElem? number)
    rw [List.getElem?_set_ne other] at call'
    rw [others tid' other]
    exact idle tid' r' p call' out

/-- An operation of a request that is elsewhere leaves the service as it is. -/
theorem Mirrors.passes (m : Z.Mirrors i w origin cfg cfg') (idle : Z.Idle i origin cfg) {tid : Nat} (outside : tid ∉ origin) {r : R}
    {op : GatedOp G Op} {next : GatedAns GAns Ans op → Prog (GatedOp G Op) (GatedAns GAns Ans) ε' β} {ans : GatedAns GAns Ans op}
    {s' : Shared R (GatedOp G Op) (GatedAns GAns Ans) (V × ∀ i, W i)} (call : cfg.calls[tid]? = some (r, .act op next))
    (does : Z.system.Does cfg.shared ⟨tid, r, op, ans⟩ s') :
    ∃ origin' cfg'', Z.Mirrors i w origin' ⟨s', cfg.calls.set tid (r, next ans)⟩ cfg'' ∧
      Z.Idle i origin' ⟨s', cfg.calls.set tid (r, next ans)⟩ := by
  have log := does.2
  have lt := (List.getElem?_eq_some_iff.1 call).1
  have others : ∀ tid', tid' ≠ tid → s'.trace tid' = cfg.shared.trace tid' := fun tid' other => System.trace_other does other.symm
  have elsewhere : ∀ tid' r' p, tid' ≠ tid → (cfg.calls.set tid (r, next ans))[tid']? = some (r', p) → tid' ∉ origin →
      Z.Elsewhere i r' (s'.trace tid') p := by
    intro tid' r' p other call' out
    rw [List.getElem?_set_ne other.symm] at call'
    rw [others tid' other]
    exact idle tid' r' p call' out
  have persists : s'.world.2 i = cfg.shared.world.2 i → eventOf i ⟨tid, r, op, ans⟩ = none →
      Z.Mirrors i w origin ⟨s', cfg.calls.set tid (r, next ans)⟩ cfg' := by
    intro world event
    refine m.persists world (fun tid' mem => ?_) (by rw [log, List.filterMap_cons_none event])
    have other : tid' ≠ tid := by
      rintro rfl
      exact outside mem
    exact ⟨List.getElem?_set_ne other.symm, others tid' other⟩
  have here : (cfg.calls.set tid (r, next ans))[tid]? = some (r, next ans) := List.getElem?_set_self lt
  generalize rest : Prog.act op next = p at call
  cases idle tid r p call outside with
  | gate es g trace follows waiting =>
    cases g with
    | ret x =>
      cases x with
      | inl b => cases rest
      | inr x => exact (waiting x rfl).elim
    | fail e => cases rest
    | act g next' =>
      cases rest
      refine (persists (congrFun does.1.2 i) rfl).enters outside here ?_ (follows.snoc ans) elsewhere
      have grown : s'.trace tid = cfg.shared.trace tid ++ [⟨.inl g, ans⟩] := System.trace_does does
      rw [grown, trace, List.map_append]
      rfl
  | service j q other =>
    cases q with
    | ret a =>
      rw [serving] at rest
      cases value : Z.reply r j a <;> rw [value] at rest <;> cases rest
    | fail e => cases rest
    | act op' next' =>
      cases rest
      refine ⟨origin, cfg', persists (does.1.2.2 i other.symm) (dif_neg other), fun tid' r' p call' out => ?_⟩
      by_cases same : tid' = tid
      · subst same
        rw [here] at call'
        cases call'
        exact .service j _ other
      · exact elsewhere tid' r' p same call' out

theorem Mirrors.step {world : V × ∀ i, W i} (run : Z.system.Steps (.initial world) cfg) (m : Z.Mirrors i w origin cfg cfg')
    (idle : Z.Idle i origin cfg) (step : Z.system.Step cfg cfg₁) :
    ∃ origin' cfg'', Z.Mirrors i w origin' cfg₁ cfg'' ∧ Z.Idle i origin' cfg₁ := by
  cases step with
  | start r =>
    have outside : cfg.calls.length ∉ origin := fun mem => absurd (m.mem_lt mem) (Nat.lt_irrefl _)
    have started : Z.Mirrors i w origin { cfg with calls := cfg.calls ++ [(r, Z.atGate r (Z.gate r))] } cfg' :=
      m.persists rfl (fun tid mem => ⟨List.getElem?_append_left (m.mem_lt mem), rfl⟩) rfl
    have here : (cfg.calls ++ [(r, Z.atGate r (Z.gate r))])[cfg.calls.length]? = some (r, Z.atGate r (Z.gate r)) :=
      List.getElem?_concat_length
    have trace : cfg.shared.trace cfg.calls.length = ([] : List (Done G GAns)).map gateDone := System.trace_unstarted run (Nat.le_refl _)
    refine started.enters outside here trace rfl fun tid r' p other call out => ?_
    rcases System.call_started.1 call with earlier | ⟨last, -⟩
    · exact idle tid r' p earlier out
    · exact (other last).elim
  | @act tid r op next ans s' waiting does =>
    by_cases inside : tid ∈ origin
    · obtain ⟨k, number⟩ := List.getElem?_of_mem inside
      obtain ⟨r', c, q, call, inner, passed⟩ := m.served k tid number
      generalize rest : Z.serving r' i q = p at call
      rw [waiting] at call
      cases call
      cases q with
      | ret a =>
        rw [serving] at rest
        cases value : Z.reply r i a <;> rw [value] at rest <;> cases rest
      | fail e => cases rest
      | act op' next' =>
        cases rest
        obtain ⟨cfg'', mirrors, idle'⟩ := m.serves idle number inner waiting passed does
        exact ⟨origin, cfg'', mirrors, idle'⟩
    · exact m.passes idle inside waiting does

/-- What a request does at a service it does once the gate has let it through. -/
theorem Mirrors.event (m : Z.Mirrors i w origin cfg cfg') {e : Event R (GatedOp G Op) (GatedAns GAns Ans)} (mem : e ∈ cfg.shared.log)
    {op : Op i} (here : e.op = .inr ⟨i, op⟩) :
    ∃ r p c, cfg.calls[e.tid]? = some (r, p) ∧ Z.Passed r (.inr ⟨i, c⟩) (cfg.shared.trace e.tid) := by
  obtain ⟨tid, r, op', ans⟩ := e
  obtain rfl : op' = .inr ⟨i, op⟩ := here
  have event : (tid, (⟨op, ans⟩ : Done (Op i) (Ans i))) ∈ cfg.shared.log.filterMap (eventOf i) :=
    List.mem_filterMap.2 ⟨_, mem, dif_pos rfl⟩
  rw [m.log, List.mem_map] at event
  obtain ⟨e', mem', same⟩ := event
  have lt := System.logged_started m.run e' mem'
  have number : origin[e'.tid]? = some tid := by
    rw [← m.count] at lt
    have first : origin.getD e'.tid 0 = tid := congrArg Prod.fst same
    rw [List.getElem?_eq_getElem lt, ← first, List.getD_eq_getElem _ _ lt]
  obtain ⟨r', c, q, call, -, passed⟩ := m.served _ _ number
  exact ⟨r', _, c, call, passed⟩

end Steps

/-- **Each service as if it were alone.** A run of the server is, for each service, a run of that service whose calls
are those the gate has let through. -/
theorem mirrored [DecidableEq I] {v : V} {w : ∀ i, W i} {cfg : Z.Run} (run : Z.system.Steps (.initial (v, w)) cfg) (i : I) :
    ∃ origin cfg', Z.Mirrors i (w i) origin cfg cfg' ∧ Z.Idle i origin cfg := by
  induction run with
  | refl =>
    refine ⟨[], .initial (w i), ⟨.refl, rfl, List.nodup_nil, rfl, ?_, rfl⟩, ?_⟩
    · intro k tid number
      cases number
    · intro tid r p call
      cases call
  | tail run step ih =>
    obtain ⟨origin, cfg', mirrors, idle⟩ := ih
    exact mirrors.step run idle step

end Server

end AfriPay.Calls
