import AfriPay.Soroban.Env

/-!
# Histories of a contract

The state of a contract with its successful invocations. A failed one leaves no
trace.
-/

namespace AfriPay.Soroban

/-- A function's result as a reply of the contract. -/
def answering {ε σ α R : Type} (reply : α → R) : Except (Fault ε) (α × σ) → Except (Fault ε) (R × σ)
  | .ok (a, s) => .ok (reply a, s)
  | .error fault => .error fault

theorem answering_ok {ε σ α R : Type} {reply : α → R} {x : Except (Fault ε) (α × σ)} {r : R} {s : σ}
    (h : answering reply x = .ok (r, s)) : ∃ a, x = .ok (a, s) ∧ r = reply a := by
  cases x with
  | error fault => cases h
  | ok x => cases h; exact ⟨x.1, rfl, rfl⟩

theorem commit_answering {ε σ α R : Type} {reply : α → R} {s : σ} (x : Except (Fault ε) (α × σ)) : commit s (answering reply x) = commit s x := by
  cases x with
  | error fault => rfl
  | ok x => rfl

/-- A successful invocation, with the state it found and the one it left. -/
structure Invocation (Addr Call R σ : Type) where
  env : Env Addr
  call : Call
  reply : R
  before : σ
  after : σ

/-- A contract's state and its successful invocations, newest first. -/
structure History (Addr Call R σ : Type) where
  state : σ
  log : List (Invocation Addr Call R σ)

variable {Addr Call R ε σ : Type} (exec : Env Addr → Call → σ → Except (Fault ε) (R × σ))

def History.invoke (w : History Addr Call R σ) (env : Env Addr) (call : Call) : History Addr Call R σ :=
  match exec env call w.state with
  | .ok (reply, s) => ⟨s, ⟨env, call, reply, w.state, s⟩ :: w.log⟩
  | .error _ => w

/-- The history after a list of invocations, oldest first. -/
def History.run (w : History Addr Call R σ) (calls : List (Env Addr × Call)) : History Addr Call R σ :=
  calls.foldl (fun w c => w.invoke exec c.1 c.2) w

variable {exec} {w : History Addr Call R σ} {env : Env Addr} {call : Call}

theorem History.invoke_ok {reply : R} {s : σ} (h : exec env call w.state = .ok (reply, s)) :
    w.invoke exec env call = ⟨s, ⟨env, call, reply, w.state, s⟩ :: w.log⟩ := by
  simp only [History.invoke, h]

theorem History.invoke_error {fault : Fault ε} (h : exec env call w.state = .error fault) : w.invoke exec env call = w := by
  simp only [History.invoke, h]

/-- The state is committed as the host does it. -/
theorem History.invoke_state : (w.invoke exec env call).state = commit w.state (exec env call w.state) := by
  cases ran : exec env call w.state with
  | error fault => rw [History.invoke_error ran]; rfl
  | ok out => rw [History.invoke_ok ran]; rfl

/-- An invocation keeps what its success keeps. -/
theorem History.invoke_keeps {P : History Addr Call R σ → Prop} (here : P w)
    (ok : ∀ reply s, exec env call w.state = .ok (reply, s) → P ⟨s, ⟨env, call, reply, w.state, s⟩ :: w.log⟩) :
    P (w.invoke exec env call) := by
  cases ran : exec env call w.state with
  | error fault =>
    rw [History.invoke_error ran]
    exact here
  | ok out =>
    obtain ⟨reply, s⟩ := out
    rw [History.invoke_ok ran]
    exact ok reply s ran

/-- The calls come at times that do not decrease, from `t` up to `now`. -/
structure Timely (t now : Nat) (calls : List (Env Addr × Call)) : Prop where
  ordered : (calls.map fun c => c.1.timestamp).Pairwise (· ≤ ·)
  since : ∀ c ∈ calls, t ≤ c.1.timestamp
  upTo : ∀ c ∈ calls, c.1.timestamp ≤ now

/-- What successful calls keep holds after a run, at any time from its last call on. -/
theorem History.run_keeps {P : Nat → History Addr Call R σ → Prop} (later : ∀ {t t' w}, t ≤ t' → P t w → P t' w)
    (step : ∀ {w env call reply s}, P env.timestamp w → exec env call w.state = .ok (reply, s) →
      P env.timestamp ⟨s, ⟨env, call, reply, w.state, s⟩ :: w.log⟩)
    {calls : List (Env Addr × Call)} {t now : Nat} (here : P t w) (timely : Timely t now calls) (le : t ≤ now) : P now (w.run exec calls) := by
  induction calls generalizing w t with
  | nil => exact later le here
  | cons c calls ih =>
    have ready : P c.1.timestamp w := later (timely.since c List.mem_cons_self) here
    have after : P c.1.timestamp (w.invoke exec c.1 c.2) := invoke_keeps ready fun _ _ ran => step ready ran
    obtain ⟨first, ordered⟩ := List.pairwise_cons.1 timely.ordered
    have since : ∀ d ∈ calls, c.1.timestamp ≤ d.1.timestamp := fun d mem => first _ (List.mem_map_of_mem mem)
    exact ih after ⟨ordered, since, fun d mem => timely.upTo d (List.mem_cons_of_mem c mem)⟩ (timely.upTo c List.mem_cons_self)

end AfriPay.Soroban
