import AfriPay.Contracts.Gateway
import AfriPay.Ledger.Trail

/-!
# Confirmations are authentic and final

An intent is created once and keeps its terms. It is confirmed at most once, by
whoever is the confirmer then, and the confirmer is appointed at initialization
and afterwards by the predecessor only.
-/

namespace AfriPay.GatewayContract
open Soroban Ledger

variable {Addr : Type}

/-! ## What a history says of an intent -/

/-- The id of the intent an invocation created. -/
def created (x : Invocation Addr) : Option Nat :=
  match x.call with
  | .createPaymentIntent .. => x.reply
  | _ => none

/-- The intent an invocation confirmed. -/
def confirmed (x : Invocation Addr) : Option Nat :=
  match x.call with
  | .confirmPaymentIntent _ id => some id
  | _ => none

/-- The intent an invocation was about. -/
def intentOf (x : Invocation Addr) : Option Nat :=
  match x.call with
  | .createPaymentIntent .. => x.reply
  | .confirmPaymentIntent _ id => some id
  | _ => none

/-- What an intent's confirmations, as far as there are any, make of it. -/
inductive Fate (i : PaymentIntent Addr) : List (Invocation Addr) → Prop where
  | pending (status : i.status = .pending) (confirmedAt : i.confirmedAt = 0) : Fate i []
  | confirmed {x : Invocation Addr} {c : Addr} (status : i.status = .confirmed) (call : x.call = .confirmPaymentIntent c i.id)
      (inForce : x.before.confirmer = some c) (authorized : x.env.auth c = true) (confirmedAt : i.confirmedAt = x.env.timestamp)
      (later : i.createdAt ≤ i.confirmedAt) : Fate i [x]

/-- The call that created an intent with these terms. -/
def CreatedOn (x : Invocation Addr) (i : PaymentIntent Addr) : Prop :=
  x.call = .createPaymentIntent i.payer i.token i.amount ∧ x.env.timestamp = i.createdAt ∧ 0 < i.amount

/-- The intent `i` is stored under `id`, and has been since its only creation. -/
structure Life (w : History Addr) (id : Nat) (i : PaymentIntent Addr) : Prop where
  stored : w.state.intents id = some i
  named : i.id = id
  creation : ∃ x, w.log.filter (fun x => created x = some id) = [x] ∧ CreatedOn x i
  fate : Fate i (w.log.filter fun x => confirmed x = some id)

/-- `i'` is `i` but for its confirmation. -/
def PaymentIntent.SameTerms (i i' : PaymentIntent Addr) : Prop := i' = { i with status := i'.status, confirmedAt := i'.confirmedAt }

/-! ## What a history says of the confirmer -/

/-- The invocations that appointed a confirmer. -/
def appointments (log : List (Invocation Addr)) : List (Invocation Addr) :=
  log.filter fun x =>
    match x.call with
    | .init _ | .setConfirmer _ => true
    | _ => false

/-- A confirmer comes into office. -/
inductive Appoints (x : Invocation Addr) : Option Addr → Addr → Prop where
  | first {c : Addr} (call : x.call = .init c) (authorized : x.env.auth c = true) : Appoints x none c
  | successor {c c' : Addr} (call : x.call = .setConfirmer c') (authorized : x.env.auth c = true) : Appoints x (some c) c'

/-- `o` is in office after the invocations `log`, each confirmer appointed by the one before. -/
def Succession (log : List (Invocation Addr)) (o : Option Addr) : Prop := Trail Appoints (appointments log) o

/-- What holds of a history `w` and of any later one `w'`. -/
structure Authentic [DecidableEq Addr] (w w' : History Addr) : Prop where
  ids : ∀ id, (∃ i, w'.state.intents id = some i) ↔ id < w'.state.intentCounter.getD 0
  returned : ∀ id, id ∈ w'.log.filterMap created ↔ id < w'.state.intentCounter.getD 0
  lives : ∀ id i, w'.state.intents id = some i → Life w' id i
  kept : ∀ id i, w.state.intents id = some i → ∃ i', w'.state.intents id = some i' ∧ i.SameTerms i'
  succession : Succession w'.log w'.state.confirmer
  /-- Who was in office at any step is told by the steps before it. -/
  inForce : ∀ later x earlier, w'.log = later ++ x :: earlier → Succession earlier x.before.confirmer
  failing : ∀ env call fault, Call.exec env call w'.state = .error fault → w'.invoke Call.exec env call = w'

/-! ## One intent -/

/-- What a successful invocation makes of an intent. -/
inductive Does (x : Invocation Addr) : Option (PaymentIntent Addr) → PaymentIntent Addr → Prop where
  | created {payer token : Addr} {amount : Int} {id : Nat} (call : x.call = .createPaymentIntent payer token amount)
      (reply : x.reply = some id) (positive : 0 < amount) : Does x none ⟨id, payer, token, amount, .pending, x.env.timestamp, 0⟩
  | confirmed {i : PaymentIntent Addr} {c : Addr} (call : x.call = .confirmPaymentIntent c i.id) (pending : i.status = .pending)
      (inForce : x.before.confirmer = some c) (authorized : x.env.auth c = true) (later : i.createdAt ≤ x.env.timestamp) :
      Does x (some i) { i with status := .confirmed, confirmedAt := x.env.timestamp }

section Intent

variable {x : Invocation Addr} {log : List (Invocation Addr)} {i i' : PaymentIntent Addr} {id : Nat}

theorem PaymentIntent.SameTerms.refl (i : PaymentIntent Addr) : i.SameTerms i := rfl

theorem PaymentIntent.SameTerms.trans {i'' : PaymentIntent Addr} (h : i.SameTerms i') (h' : i'.SameTerms i'') : i.SameTerms i'' := by
  unfold SameTerms at *
  rw [h', h]

theorem Does.same_terms (does : Does x (some i) i') : i.SameTerms i' := by
  cases does with
  | confirmed => rfl

def creating (x : Invocation Addr) : Bool := (created x).isSome

def confirming (x : Invocation Addr) : Bool := (confirmed x).isSome

theorem creation {o : Option (PaymentIntent Addr)} (trail : Trail Does log o) (here : o = some i) :
    ∃ x, log.filter creating = [x] ∧ CreatedOn x i := by
  have first : ∀ (x : Invocation Addr) i, Does x none i → creating x = true ∧ CreatedOn x i := by
    intro x i does
    cases does with
    | created call reply positive => exact ⟨by simp [creating, GatewayContract.created, call, reply], call, rfl, positive⟩
  have later : ∀ (x : Invocation Addr) i i', Does x (some i) i' → creating x = false ∧ ∀ y, CreatedOn y i → CreatedOn y i' := by
    intro x i i' does
    cases does with
    | confirmed call => exact ⟨by simp [creating, GatewayContract.created, call], fun _ kept => kept⟩
  exact trail.opening first later here

theorem fate {o : Option (PaymentIntent Addr)} (trail : Trail Does log o) (here : o = some i) : Fate i (log.filter confirming) := by
  induction trail generalizing i with
  | nil => cases here
  | @cons x log before after earlier does ih =>
    cases here
    cases does with
    | created call reply positive =>
      cases earlier
      have other : ¬confirming x = true := by simp [confirming, GatewayContract.confirmed, call]
      rw [List.filter_cons_of_neg other]
      exact .pending rfl rfl
    | @confirmed i₀ c call pending inForce authorized later =>
      have own : confirming x = true := by simp [confirming, GatewayContract.confirmed, call]
      rw [List.filter_cons_of_pos own]
      have past := ih rfl
      generalize log.filter confirming = confirmations at past
      cases past with
      | pending => exact .confirmed rfl call inForce authorized rfl later
      | confirmed status =>
        rw [pending] at status
        cases status

theorem created_about (id : Nat) (log : List (Invocation Addr)) :
    log.filter (fun x => created x = some id) = (about intentOf id log).filter creating := by
  refine filter_about intentOf id log fun x => ?_
  unfold creating created intentOf
  cases x.call with
  | createPaymentIntent => cases x.reply <;> simp
  | init | setConfirmer | confirmPaymentIntent => simp

theorem confirmed_about (id : Nat) (log : List (Invocation Addr)) :
    log.filter (fun x => confirmed x = some id) = (about intentOf id log).filter confirming := by
  refine filter_about intentOf id log fun x => ?_
  unfold confirming confirmed intentOf
  cases x.call <;> simp

end Intent

/-! ## One call -/

/-- What holds of a history at the time `t`. -/
structure Kept (t : Nat) (w : History Addr) : Prop where
  ids : ∀ id, (∃ i, w.state.intents id = some i) ↔ id < w.state.intentCounter.getD 0
  proper : ∀ id i, w.state.intents id = some i → i.id = id ∧ i.createdAt ≤ t
  closed : w.state.confirmer = none → w.state.intentCounter.getD 0 = 0
  traced : Traced intentOf Does w.log w.state.intents
  succession : Succession w.log w.state.confirmer
  inForce : ∀ later x earlier, w.log = later ++ x :: earlier → Succession earlier x.before.confirmer

section Step

variable {w : History Addr} {env : Env Addr} {call : Call Addr} {reply : Option Nat} {s : State Addr} {t t' : Nat}

theorem Kept.later (le : t ≤ t') (kept : Kept t w) : Kept t' w := by
  refine ⟨kept.ids, fun id i here => ?_, kept.closed, kept.traced, kept.succession, kept.inForce⟩
  obtain ⟨named, since⟩ := kept.proper id i here
  exact ⟨named, le_trans since le⟩

/-- The new invocation found the confirmer that the log before it tells. -/
theorem Kept.inForce_cons (kept : Kept t w) : ∀ later x earlier,
    (⟨env, call, reply, w.state, s⟩ :: w.log : List (Invocation Addr)) = later ++ x :: earlier → Succession earlier x.before.confirmer := by
  intro later x earlier split
  cases later with
  | nil =>
    obtain ⟨rfl, rfl⟩ := List.cons.inj split
    exact kept.succession
  | cons y later =>
    obtain ⟨-, rest⟩ := List.cons.inj split
    exact kept.inForce later x earlier rest

theorem Appoints.called {x : Invocation Addr} {o : Option Addr} {c : Addr} (appoints : Appoints x o c) :
    x.call = .init c ∨ x.call = .setConfirmer c := by
  cases appoints with
  | first call => exact .inl call
  | successor call => exact .inr call

/-- A confirmer is appointed; the intents stay as they are. -/
theorem Kept.appoint {c : Addr} (kept : Kept t w) (appoints : Appoints (⟨env, call, reply, w.state, s⟩ : Invocation Addr) w.state.confirmer c)
    (intents : s.intents = w.state.intents) (counter : s.intentCounter.getD 0 = w.state.intentCounter.getD 0)
    (confirmer : s.confirmer = some c) : Kept t ⟨s, ⟨env, call, reply, w.state, s⟩ :: w.log⟩ := by
  have called : call = .init c ∨ call = .setConfirmer c := appoints.called
  have idle : intentOf (⟨env, call, reply, w.state, s⟩ : Invocation Addr) = none := by
    rcases called with rfl | rfl <;> rfl
  have appointed : appointments (⟨env, call, reply, w.state, s⟩ :: w.log) = ⟨env, call, reply, w.state, s⟩ :: appointments w.log := by
    rcases called with rfl | rfl <;> rfl
  refine ⟨fun id => ?_, fun id i here => ?_, fun none => ?_, Deals.traced ?_ kept.traced, ?_, kept.inForce_cons⟩
  · rw [intents, counter]
    exact kept.ids id
  · rw [intents] at here
    exact kept.proper id i here
  · rw [confirmer] at none
    cases none
  · show Deals _ _ _ _ s.intents
    rw [intents]
    exact .idle idle
  · unfold Succession
    rw [appointed, confirmer]
    exact .cons kept.succession appoints

/-- An intent is written; the confirmer stays in office. -/
theorem Kept.write {id : Nat} {i : PaymentIntent Addr} (kept : Kept env.timestamp w)
    (own : intentOf (⟨env, call, reply, w.state, s⟩ : Invocation Addr) = some id)
    (does : Does (⟨env, call, reply, w.state, s⟩ : Invocation Addr) (w.state.intents id) i)
    (open' : w.state.confirmer ≠ none) (named : i.id = id) (since : i.createdAt ≤ env.timestamp)
    (intents : s.intents = Function.update w.state.intents id (some i)) (confirmer : s.confirmer = w.state.confirmer)
    (counter : ∀ j, j < s.intentCounter.getD 0 ↔ j < w.state.intentCounter.getD 0 ∨ j = id) :
    Kept env.timestamp ⟨s, ⟨env, call, reply, w.state, s⟩ :: w.log⟩ := by
  have appointed : appointments (⟨env, call, reply, w.state, s⟩ :: w.log) = appointments w.log := by
    cases call with
    | init | setConfirmer => cases own
    | createPaymentIntent | confirmPaymentIntent => rfl
  refine ⟨fun j => ?_, fun j i' here => ?_, fun none => ?_, Deals.traced ?_ kept.traced, ?_, kept.inForce_cons⟩
  · rw [counter, ← kept.ids, intents]
    by_cases same : j = id
    · subst same
      rw [Function.update_self]
      exact ⟨fun _ => .inr rfl, fun _ => ⟨i, rfl⟩⟩
    · rw [Function.update_of_ne same]
      exact ⟨.inl, fun h => h.resolve_right same⟩
  · rw [intents] at here
    exact Register.forall_update kept.proper ⟨named, since⟩ j i' here
  · rw [confirmer] at none
    exact (open' none).elim
  · show Deals _ _ _ _ s.intents
    rw [intents]
    exact .does own does
  · unfold Succession
    rw [appointed, confirmer]
    exact kept.succession

theorem Kept.life {id : Nat} {i : PaymentIntent Addr} (kept : Kept t w) (here : w.state.intents id = some i) : Life w id i := by
  refine ⟨here, (kept.proper id i here).1, ?_, ?_⟩
  · rw [created_about]
    exact creation (kept.traced id) here
  · rw [confirmed_about]
    exact fate (kept.traced id) here

variable [DecidableEq Addr]

theorem Kept.step (kept : Kept env.timestamp w) (h : call.exec env w.state = .ok (reply, s)) :
    Kept env.timestamp ⟨s, ⟨env, call, reply, w.state, s⟩ :: w.log⟩ := by
  cases call with
  | init confirmer =>
    obtain ⟨_, ran, rfl⟩ := answering_ok h
    obtain ⟨first, auth, rfl⟩ := init_ok ran
    refine kept.appoint ?_ rfl (kept.closed first).symm rfl
    rw [first]
    exact .first rfl auth
  | setConfirmer newConfirmer =>
    obtain ⟨_, ran, rfl⟩ := answering_ok h
    obtain ⟨current, here, auth, rfl⟩ := setConfirmer_ok ran
    refine kept.appoint ?_ rfl rfl rfl
    rw [here]
    exact .successor rfl auth
  | createPaymentIntent payer token amount =>
    obtain ⟨id, ran, rfl⟩ := answering_ok h
    obtain ⟨open', positive, -, rfl, rfl⟩ := createPaymentIntent_ok ran
    have unused : w.state.intents (w.state.intentCounter.getD 0) = none := by
      cases here : w.state.intents (w.state.intentCounter.getD 0) with
      | none => rfl
      | some i => exact (lt_irrefl _ ((kept.ids _).1 ⟨i, here⟩)).elim
    refine kept.write rfl ?_ open' rfl (le_refl _) rfl rfl fun j => ?_
    · rw [unused]
      exact .created rfl rfl positive
    · rw [Option.getD_some]
      omega
  | confirmPaymentIntent confirmer id =>
    obtain ⟨_, ran, rfl⟩ := answering_ok h
    obtain ⟨here, auth, i, stored, pending, rfl⟩ := confirmPaymentIntent_ok ran
    obtain ⟨named, since⟩ := kept.proper id i stored
    have open' : w.state.confirmer ≠ none := by rw [here]; exact nofun
    have lt := (kept.ids id).1 ⟨i, stored⟩
    refine kept.write (i := { i with status := .confirmed, confirmedAt := env.timestamp }) rfl ?_ open' named since rfl rfl fun j => ?_
    · rw [stored]
      exact .confirmed (by rw [named]) pending here auth since
    · constructor
      · exact .inl
      · rintro (before | rfl)
        · exact before
        · exact lt

end Step

/-! ## Runs -/

section Runs

variable [DecidableEq Addr] {w : History Addr} {env : Env Addr} {call : Call Addr} {reply : Option Nat} {s : State Addr} {t now : Nat}

/-- Intents stay and keep their terms. -/
theorem exec_le (kept : Kept t w) (h : call.exec env w.state = .ok (reply, s)) :
    Register.Le PaymentIntent.SameTerms w.state.intents s.intents := by
  have still : s.intents = w.state.intents → Register.Le PaymentIntent.SameTerms w.state.intents s.intents := by
    intro same
    rw [same]
    exact .refl .refl _
  cases call with
  | init confirmer =>
    obtain ⟨_, ran, -⟩ := answering_ok h
    obtain ⟨-, -, rfl⟩ := init_ok ran
    exact still rfl
  | setConfirmer newConfirmer =>
    obtain ⟨_, ran, -⟩ := answering_ok h
    obtain ⟨_, -, -, rfl⟩ := setConfirmer_ok ran
    exact still rfl
  | createPaymentIntent payer token amount =>
    obtain ⟨id, ran, -⟩ := answering_ok h
    obtain ⟨-, -, -, rfl, rfl⟩ := createPaymentIntent_ok ran
    intro id i here
    have ne : id ≠ w.state.intentCounter.getD 0 := by
      have lt := (kept.ids id).1 ⟨i, here⟩
      omega
    exact ⟨i, (Function.update_of_ne ne ..).trans here, .refl i⟩
  | confirmPaymentIntent confirmer id =>
    obtain ⟨_, ran, -⟩ := answering_ok h
    obtain ⟨-, -, i, stored, -, rfl⟩ := confirmPaymentIntent_ok ran
    intro j i' here
    by_cases same : j = id
    · subst same
      obtain rfl : i = i' := Option.some.inj (stored.symm.trans here)
      exact ⟨_, Function.update_self .., rfl⟩
    · exact ⟨i', (Function.update_of_ne same ..).trans here, .refl i'⟩

theorem Kept.run {calls : List (Env Addr × Call Addr)} (kept : Kept t w) (timely : Timely t now calls) (le : t ≤ now) :
    Kept now (w.run Call.exec calls) ∧ Register.Le PaymentIntent.SameTerms w.state.intents (w.run Call.exec calls).state.intents := by
  refine Soroban.History.run_keeps
    (P := fun t w' => Kept t w' ∧ Register.Le PaymentIntent.SameTerms w.state.intents w'.state.intents)
    (fun le here => ⟨here.1.later le, here.2⟩) (fun here ran => ⟨here.1.step ran, ?_⟩) ⟨kept, .refl .refl _⟩ timely le
  exact .trans (fun h h' => h.trans h') here.2 (exec_le here.1 ran)

omit [DecidableEq Addr] in
theorem created_intentOf {x : Invocation Addr} {id : Nat} (h : created x = some id) : intentOf x = some id := by
  unfold created at h
  unfold intentOf
  cases called : x.call with
  | createPaymentIntent => simpa only [called] using h
  | init | setConfirmer | confirmPaymentIntent => simp [called] at h

omit [DecidableEq Addr] in
theorem Kept.returned (kept : Kept t w) (id : Nat) : id ∈ w.log.filterMap created ↔ id < w.state.intentCounter.getD 0 := by
  rw [← kept.ids]
  constructor
  · intro mem
    obtain ⟨x, member, made⟩ := List.mem_filterMap.1 mem
    have own : x ∈ about intentOf id w.log := List.mem_filter.2 ⟨member, by simp [created_intentOf made]⟩
    exact (kept.traced id).some (List.ne_nil_of_mem own)
  · rintro ⟨i, here⟩
    obtain ⟨x, only, -⟩ := (kept.life here).creation
    have member : x ∈ w.log.filter fun x => created x = some id := by rw [only]; exact List.mem_cons_self
    obtain ⟨mem, made⟩ := List.mem_filter.1 member
    exact List.mem_filterMap.2 ⟨x, mem, of_decide_eq_true made⟩

end Runs

/-- **Confirmations are authentic and final.** -/
theorem confirmations [DecidableEq Addr] (t now : Nat) (calls calls' : List (Env Addr × Call Addr)) (timely : Timely 0 t calls)
    (timely' : Timely t now calls') (le : t ≤ now) : Authentic (run calls) (run (calls ++ calls')) := by
  have initial : Kept 0 (⟨.initial, []⟩ : History Addr) := by
    refine ⟨fun id => ⟨nofun, fun h => (Nat.not_lt_zero id h).elim⟩, fun _ _ => nofun, fun _ => rfl, .initial, .nil, fun later x earlier split => ?_⟩
    cases later <;> cases split
  have before := (initial.run timely (Nat.zero_le t)).1
  obtain ⟨kept, grown⟩ := before.run timely' le
  have split : run (calls ++ calls') = (run calls).run Call.exec calls' := List.foldl_append ..
  rw [split]
  exact ⟨kept.ids, kept.returned, fun id i here => kept.life here, grown, kept.succession, kept.inForce,
    fun env call fault failed => Soroban.History.invoke_error failed⟩

namespace Sample

def env (now : Nat) (a : Nat) : Env Nat := ⟨now, fun b => b = a, fun _ => true⟩

/-- Confirmer 1 hands over to 2 with an intent of 5's pending. -/
def calls : List (Env Nat × Call Nat) :=
  [(env 3 1, .init 1), (env 4 5, .createPaymentIntent 5 7 30), (env 5 1, .setConfirmer 2)]

/-- Only 2 can confirm it, and only once. -/
def later : List (Env Nat × Call Nat) :=
  [(env 6 1, .confirmPaymentIntent 1 0), (env 7 2, .confirmPaymentIntent 2 0), (env 8 2, .confirmPaymentIntent 2 0)]

end Sample

theorem confirmations_sample : Authentic (run Sample.calls) (run (Sample.calls ++ Sample.later)) ∧
    (run (Sample.calls ++ Sample.later)).state.intents 0 = some ⟨0, 5, 7, 30, .confirmed, 4, 7⟩ :=
  ⟨confirmations 5 8 Sample.calls Sample.later ⟨by decide, by decide, by decide⟩ ⟨by decide, by decide, by decide⟩ (by decide), by decide⟩

end AfriPay.GatewayContract
