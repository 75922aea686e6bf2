import AfriPay.Auth.RateLimitBounds
import AfriPay.Calls.Replay
import AfriPay.Server.App

/-!
# What passes the guards

Whatever requests arrive, in whatever order their operations are done, each service
does what it would do alone, for the requests that were counted within the limit and
showed the secret their route asks for. No other request reaches a service.
-/

namespace AfriPay.Server
open Calls Text Auth Storage

section Gate

variable {d : Deployment} {client : Auth.Request} {apiKey : Option Header} {route : Route} {trigger : Trigger} {i : Service} {c : i.Call}

/-- The request shows what its route asks for. -/
def Entitled (d : Deployment) (apiKey : Option Header) (route : Route) : Prop :=
  (route.guarded = true → Keyed d.env apiKey) ∧ ∀ type token payload, route = .callback type token payload → Tokened d.env token

/-- The trigger may have the call made. -/
def Trigger.Leads (d : Deployment) (x : Σ i : Service, i.Call) : Trigger → Prop
  | .http _ apiKey route => route.target = some x ∧ Entitled d apiKey route
  | .timer => x = ⟨.momo, .reconcilePending⟩ ∧ d.reconciles = true

/-- The request was let through by the rate limit first; the timer is not counted. -/
def Trigger.CountedFirst (trace : List (Done (GatedOp GuardOp Service.Op) (GatedAns GuardOp.Answer Service.Answer))) : Trigger → Prop
  | .http client _ _ => ∃ rest, trace = ⟨.inl (.canActivate client), .ok true⟩ :: rest
  | .timer => True

theorem activated_ok {verdict : Except HttpException Bool} (h : activated verdict = .ok ()) : verdict = .ok true := by
  unfold activated at h
  split at h
  · cases h
  · rfl
  · cases h

theorem assertWebhookToken_ok {token : Option QueryValue} (h : assertWebhookToken d token = .ok ()) : Tokened d.env token := by
  unfold assertWebhookToken at h
  obtain ⟨u, -, h⟩ := bind_ok h
  split at h
  · cases h
  · rename_i verified
    exact verifyWebhookToken_ok (by simpa using verified)

theorem outcome_call (h : route.outcome = .inr ⟨i, c⟩) : route.target = some ⟨i, c⟩ := by
  unfold Route.outcome at h
  split at h
  · rename_i call target
    rw [target, Sum.inr.inj h]
  · cases h

theorem assertRoute_ok (h : assertRoute d route = .ok ()) :
    ∀ type token payload, route = .callback type token payload → Tokened d.env token := by
  rintro type token payload rfl
  exact assertWebhookToken_ok h

theorem checked_ok (h : checked d apiKey route = .ok (.inr ⟨i, c⟩)) : route.target = some ⟨i, c⟩ ∧ Entitled d apiKey route := by
  unfold checked at h
  split at h
  · obtain ⟨u, activates, h⟩ := bind_ok h
    obtain ⟨u', asserted, h⟩ := bind_ok h
    exact ⟨outcome_call (Except.ok.inj h), fun _ => canActivate_ok.1 (activated_ok activates), assertRoute_ok asserted⟩
  · rename_i opened
    obtain ⟨u', asserted, h⟩ := bind_ok h
    exact ⟨outcome_call (Except.ok.inj h), fun guarded => (opened guarded).elim, assertRoute_ok asserted⟩

/-- What lets a trigger through to a service. -/
theorem gate_passed {trace : List (Done (GatedOp GuardOp Service.Op) (GatedAns GuardOp.Answer Service.Answer))}
    (h : (backend d).Passed trigger (.inr ⟨i, c⟩) trace) : trigger.Leads d ⟨i, c⟩ ∧ trigger.CountedFirst trace := by
  obtain ⟨es, rest, rfl, follows⟩ := h
  cases trigger with
  | http client apiKey route =>
    obtain ⟨es₁, es₂, verdict, rfl, counted, follows⟩ := Prog.Follows.of_bind follows
    obtain ⟨es₃, es₄, u, rfl, activates, follows⟩ := Prog.Follows.of_bind follows
    obtain ⟨-, activates⟩ := Prog.follows_ofExcept activates
    obtain ⟨-, passes⟩ := Prog.follows_ofExcept follows
    obtain rfl := activated_ok activates
    cases es₁ with
    | nil => cases counted
    | cons e es₁ =>
      obtain ⟨next, first, last⟩ := counted
      obtain ⟨op, ans⟩ := e
      cases first
      cases es₁ with
      | nil =>
        cases last
        exact ⟨checked_ok passes, _, rfl⟩
      | cons e es₁ =>
        obtain ⟨next, first, -⟩ := last
        cases first
  | timer =>
    obtain ⟨rfl, passes⟩ := Prog.follows_ofExcept follows
    split at passes
    · rename_i running
      cases passes
      exact ⟨⟨rfl, running⟩, trivial⟩
    · cases passes

end Gate

section Runs

variable {d : Deployment} {start : Start} {cfg cfg₁ : (backend d).Run}

/-- What the rate limit made of a request. -/
def counted : Event Trigger (GatedOp GuardOp Service.Op) (GatedAns GuardOp.Answer Service.Answer) →
    Option (Auth.Request × Except HttpException Bool)
  | ⟨_, _, .inl (.canActivate client), verdict⟩ => some (client, verdict)
  | ⟨_, _, .inr _, _⟩ => none

/-- The rate limit has handled the requests in the log, in their order. -/
structure Counts (d : Deployment) (s : Shared Trigger (GatedOp GuardOp Service.Op) (GatedAns GuardOp.Answer Service.Answer)
    (GuardWorld × ∀ i : Service, i.World)) : Prop where
  inv : Inv (effectiveLimit d.env.apiRateLimit) s.world.1.now s.world.1.guard
  log : s.log.filterMap counted = s.world.1.guard.log.map fun x => (x.arrival.request, x.verdict)

theorem Counts.step (counts : Counts d cfg.shared) (step : (backend d).system.Step cfg cfg₁) : Counts d cfg₁.shared := by
  cases step with
  | start trigger => exact counts
  | @act tid trigger op next ans s' waiting does =>
    obtain ⟨exec, log⟩ := does
    cases op with
    | inl op =>
      obtain ⟨client⟩ := op
      obtain ⟨⟨later, handled, verdict⟩, -⟩ := exec
      have event : counted ⟨tid, trigger, .inl (.canActivate client), ans⟩ = some (client, ans) := rfl
      refine ⟨?_, ?_⟩
      · rw [handled]
        exact @Inv.handle _ _ _ ⟨d.env.apiRateLimit, client, s'.world.1.now⟩ counts.inv later rfl
      · rw [log, List.filterMap_cons_some event, counts.log, handled]
        exact congrArg (fun answer => (client, answer) :: _) verdict
    | inr op =>
      obtain ⟨same, -⟩ := exec
      have event : counted ⟨tid, trigger, .inr op, ans⟩ = none := rfl
      refine ⟨?_, ?_⟩
      · rw [same]
        exact counts.inv
      · rw [log, List.filterMap_cons_none event, same]
        exact counts.log

theorem counts_run (run : Reachable d start cfg) : Counts d cfg.shared := by
  obtain ⟨now, run⟩ := run
  induction run with
  | refl => exact ⟨.initial _ now, rfl⟩
  | tail run step ih => exact ih.step step

/-- Request number `tid` may have the call made, and was counted before. -/
def Asked (d : Deployment) (cfg : (backend d).Run) (tid : Nat) (x : Σ i : Service, i.Call) : Prop :=
  ∃ trigger p, cfg.calls[tid]? = some (trigger, p) ∧ trigger.Leads d x ∧ trigger.CountedFirst (cfg.shared.trace tid)

/-- What the guards guarantee of a run of the backend. -/
structure Guarded (d : Deployment) (start : Start) (cfg : (backend d).Run) : Prop where
  /-- A service's part is a run of that service alone. Its calls are those of triggers that may have them made, in the
  order in which they came to it, and what it did and answered is the same. -/
  alone : ∀ i, ∃ origin cfg', (backend d).Mirrors i (start.world i) origin cfg cfg' ∧
    ∀ (k : Nat) c p, cfg'.calls[k]? = some (c, p) → ∃ tid, origin[k]? = some tid ∧ Asked d cfg tid ⟨i, c⟩
  /-- A request that does not show what its route asks for does nothing but be counted. -/
  refused : ∀ tid client apiKey route p, cfg.calls[tid]? = some (.http client apiKey route, p) → ¬Entitled d apiKey route →
    ∀ e ∈ cfg.shared.log, e.tid = tid → ∃ op, e.op = .inl op
  /-- The requests are counted in the order of the log, and few enough of each client pass in any minute. -/
  counted : cfg.shared.log.filterMap counted = cfg.shared.world.1.guard.log.map fun x => (x.arrival.request, x.verdict)
  limited : ∀ ip s, cfg.shared.world.1.guard.admittedIn ip s ≤ 2 * effectiveLimit d.env.apiRateLimit

theorem alone (run : Reachable d start cfg) (i : Service) : ∃ origin cfg', (backend d).Mirrors i (start.world i) origin cfg cfg' ∧
    ∀ (k : Nat) c p, cfg'.calls[k]? = some (c, p) → ∃ tid, origin[k]? = some tid ∧ Asked d cfg tid ⟨i, c⟩ := by
  obtain ⟨now, run⟩ := run
  obtain ⟨origin, cfg', mirrors, -⟩ := (backend d).mirrored run i
  refine ⟨origin, cfg', mirrors, fun k c p here => ?_⟩
  have lt : k < origin.length := mirrors.count ▸ (List.getElem?_eq_some_iff.1 here).1
  have number : origin[k]? = some origin[k] := List.getElem?_eq_getElem lt
  obtain ⟨trigger, c', q, call, inner, passed⟩ := mirrors.served k _ number
  obtain ⟨rfl, rfl⟩ := Prod.mk.inj (Option.some.inj (inner.symm.trans here))
  obtain ⟨leads, first⟩ := gate_passed passed
  exact ⟨_, number, trigger, _, call, leads, first⟩

theorem refused (run : Reachable d start cfg) {tid : Nat} {client : Auth.Request} {apiKey : Option Header} {route : Route}
    {p : Prog (GatedOp GuardOp Service.Op) (GatedAns GuardOp.Answer Service.Answer) Failure Answer}
    (call : cfg.calls[tid]? = some (.http client apiKey route, p)) (denied : ¬Entitled d apiKey route) :
    ∀ e ∈ cfg.shared.log, e.tid = tid → ∃ op, e.op = .inl op := by
  obtain ⟨now, run⟩ := run
  rintro ⟨tid, trigger, op, ans⟩ mem rfl
  cases op with
  | inl op => exact ⟨op, rfl⟩
  | inr op =>
    obtain ⟨i, op⟩ := op
    obtain ⟨origin, cfg', mirrors, -⟩ := (backend d).mirrored run i
    obtain ⟨trigger', p', c, call', passed⟩ := mirrors.event mem rfl
    obtain ⟨rfl, -⟩ := Prod.mk.inj (Option.some.inj (call.symm.trans call'))
    exact (denied (gate_passed passed).1.2).elim

/-- **The services behind the guards**, in every reachable configuration of the backend. -/
theorem backend_guarded (run : Reachable d start cfg) : Guarded d start cfg := by
  have counts := counts_run run
  refine ⟨alone run, fun tid client apiKey route p call denied => refused run call denied, counts.log, fun ip s => ?_⟩
  exact (counts.inv.fixed ip).sliding s

end Runs

/-! ## A chosen run -/

/-- What the outside may be made to do: the time a request is counted, and the choices of the mobile money service. -/
inductive Choice where
  | now (t : Timestamp)
  | momo (x : Momo.Choice)

def effect (d : Deployment) : Effect (GatedOp GuardOp Service.Op) (GatedAns GuardOp.Answer Service.Answer)
    (GuardWorld × ∀ i : Service, i.World) Choice
  | .now t, .inl (.canActivate client), w =>
    if w.1.now ≤ t then
      some ((Auth.canActivate d.env.apiRateLimit client t w.1.guard.clients).1, ⟨⟨w.1.guard.handle ⟨d.env.apiRateLimit, client, t⟩, t⟩, w.2⟩)
    else none
  | .momo x, .inr ⟨.momo, op⟩, w =>
    (Momo.effect x op (w.2 .momo)).map fun (ans, momo) => (ans, ⟨w.1, Function.update w.2 .momo momo⟩)
  | _, _, _ => none

theorem effect_exec (d : Deployment) (x : Choice) (op : GatedOp GuardOp Service.Op) (w : GuardWorld × ∀ i : Service, i.World)
    (ans : GatedAns GuardOp.Answer Service.Answer op) (w' : GuardWorld × ∀ i : Service, i.World) (h : effect d x op w = some (ans, w')) :
    (backend d).system.exec op w ans w' := by
  unfold effect at h
  split at h
  · split at h
    · rename_i later
      cases h
      exact ⟨⟨later, rfl, rfl⟩, rfl⟩
    · cases h
  · obtain ⟨⟨a, momo⟩, chosen, same⟩ := Option.map_eq_some_iff.1 h
    cases same
    refine ⟨rfl, ?_, fun j other => Function.update_of_ne other _ _⟩
    show Momo.exec _ (w.2 .momo) ans (Function.update w.2 .momo momo .momo)
    rw [Function.update_self]
    exact Momo.effect_exec _ _ _ _ _ chosen
  · cases h

namespace Sample

/-- In production, with both secrets. -/
def deployment : Deployment :=
  { env := ⟨some "production", some "key", none, some "token"⟩, reconciliationIntervalMs := none, momo := Momo.Sample.deployment true
    rates := Rates.Sample.deployment, payments := Payments.Sample.deployment true }

def start : Start := ⟨.empty, .initial 0, ⟨.empty, 0⟩, .empty⟩

/-- A request for a collection. -/
def charge (ip key : String) : Trigger := .http ⟨some ip, none⟩ (some (.one key)) (.charge .collection Momo.Sample.body)

/-- One client guesses the key, and another has it. -/
def schedule : List (Scheduled Trigger Choice) :=
  [.start (charge "127.0.0.1" "guess"), .start (charge "127.0.0.2" "key"), .act 0 (.now 0), .act 1 (.now 1), .act 1 (.momo .done),
   .act 1 (.momo (.uuid Momo.Sample.referenceId)), .act 1 (.momo (.now 1000)), .act 1 (.momo (.now 1000)), .act 1 (.momo .done)]

def run : Option (backend deployment).Run := (backend deployment).system.replay (effect deployment) schedule
    (.initial (⟨⟨.empty, []⟩, 0⟩, start.world))

/-- The collection is stored. -/
def stored (cfg : (backend deployment).Run) : Bool := (Momo.World.record deployment.momo (cfg.shared.world.2 .momo) Momo.Sample.referenceId).isSome

end Sample

theorem backend_guarded_sample : ∃ cfg, Sample.run = some cfg ∧ Sample.stored cfg = true ∧ Guarded Sample.deployment Sample.start cfg := by
  have ran : Sample.run.any Sample.stored = true := by decide +kernel
  obtain ⟨cfg, ran, stored⟩ := (Option.any_eq_true _ _).1 ran
  exact ⟨cfg, ran, stored, backend_guarded ⟨0, System.replay_steps (effect_exec _) ran⟩⟩

end AfriPay.Server
