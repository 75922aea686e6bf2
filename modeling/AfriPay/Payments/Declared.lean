import AfriPay.Calls.Projection
import AfriPay.Payments.Guarantees
import AfriPay.Payments.Routes
import AfriPay.Payments.Undeclared

/-!
# Requests of the declared type

A request of the controller is a call of the service, or it only reads. So as long as
no creation brings along what its body does not declare, or a database drops it, a run
of the open routes is a run of the service over the same store (`declared_run`), and
what the service guarantees holds behind the routes.
-/

namespace AfriPay.Payments
open Calls Text Stellar Storage

/-- The call of the service a request is, once it has passed the checks of the controller. -/
def Route.asCall : Route → Option Call
  | .intents (.create idempotencyKey body) => (checkCreate idempotencyKey body).toOption.map fun (key : String) =>
    .create ⟨(spreadBody body key).payment, some (JsString.text key).json⟩
  | .intents (.get id) => some (.reconcile id)
  | .intents (.buildTransaction _) => none
  | .intents (.submit id envelope) => (stringOf envelope).map (.submit id)
  | .list _ => none
  | .createLink body => (PaymentIntentController.checkLinkBody body).toOption.map .createLink
  | .getLink id => some (.getLink id)

/-- Of the body of a creation the store keeps what it declares. -/
def Route.Declared (d : Deployment) : Route → Prop
  | .intents (.create _ body) => d.pool = true ∨ ∀ name, name ∉ declaredNames → name ∉ overwrittenNames → body name = none
  | _ => True

theorem idle_of_reads (d : Deployment) {op : Op} (reads : op.reads = true) : (routes d).Idle op := by
  intro w ans w' exec
  cases op with
  | randomUUID => cases reads
  | stellar request => exact exec
  | memory op =>
    obtain ⟨m, segment, rfl⟩ := exec
    cases segment with
    | threw failed => rfl
    | ran ok => rw [MemoryOp.run_reads reads ok]
  | query st =>
    obtain ⟨db, queried, rfl⟩ := exec
    cases queried with
    | ran ok => rw [Statement.run_reads reads ok]
    | unanswered ok => rw [Statement.run_reads reads ok]
    | refused failed => rfl
    | unreached => rfl

/-- The properties of a body that it declares. -/
def declaredPart (body : JsonObject) : JsonObject := fun name => if name ∈ declaredNames then body name else none

theorem sameDeclared_part (body : JsonObject) : SameDeclared body (declaredPart body) := fun _ declared => (if_pos declared).symm

theorem spreadBody_part (body : JsonObject) (key : JsString) :
    spreadBody (declaredPart body) key = DeclaredInput.input ⟨(spreadBody body key).payment, some key.json⟩ := by
  have none : extraOf (declaredPart body) = fun _ => none := by
    funext name
    unfold extraOf declaredPart
    split
    · rfl
    · rename_i other
      exact if_neg fun declared => other (.inl declared)
  have hash : declaredPart body "transactionHash" = Option.none := if_neg (by decide)
  unfold spreadBody DeclaredInput.input
  rw [none, hash]
  rfl

theorem create_part {d : Deployment} {body : JsonObject} {idempotencyKey : Option String}
    (declared : (Route.intents (.create idempotencyKey body)).Declared d) :
    PaymentIntentController.create d idempotencyKey body = PaymentIntentController.create d idempotencyKey (declaredPart body) := by
  refine create_congr (sameDeclared_part body) (declared.imp_right fun none name kept => ?_)
  unfold declaredPart
  split
  · rfl
  · rename_i undeclared
    exact none name undeclared kept

theorem checkCreate_part (idempotencyKey : Option String) (body : JsonObject) :
    checkCreate idempotencyKey (declaredPart body) = checkCreate idempotencyKey body := by
  have same := sameDeclared_part body
  have sender := same "sender" (by decide)
  have recipient := same "recipient" (by decide)
  have amount := same "amount" (by decide)
  have asset := same "asset" (by decide)
  simp [checkCreate, sender, recipient, amount, asset]

/-- A request that is no call of the service only reads. -/
theorem reads_route (d : Deployment) {r : Route} (unnamed : r.asCall = none) :
    (PaymentIntentController.route d r).Each fun op _ => op.reads = true := by
  cases r with
  | intents request =>
    refine Prog.each_map ?_
    cases request with
    | create idempotencyKey body =>
      refine Prog.each_map ?_
      unfold PaymentIntentController.create
      cases checked : checkCreate idempotencyKey body with
      | error e => trivial
      | ok key => rw [Route.asCall, checked] at unnamed; cases unnamed
    | get id => cases unnamed
    | buildTransaction id => exact Prog.each_map (reads_buildTransaction d id)
    | submit id envelope =>
      refine Prog.each_map ?_
      unfold PaymentIntentController.submit
      cases given : stringOf envelope with
      | none => exact Prog.each_bind (Prog.each_map (reads_get d id)) fun _ => trivial
      | some signedXdr => rw [Route.asCall, given] at unnamed; cases unnamed
  | list sender => exact Prog.each_map (reads_list d sender)
  | createLink body =>
    refine Prog.each_map ?_
    unfold PaymentIntentController.createLink
    cases checked : PaymentIntentController.checkLinkBody body with
    | error e => trivial
    | ok input => rw [Route.asCall, checked] at unnamed; cases unnamed
  | getLink id => cases unnamed

/-- Any other does what the call does. -/
theorem alike_route {d : Deployment} {r : Route} (declared : r.Declared d) {c : Call} (named : r.asCall = some c) :
    (PaymentIntentController.route d r).Alike ((payments d).body c) := by
  cases r with
  | intents request =>
    cases request with
    | create idempotencyKey body =>
      obtain ⟨key, passed, rfl⟩ := Option.map_eq_some_iff.1 named
      have checked : checkCreate idempotencyKey body = .ok key := by
        cases given : checkCreate idempotencyKey body <;> rw [given] at passed <;> cases passed
        rfl
      show Prog.Alike (RouteResponse.intents <$> (Response.intent ∘ some) <$> PaymentIntentController.create d idempotencyKey body) _
      rw [create_part declared]
      unfold PaymentIntentController.create
      rw [checkCreate_part, checked]
      show Prog.Alike (RouteResponse.intents <$> (Response.intent ∘ some) <$> PaymentIntentService.create d (spreadBody (declaredPart body) key)) _
      rw [spreadBody_part, ← comp_map]
      exact (Prog.Alike.refl _).map _ _
    | get id =>
      cases named
      show Prog.Alike (RouteResponse.intents <$> Response.intent <$> PaymentIntentService.reconcile d id) _
      rw [← comp_map]
      exact (Prog.Alike.refl _).map _ _
    | buildTransaction id => cases named
    | submit id envelope =>
      obtain ⟨signedXdr, given, rfl⟩ := Option.map_eq_some_iff.1 named
      show Prog.Alike (RouteResponse.intents <$> Response.intent <$> PaymentIntentController.submit d id envelope) _
      unfold PaymentIntentController.submit
      rw [given, ← comp_map]
      exact (Prog.Alike.refl _).map _ _
  | list sender => cases named
  | createLink body =>
    obtain ⟨input, passed, rfl⟩ := Option.map_eq_some_iff.1 named
    show Prog.Alike (RouteResponse.link <$> PaymentIntentController.createLink d body) _
    unfold PaymentIntentController.createLink
    cases checked : PaymentIntentController.checkLinkBody body with
    | error e => rw [checked] at passed; cases passed
    | ok input' =>
      rw [checked] at passed
      cases passed
      exact (Prog.Alike.refl _).map _ _
  | getLink id =>
    cases named
    exact (Prog.Alike.refl _).map _ _

theorem seen_route {d : Deployment} {r : Route} (declared : r.Declared d) : System.Seen (routes d) (payments d) r r.asCall := by
  cases named : r.asCall with
  | none => exact .unseen ((reads_route d named).mono fun _ _ => idle_of_reads d)
  | some c => exact .named (alike_route declared named)

section

variable {d : Deployment} {cfg : RouteConfig}

/-- **A run of the open routes is a run of the service**, with the calls that the requests are to it. -/
theorem declared_run (run : Routes.Reachable d cfg) (declared : ∀ call ∈ cfg.calls, call.1.Declared d) :
    ∃ origin cfg', (routes d).Projected (payments d) Route.asCall .empty origin cfg cfg' :=
  System.projected (fun _ _ _ _ exec => exec) run fun call mem => seen_route (declared call mem)

/-- The request hands the envelope over for the intent. -/
def RequestHandsOver (e : RouteEvent) (id : String) (tx : Transaction) : Prop :=
  (∃ signedXdr, e.call.asCall = some (.submit id signedXdr)) ∧ e.op = .stellar (.submitTransaction tx)

/-- No envelope is handed over but in a request to submit it. -/
theorem requestHandsOver_of_op (run : Routes.Reachable d cfg) (declared : ∀ call ∈ cfg.calls, call.1.Declared d) {e : RouteEvent}
    (mem : e ∈ cfg.shared.log) {tx : Transaction} (op : e.op = .stellar (.submitTransaction tx)) : ∃ id, RequestHandsOver e id tx := by
  have each : ∀ r : Route, ((routes d).body r).Each fun op _ => r.asCall = none → op.reads = true := by
    intro r
    by_cases unnamed : r.asCall = none
    · exact (reads_route d unnamed).mono fun _ _ reads _ => reads
    · exact Prog.each_of_all (fun _ _ none => (unnamed none).elim) _
  obtain ⟨origin, cfg', projected⟩ := declared_run run declared
  cases named : e.call.asCall with
  | none =>
    have reads : e.op.reads = true := System.each_logged each run e mem named
    rw [op] at reads
    cases reads
  | some c =>
    obtain ⟨e', mem', call, done⟩ := projected.mem_log mem named
    obtain ⟨id, -, handed, -⟩ := (payments_holds projected.run).inv.handedOver e' mem' tx ((Sigma.mk.inj done).1.trans op)
    obtain ⟨⟨signedXdr, submit⟩, -⟩ := handsOver_iff.1 handed
    exact ⟨id, ⟨signedXdr, by rw [named, ← call, submit]⟩, op⟩

/-- Behind the routes as in the service, what is handed over for one intent has one
hash, and what has one hash is handed over for one intent. -/
theorem declared_broadcast (run : Routes.Reachable d cfg) (declared : ∀ call ∈ cfg.calls, call.1.Declared d) {e e' : RouteEvent}
    (mem : e ∈ cfg.shared.log) (mem' : e' ∈ cfg.shared.log) {id id' : String} {tx tx' : Transaction} (h : RequestHandsOver e id tx)
    (h' : RequestHandsOver e' id' tx') : id = id' ↔ tx.hash = tx'.hash := by
  obtain ⟨origin, cfg', projected⟩ := declared_run run declared
  have found : ∀ {e : RouteEvent} {id tx}, e ∈ cfg.shared.log → RequestHandsOver e id tx → ∃ e' ∈ cfg'.shared.log, HandsOver e' id tx := by
    intro e id tx mem h
    obtain ⟨⟨signedXdr, named⟩, op⟩ := h
    obtain ⟨e', mem', call, done⟩ := projected.mem_log mem named
    exact ⟨e', mem', handsOver_iff.2 ⟨⟨signedXdr, call⟩, (Sigma.mk.inj done).1.trans op⟩⟩
  obtain ⟨f, inLog, handed⟩ := found mem h
  obtain ⟨f', inLog', handed'⟩ := found mem' h'
  have once := no_double_broadcast projected.run
  constructor
  · rintro rfl
    exact once.oneHash f inLog f' inLog' _ _ _ handed handed'
  · exact once.oneIntent f inLog f' inLog' _ _ _ _ handed handed'

end

end AfriPay.Payments
