import AfriPay.Payments.Amendments
import AfriPay.Payments.Controller
import AfriPay.Payments.Creating
import AfriPay.Payments.Submitting

/-!
# The open routes of the payments

Requests as they arrive, of whatever shape. The body of a creation may name a
transaction hash, and the in-memory branch keeps it, so less holds here than in
`Payments.Settlement`: identifiers are drawn once, and an intent that is stored
keeps its payment, a hash it is bound to and a final status, which Horizon has
given for this hash (`routes_holds`).
-/

namespace AfriPay.Payments
open Calls Discipline Text Stellar Storage

abbrev RouteState := StoreState Route
abbrev RouteConfig := Config Route Op Op.Answer Exception RouteResponse World
abbrev RouteEvent := Event Route Op Op.Answer

theorem Amended.retains {op : Op} {id : String} {i i' : PaymentIntent} (h : Amended op id i i') : i'.Retains i := by
  cases h with
  | same => exact .refl i
  | @claimed hash updatedAt _ free =>
    refine ⟨rfl, fun bound => ?_, fun _ => rfl⟩
    rcases free with free | held
    · rw [free] at bound
      cases bound
    · exact held.symm
  | settled _ _ pending => exact ⟨rfl, fun _ => rfl, fun final => (final pending).elim⟩

theorem Memory.Keyed.run {m m' : Memory} {op : MemoryOp} {a : op.Answer} (keyed : m.Keyed) (h : op.run m = .ok (a, m')) : m'.Keyed := by
  have stays : ∀ {id i}, m'.intents = m.intents.set id i → i.id = id → m'.Keyed := by
    intro id i set key
    exact ⟨fun j i' stored => (keyed.set key).key j i' (by rwa [set] at stored)⟩
  rcases MemoryOp.run_intents h with same | ⟨i, -, -, set⟩ | ⟨id, i, i', -, found, ⟨hash, status, updatedAt, rfl⟩, set⟩
  · exact ⟨fun id i stored => keyed.key id i (by rwa [same] at stored)⟩
  · exact stays set rfl
  · exact stays set (keyed.key id i found)

theorem exec_keyed {d : Deployment} {op : Op} {w w' : World} {ans : op.Answer} (h : exec d op w ans w') (keyed : w.memory.Keyed) :
    w'.memory.Keyed := by
  cases op with
  | randomUUID => rw [h.2]; exact keyed
  | stellar request => rw [show w' = w from h]; exact keyed
  | query s => obtain ⟨db, -, rfl⟩ := h; exact keyed
  | memory op =>
    obtain ⟨m, segment, rfl⟩ := h
    cases segment with
    | ran ok => exact keyed.run ok
    | threw failed => exact keyed

/-! ## Requests that only read -/

section Reads

variable (d : Deployment)

theorem reads_query {st : Statement} (reads : (Op.query st).reads = true) : (query st).Each fun op _ => op.reads = true :=
  Prog.each_await_bind reads fun _ => Prog.each_ofExcept _

theorem reads_inMemory {op : MemoryOp} (reads : (Op.memory op).reads = true) : (inMemory op).Each fun op _ => op.reads = true :=
  Prog.each_await_bind reads fun _ => Prog.each_ofExcept _

theorem reads_get (id : String) : (PaymentIntentService.get d id).Each fun op _ => op.reads = true := by
  refine Prog.each_bind (Prog.each_ite (fun _ => ?_) fun _ => ?_) fun found => ?_
  · exact Prog.each_bind (reads_query rfl) fun _ => trivial
  · exact reads_inMemory rfl
  · cases found <;> trivial

theorem reads_list (sender : Option QueryValue) : (PaymentIntentService.list d sender).Each fun op _ => op.reads = true := by
  apply Prog.each_ite
  · intro _
    exact Prog.each_bind (reads_query rfl) fun _ => trivial
  · intro _
    exact reads_inMemory rfl

theorem reads_buildTransaction (id : String) : (PaymentIntentController.buildTransaction d id).Each fun op _ => op.reads = true := by
  refine Prog.each_bind (reads_get d id) fun intent => Prog.each_ite (fun _ => trivial) fun _ => ?_
  refine Prog.each_embed ?_
  refine Prog.each_ofExcept_bind fun _ _ => Prog.each_bind (Prog.each_map (Prog.each_ofExcept _)) fun _ => ?_
  refine Prog.each_await_bind rfl fun now => Prog.each_await_bind rfl fun snapshot => ?_
  cases snapshot with
  | ok snapshot => exact Prog.each_ofExcept _
  | error e => cases e <;> trivial

end Reads

namespace Routes

/-- What holds between two operations. -/
structure Inv (d : Deployment) (s : RouteState) : Prop extends Identified s where
  keyed : s.world.memory.Keyed
  db : s.world.db.Sound
  verified : ∀ id i, s.world.intent d id = some i → i.status ≠ .pending →
    ∃ hash, hash ≠ "" ∧ i.transactionHash = some (.str hash) ∧ Verified s.log hash i.status

/-- What a call has to know when it issues an operation. -/
structure Justified (s : RouteState) (tid : Nat) (op : Op) : Prop where
  create : ∀ i, op = .memory (.createIntent i) → i.status = .pending
  insert : ∀ v, op = .query (.insertIntent v) → v.status = .pending
  stores : ∀ n, op.stores = some n → Drawn tid n s
  claims : ∀ id hash, op.claims = some (id, hash) → hash ≠ ""
  settles : ∀ id hash status, op.settles = some (id, hash, status) → Settler hash status s

/-- How the shared state moves on. -/
structure Later (d : Deployment) (s s' : RouteState) : Prop where
  intents : ∀ id i, s.world.intent d id = some i → ∃ i', s'.world.intent d id = some i' ∧ i'.Retains i
  log : s.log <:+ s'.log

theorem Later.refl (d : Deployment) (s : RouteState) : Later d s s := ⟨fun _ i stored => ⟨i, stored, .refl i⟩, List.suffix_refl _⟩

theorem Later.trans {d : Deployment} {s₁ s₂ s₃ : RouteState} (h : Later d s₁ s₂) (h' : Later d s₂ s₃) : Later d s₁ s₃ := by
  refine ⟨fun id i stored => ?_, h.log.trans h'.log⟩
  obtain ⟨i₂, stored₂, retains⟩ := h.intents id i stored
  obtain ⟨i₃, stored₃, retains'⟩ := h'.intents id i₂ stored₂
  exact ⟨i₃, stored₃, retains.trans retains'⟩

theorem inv_empty (d : Deployment) : Inv d ⟨.empty, []⟩ := by
  refine ⟨identified_empty, ⟨?_⟩, ?_, ?_⟩
  · rintro id i ⟨⟩
  · intro r mem; cases mem
  · intro id i stored
    unfold World.intent at stored
    split at stored <;> cases stored

/-! ## One operation -/

section Step

variable {d : Deployment} {s s' : RouteState} {tid : Nat} {c : Route} {op : Op} {ans : op.Answer}

/-- A justified operation makes of a stored intent what it claims or settles, or nothing. -/
theorem Inv.amended (inv : Inv d s) (just : Justified s tid op) (does : (routes d).Does s ⟨tid, c, op, ans⟩ s') {id : String}
    {i : PaymentIntent} (stored : s.world.intent d id = some i) : ∃ i', s'.world.intent d id = some i' ∧ Amended op id i i' := by
  have fresh : ∀ j, op = .memory (.createIntent j) → s.world.memory.intents.get j.id = none := by
    rintro j rfl
    exact (inv.unused (just.stores _ rfl)).1
  exact exec_amended inv.db fresh just.claims does.1 stored

theorem Justified.proper {st : Statement} (just : Justified s tid (.query st)) : Op.Proper s.world.memory (.query st) := by
  cases st with
  | insertIntent v => exact just.insert v rfl
  | claimHash id hash => exact just.claims id hash rfl
  | _ => trivial

theorem Inv.exec_db (inv : Inv d s) (just : Justified s tid op) {w : World} (exec : exec d op s.world ans w) : w.db.Sound := by
  cases op with
  | randomUUID => rw [exec.2]; exact inv.db
  | stellar request => rw [show w = s.world from exec]; exact inv.db
  | memory op => obtain ⟨m, -, rfl⟩ := exec; exact inv.db
  | query st =>
    have proper := just.proper
    obtain ⟨db, queried, rfl⟩ := exec
    cases queried with
    | ran ok => exact (Database.run_may inv.db proper ok).1
    | unanswered ok => exact (Database.run_may inv.db proper ok).1
    | refused failed => exact inv.db
    | unreached => exact inv.db

theorem Inv.step (inv : Inv d s) (just : Justified s tid op) (does : (routes d).Does s ⟨tid, c, op, ans⟩ s') : Inv d s' ∧ Later d s s' := by
  have log : s'.log = ⟨tid, c, op, ans⟩ :: s.log := does.2
  have exec : exec d op s.world ans s'.world := does.1
  have grows : ∀ e ∈ s.log, e ∈ s'.log := fun e mem => log ▸ List.mem_cons_of_mem _ mem
  refine ⟨⟨inv.toIdentified.step just.stores exec log, exec_keyed exec inv.keyed, inv.exec_db just exec, ?_⟩, ?later⟩
  case later =>
    refine ⟨fun id i stored => ?_, log ▸ List.suffix_cons _ _⟩
    obtain ⟨i', stored', amended⟩ := inv.amended just does stored
    exact ⟨i', stored', amended.retains⟩
  intro id i stored final
  cases before : s.world.intent d id with
  | none =>
    cases exec_origin exec stored with
    | continued earlier _ => rw [before] at earlier; cases earlier
    | added opened =>
      -- what is opened is pending
      cases opened with
      | inMemory => exact (final (just.create i rfl)).elim
      | @inserted v => exact (final (just.insert v rfl)).elim
  | some i₀ =>
    obtain ⟨i', stored', amended⟩ := inv.amended just does before
    obtain rfl : i = i' := Option.some.inj (stored.symm.trans stored')
    cases amended with
    | same =>
      obtain ⟨hash, nonempty, held, verified⟩ := inv.verified id i before final
      exact ⟨hash, nonempty, held, verified.mono grows⟩
    | claimed _ free =>
      obtain ⟨hash, nonempty, held, verified⟩ := inv.verified id i₀ before final
      rw [truthy_hash held nonempty, held] at free
      obtain same := free.resolve_left (by simp)
      exact ⟨hash, nonempty, same.symm, verified.mono grows⟩
    | settled settles held _ =>
      obtain ⟨text, nonempty, rfl, verified⟩ := just.settles _ _ _ settles final
      obtain ⟨v, held, same⟩ := (Option.any_eq_true _ _).1 held
      obtain rfl := Json.eq_of_str_same same
      exact ⟨text, nonempty, held, verified.mono grows⟩

end Step

/-- The discipline of the open routes. -/
def discipline (d : Deployment) : Discipline (routes d) where
  Inv := Inv d
  Later := Later d
  Justified s tid _ op := Justified s tid op
  refl := .refl d
  trans := .trans
  step := Inv.step

theorem discipline_onStore (d : Deployment) : OnStore d (discipline d) where
  keyed inv := Inv.keyed inv
  db inv := Inv.db inv
  verified inv stored final := by
    obtain ⟨hash, -, held, verified⟩ := Inv.verified inv _ _ stored final
    exact ⟨hash, held, verified⟩
  retained _ later stored := Later.intents later _ _ stored
  log later := Later.log later

/-! ## The reasons of a request -/

section Reasons

variable {s : RouteState} {tid : Nat} {op : Op}

theorem justified_quiet (quiet : op.quiet = true) : Justified s tid op := by
  obtain ⟨idle, unsettling, none, -⟩ := op.quiet_spec quiet
  constructor
  · rintro i rfl; cases quiet
  · rintro v rfl; cases quiet
  · intro n stored; rw [none] at stored; cases stored
  · intro id hash claims; rcases op.claims_eq claims with rfl | ⟨now, rfl⟩ <;> cases quiet
  · intro id hash status settles; rw [unsettling] at settles; cases settles

theorem lenient (tid : Nat) : Lenient (fun s op => Justified s tid op) fun _ _ => True where
  quiet := justified_quiet
  calm _ := trivial

theorem justified_claims {id hash : String} (nonempty : hash ≠ "") (claims : op.claims = some (id, hash)) : Justified s tid op := by
  constructor
  · rintro i rfl; cases claims
  · rintro v rfl; cases claims
  · intro n stores; rcases op.claims_eq claims with rfl | ⟨now, rfl⟩ <;> cases stores
  · intro id' hash' claims'
    obtain ⟨rfl, rfl⟩ := Prod.mk.inj (Option.some.inj (claims.symm.trans claims'))
    exact nonempty
  · intro id' hash' status settles; rcases op.claims_eq claims with rfl | ⟨now, rfl⟩ <;> cases settles

theorem justified_settles {id : String} {hash : Json} {status : PaymentStatus} (settler : Settler hash status s)
    (settles : op.settles = some (id, hash, status)) : Justified s tid op := by
  constructor
  · rintro i rfl; cases settles
  · rintro v rfl; cases settles
  · intro n stores; rcases op.settles_eq settles with rfl | ⟨now, rfl⟩ <;> cases stores
  · intro id' hash' claims; rcases op.settles_eq settles with rfl | ⟨now, rfl⟩ <;> cases claims
  · intro id' hash' status' settles'
    obtain ⟨-, same⟩ := Prod.mk.inj (Option.some.inj (settles.symm.trans settles'))
    obtain ⟨rfl, rfl⟩ := Prod.mk.inj same
    exact settler

/-- What is stored is stored pending, under an identifier its call has drawn. -/
theorem justified_create {i : PaymentIntent} (drawn : Drawn tid i.id s) (pending : i.status = .pending)
    (stores : op = .query (.insertIntent (PaymentIntentStore.values i)) ∨ op = .memory (.createIntent i)) : Justified s tid op := by
  constructor
  · rintro j rfl; rcases stores with ⟨⟨⟩⟩ | ⟨⟨⟩⟩; exact pending
  · rintro v rfl; rcases stores with ⟨⟨⟩⟩ | ⟨⟨⟩⟩; exact pending
  · intro n named
    rcases stores with rfl | rfl <;> cases named
    exact drawn
  · intro id hash claims; rcases stores with rfl | rfl <;> cases claims
  · intro id hash status settles; rcases stores with rfl | rfl <;> cases settles

theorem justified_saveLink {link : PaymentLink} (drawn : Drawn tid link.id s) : Justified s tid (.memory (.saveLink link)) := by
  constructor
  · rintro i ⟨⟩
  · rintro v ⟨⟩
  · rintro n ⟨⟩; exact drawn
  · rintro id hash ⟨⟩
  · rintro id hash status ⟨⟩

theorem justified_handOver {tx : Transaction} : Justified s tid (.stellar (.submitTransaction tx)) := by
  constructor
  · rintro i ⟨⟩
  · rintro v ⟨⟩
  · rintro n ⟨⟩
  · rintro id hash ⟨⟩
  · rintro id hash status ⟨⟩

theorem justified_submit {d : Deployment} {id : String} {signedXdr : JsString} (h : SubmitOp d id signedXdr s op) : Justified s tid op := by
  cases h with
  | quiet quiet => exact justified_quiet quiet
  | claims accepted claims => exact justified_claims accepted.nonempty claims
  | handsOver => exact justified_handOver
  | settles _ settler settles => exact justified_settles settler settles

end Reasons

/-! ## All requests -/

section Requests

variable {d : Deployment} {tid : Nat} {r : Route} {s : RouteState}

/-- The rest of a request keeps the discipline of the routes. -/
abbrev Course {β : Type} (d : Deployment) (tid : Nat) (r : Route) (p : PaymentProg β) (s : RouteState) : Prop :=
  (discipline d).Course tid r (fun s' op => Justified s' tid op) (fun _ _ => True) (fun _ _ => True) p s

/-- What only reads keeps it. -/
theorem course_of_reads {β : Type} {p : PaymentProg β} (reads : p.Each fun op _ => op.reads = true) : Course d tid r p s := by
  induction p generalizing s with
  | ret a => trivial
  | fail e => trivial
  | act op next ih => exact fun s₁ _ => ⟨justified_quiet (op.quiet_of_reads reads.1), fun ans s₂ _ _ _ _ => ih ans (reads.2 ans)⟩

theorem course_handle (unstarted : s.own tid = []) (request : HttpRequest) : Course d tid r (PaymentIntentController.handle d request) s := by
  have on := discipline_onStore d
  have calm := lenient tid
  cases request with
  | create idempotencyKey body =>
    refine course_map (course_bind (course_ofExcept (fun key checked => ?_) fun _ _ => trivial))
    exact course_create on calm (fun _ _ => trivial) unstarted (fun _ _ _ drawn pending _ => justified_create drawn pending)
      fun _ _ _ _ _ => trivial
  | get id =>
    exact course_map (course_reconcile on calm (fun _ _ => trivial) (fun _ _ _ _ settles settler => justified_settles settler settles)
      fun _ _ _ _ => trivial)
  | buildTransaction id => exact course_map (course_of_reads (reads_buildTransaction d id))
  | submit id envelope =>
    apply course_map
    unfold PaymentIntentController.submit
    cases stringOf envelope with
    | some signedXdr =>
      exact (course_submit on fun _ _ _ _ _ _ _ => trivial).mono (fun _ _ known => justified_submit known) fun _ _ _ => trivial
    | none => exact course_of_reads (Prog.each_bind (Prog.each_map (reads_get d id)) fun _ => trivial)

theorem course_route (unstarted : s.own tid = []) : Course d tid r (PaymentIntentController.route d r) s := by
  have on := discipline_onStore d
  have calm := lenient tid
  cases r with
  | intents request => exact course_map (course_handle unstarted request)
  | list sender => exact course_map (course_of_reads (reads_list d sender))
  | createLink body =>
    refine course_map (course_bind (course_ofExcept (fun input checked => ?_) fun _ _ => trivial))
    exact course_createLink on calm (fun _ _ => trivial) unstarted (fun _ _ => justified_saveLink) fun _ _ _ _ _ _ => trivial
  | getLink id => exact course_map (course_getLink calm (fun _ _ => trivial) fun _ _ _ _ _ _ _ => trivial)

end Requests

/-- The reachable configurations of a deployment that started with empty stores. -/
abbrev Reachable (d : Deployment) (cfg : RouteConfig) : Prop := (routes d).Steps (.initial .empty) cfg

theorem routes_sound (d : Deployment) (tid : Nat) (r : Route) (s : RouteState) (_ : Inv d s) (unstarted : s.own tid = []) :
    (discipline d).Keeps tid r (fun _ _ => True) ((routes d).body r) s :=
  keeps_of_course (course_route unstarted)

/-- **All requests keep the discipline**, whatever their bodies, number and order. -/
theorem routes_holds {d : Deployment} {cfg : RouteConfig} (run : Reachable d cfg) :
    (discipline d).protocol.Holds (fun _ _ _ _ => True) cfg :=
  holds (inv_empty d) (routes_sound d) run

/-- What lies between two configurations of a run. -/
theorem later_of_run {d : Deployment} {cfg cfg' : RouteConfig} (run : Reachable d cfg) (steps : (routes d).Steps cfg cfg') :
    Later d cfg.shared cfg'.shared :=
  later_of_steps (routes_sound d) (routes_holds run) steps

end Routes

end AfriPay.Payments
