import AfriPay.Payments.Creating
import AfriPay.Payments.Submitting

/-!
# Runs of the payment service

Each operation of a call is justified in the sense of `Payments.Settlement`; so all
calls together keep the protocol, in any order (`payments_holds`).
-/

namespace AfriPay.Payments
open Calls Discipline Text Stellar Storage Ledger

/-- The discipline of the payment calls. -/
def discipline (d : Deployment) : Discipline (payments d) where
  Inv := Inv d
  Later := Later d
  Justified := Justified d
  refl := .refl d
  trans := .trans
  step := Inv.step

abbrev Keeps {β : Type} (d : Deployment) (tid : Nat) (c : Call) (Q : β → PaymentState → Prop) (p : PaymentProg β)
    (s : PaymentState) : Prop :=
  (discipline d).Keeps tid c Q p s

abbrev Course {β : Type} (d : Deployment) (tid : Nat) (c : Call) (A : PaymentState → Op → Prop) (Q : β → PaymentState → Prop)
    (E : Exception → PaymentState → Prop) (p : PaymentProg β) (s : PaymentState) : Prop :=
  (discipline d).Course tid c A Q E p s

/-- An entry of the book is that of a stored intent. -/
theorem intent_of_book {d : Deployment} {w : World} {id : String} {e : IntentEntry} (h : w.book d id = some e) :
    ∃ i, w.intent d id = some i ∧ i.entry = e :=
  Option.map_eq_some_iff.1 h

theorem book_of_intent {d : Deployment} {w : World} {id : String} {i : PaymentIntent} (h : w.intent d id = some i) :
    w.book d id = some i.entry := by
  rw [World.book, h]
  rfl

/-- While every request is of the declared type, an intent is bound to a text or to nothing. -/
theorem World.Sound.isHash {d : Deployment} {w : World} (sound : w.Sound) {id : String} {i : PaymentIntent}
    (stored : w.intent d id = some i) : IsHash i.transactionHash := by
  by_cases pool : d.pool = true
  · rw [World.intent_pool pool] at stored
    obtain ⟨r, -, rfl⟩ := Database.holdings_eq_some.1 stored
    have text : r.intent.transactionHash = (r.transactionHash.filter (· ≠ "")).map .str := rfl
    rw [text]
    cases held : r.transactionHash.filter (· ≠ "") with
    | none => exact .inl rfl
    | some hash =>
      obtain ⟨-, nonempty⟩ := Option.filter_eq_some_iff.1 held
      exact .inr ⟨hash, by simpa using nonempty, rfl⟩
  · rw [World.intent_memory pool] at stored
    exact sound.memory.hash id i stored

theorem discipline_onStore (d : Deployment) : OnStore d (discipline d) where
  keyed inv := Inv.sound inv |>.memory.toKeyed
  db inv := Inv.sound inv |>.db
  verified inv stored final := by
    obtain ⟨hash, token, verified⟩ := Inv.verified inv _ _ _ (book_of_intent stored) (outcome_of_final final)
    exact ⟨hash, IsHash.eq_of_hashText token, verified⟩
  retained inv later stored := by
    obtain ⟨e, here, le⟩ := Later.book later _ _ (book_of_intent stored)
    obtain ⟨i', stored', rfl⟩ := intent_of_book here
    refine ⟨i', stored', le.details, fun bound => ?_, fun final => (entry_final (le.outcome _ (outcome_of_final final))).2⟩
    rcases (Inv.sound inv).isHash stored with none | ⟨hash, -, held⟩
    · rw [none] at bound
      cases bound
    · rw [held, IsHash.eq_of_hashText (le.token hash (token_of_hash held))]
  log later := Later.log later

/-! ## The reasons of a call -/

section Reasons

variable {d : Deployment} {tid : Nat} {c : Call} {s : PaymentState} {id : String} {signedXdr : JsString} {op : Op}

theorem lenient_justified (d : Deployment) (tid : Nat) (c : Call) :
    Lenient (fun s op => Justified d s tid c op) fun _ _ => True where
  quiet := .quiet
  calm _ := trivial

/-- A submit claims the hash of an envelope that was accepted for the intent. -/
theorem AcceptedHash.justified {hash : String} (h : AcceptedHash d id signedXdr s hash) (call : c = .submit id signedXdr)
    (claims : op.claims = some (id, hash)) : Justified d s tid c op := by
  obtain ⟨i, tx, here, parsed, rfl⟩ := h
  have claims := op.claims_eq claims
  constructor
  · rintro i rfl; rcases claims with ⟨⟨⟩⟩ | ⟨now, ⟨⟩⟩
  · rintro v rfl; rcases claims with ⟨⟨⟩⟩ | ⟨now, ⟨⟩⟩
  · intro n stores; rcases claims with rfl | ⟨now, rfl⟩ <;> cases stores
  · intro id' hash' claimed
    have same : id = id' ∧ toHex tx.hash = hash' := by
      rcases claims with rfl | ⟨now, rfl⟩ <;> cases claimed <;> exact ⟨rfl, rfl⟩
    obtain ⟨rfl, rfl⟩ := same
    exact ⟨signedXdr, tx, i.entry, call, book_of_intent here, parsed, rfl⟩
  · intro id' hash' status settled; rcases claims with rfl | ⟨now, rfl⟩ <;> cases settled
  · rintro tx' rfl; rcases claims with ⟨⟨⟩⟩ | ⟨now, ⟨⟩⟩

theorem Settler.justified {hash : Json} {status : PaymentStatus} (h : Settler hash status s)
    (settles : op.settles = some (id, hash, status)) : Justified d s tid c op := by
  have settles := op.settles_eq settles
  constructor
  · rintro i rfl; rcases settles with ⟨⟨⟩⟩ | ⟨now, ⟨⟩⟩
  · rintro v rfl; rcases settles with ⟨⟨⟩⟩ | ⟨now, ⟨⟩⟩
  · rintro n stores; rcases settles with rfl | ⟨now, rfl⟩ <;> cases stores
  · intro id' hash' claimed
    rcases settles with rfl | ⟨now, rfl⟩ <;> cases hash <;> cases claimed
  · intro id' hash' status' settled final
    have same : hash = .str hash' ∧ status = status' := by
      rcases settles with rfl | ⟨now, rfl⟩ <;> cases hash <;> cases settled <;> exact ⟨rfl, rfl⟩
    obtain ⟨rfl, rfl⟩ := same
    obtain ⟨text, -, same, verified⟩ := h final
    cases same
    exact verified
  · rintro tx rfl; rcases settles with ⟨⟨⟩⟩ | ⟨now, ⟨⟩⟩

/-- A submit hands its envelope over once its hash is stored. -/
theorem justified_handOver {i : PaymentIntent} {tx : Transaction} (call : c = .submit id signedXdr)
    (here : s.world.intent d id = some i) (held : i.transactionHash = some (.str (toHex tx.hash))) :
    Justified d s tid c (.stellar (.submitTransaction tx)) := by
  constructor
  · rintro i ⟨⟩
  · rintro v ⟨⟩
  · rintro n ⟨⟩
  · rintro id hash ⟨⟩
  · rintro id hash status ⟨⟩
  · rintro tx' ⟨⟩
    exact ⟨id, signedXdr, i.entry, call, book_of_intent here, token_of_hash held⟩

theorem SubmitOp.justified (h : SubmitOp d id signedXdr s op) (call : c = .submit id signedXdr) : Justified d s tid c op := by
  cases h with
  | quiet quiet => exact .quiet quiet
  | claims accepted claims => exact accepted.justified call claims
  | handsOver here parsed held => exact justified_handOver call here held
  | settles accepted settler settles => exact settler.justified settles

/-- A create stores a pending intent without a hash, under an identifier it has drawn. -/
theorem justified_create {i : PaymentIntent} (drawn : Drawn tid i.id s) (pending : i.status = .pending) (unclaimed : i.transactionHash = none)
    (stores : op = .query (.insertIntent (PaymentIntentStore.values i)) ∨ op = .memory (.createIntent i)) : Justified d s tid c op := by
  constructor
  · rintro j rfl; rcases stores with ⟨⟨⟩⟩ | ⟨⟨⟩⟩; exact ⟨unclaimed, pending⟩
  · rintro v rfl; rcases stores with ⟨⟨⟩⟩ | ⟨⟨⟩⟩; exact pending
  · intro n named
    rcases stores with rfl | rfl <;> cases named
    exact drawn
  · intro id hash claimed; rcases stores with rfl | rfl <;> cases claimed
  · intro id hash status settled; rcases stores with rfl | rfl <;> cases settled
  · rintro tx rfl; rcases stores with ⟨⟨⟩⟩ | ⟨⟨⟩⟩

theorem justified_saveLink {link : PaymentLink} (drawn : Drawn tid link.id s) : Justified d s tid c (.memory (.saveLink link)) := by
  constructor
  · rintro i ⟨⟩
  · rintro v ⟨⟩
  · rintro n ⟨⟩; exact drawn
  · rintro id hash ⟨⟩
  · rintro id hash status ⟨⟩
  · rintro tx ⟨⟩

end Reasons

/-! ## All calls -/

/-- What a call that returns has established. -/
def Ensures (d : Deployment) : Call → Returned → PaymentState → Prop
  | .create input, .intent (some saved), s => Created d input.input saved s
  | .createLink input, .link link, s => LinkMade d input link ∧ LinkStored d link s.world
  | .getLink id, .link link, s => s.world.link d id = some link
  | _, _, _ => True

/-- The operations of a submit, as calls of the service. -/
theorem submitOps_course (d : Deployment) (id : String) (signedXdr : JsString) (tid : Nat) (s : PaymentState) :
    Course d tid (.submit id signedXdr) (SubmitOp d id signedXdr) (fun _ _ => True) (Barred d id signedXdr)
      ((payments d).body (.submit id signedXdr)) s :=
  course_map (course_submit (discipline_onStore d) fun _ _ _ _ _ _ _ => trivial)

theorem payments_course (d : Deployment) (tid : Nat) (c : Call) (s : PaymentState) (unstarted : s.own tid = []) :
    Course d tid c (fun s' op => Justified d s' tid c op) (Ensures d c) (fun _ _ => True) ((payments d).body c) s := by
  have lenient := lenient_justified d tid c
  have on := discipline_onStore d
  cases c with
  | create input =>
    exact course_map (course_create on lenient (fun _ _ => trivial) unstarted (fun _ _ _ => justified_create) fun _ _ _ _ created => created)
  | get id => exact course_map (course_get lenient fun _ _ _ _ _ => trivial)
  | submit id signedXdr =>
    exact (submitOps_course d id signedXdr tid s).mono (fun _ _ known => known.justified rfl) fun _ _ _ => trivial
  | reconcile id =>
    exact course_map (course_reconcile on lenient (fun _ _ => trivial) (fun _ _ _ _ settles settler => settler.justified settles)
      fun _ _ _ _ => trivial)
  | createLink input =>
    exact course_map (course_createLink on lenient (fun _ _ => trivial) unstarted (fun _ _ => justified_saveLink)
      fun _ _ _ _ made stored => ⟨made, stored⟩)
  | getLink id =>
    refine course_map (course_getLink lenient (fun _ _ => trivial) fun link s₁ s' _ later _ found => ?_)
    exact Later.links later id link found

theorem payments_sound (d : Deployment) (tid : Nat) (c : Call) (s : PaymentState) (_ : Inv d s) (unstarted : s.own tid = []) :
    Keeps d tid c (Ensures d c) ((payments d).body c) s :=
  keeps_of_course (payments_course d tid c s unstarted)

theorem inv_empty (d : Deployment) : Inv d ⟨.empty, []⟩ := by
  have none : ∀ id, World.empty.book d id = none := by
    intro id
    rw [World.book_eq]
    split <;> rfl
  refine ⟨identified_empty, ⟨⟨⟨?_⟩, ?_⟩, ?_⟩, ?_, ?_, ?_, ?_⟩
  · rintro id i ⟨⟩
  · rintro id i ⟨⟩
  · intro r mem; cases mem
  · intro i j e e' t here; rw [none] at here; cases here
  · intro id e hash here; rw [none] at here; cases here
  · intro id e status here; rw [none] at here; cases here
  · intro e mem; cases mem

/-- The reachable configurations of a deployment that started with empty stores. -/
abbrev Reachable (d : Deployment) (cfg : PaymentConfig) : Prop := (payments d).Steps (.initial .empty) cfg

/-- **All calls keep the discipline**, whatever their number and order. -/
theorem payments_holds {d : Deployment} {cfg : PaymentConfig} (run : Reachable d cfg) :
    (discipline d).protocol.Holds (fun _ => Ensures d) cfg :=
  holds (inv_empty d) (payments_sound d) run

/-- What lies between two configurations of a run. -/
theorem later_of_run {d : Deployment} {cfg cfg' : PaymentConfig} (run : Reachable d cfg) (steps : (payments d).Steps cfg cfg') :
    Later d cfg.shared cfg'.shared :=
  later_of_steps (payments_sound d) (payments_holds run) steps

end AfriPay.Payments
