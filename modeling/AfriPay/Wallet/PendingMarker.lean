import AfriPay.Ledger.Marker
import AfriPay.Ledger.Register
import AfriPay.Wallet.PendingPayment

/-!
# The marker of a pending payment

The stored key marks the one payment that is not resolved, as long as every step
that writes or removes it finds it empty or with the id of the payment the step
is about. The code does not see to that: it checks the key before the review and
does not read it again.
-/

namespace AfriPay.Wallet
open Ledger

/-- The payments sent that no page knows the end of. -/
def Browser.unresolved (b : Browser) : Set String := fun i => i ∈ b.sent ∧ i ∉ b.resolved

/-- The payment for which an event writes or removes the key. -/
def Browser.Event.touches (b : Browser) : Browser.Event → Option String
  | .confirm n true => (b.pages n).bind fun p => if p.sending = false ∧ p.pendingPayment = none then p.review else none
  | .submitted _ id (some status) => if status = "PENDING" then none else some id
  | .checked _ id _ (some status) => if status = "PENDING" then none else some id
  | .finished _ id => some id
  | _ => none

/-- The key is empty or names the payment the event touches it for. -/
def Careful (b : Browser) (e : Browser.Event) : Prop := ∀ id ∈ e.touches b, Guards b.stored id

instance (b : Browser) (e : Browser.Event) : Decidable (Careful b e) :=
  inferInstanceAs (Decidable (∀ id ∈ e.touches b, Guards b.stored id))

/-- The browsers that events with the property `ok` lead to. -/
inductive Run (ok : Browser → Browser.Event → Prop) : Browser → Prop where
  | initial : Run ok .initial
  | step {b b' : Browser} {e : Browser.Event} (run : Run ok b) (here : ok b e) (step : b.step e = some b') : Run ok b'

/-- What holds between two events. -/
structure Inv (b : Browser) : Prop where
  marks : Marks b.stored b.unresolved
  signed : ∀ n p, b.pages n = some p → ∀ i, p.pendingPayment = some i → i ∈ b.sent
  resumed : ∀ n i, (n, .finish i) ∈ b.awaiting → i ∈ b.resolved

namespace Inv

variable {b : Browser} {n : Nat} {p : Mounted} {id : String}

theorem set (inv : Inv b) (signed : ∀ i, p.pendingPayment = some i → i ∈ b.sent) : Inv (b.set n p) := by
  refine ⟨inv.marks, ?_, inv.resumed⟩
  exact Register.forall_update inv.signed signed

theorem await {a : Awaiting} (inv : Inv b) (resumed : ∀ i, a = .finish i → i ∈ b.resolved) : Inv (b.await n a) := by
  refine ⟨inv.marks, inv.signed, ?_⟩
  intro m i mem
  rcases List.mem_cons.1 mem with same | mem
  · cases same
    exact resumed i rfl
  · exact inv.resumed m i mem

theorem answered (inv : Inv b) (x : Nat × Awaiting) : Inv { b with awaiting := b.awaiting.erase x } :=
  ⟨inv.marks, inv.signed, fun m i mem => inv.resumed m i (List.mem_of_mem_erase mem)⟩

theorem resolve (inv : Inv b) (id : String) : Inv (b.resolve id) := by
  refine ⟨inv.marks.mono ?_, inv.signed, fun m i mem => List.mem_cons_of_mem id (inv.resumed m i mem)⟩
  rintro i ⟨sent, unresolved⟩
  exact ⟨sent, fun mem => unresolved (List.mem_cons_of_mem id mem)⟩

theorem removeItem (inv : Inv b) (guard : Guards b.stored id) (resolved : id ∈ b.resolved) : Inv b.removeItem :=
  ⟨inv.marks.clear guard subset_rfl fun unresolved => unresolved.2 resolved, inv.signed, inv.resumed⟩

theorem setItem (inv : Inv b) (guard : Guards b.stored id) : Inv (b.setItem id) :=
  ⟨(inv.marks.write guard).mono (Set.subset_insert id _), inv.signed, inv.resumed⟩

/-! ## The handlers -/

theorem check (inv : Inv b) (here : b.pages n = some p) (unconfirmed : Bool) : Inv (b.check n p unconfirmed) := by
  have signed := inv.signed n p here
  unfold Browser.check
  split
  · exact inv.set signed
  · refine Inv.await (inv.set ?_) ?_
    · exact signed
    · rintro i ⟨⟩

theorem checked {unconfirmed : Bool} {reply : Option String} (inv : Inv b) (here : b.pages n = some p)
    (guard : ∀ status, reply = some status → status ≠ "PENDING" → Guards b.stored id) :
    Inv (b.checked n p id unconfirmed reply) := by
  have signed := inv.signed n p here
  cases reply with
  | none => exact inv.set signed
  | some status =>
    simp only [Browser.checked]
    split
    · exact inv.set signed
    · rename_i terminal
      have removed := (inv.resolve id).removeItem (guard status rfl terminal) List.mem_cons_self
      split
      · refine Inv.await (removed.set signed) ?_
        rintro i ⟨⟩
        exact List.mem_cons_self
      · exact removed.set signed

theorem prepare (inv : Inv b) (here : b.pages n = some p) : Inv (b.prepare n p) := by
  have signed := inv.signed n p here
  unfold Browser.prepare
  split
  · exact inv
  · split
    · exact inv.set signed
    · refine Inv.await (inv.set ?_) ?_
      · exact signed
      · rintro i ⟨⟩

theorem prepared (inv : Inv b) (here : b.pages n = some p) (reply : Option String) : Inv (b.prepared n p reply) := by
  have signed := inv.signed n p here
  cases reply with
  | none => exact inv.set signed
  | some id => exact inv.set signed

/-- Sending an envelope, when the key marks its payment. -/
theorem submit (inv : Inv b) (marks : id ∉ b.resolved → b.stored = some id) : Inv (b.submit n p id) := by
  refine ⟨?_, ?_, ?_⟩
  · rintro i ⟨sent, unresolved⟩
    rcases List.mem_cons.1 sent with rfl | sent
    · exact marks unresolved
    · exact inv.marks i ⟨sent, unresolved⟩
  · refine Register.forall_update (fun m q here i pending => List.mem_cons_of_mem id (inv.signed m q here i pending)) ?_
    rintro i ⟨⟩
    exact List.mem_cons_self
  · intro m i mem
    rcases List.mem_cons.1 mem with ⟨⟨⟩⟩ | mem
    exact inv.resumed m i mem

theorem confirm {signs : Bool} (inv : Inv b) (here : b.pages n = some p)
    (guard : ∀ id, signs = true → p.sending = false → p.pendingPayment = none → p.review = some id → Guards b.stored id) :
    Inv (b.confirm n p signs) := by
  unfold Browser.confirm
  split
  · exact inv
  · rename_i idle
    split
    · exact inv
    · rename_i id review
      split
      · rename_i current signed
        -- a retry: the payment has been sent before
        exact inv.submit fun unresolved => inv.marks current ⟨inv.signed n p here current signed, unresolved⟩
      · rename_i fresh
        split
        · rename_i signs
          have guard := guard id signs (Bool.eq_false_iff.2 idle) fresh review
          exact (inv.setItem guard).submit fun _ => rfl
        · exact inv

theorem finish (inv : Inv b) (guard : Guards b.stored id) (resolved : id ∈ b.resolved) :
    Inv (b.finish n p) := by
  refine Inv.set (inv.removeItem guard resolved) ?_
  rintro i ⟨⟩

theorem submitted {reply : Option String} (inv : Inv b) (here : b.pages n = some p)
    (guard : ∀ status, reply = some status → status ≠ "PENDING" → Guards b.stored id) : Inv (b.submitted n p id reply) := by
  have signed := inv.signed n p here
  cases reply with
  | none => exact inv.set signed
  | some status =>
    simp only [Browser.submitted]
    split
    · exact inv.set signed
    · rename_i terminal
      exact (inv.resolve id).finish (guard status rfl terminal) List.mem_cons_self

end Inv

/-! ## Events -/

theorem act_some {b b' : Browser} {n : Nat} {allowed : Mounted → Bool} {handler : Mounted → Browser}
    (h : b.act n allowed handler = some b') : ∃ p, b.pages n = some p ∧ b' = handler p := by
  obtain ⟨p, here, h⟩ := Option.bind_eq_some_iff.1 h
  split at h
  · cases h
    exact ⟨p, here, rfl⟩
  · cases h

theorem resume_some {b b' : Browser} {n : Nat} {a : Awaiting} {handler : Browser → Mounted → Browser}
    (h : b.resume n a handler = some b') :
    ∃ p, b.pages n = some p ∧ (n, a) ∈ b.awaiting ∧ b' = handler { b with awaiting := b.awaiting.erase (n, a) } p := by
  obtain ⟨p, here, h⟩ := Option.bind_eq_some_iff.1 h
  split at h
  · rename_i waiting
    cases h
    exact ⟨p, here, waiting, rfl⟩
  · cases h

/-- A careful event keeps the invariant. -/
theorem Inv.step {b b' : Browser} {e : Browser.Event} (inv : Inv b) (careful : Careful b e) (h : b.step e = some b') : Inv b' := by
  cases e with
  | mount tab page =>
    cases h
    refine ⟨inv.marks, ?_, inv.resumed⟩
    exact (inv.set (by rintro i ⟨⟩)).signed
  | unmount n =>
    obtain ⟨p, here, rfl⟩ := act_some h
    exact inv.set (inv.signed n p here)
  | refresh tab =>
    cases h
    refine ⟨inv.marks, fun m q here => ?_, fun m i mem => ?_⟩
    · exact inv.signed m q (Option.filter_eq_some_iff.1 here).1
    · exact inv.resumed m i (List.mem_filter.1 mem).1
  | prepare n =>
    obtain ⟨p, here, rfl⟩ := act_some h
    exact inv.prepare here
  | prepared n reply =>
    rw [Browser.step] at h
    obtain ⟨p, here, -, rfl⟩ := resume_some h
    exact (inv.answered _).prepared here reply
  | edit n =>
    obtain ⟨p, here, rfl⟩ := act_some h
    exact inv.set (inv.signed n p here)
  | confirm n signs =>
    obtain ⟨p, here, rfl⟩ := act_some h
    refine inv.confirm here fun id signs idle fresh review => careful id ?_
    subst signs
    simp [Browser.Event.touches, here, idle, fresh, review]
  | submitted n id reply =>
    rw [Browser.step] at h
    obtain ⟨p, here, -, rfl⟩ := resume_some h
    refine (inv.answered _).submitted here fun status received terminal => careful id ?_
    simp [Browser.Event.touches, received, terminal]
  | check n =>
    obtain ⟨p, here, rfl⟩ := act_some h
    exact inv.check here false
  | checkUnconfirmed n =>
    obtain ⟨p, here, rfl⟩ := act_some h
    exact inv.check here true
  | checked n id unconfirmed reply =>
    rw [Browser.step] at h
    obtain ⟨p, here, -, rfl⟩ := resume_some h
    refine (inv.answered _).checked here fun status received terminal => careful id ?_
    simp [Browser.Event.touches, received, terminal]
  | finished n id =>
    rw [Browser.step] at h
    obtain ⟨p, here, waiting, rfl⟩ := resume_some h
    exact (inv.answered _).finish (careful id rfl) (inv.resumed n id waiting)
  | startOver n =>
    obtain ⟨p, here, rfl⟩ := act_some h
    exact inv.set (inv.signed n p here)

/-! ## Runs -/

theorem Run.inv {b : Browser} (h : Run Careful b) : Inv b := by
  induction h with
  | initial =>
    refine ⟨?_, by rintro n p ⟨⟩, by rintro n i ⟨⟩⟩
    rintro i ⟨⟨⟩, -⟩
  | step run careful step inv => exact inv.step careful step

/-- What the key is for. -/
structure MarkerKept (b : Browser) : Prop where
  /-- The key marks a payment that is sent and not resolved. -/
  stored : ∀ i, i ∈ b.sent → i ∉ b.resolved → b.stored = some i
  /-- There is one such payment at most. -/
  single : ∀ i j, i ∈ b.sent → i ∉ b.resolved → j ∈ b.sent → j ∉ b.resolved → i = j

/-- **Careful events never lose the marker.** -/
theorem marker_kept {b : Browser} (h : Run Careful b) : MarkerKept b :=
  ⟨fun i sent unresolved => h.inv.marks i ⟨sent, unresolved⟩,
    fun _ _ sent unresolved sent' unresolved' => h.inv.marks.subsingleton ⟨sent, unresolved⟩ ⟨sent', unresolved'⟩⟩

/-- Carelessness always loses the marker of a payment that is not resolved. -/
theorem careless_loses {b b' : Browser} {e : Browser.Event} {i : String} (stored : b.stored = some i) (sent : i ∈ b.sent)
    (unresolved : i ∉ b.resolved) (careless : ¬Careful b e) (h : b.step e = some b') : ¬MarkerKept b' := by
  intro kept
  obtain ⟨id, touched, unguarded⟩ : ∃ id, e.touches b = some id ∧ ¬Guards b.stored id := by
    by_contra none
    exact careless fun id touched => by_contra fun unguarded => none ⟨id, touched, unguarded⟩
  have other : i ≠ id := by
    rintro rfl
    exact unguarded (.inr stored)
  have still : i ∉ id :: b.resolved := by
    rintro mem
    rcases List.mem_cons.1 mem with same | mem
    · exact other same
    · exact unresolved mem
  cases e with
  | confirm n signs =>
    rw [Browser.step] at h
    obtain ⟨p, here, rfl⟩ := act_some h
    cases signs with
    | false => cases touched
    | true =>
      simp only [Browser.Event.touches, here, Option.bind_some, Option.ite_none_right_eq_some] at touched
      obtain ⟨⟨idle, fresh⟩, review⟩ := touched
      simp only [Browser.confirm, idle, review, fresh, Bool.false_eq_true, if_false, if_true] at kept
      exact other (Option.some.inj (kept.stored i (List.mem_cons_of_mem id sent) unresolved)).symm
  | submitted n id' reply =>
    rw [Browser.step] at h
    obtain ⟨p, here, -, rfl⟩ := resume_some h
    cases reply with
    | none => cases touched
    | some status =>
      simp only [Browser.Event.touches, Option.ite_none_left_eq_some, Option.some.injEq] at touched
      obtain ⟨terminal, rfl⟩ := touched
      simp only [Browser.submitted, terminal, if_false] at kept
      cases kept.stored i sent still
  | checked n id' unconfirmed reply =>
    rw [Browser.step] at h
    obtain ⟨p, here, -, rfl⟩ := resume_some h
    cases reply with
    | none => cases touched
    | some status =>
      simp only [Browser.Event.touches, Option.ite_none_left_eq_some, Option.some.injEq] at touched
      obtain ⟨terminal, rfl⟩ := touched
      simp only [Browser.checked, terminal, if_false] at kept
      cases unconfirmed with
      | false => cases kept.stored i sent still
      | true => cases kept.stored i sent still
  | finished n id' =>
    rw [Browser.step] at h
    obtain ⟨p, here, -, rfl⟩ := resume_some h
    cases kept.stored i sent unresolved
  | mount | unmount | refresh | prepare | prepared | edit | check | checkUnconfirmed | startOver => cases touched

/-! ## Runs that lose it -/

/-- Where a list of events leads, as long as each has the property `ok`. -/
def Browser.replay (ok : Browser → Browser.Event → Prop) [∀ b e, Decidable (ok b e)] : List Browser.Event → Browser → Option Browser
  | [], b => some b
  | e :: es, b => if ok b e then (b.step e).bind (Browser.replay ok es) else none

theorem Run.replay {ok : Browser → Browser.Event → Prop} [∀ b e, Decidable (ok b e)] {b b' : Browser} {es : List Browser.Event}
    (run : Run ok b) (h : Browser.replay ok es b = some b') : Run ok b' := by
  induction es generalizing b with
  | nil => cases h; exact run
  | cons e es ih =>
    rw [Browser.replay] at h
    split at h
    · rename_i here
      obtain ⟨mid, step, rest⟩ := Option.bind_eq_some_iff.1 h
      exact ih (run.step here step) rest
    · cases h

namespace Sample

/-- A payment is resolved through the notice before another one is made. -/
def careful : List Browser.Event :=
  [.mount 0 .send, .prepare 0, .prepared 0 (some "a"), .confirm 0 true, .submitted 0 "a" (some "PENDING"), .refresh 0, .mount 0 .send,
    .prepare 1, .check 1, .checked 1 "a" false (some "SUCCEEDED"), .prepare 1, .prepared 1 (some "b"), .confirm 1 true]

/-- Two tabs have prepared a payment each before either is confirmed. -/
def twoTabs : List Browser.Event :=
  [.mount 0 .send, .mount 1 .send, .prepare 0, .prepared 0 (some "a"), .prepare 1, .prepared 1 (some "b"), .confirm 0 true, .confirm 1 true]

/-- In one tab, a check of `a` is answered after a retry of `a` has succeeded and `b` has been sent; then `c` is signed. -/
def oneTab : List Browser.Event :=
  [.mount 0 .send, .prepare 0, .prepared 0 (some "a"), .confirm 0 true, .submitted 0 "a" (some "PENDING"), .checkUnconfirmed 0,
    .confirm 0 true, .submitted 0 "a" (some "SUCCEEDED"), .startOver 0, .prepare 0, .prepared 0 (some "b"), .confirm 0 true,
    .checked 0 "a" true (some "SUCCEEDED"), .finished 0 "a", .submitted 0 "b" (some "PENDING"), .startOver 0, .prepare 0,
    .prepared 0 (some "c"), .confirm 0 true]

end Sample

theorem marker_kept_careful : ∃ b, Run Careful b ∧ b.sent = ["b", "a"] ∧ b.resolved = ["a"] ∧ MarkerKept b := by
  have ran : (Browser.replay Careful Sample.careful .initial).any (fun b => b.sent = ["b", "a"] ∧ b.resolved = ["a"]) = true := by
    decide +kernel
  obtain ⟨b, ran, lists⟩ := (Option.any_eq_true _ _).1 ran
  have run : Run Careful b := Run.initial.replay ran
  obtain ⟨sent, resolved⟩ := of_decide_eq_true lists
  exact ⟨b, run, sent, resolved, marker_kept run⟩

/-- Two payments are open in these runs, with two tabs and with a single one. -/
theorem marker_lost :
    (∃ b, Browser.replay (fun _ _ => True) Sample.twoTabs .initial = some b ∧ Run (fun _ _ => True) b ∧ ¬MarkerKept b) ∧
      ∃ b, Browser.replay (fun _ _ => True) Sample.oneTab .initial = some b ∧ Run (fun _ _ => True) b ∧ ¬MarkerKept b := by
  constructor
  · have ran : (Browser.replay (fun _ _ => True) Sample.twoTabs .initial).any (fun b => b.sent = ["b", "a"] ∧ b.resolved = []) = true := by
      decide +kernel
    obtain ⟨b, ran, lists⟩ := (Option.any_eq_true _ _).1 ran
    obtain ⟨sent, resolved⟩ := of_decide_eq_true lists
    refine ⟨b, ran, Run.initial.replay ran, fun kept => ?_⟩
    have same := kept.single "a" "b" (by simp [sent]) (by simp [resolved]) (by simp [sent]) (by simp [resolved])
    exact absurd same (by decide)
  · have ran : (Browser.replay (fun _ _ => True) Sample.oneTab .initial).any
        (fun b => b.sent = ["c", "b", "a", "a"] ∧ b.resolved = ["a", "a"]) = true := by
      decide +kernel
    obtain ⟨b, ran, lists⟩ := (Option.any_eq_true _ _).1 ran
    obtain ⟨sent, resolved⟩ := of_decide_eq_true lists
    refine ⟨b, ran, Run.initial.replay ran, fun kept => ?_⟩
    have same := kept.single "b" "c" (by simp [sent]) (by simp [resolved]) (by simp [sent]) (by simp [resolved])
    exact absurd same (by decide)

end AfriPay.Wallet
