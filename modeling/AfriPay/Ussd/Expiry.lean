import AfriPay.Ussd.Controller

/-!
# Sessions expire on their own clock, unless someone else calls in between

What a session is answered should follow from its own requests: the menu, or that
it is over. Its entry is what tells, and any other caller's request drops an entry
that is over. `answered_iff` says when that goes unnoticed.
-/

namespace AfriPay.Ussd
open Text Storage

/-! ## What a session is to be answered -/

/-- More than five minutes since then. -/
def overdue (seen : Option Timestamp) (now : Timestamp) : Bool := seen.any fun last => decide (sessionMs < now - last)

/-- The last request answered by the menu, after one more; a session that is told it is over starts anew. -/
def seenAfter (seen : Option Timestamp) (now : Timestamp) : Option Timestamp := if overdue seen now then none else some now

/-- The same, after requests at these times. -/
def lastSeen (seen : Option Timestamp) (times : List Timestamp) : Option Timestamp := times.foldl seenAfter seen

/-- When the session's own well-formed requests came. -/
def ownTimes (s : JsString) (arrivals : List Arrival) : List Timestamp := (arrivals.filter fun a => a.session = some s).map Arrival.now

/-- What a request is to be answered, given when its session was last seen. -/
def Arrival.expected (a : Arrival) (seen : Option Timestamp) : Except Exception String :=
  match accept a.body with
  | .error answer => answer
  | .ok (_, _, text) => .ok (if overdue seen a.now then sessionExpired else menu text)

/-- A well-formed request of another session. -/
def Arrival.Foreign (s : JsString) (a : Arrival) : Prop := ∃ k, a.session = some k ∧ k ≠ s

/-- Every request but those of other sessions is answered as the session's own requests say. -/
def Answered (s : JsString) (sessions : Sessions) (seen : Option Timestamp) (arrivals : List Arrival) : Prop :=
  ∀ before a after, arrivals = before ++ a :: after → ¬a.Foreign s →
    a.response (tableAfter sessions before) = a.expected (lastSeen seen (ownTimes s before))

/-- Once the session is overdue, a request of another session is never followed by one of its own. -/
def Undisturbed (s : JsString) (seen : Option Timestamp) (arrivals : List Arrival) : Prop :=
  ∀ before o after, arrivals = before ++ o :: after → o.Foreign s → overdue (lastSeen seen (ownTimes s before)) o.now = true →
    ∀ a ∈ after, a.session ≠ some s

theorem overdue_later {seen : Option Timestamp} {earlier now : Timestamp} (le : earlier ≤ now) (past : overdue seen earlier = true) :
    overdue seen now = true := by
  cases seen with
  | none => cases past
  | some last =>
    have less : sessionMs < earlier - last := of_decide_eq_true past
    exact decide_eq_true (Nat.lt_of_lt_of_le less (Nat.sub_le_sub_right le last))

/-- The menu never says that the session is over. -/
theorem menu_ne_expired (text : Option JsString) : menu text ≠ sessionExpired := by
  have sendMoney (input : List JsString) : handleSendMoney input ≠ sessionExpired := by
    unfold handleSendMoney
    repeat' split
    all_goals decide
  unfold menu
  split
  · decide
  · split
    · exact sendMoney _
    all_goals decide

/-! ## One request -/

section One

variable {α : Type} {P : List α → α → List α → Prop} {x : α} {xs : List α}

/-- What holds wherever a list is split holds at its head and wherever its tail is split. -/
theorem splits_cons : (∀ before a after, x :: xs = before ++ a :: after → P before a after) ↔
    P [] x xs ∧ ∀ before a after, xs = before ++ a :: after → P (x :: before) a after := by
  constructor
  · intro all
    exact ⟨all [] x xs rfl, fun before a after split => all (x :: before) a after (congrArg (x :: ·) split)⟩
  · rintro ⟨head, tail⟩ before a after split
    cases before with
    | nil =>
      obtain ⟨rfl, rfl⟩ := List.cons.inj split
      exact head
    | cons y before =>
      obtain ⟨rfl, rest⟩ := List.cons.inj split
      exact tail before a after rest

variable {s : JsString} {sessions : Sessions} {seen : Option Timestamp} {a : Arrival} {arrivals : List Arrival}

theorem ownTimes_cons_own (own : a.session = some s) : ownTimes s (a :: arrivals) = a.now :: ownTimes s arrivals := by
  simp [ownTimes, own]

theorem ownTimes_cons_other (other : a.session ≠ some s) : ownTimes s (a :: arrivals) = ownTimes s arrivals := by
  simp [ownTimes, other]

theorem accepted_of_session (own : a.session = some s) : ∃ text, a.accepted = some (s, text) := by
  obtain ⟨found, accepted, rfl⟩ := Option.map_eq_some_iff.1 own
  exact ⟨found.2, accepted⟩

theorem expected_accepted {text : Option JsString} (accepted : a.accepted = some (s, text)) (seen : Option Timestamp) :
    a.expected seen = .ok (if overdue seen a.now then sessionExpired else menu text) := by
  unfold Arrival.accepted at accepted
  unfold Arrival.expected
  cases found : accept a.body with
  | error answer =>
    rw [found] at accepted
    cases accepted
  | ok request =>
    rw [found] at accepted
    cases accepted
    rfl

/-- A request that is not well-formed is answered whatever came before. -/
theorem response_refused (refused : a.session = none) (sessions : Sessions) (seen : Option Timestamp) :
    a.response sessions = a.expected seen := by
  have none' : a.accepted = none := Option.map_eq_none_iff.1 refused
  unfold Arrival.accepted at none'
  unfold Arrival.response Arrival.expected handleUssd
  cases found : accept a.body with
  | error answer => rfl
  | ok request =>
    rw [found] at none'
    cases none'

theorem any_stale (sessions : Sessions) (s : JsString) (now : Timestamp) :
    (sessions.get s).any (·.stale now) = overdue ((sessions.get s).map UssdSession.updatedAt) now := by
  cases sessions.get s <;> rfl

theorem not_foreign_own (own : a.session = some s) : ¬a.Foreign s := by
  rintro ⟨k, session, other⟩
  exact other (Option.some.inj (session.symm.trans own))

theorem not_foreign_refused (refused : a.session = none) : ¬a.Foreign s := by
  rintro ⟨k, session, -⟩
  rw [refused] at session
  cases session

/-- Another session's request drops the entry of a session that is over. -/
theorem next_foreign_over (foreign : a.Foreign s) (past : overdue ((sessions.get s).map UssdSession.updatedAt) a.now = true) :
    (Arrival.next sessions a).get s = none := by
  obtain ⟨k, session, other⟩ := foreign
  rw [next_other session other.symm]
  cases here : sessions.get s with
  | none => rfl
  | some entry =>
    rw [here] at past
    exact Option.filter_some_neg (by rw [show entry.stale a.now = true from past]; rfl)

/-- It leaves any other as it is. -/
theorem next_foreign_on (foreign : a.Foreign s) (on : ¬overdue ((sessions.get s).map UssdSession.updatedAt) a.now = true) :
    (Arrival.next sessions a).get s = sessions.get s := by
  obtain ⟨k, session, other⟩ := foreign
  rw [next_other session other.symm]
  cases here : sessions.get s with
  | none => rfl
  | some entry =>
    rw [here] at on
    exact Option.filter_some_pos (by rw [show entry.stale a.now = false from Bool.not_eq_true _ ▸ on]; rfl)

/-! ## Runs, one request at a time -/

theorem answered_cons_other (other : a.session ≠ some s) (answered : ¬a.Foreign s → a.response sessions = a.expected seen) :
    Answered s sessions seen (a :: arrivals) ↔ Answered s (Arrival.next sessions a) seen arrivals := by
  unfold Answered
  rw [splits_cons]
  simp only [ownTimes_cons_other other]
  exact and_iff_right answered

theorem undisturbed_cons_other (other : a.session ≠ some s) (unnoticed : a.Foreign s → overdue seen a.now = true →
    ∀ b ∈ arrivals, b.session ≠ some s) :
    Undisturbed s seen (a :: arrivals) ↔ Undisturbed s seen arrivals := by
  unfold Undisturbed
  rw [splits_cons]
  simp only [ownTimes_cons_other other]
  exact and_iff_right unnoticed

theorem answered_cons_own (own : a.session = some s) (answered : a.response sessions = a.expected seen) :
    Answered s sessions seen (a :: arrivals) ↔ Answered s (Arrival.next sessions a) (seenAfter seen a.now) arrivals := by
  unfold Answered
  rw [splits_cons]
  simp only [ownTimes_cons_own own]
  exact and_iff_right fun _ => answered

theorem undisturbed_cons_own (own : a.session = some s) :
    Undisturbed s seen (a :: arrivals) ↔ Undisturbed s (seenAfter seen a.now) arrivals := by
  unfold Undisturbed
  rw [splits_cons]
  simp only [ownTimes_cons_own own]
  exact and_iff_right fun foreign => (not_foreign_own own foreign).elim

/-- A session without further requests has no answer to be wrong. -/
theorem answered_silent (silent : ∀ a ∈ arrivals, a.session ≠ some s) : Answered s sessions seen arrivals := by
  rintro before a after rfl near
  have other := silent a (List.mem_append_right _ List.mem_cons_self)
  refine response_refused ?_ ..
  cases session : a.session with
  | none => rfl
  | some k => exact (near ⟨k, session, fun same => other (session.trans (congrArg some same))⟩).elim

/-- Nor can it be disturbed. -/
theorem undisturbed_silent (silent : ∀ a ∈ arrivals, a.session ≠ some s) : Undisturbed s seen arrivals := by
  rintro before o after rfl - - a mem
  exact silent a (List.mem_append_right _ (List.mem_cons_of_mem _ mem))

end One

/-! ## Whole runs -/

/-- There is room in the table at all times. -/
def Roomy (sessions : Sessions) (arrivals : List Arrival) : Prop := ∀ before, before <+: arrivals → (tableAfter sessions before).size < 10000

theorem Roomy.head {sessions : Sessions} {arrivals : List Arrival} (room : Roomy sessions arrivals) : sessions.size < 10000 := room [] List.nil_prefix

theorem Roomy.tail {sessions : Sessions} {a : Arrival} {arrivals : List Arrival} (room : Roomy sessions (a :: arrivals)) :
    Roomy (Arrival.next sessions a) arrivals := fun before initial => room (a :: before) ((List.prefix_cons_inj a).2 initial)

/-- **An entry lost too early**: the session is overdue and its next request is not told so. -/
theorem not_answered_of_lost {s : JsString} {seen : Option Timestamp} {arrivals : List Arrival} {sessions : Sessions} (lost : sessions.get s = none)
    (room : Roomy sessions arrivals) (past : ∀ a ∈ arrivals, overdue seen a.now = true) (own : ∃ a ∈ arrivals, a.session = some s) :
    ¬Answered s sessions seen arrivals := by
  induction arrivals generalizing sessions with
  | nil => simp at own
  | cons a arrivals ih =>
    intro answered
    by_cases here : a.session = some s
    · obtain ⟨text, accepted⟩ := accepted_of_session here
      have response := (response_accepted accepted room.head).1
      have told := answered [] a arrivals rfl (not_foreign_own here)
      have late : overdue (lastSeen seen (ownTimes s [])) a.now = true := past a List.mem_cons_self
      rw [expected_accepted accepted, if_pos late] at told
      rw [lost] at response
      exact menu_ne_expired text (Except.ok.inj (response.symm.trans told))
    · have later : ∃ b ∈ arrivals, b.session = some s := by
        obtain ⟨b, mem, own⟩ := own
        rcases List.mem_cons.1 mem with rfl | mem
        · exact (here own).elim
        · exact ⟨b, mem, own⟩
      have still : (Arrival.next sessions a).get s = none := by
        cases session : a.session with
        | none => rw [next_refused (Option.map_eq_none_iff.1 session), lost]
        | some k => rw [next_other session fun same => here (session.trans (congrArg some same.symm)), lost, Option.filter_none]
      refine ih still room.tail (fun b mem => past b (List.mem_cons_of_mem _ mem)) later ?_
      exact (answered_cons_other here (answered [] a arrivals rfl)).1 answered

/-- From a table that knows when the session was last seen. -/
theorem answered_iff_of_sync {s : JsString} {seen : Option Timestamp} {arrivals : List Arrival} {sessions : Sessions}
    (sync : (sessions.get s).map UssdSession.updatedAt = seen) (ordered : (arrivals.map Arrival.now).Pairwise (· ≤ ·))
    (room : Roomy sessions arrivals) :
    Answered s sessions seen arrivals ↔ Undisturbed s seen arrivals := by
  induction arrivals generalizing sessions seen with
  | nil => exact iff_of_true (answered_silent (by simp)) (undisturbed_silent (by simp))
  | cons a arrivals ih =>
    rw [List.map_cons, List.pairwise_cons] at ordered
    cases session : a.session with
    | none =>
      have other : a.session ≠ some s := fun own => by
        rw [session] at own
        cases own
      rw [answered_cons_other other fun _ => response_refused session .., undisturbed_cons_other other fun foreign =>
        (not_foreign_refused session foreign).elim]
      have same : Arrival.next sessions a = sessions := next_refused (Option.map_eq_none_iff.1 session)
      exact ih (by rw [same, sync]) ordered.2 room.tail
    | some k =>
      by_cases own : k = s
      · subst own
        obtain ⟨text, accepted⟩ := accepted_of_session session
        obtain ⟨response, now⟩ := response_accepted accepted room.head
        rw [any_stale, show (sessions.get k).map UssdSession.updatedAt = seen from sync] at response now
        rw [answered_cons_own session (response.trans (expected_accepted accepted seen).symm), undisturbed_cons_own session]
        exact ih now ordered.2 room.tail
      · have other : a.session ≠ some s := fun same => own (Option.some.inj (session.symm.trans same))
        have foreign : a.Foreign s := ⟨k, session, own⟩
        rw [answered_cons_other other fun near => (near foreign).elim]
        by_cases past : overdue seen a.now = true
        · -- the entry goes, so the session must not call again
          have lost := next_foreign_over foreign (sync ▸ past)
          by_cases silent : ∀ b ∈ arrivals, b.session ≠ some s
          · exact iff_of_true (answered_silent silent) ((undisturbed_cons_other other fun _ _ => silent).2 (undisturbed_silent silent))
          · refine iff_of_false (not_answered_of_lost lost room.tail ?_ (by simpa using silent)) fun undisturbed =>
              silent (undisturbed [] a arrivals rfl foreign past)
            exact fun b mem => overdue_later (ordered.1 b.now (List.mem_map_of_mem mem)) past
        · rw [undisturbed_cons_other other fun _ past' => (past past').elim]
          have kept := next_foreign_on foreign (sync ▸ past)
          exact ih (by rw [kept, sync]) ordered.2 room.tail

/-- **When a session is answered by its own requests alone**, for any requests in order
that never fill the table: exactly when no other session calls between the session's end
and its next request. -/
theorem answered_iff (s : JsString) (arrivals : List Arrival) (ordered : (arrivals.map Arrival.now).Pairwise (· ≤ ·)) (room : Roomy .empty arrivals) :
    Answered s .empty none arrivals ↔ Undisturbed s none arrivals := answered_iff_of_sync rfl ordered room

namespace Sample

def request (sessionId text : String) (now : Timestamp) : Arrival := ⟨some ⟨some (.str sessionId), none, some (.str text)⟩, now⟩

/-- The abandoned session of the unit test, with nobody else calling. -/
def quiet : List Arrival := [request "expiry" "1" 0, request "expiry" "1*0812345678" 300001]

/-- The same with another caller just before. -/
def busy : List Arrival := [request "expiry" "1" 0, request "other" "" 300001, request "expiry" "1*0812345678" 300001]

/-- Two sessions by turns: the other one calls while this one is on, and again when it has been told that it is over. -/
def shared : List Arrival :=
  [request "expiry" "1" 0, request "other" "4" 200000, request "expiry" "1*0812345678" 500001, request "other" "" 600000]

theorem busy_roomy : Roomy .empty busy := fun before initial =>
  (show ∀ p ∈ busy.inits, (tableAfter .empty p).size < 10000 by decide +kernel) before ((List.mem_inits ..).2 initial)

theorem shared_roomy : Roomy .empty shared := fun before initial =>
  (show ∀ p ∈ shared.inits, (tableAfter .empty p).size < 10000 by decide +kernel) before ((List.mem_inits ..).2 initial)

/-- The session is not overdue at the other one's first request, and is never seen again at its second. -/
theorem shared_undisturbed : Undisturbed "expiry" none shared := by
  have all : ∀ before ∈ shared.inits, (shared.drop before.length).head?.all (fun o =>
      !overdue (lastSeen none (ownTimes "expiry" before)) o.now || decide (o.session = some (.text "expiry")) ||
        (shared.drop (before.length + 1)).all fun a => decide (a.session ≠ some (.text "expiry"))) = true := by
    decide +kernel
  intro before o after parts foreign past a mem
  have here := all before ((List.mem_inits ..).2 ⟨o :: after, parts.symm⟩)
  have rest : shared.drop before.length = o :: after := by rw [parts, List.drop_left]
  have later : shared.drop (before.length + 1) = after := by rw [← List.tail_drop, rest, List.tail_cons]
  obtain ⟨k, session, other⟩ := foreign
  have apart : k ≠ .text "expiry" := other
  rw [rest, later] at here
  simp only [List.head?_cons, Option.all_some, past, session, Bool.not_true, Bool.false_or, Option.some.injEq, apart, decide_false,
    List.all_eq_true, decide_eq_true_eq] at here
  exact here a mem

end Sample

/-- Each request of the shared run is answered as its own session says. -/
theorem answered_iff_sample : Answered "expiry" .empty none Sample.shared :=
  (answered_iff "expiry" Sample.shared (by decide) Sample.shared_roomy).2 Sample.shared_undisturbed

/-- With another caller in between, the session that is over goes on as if it were not. -/
theorem expired_session_resumed : (Sample.busy.map Arrival.now).Pairwise (· ≤ ·) ∧ Roomy .empty Sample.busy ∧
    (Sample.request "expiry" "1*0812345678" 300001).response (tableAfter .empty (Sample.quiet.take 1)) = .ok sessionExpired ∧
    (Sample.request "expiry" "1*0812345678" 300001).response (tableAfter .empty (Sample.busy.take 2)) = .ok "CON Enter amount:" ∧
    ¬Answered "expiry" .empty none Sample.busy := by
  have resumed : (Sample.request "expiry" "1*0812345678" 300001).response (tableAfter .empty (Sample.busy.take 2)) = .ok "CON Enter amount:" := by
    decide +kernel
  refine ⟨by decide, Sample.busy_roomy, by decide +kernel, resumed, fun answered => ?_⟩
  have told := answered (Sample.busy.take 2) (Sample.request "expiry" "1*0812345678" 300001) [] rfl (not_foreign_own (by decide +kernel))
  rw [resumed] at told
  revert told
  decide +kernel

end AfriPay.Ussd
