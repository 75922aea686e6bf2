import AfriPay.Auth.RateLimitGuard

/-!
# What the rate limit guarantees

Each client's requests are counted in windows that do not overlap, so a minute
meets two of them at most. As long as the table has room, no client's requests
matter to another's.
-/

namespace AfriPay.Auth
open Text Storage Ledger

/-- The requests as they are counted. -/
def counting : Counting Handled := ⟨fun x => x.arrival.now, Handled.window, Handled.admitted⟩

/-- How many requests of a client are admitted from `s` on, within a minute. -/
def Guard.admittedIn (g : Guard) (ip : String) (s : Timestamp) : Nat := counting.admittedIn s windowMs (g.of ip)

/-- The requests come at times that do not decrease, from `t` on, under the limit `L`. -/
structure Steady (L : Nat) (t : Timestamp) (arrivals : List Arrival) : Prop where
  ordered : (arrivals.map Arrival.now).Pairwise (· ≤ ·)
  since : ∀ a ∈ arrivals, t ≤ a.now
  limit : ∀ a ∈ arrivals, effectiveLimit a.apiRateLimit = L

/-- What holds after every request, at any time from then on. -/
structure Inv (L : Nat) (now : Timestamp) (g : Guard) : Prop where
  size : g.clients.size ≤ 10000
  fixed : ∀ ip, counting.Fixed windowMs L (g.of ip)
  /-- The table's count says how many were admitted to a window. -/
  current : ∀ ip c, g.clients.get ip = some c → counting.admittedTo c.reset (g.of ip) = min c.count L
  latest : ∀ ip c, g.clients.get ip = some c → ∀ x ∈ g.of ip, ∀ w, x.window = some w → w = c.reset ∨ w + windowMs ≤ c.reset
  /-- A window that is not over is in the table. -/
  live : ∀ ip, ∀ x ∈ g.of ip, ∀ w, x.window = some w → now < w → ∃ c, g.clients.get ip = some c ∧ c.reset = w
  young : ∀ ip c, g.clients.get ip = some c → c.reset ≤ now + windowMs
  opened : ∀ x ∈ g.log, x.opened = true → x.window = some (x.arrival.now + windowMs)

section Step

variable {L : Nat} {now : Timestamp} {g : Guard} {ip : String} {x : Handled} {c : Client}

theorem Inv.initial (L : Nat) (now : Timestamp) : Inv L now ⟨.empty, []⟩ :=
  ⟨Nat.zero_le _, fun _ => .empty, fun _ _ => nofun, fun _ _ => nofun, fun _ _ => nofun, fun _ _ => nofun, fun _ => nofun⟩

theorem Inv.later {now' : Timestamp} (inv : Inv L now g) (le : now ≤ now') : Inv L now' g :=
  { inv with
    live := fun ip x mem w window lt => inv.live ip x mem w window (Nat.lt_of_le_of_lt le lt)
    young := fun ip c here => Nat.le_trans (inv.young ip c here) (Nat.add_le_add_right le _) }

theorem of_cons_self {clients : Clients} (own : x.ip = ip) : (⟨clients, x :: g.log⟩ : Guard).of ip = x :: g.of ip :=
  List.filter_cons_of_pos (decide_eq_true own)

theorem of_cons_other {clients : Clients} (other : x.ip ≠ ip) : (⟨clients, x :: g.log⟩ : Guard).of ip = g.of ip :=
  List.filter_cons_of_neg (by simpa using other)

/-- What is left in the table was there, and is not over. -/
theorem get_expire_some (h : (expire now g.clients).get ip = some c) : g.clients.get ip = some c ∧ now < c.reset := by
  rw [get_expire, Option.filter_eq_some_iff] at h
  exact ⟨h.1, by simpa using h.2⟩

theorem get_expire_live (h : g.clients.get ip = some c) (lt : now < c.reset) : (expire now g.clients).get ip = some c := by
  rw [get_expire, Option.filter_eq_some_iff]
  exact ⟨h, by simpa using lt⟩

/-- Where no window is left, all windows are over. -/
theorem Inv.over (inv : Inv L now g) (absent : (expire now g.clients).get ip = none) (mem : x ∈ g.of ip) {w : Timestamp}
    (window : x.window = some w) : w ≤ now := by
  by_contra lt
  obtain ⟨c, here, rfl⟩ := inv.live ip x mem w window (not_le.1 lt)
  rw [get_expire_live here (not_le.1 lt)] at absent
  cases absent

/-- Counting a request of `ip` in the window of its client. -/
structure Counts (L : Nat) (now : Timestamp) (g : Guard) (ip : String) (c : Client) : Prop where
  inside : now < c.reset ∧ c.reset ≤ now + windowMs
  latest : ∀ x ∈ g.of ip, ∀ w, x.window = some w → w = c.reset ∨ w + windowMs ≤ c.reset
  current : counting.admittedTo c.reset (g.of ip) = min c.count L

theorem windowMs_pos : 0 < windowMs := by decide

theorem Inv.counts_opened (inv : Inv L now g) (absent : (expire now g.clients).get ip = none) : Counts L now g ip ⟨0, now + windowMs⟩ := by
  refine ⟨⟨Nat.lt_add_of_pos_right windowMs_pos, le_refl _⟩, fun x mem w window => ?_, ?_⟩
  · exact .inr (Nat.add_le_add_right (inv.over absent mem window) _)
  · rw [Nat.zero_min]
    refine List.countP_eq_zero.2 fun x mem here => ?_
    have window : x.window = some (now + windowMs) := of_decide_eq_true (Bool.and_eq_true_iff.1 here).2
    exact absurd (inv.over absent mem window) (not_le.2 (Nat.lt_add_of_pos_right windowMs_pos))

theorem Inv.counts_found (inv : Inv L now g) (found : (expire now g.clients).get ip = some c) : Counts L now g ip c := by
  obtain ⟨here, open'⟩ := get_expire_some found
  exact ⟨⟨open', inv.young ip c here⟩, inv.latest ip c here, inv.current ip c here⟩

/-- A request that is counted nowhere. -/
theorem Inv.idle (inv : Inv L now g) (refused : x.admitted = false) (nowhere : x.window = none) :
    Inv L now ⟨expire now g.clients, x :: g.log⟩ := by
  have own : ∀ ip, ∀ y ∈ (⟨expire now g.clients, x :: g.log⟩ : Guard).of ip, ∀ w, y.window = some w → y ∈ g.of ip := by
    intro ip y mem w window
    obtain ⟨mem, mine⟩ := List.mem_filter.1 mem
    rcases List.mem_cons.1 mem with rfl | mem
    · rw [nowhere] at window
      cases window
    · exact List.mem_filter.2 ⟨mem, mine⟩
  have admitted : ∀ ip w, counting.admittedTo w ((⟨expire now g.clients, x :: g.log⟩ : Guard).of ip) = counting.admittedTo w (g.of ip) := by
    intro ip w
    by_cases mine : x.ip = ip
    · have uncounted : ¬(counting.admitted x = true ∧ counting.window x = some w) := fun h => absurd (refused.symm.trans h.1) Bool.false_ne_true
      rw [of_cons_self mine, Counting.admittedTo_cons, if_neg uncounted, add_zero]
    · rw [of_cons_other mine]
  constructor
  · exact Nat.le_trans (OrderedMap.size_keepWhere_le ..) inv.size
  · intro ip
    by_cases mine : x.ip = ip
    · rw [of_cons_self mine]
      exact (inv.fixed ip).idle refused nowhere
    · rw [of_cons_other mine]
      exact inv.fixed ip
  · intro ip c here
    rw [admitted]
    exact inv.current ip c (get_expire_some here).1
  · intro ip c here y mem w window
    exact inv.latest ip c (get_expire_some here).1 y (own ip y mem w window) w window
  · intro ip y mem w window lt
    obtain ⟨c, here, rfl⟩ := inv.live ip y (own ip y mem w window) w window lt
    exact ⟨c, get_expire_live here lt, rfl⟩
  · intro ip c here
    exact inv.young ip c (get_expire_some here).1
  · intro y mem opened
    rcases List.mem_cons.1 mem with rfl | mem
    · unfold Handled.opened at opened
      rw [nowhere, Option.isSome_none, Bool.and_false] at opened
      cases opened
    · exact inv.opened y mem opened

/-- A request that is counted. -/
theorem Inv.counted {clients : Clients} (inv : Inv L now g) (counts : Counts L now g x.ip c) (time : x.arrival.now = now)
    (here : clients.get x.ip = some { c with count := c.count + 1 }) (others : ∀ j, j ≠ x.ip → clients.get j = (expire now g.clients).get j)
    (size : clients.size ≤ 10000) (window : x.window = some c.reset) (admitted : x.admitted = true ↔ c.count + 1 ≤ L)
    (opened : x.opened = true → c.reset = now + windowMs) : Inv L now ⟨clients, x :: g.log⟩ := by
  have grown : counting.admittedTo c.reset (x :: g.of x.ip) = min (c.count + 1) L := by
    rw [Counting.admittedTo_cons, counts.current]
    by_cases within : c.count + 1 ≤ L
    · rw [if_pos ⟨admitted.2 within, window⟩]
      omega
    · rw [if_neg fun h => within (admitted.1 h.1)]
      omega
  have other : ∀ {ip c'}, ip ≠ x.ip → clients.get ip = some c' → g.clients.get ip = some c' := by
    intro ip c' ne there
    rw [others ip ne] at there
    exact (get_expire_some there).1
  refine ⟨size, fun ip => ?_, fun ip c' there => ?_, fun ip c' there y mem w window' => ?_, fun ip y mem w window' lt => ?_, fun ip c' there => ?_,
    fun y mem opened' => ?_⟩
  · by_cases mine : x.ip = ip
    · subst mine
      rw [of_cons_self rfl]
      refine (inv.fixed x.ip).counted window ?_ counts.latest fun within => ?_
      · show x.arrival.now < _ ∧ _ ≤ x.arrival.now + _
        rw [time]
        exact counts.inside
      · have room := admitted.1 within
        rw [counts.current]
        omega
    · rw [of_cons_other mine]
      exact inv.fixed ip
  · by_cases mine : x.ip = ip
    · subst mine
      obtain rfl := Option.some.inj (here.symm.trans there)
      rw [of_cons_self rfl]
      exact grown
    · rw [of_cons_other mine]
      exact inv.current ip c' (other (Ne.symm mine) there)
  · by_cases mine : x.ip = ip
    · subst mine
      obtain rfl := Option.some.inj (here.symm.trans there)
      rw [of_cons_self rfl] at mem
      rcases List.mem_cons.1 mem with new | old
      · rw [new, window] at window'
        exact .inl (Option.some.inj window').symm
      · exact counts.latest y old w window'
    · rw [of_cons_other mine] at mem
      exact inv.latest ip c' (other (Ne.symm mine) there) y mem w window'
  · by_cases mine : x.ip = ip
    · subst mine
      refine ⟨_, here, ?_⟩
      rw [of_cons_self rfl] at mem
      rcases List.mem_cons.1 mem with new | old
      · rw [new, window] at window'
        exact Option.some.inj window'
      · -- a window that is not over is that of the table, and no other is as late
        rcases counts.latest y old w window' with same | past
        · exact same.symm
        · exact absurd (Nat.le_trans past counts.inside.2) (not_le.2 (Nat.add_lt_add_right lt _))
    · rw [of_cons_other mine] at mem
      obtain ⟨c', there, rfl⟩ := inv.live ip y mem w window' lt
      exact ⟨c', by rw [others ip (Ne.symm mine)]; exact get_expire_live there lt, rfl⟩
  · by_cases mine : x.ip = ip
    · subst mine
      obtain rfl := Option.some.inj (here.symm.trans there)
      exact counts.inside.2
    · exact inv.young ip c' (other (Ne.symm mine) there)
  · rcases List.mem_cons.1 mem with new | old
    · rw [new] at opened' ⊢
      rw [window, time, opened opened']
    · exact inv.opened y old opened'

theorem Inv.handle {a : Arrival} (inv : Inv L now g) (le : now ≤ a.now) (limit : effectiveLimit a.apiRateLimit = L) :
    Inv L a.now (g.handle a) := by
  have inv := inv.later le
  have outcome := canActivate_outcome a.apiRateLimit a.request a.now g.clients
  rw [limit] at outcome
  have next : g.handle a = ⟨(canActivate a.apiRateLimit a.request a.now g.clients).2,
      ⟨a, (canActivate a.apiRateLimit a.request a.now g.clients).1, g.clients,
        (canActivate a.apiRateLimit a.request a.now g.clients).2⟩ :: g.log⟩ := rfl
  rw [next]
  generalize canActivate a.apiRateLimit a.request a.now g.clients = result at outcome
  cases outcome with
  | full absent room => exact inv.idle rfl (congrArg (Option.map Client.reset) absent)
  | @counted verdict after client found answer here others size =>
    have counts : Counts L a.now g a.request.client client := by
      rcases found with found | ⟨absent, -, rfl⟩
      · exact inv.counts_found found
      · exact inv.counts_opened absent
    refine inv.counted (x := ⟨a, verdict, g.clients, after⟩) counts rfl here others ?_ (congrArg (Option.map Client.reset) here) ?_ ?_
    · show after.size ≤ 10000
      have before := inv.size
      omega
    · show verdict.toOption.getD false = true ↔ _
      rw [answer]
      split
      · exact ⟨nofun, fun _ => by omega⟩
      · exact ⟨fun _ => by omega, fun _ => rfl⟩
    · intro opened
      have absent : ((expire a.now g.clients).get a.request.client).isNone = true := (Bool.and_eq_true_iff.1 opened).1
      rcases found with found | ⟨-, -, rfl⟩
      · rw [found] at absent
        cases absent
      · rfl

end Step

theorem Inv.run {L : Nat} {t : Timestamp} {g : Guard} {arrivals : List Arrival} (inv : Inv L t g) (steady : Steady L t arrivals) :
    ∃ now, Inv L now (arrivals.foldl Guard.handle g) := by
  induction arrivals generalizing g t with
  | nil => exact ⟨t, inv⟩
  | cons a arrivals ih =>
    obtain ⟨first, ordered⟩ := List.pairwise_cons.1 steady.ordered
    have since : ∀ b ∈ arrivals, a.now ≤ b.now := fun b mem => first _ (List.mem_map_of_mem mem)
    exact ih (inv.handle (steady.since a List.mem_cons_self) (steady.limit a List.mem_cons_self))
      ⟨ordered, since, fun b mem => steady.limit b (List.mem_cons_of_mem a mem)⟩

/-! ## A client on its own -/

/-- A client's entry after a request of its own, given the one before. -/
def nextClient (now : Timestamp) (client : Option Client) : Client :=
  match client.filter fun value => !decide (value.reset ≤ now) with
  | some client => { client with count := client.count + 1 }
  | none => ⟨1, now + windowMs⟩

/-- A client's entry after requests of its own at these times. -/
def ownClient (times : List Timestamp) : Option Client := times.foldl (fun client now => some (nextClient now client)) none

/-- A request's number in its window, after requests of the same client at these times. -/
def rank (times : List Timestamp) (now : Timestamp) : Nat := (nextClient now (ownClient times)).count

/-- The times of a client's requests. -/
def timesOf (ip : String) (arrivals : List Arrival) : List Timestamp :=
  (arrivals.filter fun a => a.request.client = ip).map Arrival.now

/-- Two entries are the same to every request from `now` on. -/
def SameFrom (now : Timestamp) (c c' : Option Client) : Prop :=
  ∀ t, now ≤ t → (c.filter fun value => !decide (value.reset ≤ t)) = c'.filter fun value => !decide (value.reset ≤ t)

section Own

variable {L : Nat} {now : Timestamp} {g : Guard} {a : Arrival} {c c' : Option Client}

theorem SameFrom.next (same : SameFrom now c c') : nextClient now c = nextClient now c' := by
  unfold nextClient
  rw [same now (le_refl now)]

/-- An entry dropped at `now` or not is the same from then on. -/
theorem SameFrom.expire (now : Timestamp) (c : Option Client) : SameFrom now (c.filter fun value => !decide (value.reset ≤ now)) c := by
  intro t le
  cases c with
  | none => rfl
  | some c =>
    by_cases past : c.reset ≤ now
    · have later : c.reset ≤ t := Nat.le_trans past le
      rw [Option.filter_some_neg (by simpa using past), Option.filter_none, Option.filter_some_neg (by simpa using later)]
    · rw [Option.filter_some_pos (by simpa using past)]

theorem SameFrom.trans {c'' : Option Client} (h : SameFrom now c c') (h' : SameFrom now c' c'') : SameFrom now c c'' :=
  fun t le => (h t le).trans (h' t le)

theorem SameFrom.later {now' : Timestamp} (h : SameFrom now c c') (le : now ≤ now') : SameFrom now' c c' :=
  fun t le' => h t (Nat.le_trans le le')

/-- With room in the table, a request is counted on its client's entry. -/
theorem handle_own (limit : effectiveLimit a.apiRateLimit = L) (room : g.clients.size < 10000) :
    (g.handle a).clients.get a.request.client = some (nextClient a.now (g.clients.get a.request.client)) ∧
      ((canActivate a.apiRateLimit a.request a.now g.clients).1 = .ok true ↔ (nextClient a.now (g.clients.get a.request.client)).count ≤ L) := by
  have outcome := canActivate_outcome a.apiRateLimit a.request a.now g.clients
  rw [limit] at outcome
  show (canActivate a.apiRateLimit a.request a.now g.clients).2.get _ = _ ∧ _
  generalize canActivate a.apiRateLimit a.request a.now g.clients = result at outcome
  cases outcome with
  | full absent full =>
    have smaller : (expire a.now g.clients).size ≤ g.clients.size := OrderedMap.size_keepWhere_le ..
    omega
  | @counted verdict after client found answer here others size =>
    have next : nextClient a.now (g.clients.get a.request.client) = { client with count := client.count + 1 } := by
      unfold nextClient
      rw [← get_expire]
      rcases found with found | ⟨absent, -, rfl⟩
      · rw [found]
      · rw [absent]
    refine ⟨by rw [next]; exact here, ?_⟩
    rw [next, answer]
    show _ ↔ client.count + 1 ≤ L
    split
    · exact ⟨nofun, fun _ => by omega⟩
    · exact ⟨fun _ => by omega, fun _ => rfl⟩

/-- Another client's request at most drops the entry. -/
theorem handle_other {ip : String} (other : ip ≠ a.request.client) :
    (g.handle a).clients.get ip = (g.clients.get ip).filter fun value => !decide (value.reset ≤ a.now) := by
  have outcome := canActivate_outcome a.apiRateLimit a.request a.now g.clients
  show (canActivate a.apiRateLimit a.request a.now g.clients).2.get _ = _
  rw [← get_expire]
  generalize canActivate a.apiRateLimit a.request a.now g.clients = result at outcome
  cases outcome with
  | full absent full => rfl
  | counted found answer here others size => exact others ip other

theorem timesOf_concat_own {ip : String} {before : List Arrival} (own : a.request.client = ip) :
    timesOf ip (before ++ [a]) = timesOf ip before ++ [a.now] := by
  simp [timesOf, own]

theorem timesOf_concat_other {ip : String} {before : List Arrival} (other : a.request.client ≠ ip) :
    timesOf ip (before ++ [a]) = timesOf ip before := by
  simp [timesOf, other]

/-- **The table knows of a client what its own requests say**, as long as there is room. -/
theorem run_own (ip : String) {before : List Arrival} (steady : Steady L 0 before) (room : ∀ p, p <+: before → (Guard.run p).clients.size < 10000)
    (past : ∀ a ∈ before, a.now ≤ now) : SameFrom now ((Guard.run before).clients.get ip) (ownClient (timesOf ip before)) := by
  induction before using List.reverseRecOn generalizing now with
  | nil => exact fun _ _ => rfl
  | append_singleton before a ih =>
    have ordered := steady.ordered
    rw [List.map_append, List.pairwise_append] at ordered
    have earlier : ∀ b ∈ before, b.now ≤ a.now := fun b mem =>
      ordered.2.2 b.now (List.mem_map_of_mem mem) a.now (List.mem_map_of_mem (List.mem_singleton_self a))
    have same := ih ⟨ordered.1, fun b _ => Nat.zero_le _, fun b mem => steady.limit b (List.mem_append_left _ mem)⟩
      (fun p prefix' => room p (prefix'.trans (List.prefix_append ..))) earlier
    have le : a.now ≤ now := past a (List.mem_append_right _ (List.mem_singleton_self a))
    have last : Guard.run (before ++ [a]) = (Guard.run before).handle a := List.foldl_concat ..
    rw [last]
    by_cases own : a.request.client = ip
    · subst own
      obtain ⟨here, -⟩ := handle_own (g := Guard.run before) (steady.limit a (List.mem_append_right _ (List.mem_singleton_self a)))
        (room before (List.prefix_append ..))
      rw [here, timesOf_concat_own rfl, ownClient, List.foldl_concat, same.next]
      exact fun _ _ => rfl
    · rw [handle_other (Ne.symm own), timesOf_concat_other own]
      exact ((SameFrom.expire a.now _).trans same).later le

end Own

/-- What the guard guarantees of a run under the limit `L`. -/
structure RateLimited (L : Nat) (arrivals : List Arrival) : Prop where
  capacity : (Guard.run arrivals).clients.size ≤ 10000
  sliding : ∀ ip s, (Guard.run arrivals).admittedIn ip s ≤ 2 * L
  window : ∀ x ∈ (Guard.run arrivals).log, x.opened = true → (Guard.run arrivals).admittedIn x.ip x.arrival.now ≤ L
  /-- With room in the table so far, a request is admitted when it is among the first `L` of
  its window, which depends on the client's own requests alone. -/
  own : ∀ before a after, arrivals = before ++ a :: after → (∀ p, p <+: before → (Guard.run p).clients.size < 10000) →
    ((canActivate a.apiRateLimit a.request a.now (Guard.run before).clients).1 = .ok true ↔ rank (timesOf a.request.client before) a.now ≤ L)

/-- **The rate limit holds**, for any requests at any times under a constant limit. -/
theorem rate_limited (L : Nat) (arrivals : List Arrival) (steady : Steady L 0 arrivals) : RateLimited L arrivals := by
  obtain ⟨now, inv⟩ := (Inv.initial L 0).run steady
  constructor
  · exact inv.size
  · intro ip s
    exact (inv.fixed ip).sliding s
  · intro x mem opened
    exact (inv.fixed x.ip).from_opening (List.mem_filter.2 ⟨mem, decide_eq_true rfl⟩) (inv.opened x mem opened)
  · rintro before a after rfl room
    have ordered := steady.ordered
    rw [List.map_append, List.pairwise_append] at ordered
    have same := run_own a.request.client (L := L) ⟨ordered.1,
      fun b _ => Nat.zero_le _, fun b mem => steady.limit b (List.mem_append_left _ mem)⟩ room
      fun b mem => ordered.2.2 b.now (List.mem_map_of_mem mem) a.now (List.mem_map_of_mem List.mem_cons_self)
    obtain ⟨-, admitted⟩ := handle_own (steady.limit a (List.mem_append_right _ List.mem_cons_self)) (room before List.prefix_rfl)
    rw [admitted, same.next]
    rfl

namespace Sample

def request (ip : String) (now : Timestamp) : Arrival := ⟨none, ⟨some ip, none⟩, now⟩

/-- Two clients, and a second window for one of them. -/
def arrivals : List Arrival := [request "127.0.0.1" 0, request "127.0.0.2" 5, request "127.0.0.1" 60000]

end Sample

theorem rate_limited_sample : RateLimited 60 Sample.arrivals :=
  rate_limited 60 Sample.arrivals ⟨by decide, fun _ _ => Nat.zero_le _, fun a mem => by
    simp only [Sample.arrivals, List.mem_cons, List.not_mem_nil, or_false] at mem
    rcases mem with rfl | rfl | rfl <;> rfl⟩

end AfriPay.Auth
