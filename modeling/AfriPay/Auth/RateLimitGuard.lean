import AfriPay.Ledger.FixedWindow
import AfriPay.Storage.OrderedMap
import AfriPay.Text.Js

/-!
# The rate limit (`auth/rate-limit.guard.ts`)

Requests are counted by client in windows of a minute. A request opens a window
when its client has none left, and whoever's request it is, it drops the windows
that are over. Requests that are refused count as well.
-/

namespace AfriPay.Auth
open Text Storage

/-- An entry of `clients`. -/
structure Client where
  count : Nat
  reset : Timestamp
  deriving DecidableEq

abbrev Clients := OrderedMap String Client

/-- What the guard reads of a request. -/
structure Request where
  ip : Option String
  /-- `request.socket?.remoteAddress` -/
  remoteAddress : Option String

structure HttpException where
  message : String
  status : Nat
  deriving DecidableEq

def Request.client (request : Request) : String := (request.ip.orElse fun _ => request.remoteAddress).getD "unknown"

/-- The limit that `process.env.API_RATE_LIMIT` sets: a positive whole number, or 60. -/
def effectiveLimit (apiRateLimit : Option String) : Nat :=
  match apiRateLimit.map stringToNumber with
  | some (.finite q) => if q.den = 1 ∧ 0 < q then q.num.toNat else 60
  | _ => 60

/-- A minute, in milliseconds. -/
def windowMs : Nat := 60000

/-- The loop that drops windows. -/
def expire (now : Timestamp) (clients : Clients) : Clients := clients.keepWhere fun value => !decide (value.reset ≤ now)

/-- `++client.count > limit`, for a client in the table. -/
def countRequest (limit : Nat) (ip : String) (client : Client) (clients : Clients) : Except HttpException Bool × Clients :=
  let client := { client with count := client.count + 1 }
  (if limit < client.count then .error ⟨"Too many requests; retry later", 429⟩ else .ok true, clients.set ip client)

def canActivate (apiRateLimit : Option String) (request : Request) (now : Timestamp) (clients : Clients) :
    Except HttpException Bool × Clients :=
  let ip := request.client
  let clients := expire now clients
  let limit := effectiveLimit apiRateLimit
  match clients.get ip with
  | some client => countRequest limit ip client clients
  | none =>
    if 10000 ≤ clients.size then (.error ⟨"Request capacity exceeded", 429⟩, clients)
    else
      let client : Client := { count := 0, reset := now + windowMs }
      countRequest limit ip client (clients.set ip client)

/-! ## Runs of one guard -/

/-- A request with its time and the setting it meets. -/
structure Arrival where
  apiRateLimit : Option String
  request : Request
  now : Timestamp

/-- A request that was handled, with the tables before and after. -/
structure Handled where
  arrival : Arrival
  verdict : Except HttpException Bool
  before : Clients
  after : Clients

def Handled.ip (x : Handled) : String := x.arrival.request.client

def Handled.admitted (x : Handled) : Bool := x.verdict.toOption.getD false

/-- The time at which the window closes that the request was counted in. -/
def Handled.window (x : Handled) : Option Timestamp := (x.after.get x.ip).map Client.reset

/-- The request found no window of its client and opened one. -/
def Handled.opened (x : Handled) : Bool := ((expire x.arrival.now x.before).get x.ip).isNone && x.window.isSome

/-- The guard's table, and the requests it has handled, newest first. -/
structure Guard where
  clients : Clients
  log : List Handled

def Guard.handle (g : Guard) (a : Arrival) : Guard :=
  let (verdict, clients) := canActivate a.apiRateLimit a.request a.now g.clients
  ⟨clients, ⟨a, verdict, g.clients, clients⟩ :: g.log⟩

/-- A guard that has handled these requests, oldest first. -/
def Guard.run (arrivals : List Arrival) : Guard := arrivals.foldl Guard.handle ⟨.empty, []⟩

/-- The requests of a client. -/
def Guard.of (g : Guard) (ip : String) : List Handled := g.log.filter fun x => x.ip = ip

/-! ## What one request does -/

section Step

variable {setting : Option String} {request : Request} {now : Timestamp} {clients : Clients}

theorem get_expire (now : Timestamp) (clients : Clients) (ip : String) :
    (expire now clients).get ip = (clients.get ip).filter fun value => !decide (value.reset ≤ now) := OrderedMap.get_keepWhere ..

/-- A request is refused for want of room in the table, or counted. -/
inductive Outcome (limit : Nat) (ip : String) (now : Timestamp) (clients : Clients) : Except HttpException Bool × Clients → Prop where
  | full (absent : (expire now clients).get ip = none) (room : 10000 ≤ (expire now clients).size) :
      Outcome limit ip now clients (.error ⟨"Request capacity exceeded", 429⟩, expire now clients)
  | counted {verdict : Except HttpException Bool} {after : Clients} {client : Client}
      (found : (expire now clients).get ip = some client ∨
        ((expire now clients).get ip = none ∧ (expire now clients).size < 10000 ∧ client = ⟨0, now + windowMs⟩))
      (answer : verdict = if limit < client.count + 1 then .error ⟨"Too many requests; retry later", 429⟩ else .ok true)
      (here : after.get ip = some { client with count := client.count + 1 })
      (others : ∀ j, j ≠ ip → after.get j = (expire now clients).get j)
      (size : after.size ≤ 10000 ∨ after.size ≤ clients.size) : Outcome limit ip now clients (verdict, after)

theorem canActivate_outcome (setting : Option String) (request : Request) (now : Timestamp) (clients : Clients) :
    Outcome (effectiveLimit setting) request.client now clients (canActivate setting request now clients) := by
  unfold canActivate
  dsimp only
  cases found : (expire now clients).get request.client with
  | some client =>
    refine .counted (.inl found) rfl (OrderedMap.get_set_self ..) (fun j ne => OrderedMap.get_set_ne _ _ ne) (.inr ?_)
    rw [OrderedMap.size_set_present found]
    exact OrderedMap.size_keepWhere_le ..
  | none =>
    dsimp only
    split
    · rename_i full
      exact .full found full
    · rename_i room
      refine .counted (.inr ⟨found, not_le.1 room, rfl⟩) rfl (OrderedMap.get_set_self ..) (fun j ne => ?_) (.inl ?_)
      · rw [OrderedMap.get_set_ne _ _ ne, OrderedMap.get_set_ne _ _ ne]
      · rw [OrderedMap.size_set_present (OrderedMap.get_set_self ..)]
        have grown := OrderedMap.size_set_le (expire now clients) request.client ⟨0, now + windowMs⟩
        omega

end Step

end AfriPay.Auth
