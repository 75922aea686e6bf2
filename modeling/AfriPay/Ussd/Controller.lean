import AfriPay.Exception
import AfriPay.Storage.OrderedMap
import AfriPay.Text.Js

/-!
# The USSD menu (`ussd/ussd.controller.ts`)

A session is known by its identifier and lasts five minutes from its last
request. Every request drops the sessions of all callers that are over; a caller
whose own is over is told so. The menu looks at the request's text alone.
-/

namespace AfriPay.Ussd
open Text Storage

/-- `UssdRequestBody`, as it comes. -/
structure UssdRequestBody where
  sessionId : Option Json
  phoneNumber : Option Json
  text : Option Json

structure UssdSession where
  sessionId : JsString
  phoneNumber : Option Json
  updatedAt : Timestamp
  completed : Bool

abbrev Sessions := OrderedMap JsString UssdSession

/-! ## The menu -/

def welcome : String := "CON Welcome to AfriPay\n1. Send Money\n2. Check Balance\n3. Transaction History\n4. Help"

def invalidInput : String := "END Invalid input. Please start again."

def serviceBusy : String := "END Service busy. Please try later."

def sessionExpired : String := "END Session expired. Please dial again."

/-- `/^\+?[0-9]{7,15}$/.test(s)` -/
def isRecipient : JsString → Bool
  | .text s =>
    let digits := match s.toList with
      | '+' :: digits => digits
      | digits => digits
    digits.all Char.isDigit && decide (7 ≤ digits.length) && decide (digits.length ≤ 15)
  | .lone _ => false

/-- `/^\d+(\.\d{1,2})?$/.test(s)`; no text has more digits than characters. -/
def isAmount : JsString → Bool
  | .text s => matchesDecimal s.toList.length 2 s
  | .lone _ => false

def handleSendMoney : List JsString → String
  | [_] => "CON Enter recipient number:"
  | [_, recipient] => if isRecipient recipient then "CON Enter amount:" else "END Invalid recipient number. Please start again."
  | [_, _, amount] =>
    if !isAmount amount || (toNumber (some amount.json)).nonpositive then "END Invalid amount. Please start again."
    else "END USSD payments are not connected. No transfer was initiated. Never enter a mobile-money PIN here."
  | [_, _, _, _] => "END USSD payments are not connected. No transfer was initiated."
  | _ => invalidInput

/-- `text ? text.split('*') : []` -/
def inputOf (text : Option JsString) : List JsString :=
  match text with
  | none => []
  | some text => if text = .text "" then [] else (text.units.splitOn 0x2A).map .ofUnits

/-- What the menu answers to an accepted text. -/
def menu (text : Option JsString) : String :=
  if text.getD "" = .text "" then welcome
  else match (inputOf text).head? with
    | some (.text "1") => handleSendMoney (inputOf text)
    | some (.text "2") => "END Balance: NGN 0.00 (demo — connect a wallet or MoMo account to view live balance)"
    | some (.text "3") => "END Transaction history is unavailable until a verified account is connected."
    | some (.text "4") => "END AfriPay Help\nDial *123# to send money, check balance, or view history.\nSupport: support@afripay.io"
    | _ => "END Invalid option. Dial again and choose 1-4."

/-! ## Sessions -/

/-- Five minutes, in milliseconds. -/
def sessionMs : Nat := 5 * 60 * 1000

/-- The session is over. -/
def UssdSession.stale (session : UssdSession) (now : Timestamp) : Bool := decide (sessionMs < now - session.updatedAt)

/-- The loop that drops sessions. -/
def expire (now : Timestamp) (sessions : Sessions) : Sessions := sessions.keepWhere fun session => !session.stale now

/-- The text of a request, if it is accepted: absent, or a string of at most 256 units. -/
def textOf : Option Json → Option (Option JsString)
  | none => some none
  | some v => match stringOf (some v) with
    | some text => if utf16Length text ≤ 256 then some (some text) else none
    | none => none

/-- `body.sessionId?.trim() || 'anonymous'`, which throws for a value without `trim`. -/
def sessionIdOf : Option Json → Except Exception JsString
  | none | some .null => .ok "anonymous"
  | some v => match stringOf (some v) with
    | some sessionId => .ok (if sessionId.trim = .text "" then "anonymous" else sessionId.trim)
    | none => .error (.error "body.sessionId?.trim is not a function")

/-- The session and the text of a well-formed request; what any other is answered. -/
def accept : Option UssdRequestBody → Except (Except Exception String) (JsString × Option Json × Option JsString)
  | none => .error (.ok invalidInput)
  | some body => match textOf body.text with
    | none => .error (.ok invalidInput)
    | some text => match sessionIdOf body.sessionId with
      | .error e => .error (.error e)
      | .ok sessionId => .ok (sessionId, body.phoneNumber, text)

/-- `handleUssd`. It runs in one piece, and its readings of the clock are taken as one. -/
def handleUssd (body : Option UssdRequestBody) (now : Timestamp) (sessions : Sessions) : Except Exception String × Sessions :=
  match accept body with
  | .error answer => (answer, sessions)
  | .ok (sessionId, phoneNumber, text) =>
    let previous := sessions.get sessionId
    let sessions := expire now sessions
    if 10000 ≤ sessions.size ∧ previous.isNone then (.ok serviceBusy, sessions)
    else if previous.any (·.stale now) then (.ok sessionExpired, sessions.delete sessionId)
    else
      (.ok (menu text),
        sessions.set sessionId { sessionId, phoneNumber, updatedAt := now, completed := decide (4 ≤ (inputOf text).length) })

/-! ## Runs -/

/-- A request with its time. -/
structure Arrival where
  body : Option UssdRequestBody
  now : Timestamp

/-- The session of a well-formed request, and its text. -/
def Arrival.accepted (a : Arrival) : Option (JsString × Option JsString) :=
  match accept a.body with
  | .ok (sessionId, _, text) => some (sessionId, text)
  | .error _ => none

/-- The session of a well-formed request. -/
def Arrival.session (a : Arrival) : Option JsString := a.accepted.map Prod.fst

def Arrival.response (a : Arrival) (sessions : Sessions) : Except Exception String := (handleUssd a.body a.now sessions).1

def Arrival.next (sessions : Sessions) (a : Arrival) : Sessions := (handleUssd a.body a.now sessions).2

/-- The table after these requests, oldest first. -/
def tableAfter (sessions : Sessions) (arrivals : List Arrival) : Sessions := arrivals.foldl Arrival.next sessions

/-! ## What one request does -/

section Step

variable {sessions : Sessions} {a : Arrival} {s k : JsString} {text : Option JsString}

theorem get_expire (now : Timestamp) (sessions : Sessions) (s : JsString) :
    (expire now sessions).get s = (sessions.get s).filter fun session => !session.stale now := OrderedMap.get_keepWhere ..

/-- A request that is not well-formed changes nothing. -/
theorem next_refused (refused : a.accepted = none) : Arrival.next sessions a = sessions := by
  unfold Arrival.accepted at refused
  unfold Arrival.next handleUssd
  cases accepted : accept a.body with
  | error answer => rfl
  | ok found =>
    rw [accepted] at refused
    cases refused

/-- With room in the table, a well-formed request is answered by the menu, unless its session is over. -/
theorem response_accepted (accepted : a.accepted = some (s, text)) (room : sessions.size < 10000) :
    a.response sessions = .ok (if (sessions.get s).any (·.stale a.now) then sessionExpired else menu text) ∧
      ((Arrival.next sessions a).get s).map UssdSession.updatedAt = if (sessions.get s).any (·.stale a.now) then none else some a.now := by
  unfold Arrival.accepted at accepted
  unfold Arrival.response Arrival.next handleUssd
  cases found : accept a.body with
  | error answer =>
    rw [found] at accepted
    cases accepted
  | ok found' =>
    obtain ⟨sessionId, phoneNumber, text'⟩ := found'
    rw [found] at accepted
    cases accepted
    have smaller : (expire a.now sessions).size ≤ sessions.size := OrderedMap.size_keepWhere_le ..
    have open' : ¬(10000 ≤ (expire a.now sessions).size ∧ (sessions.get s).isNone = true) := fun full => by omega
    dsimp only
    rw [if_neg open']
    by_cases past : (sessions.get s).any (·.stale a.now) = true
    · rw [if_pos past, if_pos past, if_pos past, OrderedMap.get_delete_self]
      exact ⟨rfl, rfl⟩
    · rw [if_neg past, if_neg past, if_neg past, OrderedMap.get_set_self]
      exact ⟨rfl, rfl⟩

/-- A well-formed request of another session at most drops the entry. -/
theorem next_other (accepted : a.session = some k) (other : s ≠ k) :
    (Arrival.next sessions a).get s = (sessions.get s).filter fun session => !session.stale a.now := by
  unfold Arrival.session Arrival.accepted at accepted
  unfold Arrival.next handleUssd
  rw [← get_expire]
  cases found : accept a.body with
  | error answer =>
    rw [found] at accepted
    cases accepted
  | ok found' =>
    obtain ⟨sessionId, phoneNumber, text⟩ := found'
    rw [found] at accepted
    cases accepted
    dsimp only
    split
    · rfl
    · split
      · exact OrderedMap.get_delete_ne _ other
      · exact OrderedMap.get_set_ne _ _ other

end Step

end AfriPay.Ussd
