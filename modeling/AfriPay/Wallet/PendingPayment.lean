import Mathlib.Logic.Function.Basic

/-!
# Pending payments in the wallet (`components/wallet/SendFlow.tsx`, `usePendingPayment.ts`)

The pages of one wallet, in any number of tabs, share the storage key
`pendingPaymentKey(address)`. Every handler runs up to its next `await` in one
step, and an answer resumes it in another. The wallet stays unlocked while a
page is mounted, the form's fields are valid when it is submitted, and the
storage works.
-/

namespace AfriPay.Wallet

/-- The pages with `usePendingPayment`: the send page, a payment link's page, and the activity page, which has no `SendFlow`. -/
inductive Page where
  | send
  | pay
  | activity
  deriving DecidableEq

/-- `PendingOutcome`, without what is only displayed. -/
inductive PendingOutcome where
  | status (status : String)
  | error
  deriving DecidableEq

/-- A page and what its hooks hold. `sending` stands for `busy` as well, which is set along with it. Of a review, of the
signed payment and of the result only what later steps read is kept. -/
structure Mounted where
  tab : Nat
  page : Page
  mounted : Bool
  sending : Bool
  review : Option String
  pendingPayment : Option String
  result : Bool
  pendingId : Option String
  checking : Bool
  outcome : Option PendingOutcome

/-- Where a page's handler waits. -/
inductive Awaiting where
  | prepare
  | submit (id : String)
  /-- In `check`, which `checkUnconfirmed` or a notice has called. -/
  | check (id : String) (unconfirmed : Bool)
  /-- In `checkUnconfirmed`, for `check` to return a status that is not `PENDING`. -/
  | finish (id : String)
  deriving DecidableEq

structure Browser where
  /-- The value under `pendingPaymentKey(address)`. -/
  stored : Option String
  pages : Nat → Option Mounted
  count : Nat
  awaiting : List (Nat × Awaiting)
  /-- The intents an envelope has been signed and sent for. -/
  sent : List String
  /-- The intents a status other than `PENDING` has been received for. -/
  resolved : List String

def Browser.initial : Browser := ⟨none, fun _ => none, 0, [], [], []⟩

namespace Browser

def set (b : Browser) (n : Nat) (p : Mounted) : Browser := { b with pages := Function.update b.pages n (some p) }

def await (b : Browser) (n : Nat) (a : Awaiting) : Browser := { b with awaiting := (n, a) :: b.awaiting }

/-- `getItem`, as a condition: an empty string is falsy. -/
def item (b : Browser) : Option String := b.stored.filter (· ≠ "")

def setItem (b : Browser) (id : String) : Browser := { b with stored := some id }

def removeItem (b : Browser) : Browser := { b with stored := none }

def resolve (b : Browser) (id : String) : Browser := { b with resolved := id :: b.resolved }

/-! ## `usePendingPayment` -/

def reload (b : Browser) (n : Nat) (p : Mounted) : Browser := b.set n { p with pendingId := b.stored }

/-- `check` up to its `await`. -/
def check (b : Browser) (n : Nat) (p : Mounted) (unconfirmed : Bool) : Browser :=
  match b.item with
  | none => b.set n { p with pendingId := none, outcome := if unconfirmed then none else some .error }
  | some id => (b.set n { p with checking := true }).await n (.check id unconfirmed)

/-- `check` after its `await`. `checkUnconfirmed` clears the outcome. -/
def checked (b : Browser) (n : Nat) (p : Mounted) (id : String) (unconfirmed : Bool) : Option String → Browser
  | none => b.set n { p with checking := false, outcome := if unconfirmed then none else some .error }
  | some status =>
    let p := { p with checking := false, outcome := if unconfirmed then none else some (.status status) }
    if status = "PENDING" then b.set n p
    else
      let b := (b.resolve id).removeItem.set n { p with pendingId := none }
      if unconfirmed then b.await n (.finish id) else b

/-! ## `SendFlow` -/

def prepare (b : Browser) (n : Nat) (p : Mounted) : Browser :=
  if p.sending then b
  else match b.item with
    | some _ => b.reload n p
    | none => (b.set n { p with sending := true }).await n .prepare

/-- `prepare` with the new intent's id, or with an exception. -/
def prepared (b : Browser) (n : Nat) (p : Mounted) : Option String → Browser
  | none => b.set n { p with sending := false }
  | some id => b.set n { p with sending := false, review := some id }

/-- The submission in `confirm`. -/
def submit (b : Browser) (n : Nat) (p : Mounted) (current : String) : Browser :=
  { (b.set n { p with sending := true, pendingPayment := some current }).await n (.submit current) with sent := current :: b.sent }

/-- `confirm` up to its `await`; `signs` tells whether `signTransactionXdr` succeeds. -/
def confirm (b : Browser) (n : Nat) (p : Mounted) (signs : Bool) : Browser :=
  if p.sending then b
  else match p.review with
    | none => b
    | some id => match p.pendingPayment with
      | some current => b.submit n p current
      | none => if signs then (b.setItem id).submit n p id else b

def finish (b : Browser) (n : Nat) (p : Mounted) : Browser :=
  b.removeItem.reload n { p with pendingPayment := none, review := none, result := true }

/-- `confirm` after its `await`. -/
def submitted (b : Browser) (n : Nat) (p : Mounted) (id : String) : Option String → Browser
  | none => b.set n { p with sending := false }
  | some status =>
    if status = "PENDING" then b.set n { p with sending := false }
    else (b.resolve id).finish n { p with sending := false }

/-! ## Events -/

inductive Event where
  | mount (tab : Nat) (page : Page)
  | unmount (n : Nat)
  /-- A reload of the tab, or its end. -/
  | refresh (tab : Nat)
  | prepare (n : Nat)
  | prepared (n : Nat) (reply : Option String)
  | edit (n : Nat)
  | confirm (n : Nat) (signs : Bool)
  | submitted (n : Nat) (id : String) (reply : Option String)
  /-- The button of a `PendingPaymentNotice`. -/
  | check (n : Nat)
  | checkUnconfirmed (n : Nat)
  | checked (n : Nat) (id : String) (unconfirmed : Bool) (reply : Option String)
  | finished (n : Nat) (id : String)
  | startOver (n : Nat)

/-- What a page shows. -/
inductive View where
  | form
  | review
  | result
  | activity
  deriving DecidableEq

def view (p : Mounted) : View :=
  if p.page = .activity then .activity else if p.result then .result else if p.review.isSome then .review else .form

/-- Whether a `PendingPaymentNotice` is shown with its button, which is enabled. -/
def offersCheck (p : Mounted) : Bool :=
  (view p = .form ∨ view p = .activity) ∧ (p.pendingId.filter (· ≠ "")).isSome ∧
    (p.outcome = none ∨ p.outcome = some (.status "PENDING")) ∧ p.checking = false

/-- The user acts on a page that allows it. -/
def act (b : Browser) (n : Nat) (allowed : Mounted → Bool) (handler : Mounted → Browser) : Option Browser :=
  (b.pages n).bind fun p => if p.mounted && allowed p then some (handler p) else none

/-- A handler of a page, mounted or not any more, resumes. -/
def resume (b : Browser) (n : Nat) (a : Awaiting) (handler : Browser → Mounted → Browser) : Option Browser :=
  (b.pages n).bind fun p => if (n, a) ∈ b.awaiting then some (handler { b with awaiting := b.awaiting.erase (n, a) } p) else none

/-- The browser after an event, if the event can happen. -/
def step (b : Browser) : Event → Option Browser
  | .mount tab page =>
    some { b.set b.count ⟨tab, page, true, false, none, none, false, b.stored, false, none⟩ with count := b.count + 1 }
  | .unmount n => b.act n (fun _ => true) fun p => b.set n { p with mounted := false }
  | .refresh tab =>
    let pages := fun n => (b.pages n).filter fun p => p.tab ≠ tab
    some { b with pages, awaiting := b.awaiting.filter fun x => (pages x.1).isSome }
  | .prepare n => b.act n (fun p => view p = .form) fun p => b.prepare n p
  | .prepared n reply => b.resume n .prepare fun b p => b.prepared n p reply
  | .edit n =>
    b.act n (fun p => view p = .review ∧ p.pendingPayment = none ∧ p.sending = false) fun p => b.set n { p with review := none }
  | .confirm n signs => b.act n (fun p => view p = .review) fun p => b.confirm n p signs
  | .submitted n id reply => b.resume n (.submit id) fun b p => b.submitted n p id reply
  | .check n => b.act n offersCheck fun p => b.check n p false
  | .checkUnconfirmed n =>
    b.act n (fun p => view p = .review ∧ p.pendingPayment.isSome ∧ p.sending = false ∧ p.checking = false) fun p => b.check n p true
  | .checked n id unconfirmed reply => b.resume n (.check id unconfirmed) fun b p => b.checked n p id unconfirmed reply
  | .finished n id => b.resume n (.finish id) fun b p => b.finish n p
  | .startOver n => b.act n (fun p => view p = .result ∧ p.page = .send) fun p => b.set n { p with result := false }

end Browser

end AfriPay.Wallet
