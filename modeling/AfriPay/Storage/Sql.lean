import Mathlib.Data.Option.Basic
import AfriPay.Storage.Uuid

/-!
# Statements and segments

What a single SQL statement can come to for the client that sent it, and what a
synchronous segment of JavaScript can: `Queried` and `Segment` turn a function
that runs one into the relation between its answer and the new state. Besides,
the readings of parameters and columns the statements of this development
share.
-/

namespace AfriPay.Storage
open Text

inductive DbError where
  | uniqueViolation
  | other
  deriving DecidableEq

/-- What a statement may answer and do: it runs, it is refused, or its answer
is lost, whether it ran or not. `run` may depend on the database's clock. -/
inductive Queried {τ ρ δ : Type} (run : τ → δ → Except DbError (ρ × δ)) (db : δ) : Except DbError ρ → δ → Prop where
  | ran {now : τ} {rows : ρ} {db' : δ} (ok : run now db = .ok (rows, db')) : Queried run db (.ok rows) db'
  | refused {now : τ} {e : DbError} (failed : run now db = .error e) : Queried run db (.error e) db
  | unreached : Queried run db (.error .other) db
  | unanswered {now : τ} {rows : ρ} {db' : δ} (ok : run now db = .ok (rows, db')) : Queried run db (.error .other) db'

/-- A segment runs to its end, or throws and leaves the state as it was. -/
inductive Segment {ε α δ : Type} (run : δ → Except ε (α × δ)) (m : δ) : Except ε α → δ → Prop where
  | ran {a : α} {m' : δ} (ok : run m = .ok (a, m')) : Segment run m (.ok a) m'
  | threw {e : ε} (failed : run m = .error e) : Segment run m (.error e) m

/-- A text parameter: PostgreSQL has no text with a NUL in it. -/
def pgText (s : String) : Bool := s.toList.all (· ≠ '\x00')

def assertTexts (texts : List String) : Except DbError Unit :=
  if texts.all pgText then .ok () else .error .other

/-- A string as a text column keeps it: parameters are sent as UTF-8. Without a
database it is kept as it is. -/
def keptText (pool : Bool) (s : JsString) : JsString := if pool then .text s.toWellFormed else s

/-- A `UUID` parameter. Those the code sends were written by `randomUUID`; of
other texts PostgreSQL would take some, in upper case for one, and show them otherwise. -/
def assertUuid (s : String) : Except DbError Unit := if isUuid s then .ok () else .error .other

/-- A decimal numeral as `NUMERIC(30,12)`, in units of `10⁻¹²`. Amounts reach
the columns only after a pattern has accepted them, so none has to be rounded. -/
def pgNumeric (s : String) : Except DbError Nat :=
  if matchesDecimal 18 12 s then .ok (scaledValue 12 s) else .error .other

/-- `CHECK (amount > 0)` -/
def checkPositive (amount : Nat) : Except DbError Unit := if amount = 0 then .error .other else .ok ()

/-- A `CHAR(n)` parameter: shorter texts are padded, longer ones refused. -/
def pgChar (n : Nat) (s : String) : Except DbError String :=
  if n < s.length then .error .other else .ok (String.ofList (s.toList ++ List.replicate (n - s.length) ' '))

/-- A date column read back with `new Date(String(date))`: the text of a date has no milliseconds. -/
def throughDateText (t : Timestamp) : Timestamp := t / 1000 * 1000

/-- A statement that a unique index may refuse. -/
def unique {α : Type} : Option α → Except DbError α
  | some a => .ok a
  | none => .error .uniqueViolation

theorem unique_ok {α : Type} {o : Option α} {a : α} (h : unique o = .ok a) : o = some a := by
  cases o with
  | none => cases h
  | some b => cases h; rfl

theorem bind_ok {α β ε : Type} {x : Except ε α} {f : α → Except ε β} {b : β} (h : x >>= f = .ok b) :
    ∃ a, x = .ok a ∧ f a = .ok b := by
  cases x with
  | error e => cases h
  | ok a => exact ⟨a, rfl, h⟩

/-- A check that has not thrown has not found its case. -/
theorem else_ok {α ε : Type} {c : Prop} [Decidable c] {e : ε} {x : Except ε α} {a : α} (h : (if c then .error e else x) = .ok a) :
    ¬c ∧ x = .ok a := by
  by_cases found : c
  · rw [if_pos found] at h
    cases h
  · rw [if_neg found] at h
    exact ⟨found, h⟩

@[simp] theorem keptText_memory (s : JsString) : keptText false s = s := rfl

@[simp] theorem keptText_pool (s : JsString) : keptText true s = .text s.toWellFormed := rfl

@[simp] theorem keptText_text (pool : Bool) (s : String) : keptText pool (.text s) = .text s := by
  cases pool <;> rfl

@[simp] theorem keptText_keptText (pool : Bool) (s : JsString) : keptText pool (keptText pool s) = keptText pool s := by
  cases pool <;> rfl

/-- A string of whole characters is kept. -/
theorem keptText_eq_self {pool : Bool} {s : JsString} (whole : pool = true → s.isWellFormed = true) : keptText pool s = s := by
  cases pool with
  | false => rfl
  | true => exact (JsString.isWellFormed_iff.1 (whole rfl)).symm

theorem assertUuid_ok {s : String} : assertUuid s = .ok () ↔ isUuid s = true := by
  rw [assertUuid]
  split
  · exact iff_of_true rfl ‹_›
  · exact iff_of_false nofun ‹_›

/-- A UUID is a text that columns can hold. -/
theorem pgText_of_isUuid {s : String} (uuid : isUuid s = true) : pgText s = true :=
  List.all_eq_true.2 fun c mem => decide_eq_true (ne_nul_of_isUuid uuid c mem)

theorem pgNumeric_ok {s : String} {n : Nat} (h : pgNumeric s = .ok n) : n = scaledValue 12 s := by
  unfold pgNumeric at h
  split at h
  · cases h; rfl
  · cases h

end AfriPay.Storage
