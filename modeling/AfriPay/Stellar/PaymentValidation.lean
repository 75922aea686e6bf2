import AfriPay.Exception
import AfriPay.Text.Js
import AfriPay.Text.Utf8

/-!
# Payment validation (`stellar/payment-validation.ts`)

`stroops` reads an amount, `validatePayment` checks a payment request whose
values may still be of any JSON type, and `parsePayment` checks a signed
envelope, against an expected payment if there is one. What the Stellar SDK
contributes (addresses, XDR, signatures, UTF-8) is the parameter `Sdk`.
-/

namespace AfriPay.Stellar
open Text

/-- A transaction hash, as `tx.hash()` returns it. -/
abbrev Hash := Vector UInt8 32

/-- An operation of a transaction; only payments are looked into. -/
inductive Operation where
  | payment (source : Option String) (destination : String) (native : Bool) (amount : String)
  | other
  deriving DecidableEq

inductive MemoType where
  | none | text | id | hash | return
  deriving DecidableEq

/-- The SDK's memo value: bytes, a string or `null`. -/
inductive MemoValue where
  | bytes (bs : List UInt8)
  | string (s : String)
  | null
  deriving DecidableEq

structure Memo where
  type : MemoType
  value : MemoValue
  deriving DecidableEq

structure TimeBounds where
  minTime : Nat
  maxTime : Nat
  deriving DecidableEq

/-- What the code reads of an SDK `Transaction`. The fee is the envelope's, in stroops. -/
structure Transaction where
  source : String
  hash : Hash
  signatures : List (List UInt8)
  operations : List Operation
  memo : Memo
  timeBounds : Option TimeBounds
  fee : Nat
  deriving DecidableEq

inductive Envelope where
  | transaction (tx : Transaction)
  | feeBump

/-- What `buildNativePayment` hands to `TransactionBuilder`. -/
structure PaymentTemplate where
  source : String
  sequence : Int
  fee : Nat
  destination : String
  amount : String
  memo : Option JsString
  /-- `setTimeout(300)` counts from here. -/
  now : Nat

/-- The Stellar SDK. `none` stands for an exception. -/
structure Sdk where
  isValidEd25519PublicKey : String → Bool
  /-- `TransactionBuilder.fromXDR(xdr, Networks.TESTNET)` -/
  fromXDR : JsString → Option Envelope
  /-- Whether `Keypair.fromPublicKey` accepts the source account. -/
  fromPublicKey : String → Bool
  verify : (publicKey : String) → Hash → (signature : List UInt8) → Option Bool
  /-- `TransactionBuilder ... build().toXDR()` for one native payment. -/
  buildPayment : PaymentTemplate → Option String

/-- `stroops` of a string. -/
def stroops (value : String) : Except Exception Nat :=
  if matchesDecimal 12 7 value then .ok (scaledValue 7 value) else .error (.badRequest "Invalid XLM amount")

/-- `stroops` of a value that may not be a string. -/
def stroopsOf : Option Json → Except Exception Nat
  | some (.str value) => stroops value
  | _ => .error (.badRequest "Invalid XLM amount")

theorem stroops_ok {s : String} {n : Nat} (h : stroops s = .ok n) : matchesDecimal 12 7 s = true ∧ n = scaledValue 7 s := by
  unfold stroops at h
  split at h
  · rename_i fits
    cases h
    exact ⟨fits, rfl⟩
  · cases h

structure NativePayment where
  sender : String
  recipient : String
  amount : String
  asset : String
  memo : Option JsString
  deriving DecidableEq

/-- A payment as a request carries it: values of any JSON type. -/
structure PaymentFields where
  sender : Option Json
  recipient : Option Json
  amount : Option Json
  asset : Option Json
  memo : Option Json

def NativePayment.fields (p : NativePayment) : PaymentFields :=
  ⟨some (.str p.sender), some (.str p.recipient), some (.str p.amount), some (.str p.asset), p.memo.map JsString.json⟩

/-- `StrKey.isValidEd25519PublicKey`, which is false of anything but a string, and
of a string with half of a surrogate pair: an address is in base 32. -/
def publicKeyOf (sdk : Sdk) : Option Json → Option String
  | some (.str s) => if sdk.isValidEd25519PublicKey s then some s else none
  | _ => none

/-- The memo check of `validatePayment`: absent, or a string of at most 28 UTF-8 bytes. -/
def memoOf : Option Json → Except Exception (Option JsString)
  | none => .ok none
  | some v => match stringOf (some v) with
    | some memo => if 28 < memo.byteLength then .error (.badRequest "Memo exceeds 28 UTF-8 bytes") else .ok (some memo)
    | none => .error (.badRequest "Memo exceeds 28 UTF-8 bytes")

/-- `validatePayment`. The source returns nothing; here the checked payment
comes back at the types the checks have established. -/
def validatePayment (sdk : Sdk) (input : PaymentFields) : Except Exception NativePayment := do
  let some sender := publicKeyOf sdk input.sender | throw (.badRequest "Invalid Stellar address")
  let some recipient := publicKeyOf sdk input.recipient | throw (.badRequest "Invalid Stellar address")
  if sender = recipient ∨ isString "XLM" input.asset = false then
    throw (.badRequest "A positive XLM payment to another account is required")
  let units ← stroopsOf input.amount
  if units = 0 then throw (.badRequest "A positive XLM payment to another account is required")
  let memo ← memoOf input.memo
  let amount := match input.amount with | some (.str a) => a | _ => ""
  return { sender, recipient, amount, asset := "XLM", memo }

/-- What `validatePayment` has established of a request it lets pass. -/
structure Checked (sdk : Sdk) (input : PaymentFields) (p : NativePayment) : Prop where
  sender : input.sender = some (.str p.sender)
  recipient : input.recipient = some (.str p.recipient)
  amount : input.amount = some (.str p.amount)
  asset : input.asset = some (.str p.asset)
  memo : memoOf input.memo = .ok p.memo
  senderKey : sdk.isValidEd25519PublicKey p.sender = true
  recipientKey : sdk.isValidEd25519PublicKey p.recipient = true
  distinct : p.sender ≠ p.recipient
  lumens : p.asset = "XLM"
  positive : ∃ units, stroops p.amount = .ok units ∧ 0 < units

theorem publicKeyOf_eq_some {sdk : Sdk} {v : Option Json} {s : String} :
    publicKeyOf sdk v = some s ↔ v = some (.str s) ∧ sdk.isValidEd25519PublicKey s = true := by
  unfold publicKeyOf
  split
  · split
    · rename_i t valid
      simp only [Option.some.injEq, Json.str.injEq]
      constructor
      · rintro rfl; exact ⟨rfl, valid⟩
      · exact And.left
    · rename_i t invalid
      simp only [reduceCtorEq, Option.some.injEq, Json.str.injEq, false_iff, not_and]
      rintro rfl
      exact invalid
  · rename_i other
    simp only [reduceCtorEq, false_iff, not_and]
    rintro rfl
    exact (other s rfl).elim

theorem stroopsOf_ok {v : Option Json} {n : Nat} (h : stroopsOf v = .ok n) : ∃ a, v = some (.str a) ∧ stroops a = .ok n := by
  unfold stroopsOf at h
  split at h
  · exact ⟨_, rfl, h⟩
  · cases h

theorem validatePayment_ok {sdk : Sdk} {input : PaymentFields} {p : NativePayment} :
    validatePayment sdk input = .ok p ↔ Checked sdk input p := by
  constructor
  · intro h
    unfold validatePayment at h
    cases hs : publicKeyOf sdk input.sender with
    | none => rw [hs] at h; cases h
    | some sender =>
    cases hr : publicKeyOf sdk input.recipient with
    | none => rw [hs, hr] at h; cases h
    | some recipient =>
    obtain ⟨senderIs, senderKey⟩ := publicKeyOf_eq_some.1 hs
    obtain ⟨recipientIs, recipientKey⟩ := publicKeyOf_eq_some.1 hr
    simp only [hs, hr] at h
    split at h
    · cases h
    rename_i other
    rw [not_or, Bool.not_eq_false] at other
    cases hn : stroopsOf input.amount with
    | error e => simp only [hn] at h; cases h
    | ok n =>
    obtain ⟨a, amountIs, units⟩ := stroopsOf_ok hn
    by_cases zero : n = 0
    · simp only [hn, zero] at h; cases h
    cases hm : memoOf input.memo with
    | error e => simp only [hn, hm, bind, Except.bind, zero] at h; cases h
    | ok memo =>
    rw [amountIs] at hn
    simp only [amountIs, hn, hm, bind, Except.bind, zero, if_false] at h
    cases h
    exact ⟨senderIs, recipientIs, amountIs, isString_iff.1 other.2, hm, senderKey, recipientKey, other.1, rfl, n, units, by omega⟩
  · intro h
    obtain ⟨units, value, positive⟩ := h.positive
    have sender := publicKeyOf_eq_some.2 ⟨h.sender, h.senderKey⟩
    have recipient := publicKeyOf_eq_some.2 ⟨h.recipient, h.recipientKey⟩
    have asset : isString "XLM" input.asset = true := isString_iff.2 (h.lumens ▸ h.asset)
    have zero : units ≠ 0 := by omega
    simp only [validatePayment, sender, recipient, asset, h.distinct, h.amount, stroopsOf, value, zero, h.memo, bind, Except.bind]
    rw [← h.lumens]
    rfl
/-- The operation check of `parsePayment` against the expected payment. -/
def operationMatches (tx : Transaction) (expected : NativePayment) : Except Exception Bool :=
  if tx.source ≠ expected.sender then .ok false
  else match tx.operations with
    | [.payment none destination true amount] =>
      if destination ≠ expected.recipient then .ok false
      else do return decide ((← stroops amount) = (← stroops expected.amount))
    | _ => .ok false

/-- `Buffer.from(bytes).toString('utf8')` of bytes, and `String(value)` of anything else. -/
def memoText : MemoValue → String
  | .bytes bs => utf8Text bs
  | .string s => s
  | .null => "null"

/-- The memo check: a text memo equal to the expected one, or none at all when
the expected memo is absent or empty. -/
def memoMatches (tx : Transaction) (expected : NativePayment) : Bool :=
  match expected.memo with
  | some memo =>
    if memo ≠ .text "" then tx.memo.type = .text ∧ .text (memoText tx.memo.value) = memo else tx.memo.type = .none
  | none => tx.memo.type = .none

/-- What `parsePayment` checks when a payment is expected. -/
def checkExpected (sdk : Sdk) (tx : Transaction) (expected : NativePayment) : Except Exception Unit := do
  discard (validatePayment sdk expected.fields)
  if !(← operationMatches tx expected) then throw (.badRequest "Transaction does not match payment intent")
  if !memoMatches tx expected then throw (.badRequest "Transaction memo does not match intent")

def hasFiniteBounds (tx : Transaction) : Bool :=
  match tx.timeBounds with
  | some bounds => bounds.maxTime ≠ 0
  | none => false

def parsePayment (sdk : Sdk) (xdr : JsString) (expected : Option NativePayment) : Except Exception Transaction := do
  let some envelope := sdk.fromXDR xdr | throw (.badRequest "Invalid Testnet transaction")
  let .transaction tx := envelope | throw (.badRequest "Fee-bump envelopes are not supported")
  if !sdk.fromPublicKey tx.source then throw (.error "invalid encoded string")
  if !tx.signatures.any (fun signature => (sdk.verify tx.source tx.hash signature).getD false) then
    throw (.badRequest "A valid Testnet source-account signature is required")
  if let some payment := expected then checkExpected sdk tx payment
  if !hasFiniteBounds tx then throw (.badRequest "Finite transaction time bounds required")
  if 1000000 < tx.fee then throw (.badRequest "Transaction fee exceeds Testnet wallet limit")
  return tx

/-! ## Hashes as text -/

def hexByte (b : UInt8) : List Char := [Nat.digitChar (b.toNat / 16), Nat.digitChar (b.toNat % 16)]

/-- `Buffer.from(hash).toString('hex')` -/
def toHex (hash : Hash) : String := String.ofList (hash.toList.flatMap hexByte)

/-- `/^[a-f0-9]{64}$/.test(s)` on a string. -/
def isHashString (s : String) : Bool :=
  s.toList.length = 64 && s.toList.all fun c => c.isDigit || (decide ('a' ≤ c) && decide (c ≤ 'f'))

/-- The same test on any value, which it first turns into text: an array of one
element reads as that element. -/
def isHashText : Json → Bool
  | .str s => isHashString s
  | .arr [v] => isHashText v
  | _ => false

theorem hexByte_inj {a b : UInt8} (h : hexByte a = hexByte b) : a = b := by
  simp only [hexByte, List.cons.injEq, and_true] at h
  have high := digitChar_inj ⟨a.toNat / 16, by have := a.toNat_lt; omega⟩ ⟨b.toNat / 16, by have := b.toNat_lt; omega⟩ h.1
  have low := digitChar_inj ⟨a.toNat % 16, by omega⟩ ⟨b.toNat % 16, by omega⟩ h.2
  simp only [Fin.mk.injEq] at high low
  exact UInt8.toNat_inj.1 (by omega)

theorem hexBytes_inj : ∀ {as bs : List UInt8}, as.flatMap hexByte = bs.flatMap hexByte → as = bs
  | [], [], _ => rfl
  | [], b :: bs, h => by simp [hexByte] at h
  | a :: as, [], h => by simp [hexByte] at h
  | a :: as, b :: bs, h => by
    rw [List.flatMap_cons, List.flatMap_cons] at h
    obtain ⟨head, tail⟩ := List.append_inj h rfl
    rw [hexByte_inj head, hexBytes_inj tail]

/-- The hexadecimal text determines the hash. -/
theorem toHex_injective : Function.Injective toHex := by
  intro a b h
  have := congrArg String.toList h
  rw [toHex, toHex, String.toList_ofList, String.toList_ofList] at this
  exact Vector.toList_inj.1 (hexBytes_inj this)

/-- The text of a hash passes the pattern `verifyTransaction` tests. -/
theorem isHashString_toHex (hash : Hash) : isHashString (toHex hash) = true := by
  rw [isHashString, toHex, String.toList_ofList, Bool.and_eq_true]
  constructor
  · simp [List.length_flatMap, hexByte]
  · rw [List.all_flatMap, List.all_eq_true]
    intro b _
    simp only [hexByte, List.all_cons, List.all_nil, Bool.and_true, Bool.and_eq_true]
    exact ⟨digitChar_isHex ⟨b.toNat / 16, by have := b.toNat_lt; omega⟩, digitChar_isHex ⟨b.toNat % 16, by omega⟩⟩

theorem toHex_ne_empty (hash : Hash) : toHex hash ≠ "" := by
  intro h
  have pattern := isHashString_toHex hash
  rw [h] at pattern
  exact absurd pattern (by decide)

end AfriPay.Stellar
