import AfriPay.Stellar.Service
import AfriPay.Storage.Sql

/-!
# What the envelope checks accept

`parsePayment_ok` says which envelopes pass, with and without an expected
payment, and `checkSubmission_iff` which of them are submitted.
-/

namespace AfriPay.Stellar
open Text Storage

/-- What `parsePayment` requires of every envelope. -/
structure Relayable (sdk : Sdk) (tx : Transaction) : Prop where
  sourceKey : sdk.fromPublicKey tx.source = true
  signed : ∃ signature ∈ tx.signatures, sdk.verify tx.source tx.hash signature = some true
  bounded : ∃ bounds, tx.timeBounds = some bounds ∧ bounds.maxTime ≠ 0
  cheap : tx.fee ≤ 1000000

/-- The transaction makes this payment and does nothing else. -/
structure Pays (tx : Transaction) (p : NativePayment) : Prop where
  source : tx.source = p.sender
  operation : ∃ amount units, tx.operations = [.payment none p.recipient true amount] ∧ stroops amount = .ok units ∧
    stroops p.amount = .ok units
  memo : if p.memo.getD "" = "" then tx.memo.type = .none else tx.memo.type = .text ∧ .text (memoText tx.memo.value) = p.memo.getD ""

theorem hasFiniteBounds_iff {tx : Transaction} :
    hasFiniteBounds tx = true ↔ ∃ bounds, tx.timeBounds = some bounds ∧ bounds.maxTime ≠ 0 := by
  unfold hasFiniteBounds
  cases tx.timeBounds with
  | none => simp
  | some bounds => simp

theorem operationMatches_iff {tx : Transaction} {p : NativePayment} : operationMatches tx p = .ok true ↔
    tx.source = p.sender ∧ ∃ amount units, tx.operations = [.payment none p.recipient true amount] ∧ stroops amount = .ok units ∧
      stroops p.amount = .ok units := by
  constructor
  · intro h
    unfold operationMatches at h
    by_cases source : tx.source = p.sender
    · rw [if_neg (not_not.2 source)] at h
      split at h
      · rename_i destination amount operations
        by_cases same : destination = p.recipient
        · rw [if_neg (not_not.2 same)] at h
          obtain ⟨units, ha, h⟩ := bind_ok h
          obtain ⟨units', hp, h⟩ := bind_ok h
          obtain rfl : units = units' := of_decide_eq_true (Except.ok.inj h)
          exact ⟨source, amount, units, same ▸ operations, ha, hp⟩
        · rw [if_pos same] at h
          cases h
      · cases h
    · rw [if_pos source] at h
      cases h
  · rintro ⟨source, amount, units, operations, ha, hp⟩
    simp [operationMatches, source, operations, ha, hp, bind, Except.bind, pure, Except.pure]

theorem memoMatches_iff {tx : Transaction} {p : NativePayment} : memoMatches tx p = true ↔
    if p.memo.getD "" = "" then tx.memo.type = .none else tx.memo.type = .text ∧ .text (memoText tx.memo.value) = p.memo.getD "" := by
  unfold memoMatches
  cases p.memo with
  | none => simp
  | some memo => by_cases empty : memo = .text "" <;> simp [empty]

/-- The fields of a payment are checked as that payment. -/
theorem Checked.eq_of_fields {sdk : Sdk} {p q : NativePayment} (h : Checked sdk p.fields q) : q = p := by
  have text : ∀ {a b : String}, some (Json.str a) = some (Json.str b) → b = a := by
    rintro a b ⟨⟩
    rfl
  have memo : q.memo = p.memo := by
    have read : memoOf (p.memo.map JsString.json) = .ok q.memo := h.memo
    cases given : p.memo with
    | none =>
      rw [given] at read
      exact (Except.ok.inj read).symm
    | some m =>
      rw [given, Option.map_some, memoOf, stringOf_json] at read
      exact (Except.ok.inj (else_ok read).2).symm
  cases p
  cases q
  cases memo
  simp only [NativePayment.mk.injEq]
  exact ⟨text h.sender, text h.recipient, text h.amount, text h.asset, trivial⟩

theorem checkExpected_ok {sdk : Sdk} {tx : Transaction} {p : NativePayment} :
    checkExpected sdk tx p = .ok () ↔ Checked sdk p.fields p ∧ Pays tx p := by
  constructor
  · intro h
    obtain ⟨_, valid, h⟩ := bind_ok h
    obtain ⟨same, operation, h⟩ := bind_ok h
    cases same with
    | false => cases h
    | true =>
    obtain ⟨source, operation⟩ := operationMatches_iff.1 operation
    cases memo : memoMatches tx p with
    | false => simp only [memo] at h; cases h
    | true =>
    refine ⟨?_, source, operation, memoMatches_iff.1 memo⟩
    cases validated : validatePayment sdk p.fields with
    | error e => rw [validated] at valid; cases valid
    | ok q =>
      have checked := validatePayment_ok.1 validated
      obtain rfl : q = p := checked.eq_of_fields
      exact checked
  · rintro ⟨checked, pays⟩
    have valid := validatePayment_ok.2 checked
    have operation := operationMatches_iff.2 ⟨pays.source, pays.operation⟩
    have memo := memoMatches_iff.2 pays.memo
    simp only [checkExpected, valid, operation, memo, bind, Except.bind]
    rfl

/-- **What `parsePayment` accepts.** -/
theorem parsePayment_ok {sdk : Sdk} {xdr : JsString} {expected : Option NativePayment} {tx : Transaction} :
    parsePayment sdk xdr expected = .ok tx ↔
      sdk.fromXDR xdr = some (.transaction tx) ∧ Relayable sdk tx ∧ ∀ p, expected = some p → Checked sdk p.fields p ∧ Pays tx p := by
  constructor
  · intro h
    unfold parsePayment at h
    cases decoded : sdk.fromXDR xdr with
    | none => rw [decoded] at h; cases h
    | some envelope =>
    cases envelope with
    | feeBump => rw [decoded] at h; cases h
    | transaction tx' =>
    cases sourceKey : sdk.fromPublicKey tx'.source with
    | false => simp [decoded, sourceKey] at h; cases h
    | true =>
    cases signed : tx'.signatures.any (fun signature => (sdk.verify tx'.source tx'.hash signature).getD false) with
    | false => simp [decoded, sourceKey, signed] at h; cases h
    | true =>
    simp only [decoded, sourceKey, signed, Bool.not_true, Bool.false_eq_true, if_false] at h
    have paid : ∀ p, expected = some p → checkExpected sdk tx' p = .ok () := by
      rintro p rfl
      obtain ⟨_, paid, -⟩ := bind_ok h
      exact paid
    have rest : (if !hasFiniteBounds tx' then .error (.badRequest "Finite transaction time bounds required")
        else if 1000000 < tx'.fee then .error (.badRequest "Transaction fee exceeds Testnet wallet limit")
        else .ok tx' : Except Exception Transaction) = .ok tx := by
      cases expected with
      | none => exact h
      | some p => obtain ⟨_, -, h⟩ := bind_ok h; exact h
    obtain ⟨finite, rest⟩ := else_ok rest
    obtain ⟨cheap, rest⟩ := else_ok rest
    obtain rfl := Except.ok.inj rest
    rw [Bool.not_eq_true', Bool.not_eq_false] at finite
    obtain ⟨signature, mem, verified⟩ := List.any_eq_true.1 signed
    refine ⟨rfl, ⟨sourceKey, ⟨signature, mem, ?_⟩, hasFiniteBounds_iff.1 finite, by omega⟩, fun p given => checkExpected_ok.1 (paid p given)⟩
    simpa [Option.getD_eq_iff] using verified
  · rintro ⟨decoded, relayable, paid⟩
    obtain ⟨signature, mem, verified⟩ := relayable.signed
    have signed : tx.signatures.any (fun signature => (sdk.verify tx.source tx.hash signature).getD false) = true :=
      List.any_eq_true.2 ⟨signature, mem, by rw [verified]; rfl⟩
    have finite := hasFiniteBounds_iff.2 relayable.bounded
    have cheap : ¬1000000 < tx.fee := by have := relayable.cheap; omega
    cases expected with
    | none => simp [parsePayment, decoded, relayable.sourceKey, signed, finite, cheap]; rfl
    | some p =>
      have accepted := checkExpected_ok.2 (paid p rfl)
      simp [parsePayment, decoded, relayable.sourceKey, signed, finite, cheap, accepted, bind, Except.bind]
      rfl

/-- **What `submitSignedTransaction` submits.** -/
theorem checkSubmission_iff {sdk : Sdk} {network : String} {signedXdr : JsString} {expectedPublicKey : Option String}
    {expected : Option NativePayment} {tx : Transaction} :
    checkSubmission sdk network signedXdr expectedPublicKey expected = .ok tx ↔
      network = "testnet" ∧ signedXdr.trim ≠ .text "" ∧ parsePayment sdk signedXdr expected = .ok tx ∧
        ∀ publicKey, expectedPublicKey = some publicKey → publicKey ≠ "" → tx.source = publicKey := by
  constructor
  · intro h
    have parsed := checkSubmission_ok h
    obtain ⟨_, testnet, h⟩ := bind_ok h
    obtain ⟨testnet, -⟩ := else_ok testnet
    by_cases blank : signedXdr.trim = .text ""
    · simp only [blank, if_true] at h
      cases h
    refine ⟨not_not.1 testnet, blank, parsed, ?_⟩
    rintro publicKey rfl given
    by_contra other
    simp [blank, parsed, given, other, bind, Except.bind] at h
  · rintro ⟨rfl, given, parsed, own⟩
    have testnet : assertTestnet "testnet" = .ok () := rfl
    cases expectedPublicKey with
    | none => simp [checkSubmission, testnet, given, parsed, bind, Except.bind]; rfl
    | some publicKey =>
      by_cases absent : publicKey = ""
      · simp [checkSubmission, testnet, given, parsed, absent, bind, Except.bind]
        rfl
      · simp [checkSubmission, testnet, given, parsed, absent, own publicKey rfl absent, bind, Except.bind]
        rfl

end AfriPay.Stellar
