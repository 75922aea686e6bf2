import AfriPay.Payments.Links
import AfriPay.Text.DigitOrder

/-!
# Amounts that Stellar cannot carry

A payment operation holds its amount as a 64-bit signed number of stroops. The
amount pattern bounds the number of digits instead: `922337203685.4775807` is
the largest amount there is, and any other twelve digits before the point pass
as well.
-/

namespace AfriPay.Payments
open Text Stellar

/-- The largest amount of a payment operation, in stroops. -/
def int64Max : Nat := 2 ^ 63 - 1

/-- The nineteen digits of an amount come no later than those of the largest. -/
def withinLimit (amount : String) : Bool := comesBy (allDigits 12 7 amount) "9223372036854775807".toList

/-- What is accepted with this amount, as a payment or as a link, can be paid on Stellar. -/
structure Representable (sdk : Sdk) (amount : String) : Prop where
  intent : ∀ input p, validatePayment sdk input = .ok p → p.amount = amount → ∃ units, stroops amount = .ok units ∧ units ≤ int64Max
  link : ∀ input creator reference, checkLink sdk input = .ok (creator, some amount, reference) →
    ∃ units, stroops amount = .ok units ∧ units ≤ int64Max

theorem stroops_le_iff {amount : String} {units : Nat} (value : stroops amount = .ok units) : units ≤ int64Max ↔ withinLimit amount = true := by
  obtain ⟨fits, rfl⟩ := stroops_ok value
  have limit : digitsValue "9223372036854775807".toList = int64Max := by decide +kernel
  have limitDigits : "9223372036854775807".toList.all Char.isDigit = true := by decide +kernel
  have length := length_allDigits fits (le_refl 7)
  unfold withinLimit
  rw [comesBy_iff length (allDigits_isDigit fits) (List.all_eq_true.1 limitDigits),
    digitsValue_allDigits (fractionPart_length_le fits), limit]

/-- An amount of the pattern above zero is accepted between any two accounts. -/
theorem validatePayment_amount {sdk : Sdk} {sender recipient amount : String} {units : Nat} (senderKey : sdk.isValidEd25519PublicKey sender = true)
    (recipientKey : sdk.isValidEd25519PublicKey recipient = true) (distinct : sender ≠ recipient) (value : stroops amount = .ok units)
    (positive : 0 < units) : validatePayment sdk (NativePayment.fields ⟨sender, recipient, amount, "XLM", none⟩) =
      .ok ⟨sender, recipient, amount, "XLM", none⟩ :=
  validatePayment_ok.2 ⟨rfl, rfl, rfl, rfl, rfl, senderKey, recipientKey, distinct, rfl, units, value, positive⟩

/-- **Which amounts can be paid**: of those that fit the pattern, the ones whose digits
stay within those of the largest. The SDK accepts the keys of two accounts at least. -/
theorem representable_iff {sdk : Sdk} {sender recipient : String} (senderKey : sdk.isValidEd25519PublicKey sender = true)
    (recipientKey : sdk.isValidEd25519PublicKey recipient = true) (distinct : sender ≠ recipient) (amount : String) :
    Representable sdk amount ↔ (matchesDecimal 12 7 amount = true → withinLimit amount = true) := by
  constructor
  · intro representable fits
    have value : stroops amount = .ok (scaledValue 7 amount) := if_pos fits
    by_contra beyond
    rw [← stroops_le_iff value] at beyond
    have accepted := validatePayment_amount senderKey recipientKey distinct value (by omega)
    obtain ⟨units, same, le⟩ := representable.intent _ _ accepted rfl
    rw [value] at same
    cases same
    exact beyond le
  · intro within
    constructor
    · rintro input p accepted rfl
      obtain ⟨units, value, -⟩ := (validatePayment_ok.1 accepted).positive
      exact ⟨units, value, (stroops_le_iff value).2 (within (stroops_ok value).1)⟩
    · intro input creator reference accepted
      rcases linkAmountOf_ok (checkLink_amount accepted) with ⟨-, absent⟩ | ⟨a, units, -, same, value⟩
      · cases absent
      · cases same
        exact ⟨units, value, (stroops_le_iff value).2 (within (stroops_ok value).1)⟩

theorem Sample.keys : sdk.isValidEd25519PublicKey alice = true ∧ sdk.isValidEd25519PublicKey bob = true ∧ alice ≠ bob := by
  decide +kernel

theorem representable_iff_sample : Representable Sample.sdk "922337203685.4775807" ↔
    (matchesDecimal 12 7 "922337203685.4775807" = true → withinLimit "922337203685.4775807" = true) :=
  representable_iff Sample.keys.1 Sample.keys.2.1 Sample.keys.2.2 "922337203685.4775807"

/-- One stroop more than the largest amount is accepted for a payment and for a link. -/
theorem unrepresentable_accepted :
    ¬∀ (sdk : Sdk) (amount : String),
      (∀ input p units, validatePayment sdk input = .ok p → p.amount = amount → stroops amount = .ok units → units ≤ int64Max) ∧
      ∀ input creator reference units, checkLink sdk input = .ok (creator, some amount, reference) → stroops amount = .ok units →
        units ≤ int64Max := by
  intro all
  have value : stroops "922337203685.4775808" = .ok (int64Max + 1) := by decide +kernel
  have accepted := validatePayment_amount Sample.keys.1 Sample.keys.2.1 Sample.keys.2.2 value (Nat.succ_pos _)
  have le := (all Sample.sdk "922337203685.4775808").1 _ _ _ accepted rfl value
  exact absurd le (Nat.not_succ_le_self _)

end AfriPay.Payments
