import AfriPay.Wallet.Agreement
import AfriPay.Wallet.Format

/-!
# What the review screen shows is what is signed

The screen writes the amount with `formatAmount`, the fee with `stroopsToXlm` and
their sum with `totalWithFee`; the envelope is checked by `signTransactionXdr`.
The two meet at the number of stroops.
-/

namespace AfriPay.Wallet
open Text Stellar

/-- A signed envelope beside what is shown of it. -/
structure ShownOf (sdk : WalletSdk) (secret : String) (xdr : JsString) (review : PaymentReview) (envelope : Transaction) (amount : String)
    (units : Nat) :
    Prop where
  /-- It is the envelope that came, which was not signed. -/
  decoded : sdk.fromXDR xdr = .ok (.transaction { envelope with signatures := [] })
  signature : envelope.signatures = [sdk.sign secret envelope.hash]
  source : envelope.source = sdk.publicKey secret
  payment : envelope.operations = [.payment none review.recipient true amount]
  /-- The stroops of the operation. -/
  stroops : amountUnits amount = .ok units ∧ decimalValue amount = (units : ℚ) / 10 ^ 7
  total : ∃ total, totalWithFee review.amount review.fee = some total ∧ Denotes total (((units + envelope.fee : ℕ) : ℚ) / 10 ^ 7)
  amount : Denotes (formatAmount (some review.amount)) (decimalValue amount)
  fee : Denotes (stroopsToXlm review.fee) ((envelope.fee : ℚ) / 10 ^ 7)
  limit : (envelope.fee : ℚ) / 10 ^ 7 ≤ 1 / 10

theorem amountUnits_spec {amount : String} {units : Nat} (read : amountUnits amount = .ok units) :
    matchesDecimal 12 7 amount = true ∧ scaledValue 7 amount = units ∧ decimalValue amount = (units : ℚ) / 10 ^ 7 := by
  unfold amountUnits at read
  split at read
  · rename_i fits
    obtain rfl := Except.ok.inj read
    refine ⟨fits, rfl, ?_⟩
    rw [scaledValue_eq (fractionPart_length_le fits), mul_div_cancel_right₀ _ (pow_ne_zero 7 (by norm_num))]
  · cases read

/-- A fee as the SDK writes it. -/
theorem isDigits_repr (fee : Nat) : isDigits (Nat.repr fee) = true ∧ digitsValue (Nat.repr fee).toList = fee := by
  rw [isDigits, Nat.toList_repr, digitsValue_toDigits]
  refine ⟨?_, rfl⟩
  simp only [digitRun, Bool.and_eq_true, decide_eq_true_eq, List.all_eq_true]
  exact ⟨⟨toDigits_isDigit fee, Nat.length_toDigits_pos⟩, le_refl _⟩

/-- **What is shown is what is signed**, whatever envelope came for whatever review. -/
theorem signs_what_is_shown {sdk : WalletSdk} {secret xdr text : String} {review : PaymentReview} {now later : Timestamp}
    (signs : signTransactionXdr sdk secret xdr review now later = .ok text) :
    ∃ envelope amount units, text = sdk.toXDR envelope ∧ ShownOf sdk secret xdr review envelope amount units := by
  obtain ⟨tx, reviewed, rfl⟩ := signTransactionXdr_ok.1 signs
  obtain ⟨amount, units, operations, read, read', -⟩ := matchesReview_ok.1 reviewed.payment
  obtain ⟨-, -, value⟩ := amountUnits_spec read
  obtain ⟨fits, scaled, value'⟩ := amountUnits_spec read'
  obtain ⟨digits, fee⟩ := isDigits_repr tx.fee
  rw [reviewed.fee] at digits fee
  refine ⟨signed sdk secret tx, amount, units, rfl, ?decoded, ?signature, reviewed.source, operations, ⟨read, value⟩, ?total, ?amount, ?fee, ?limit⟩
  case decoded =>
    rw [show ({ signed sdk secret tx with signatures := [] } : Transaction) = { tx with signatures := [] } from rfl, ← reviewed.unsigned]
    exact reviewed.decoded
  case signature =>
    show tx.signatures ++ [sdk.sign secret tx.hash] = _
    rw [reviewed.unsigned]
    rfl
  case total =>
    have total := totalWithFee_denotes fits digits
    rw [scaled, fee] at total
    exact total
  case amount =>
    rw [value, ← value']
    exact formatAmount_denotes (isNumeral_of_matches fits)
  case fee =>
    have shown := stroopsToXlm_denotes digits
    rw [fee] at shown
    exact shown
  case limit =>
    have limit : (tx.fee : ℚ) ≤ 1000000 := by exact_mod_cast reviewed.limit
    show (tx.fee : ℚ) / 10 ^ 7 ≤ 1 / 10
    rw [div_le_iff₀ (by norm_num)]
    linarith

theorem signs_what_is_shown_sample : ∃ envelope amount units, "signed" = Sample.wallet.toXDR envelope ∧
    ShownOf Sample.wallet "secret" "unsigned" ⟨Payments.Sample.bob, "2", some "rent", "100"⟩ envelope amount units :=
  signs_what_is_shown (show signTransactionXdr Sample.wallet "secret" "unsigned" ⟨Payments.Sample.bob, "2", some "rent", "100"⟩ 0 0 = .ok "signed"
    by decide +kernel)

end AfriPay.Wallet
