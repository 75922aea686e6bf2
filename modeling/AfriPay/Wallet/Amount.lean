import AfriPay.Text.Decimal

/-!
# Amounts in the wallet (`components/wallet/SendFlow.tsx`, `lib/stellar.ts`)

The form tests an amount against `AMOUNT_PATTERN`; `amountUnits` reads it again
before the wallet signs.
-/

namespace AfriPay.Wallet
open Text

/-- `AMOUNT_PATTERN.test(amount)` -/
def matchesAmountPattern (amount : String) : Bool := matchesDecimal 12 7 amount

/-- `amountUnits`, with its error's message. -/
def amountUnits (amount : String) : Except String Nat :=
  if matchesDecimal 12 7 amount then .ok (scaledValue 7 amount) else .error "Invalid XLM amount"

end AfriPay.Wallet
