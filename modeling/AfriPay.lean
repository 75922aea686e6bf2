import AfriPay.Calls.Pool
import AfriPay.Storage.OrderedMap
import AfriPay.Storage.Table
import AfriPay.Stellar.PaymentValidation
import AfriPay.Ledger.Book
import AfriPay.Stellar.Service
import AfriPay.Payments.Records
import AfriPay.Payments.Store
import AfriPay.Payments.IntentService
import AfriPay.Payments.IntentBook
import AfriPay.Calls.Fresh
import AfriPay.Payments.Settlement
import AfriPay.Payments.Runs
import AfriPay.Payments.Fulfilment
import AfriPay.Payments.Guarantees
import AfriPay.Payments.AmountLimit
import AfriPay.Payments.Links
import AfriPay.Calls.Sequential
import AfriPay.Payments.Controller
import AfriPay.Payments.Undeclared
import AfriPay.Ledger.Register
import AfriPay.Momo.Rows
import AfriPay.Momo.Race
import AfriPay.Momo.Auth
import AfriPay.Contracts.EscrowSolvency
import AfriPay.Contracts.MultisigConsent
import AfriPay.Wallet.PendingPayment
import AfriPay.Wallet.PendingMarker
import AfriPay.Ledger.Trail
import AfriPay.Soroban.History
import AfriPay.Contracts.EscrowHistory
import AfriPay.Contracts.EscrowExits
import AfriPay.Contracts.MultisigOutflow
import AfriPay.Contracts.MultisigKinds
import AfriPay.Contracts.MultisigLiveness
import AfriPay.Contracts.Vault
import AfriPay.Contracts.VaultAccounts
import AfriPay.Contracts.VaultClosure
import AfriPay.Contracts.VaultYield
import AfriPay.Contracts.Gateway
import AfriPay.Contracts.GatewayHistory
import AfriPay.Calls.Waiting
import AfriPay.Payments.Creation
import AfriPay.Wallet.Signing
import AfriPay.Wallet.Agreement
import AfriPay.Calls.Lockstep
import AfriPay.Payments.Branches
import AfriPay.Payments.InSync
import AfriPay.Payments.Interchange
import AfriPay.Auth.RateLimitBounds
import AfriPay.Ussd.Expiry
import AfriPay.Wallet.Shown
import AfriPay.Momo.Interchange
import AfriPay.Calls.Course
import AfriPay.Payments.Amendments
import AfriPay.Payments.Retry
import AfriPay.Calls.Projection
import AfriPay.Payments.Declared
import AfriPay.Text.Regex
import AfriPay.Text.Patterns
import AfriPay.Text.Canonical
import AfriPay.Wallet.Display
import AfriPay.Text.Scanner
import AfriPay.Payments.StoredAmount
import AfriPay.Text.Base64
import AfriPay.Text.Utf8
import AfriPay.Text.NumberText
import AfriPay.Wallet.Encryption
import AfriPay.Text.JsonRoundTrip
import AfriPay.Wallet.RoundTrip
import AfriPay.Wallet.NativeWallet
import AfriPay.Contracts.MultisigCoalitions
import AfriPay.Contracts.Independence
import AfriPay.Momo.Reconciliation
import AfriPay.Text.Doubles
import AfriPay.Text.NumberReading
import AfriPay.Rates.Service
import AfriPay.Rates.Serving
import AfriPay.Calls.Possible
import AfriPay.Payments.Completion
import AfriPay.Calls.Gate
import AfriPay.Calls.Traces
import AfriPay.Stellar.Controller
import AfriPay.Auth.ApiKeyGuard
import AfriPay.Server.App
import AfriPay.Server.Guarded
import AfriPay.Stellar.Relay
import AfriPay.Calls.Effects
import AfriPay.Wallet.Provider
import AfriPay.Wallet.Tabs
import AfriPay.Text.DoubleOrder
import AfriPay.Wallet.SendForm
import AfriPay.Wallet.FormPaid
import AfriPay.Payments.LinkLife
import AfriPay.Wallet.RequestPanel
import AfriPay.Wallet.RequestPaid
