import AfriPay.Calls.Traces
import AfriPay.Stellar.Acceptance

/-!
# The Stellar controller (`stellar/stellar.controller.ts`)

Accounts, histories and Testnet funds, the relay of signed envelopes to Horizon, and
the preparation, submission and polling of Soroban transactions: the routes, with the
methods of `StellarService` that only they use. What the network says is up to it.
-/

namespace AfriPay.Stellar.Api
open Calls Text

structure Deployment where
  sdk : Sdk
  /-- `process.env.STELLAR_NETWORK || 'testnet'` -/
  network : String

/-- The properties of a Horizon object that name an asset. -/
structure AssetFields where
  assetType : Option String
  assetCode : Option String
  assetIssuer : Option String

structure AccountBalance extends AssetFields where
  balance : String

/-- What `getAccountSummary` reads of an account. -/
structure AccountResponse where
  balances : List AccountBalance
  sequence : String
  subentryCount : Nat

/-- What `getHistory` reads of a payment record. -/
structure OperationRecord extends AssetFields where
  id : String
  type : String
  createdAt : String
  transactionHash : String
  from_ : Option String
  to_ : Option String
  amount : Option String

/-- What a failed request throws: the status of the response, if there is one, and the message, if it is an `Error`. -/
structure RequestError where
  status : Option Nat
  message : Option String

/-- `error instanceof Error ? error.message : other` -/
def RequestError.text (e : RequestError) (other : String) : String := e.message.getD other

/-- What `soroban.sendTransaction` returns. -/
structure SendResponse where
  hash : String
  status : String

inductive Op where
  /-- What the payments ask as well. -/
  | horizon (r : Request)
  | loadAccount (publicKey : String)
  | payments (publicKey : String)
  | friendbot (url : String)
  | prepareTransaction (tx : Transaction)
  | sendTransaction (tx : Transaction)
  | getTransaction (hash : String)

/-- The friendbot answers with a status, and a prepared transaction is its XDR. -/
def Op.Answer : Op → Type
  | .horizon r => r.Answer
  | .loadAccount _ => Except RequestError AccountResponse
  | .payments _ => Except RequestError (List OperationRecord)
  | .friendbot _ => Except RequestError Nat
  | .prepareTransaction _ => Except RequestError String
  | .sendTransaction _ => Except RequestError SendResponse
  | .getTransaction _ => Except RequestError Json

abbrev StellarProg := Prog Op Op.Answer Exception

/-- The service's requests among all. -/
abbrev horizon {α : Type} (p : ServiceProg α) : StellarProg α := .embed Op.horizon (fun _ ans => ans) p

/-- A character `encodeURIComponent` leaves as it is. -/
def unreserved (c : Char) : Bool := c.isAlphanum || "-_.!~*'()".toList.contains c

def percentEncode (b : UInt8) : List Char := '%' :: (hexByte b).map Char.toUpper

def encodeURIComponent (s : String) : String :=
  String.ofList (s.toList.flatMap fun c => if unreserved c then [c] else (String.utf8EncodeChar c).flatMap percentEncode)

/-- `/^[a-f0-9]{64}$/i.test(hash)` -/
def isHashAnyCase (hash : String) : Bool :=
  hash.toList.length = 64 && hash.toList.all fun c => c.isDigit || (decide ('a' ≤ c.toLower) && decide (c.toLower ≤ 'f'))

structure BalanceSummary where
  asset : String
  code : Option String
  issuer : Option String
  balance : String
  assetType : Option String

structure AccountSummary where
  publicKey : String
  activated : Bool
  balances : List BalanceSummary
  sequence : String
  subentryCount : Nat

structure HistoryRecord where
  id : String
  type : String
  createdAt : String
  transactionHash : String
  from_ : Option String
  to_ : Option String
  amount : Option String
  asset : String
  assetType : String

structure Prepared where
  xdr : String
  network : String

structure Sent where
  hash : String
  status : String
  explorerUrl : String

structure Funded where
  status : String
  network : String

namespace StellarService

variable (d : Deployment)

def assetName (value : AssetFields) : String :=
  if value.assetType = some "native" then "XLM"
  else if value.assetCode.getD "" ≠ "" ∧ value.assetIssuer.getD "" ≠ "" then
    value.assetCode.getD "" ++ ":" ++ value.assetIssuer.getD ""
  else value.assetType.getD "unknown"

/-- The checks before an account is asked for. -/
def checkPublicKey (publicKey : String) : Except Exception Unit := do
  assertTestnet d.network
  if !d.sdk.isValidEd25519PublicKey publicKey then throw (.badRequest "Invalid Stellar public key")

/-- `v ?? ''` -/
def orEmpty : Option Json → Json
  | none | some .null => .str ""
  | some v => v

/-- `parseTestnetTransaction`. Of anything but a string there is no `trim` to call. -/
def parseTestnetTransaction (xdr publicKey : Json) : Except Exception Transaction :=
  match stringOf (some xdr) with
  | some xdr => do
    let some publicKey := publicKeyOf d.sdk (some publicKey) | throw (.badRequest "A signed transaction and valid public key are required")
    if xdr.trim = .text "" then throw (.badRequest "A signed transaction and valid public key are required")
    let some envelope := d.sdk.fromXDR xdr | throw (.badRequest "Invalid Testnet transaction XDR")
    let .transaction tx := envelope | throw (.badRequest "Transaction source does not match wallet")
    if tx.source ≠ publicKey then throw (.badRequest "Transaction source does not match wallet")
    return tx
  | none => throw (.error "xdr?.trim is not a function")

def sorobanEnvelope (xdr publicKey : Json) : Except Exception Transaction := do
  assertTestnet d.network
  parseTestnetTransaction d xdr publicKey

def prepareSorobanTransaction (xdr publicKey : Json) : StellarProg Prepared := do
  let transaction ← .ofExcept (sorobanEnvelope d xdr publicKey)
  match ← (Prog.await (Op.prepareTransaction transaction) : StellarProg (Except RequestError String)) with
  | .ok xdr => return { xdr, network := "testnet" }
  | .error e => throw (.serviceUnavailable ("Soroban simulation/preparation failed: " ++ e.text "RPC error"))

def submitSorobanTransaction (xdr publicKey : Json) : StellarProg Sent := do
  let transaction ← .ofExcept (sorobanEnvelope d xdr publicKey)
  match ← (Prog.await (Op.sendTransaction transaction) : StellarProg (Except RequestError SendResponse)) with
  | .ok result =>
    return { hash := result.hash, status := result.status, explorerUrl := "https://stellar.expert/explorer/testnet/tx/" ++ result.hash }
  | .error e => throw (.serviceUnavailable ("Soroban submission failed: " ++ e.text "RPC error"))

/-- The checks of `getSorobanTransaction`. -/
def checkSorobanHash (hash : String) : Except Exception Unit := do
  assertTestnet d.network
  if !isHashAnyCase hash then throw (.badRequest "Invalid transaction hash")

def getSorobanTransaction (hash : String) : StellarProg Json := do
  .ofExcept (checkSorobanHash d hash)
  match ← (Prog.await (Op.getTransaction hash) : StellarProg (Except RequestError Json)) with
  | .ok transaction => return transaction
  | .error e => throw (.serviceUnavailable ("Unable to poll Soroban transaction: " ++ e.text "RPC error"))

def loadAccount (publicKey : String) : StellarProg AccountResponse := do
  .ofExcept (checkPublicKey d publicKey)
  match ← (Prog.await (Op.loadAccount publicKey) : StellarProg (Except RequestError AccountResponse)) with
  | .ok account => return account
  | .error e =>
    if e.status = some 404 then throw (.notFound "Stellar account is not activated")
    else throw (.serviceUnavailable ("Unable to load Stellar account: " ++ e.text "network error"))

def balanceSummary (balance : AccountBalance) : BalanceSummary :=
  let native := balance.assetType = some "native"
  { asset := assetName balance.toAssetFields, code := if native then some "XLM" else balance.assetCode,
    issuer := if native then none else balance.assetIssuer, balance := balance.balance, assetType := balance.assetType }

def getAccountSummary (publicKey : String) : StellarProg AccountSummary := do
  let account ← loadAccount d publicKey
  return { publicKey, activated := true, balances := account.balances.map balanceSummary, sequence := account.sequence,
           subentryCount := account.subentryCount }

def historyRecord (record : OperationRecord) : HistoryRecord :=
  { record with asset := assetName record.toAssetFields, assetType := record.assetType.getD record.type }

/-- The fifty latest payments. -/
def getHistory (publicKey : String) : StellarProg (List HistoryRecord) := do
  .ofExcept (checkPublicKey d publicKey)
  match ← (Prog.await (Op.payments publicKey) : StellarProg (Except RequestError (List OperationRecord))) with
  | .ok records => return records.map historyRecord
  | .error e => throw (.serviceUnavailable ("Unable to load transaction history: " ++ e.text "network error"))

def friendbotUrl (publicKey : String) : String := "https://friendbot.stellar.org?addr=" ++ encodeURIComponent publicKey

def fundTestnet (publicKey : String) : StellarProg Funded := do
  .ofExcept (checkPublicKey d publicKey)
  match ← (Prog.await (Op.friendbot (friendbotUrl publicKey)) : StellarProg (Except RequestError Nat)) with
  | .ok status =>
    if status < 200 ∨ 299 < status then
      throw (.serviceUnavailable ("Testnet funding failed: Friendbot returned " ++ toString status))
    else return { status := "funded", network := "testnet" }
  | .error e => throw (.serviceUnavailable ("Testnet funding failed: " ++ e.text "network error"))

end StellarService

/-- The requests, with their bodies as they arrive. -/
inductive HttpRequest where
  /-- `GET /stellar/accounts/:publicKey` -/
  | account (publicKey : String)
  /-- `GET /stellar/accounts/:publicKey/history` -/
  | history (publicKey : String)
  /-- `POST /stellar/submit` -/
  | submit (body : Option Json)
  /-- `POST /stellar/soroban/prepare` -/
  | prepareSoroban (body : Option Json)
  /-- `POST /stellar/soroban/submit` -/
  | submitSoroban (body : Option Json)
  /-- `GET /stellar/soroban/transactions/:hash` -/
  | getSoroban (hash : String)
  /-- `POST /stellar/accounts/:publicKey/fund-testnet` -/
  | fund (publicKey : String)

inductive Response where
  | account (summary : AccountSummary)
  | history (records : List HistoryRecord)
  | submission (submission : Submission)
  | prepared (prepared : Prepared)
  | sent (sent : Sent)
  | transaction (transaction : Json)
  | funded (funded : Funded)

namespace StellarController

variable (d : Deployment)

/-- What `submit` checks before it hands the envelope on. -/
def checkSubmit (body : Option Json) : Except Exception JsString :=
  if !truthy (bodyProp body "signedXdr") || !truthy (bodyProp body "publicKey") then
    throw (.badRequest "signedXdr and publicKey are required")
  else match stringOf (bodyProp body "signedXdr") with
    | some signedXdr => do
      let some envelope := d.sdk.fromXDR signedXdr | throw (.badRequest "Invalid signed transaction")
      let .transaction tx := envelope | throw (.badRequest "Transaction source does not match wallet")
      if !isString tx.source (bodyProp body "publicKey") then throw (.badRequest "Transaction source does not match wallet")
      return signedXdr
    | none => throw (.badRequest "Invalid signed transaction")

def submit (body : Option Json) : StellarProg Submission := do
  let signedXdr ← .ofExcept (checkSubmit d body)
  horizon (submitSignedTransaction d.sdk d.network signedXdr none none)

def handle : HttpRequest → StellarProg Response
  | .account publicKey => .account <$> StellarService.getAccountSummary d publicKey
  | .history publicKey => .history <$> StellarService.getHistory d publicKey
  | .submit body => .submission <$> submit d body
  | .prepareSoroban body => .prepared <$> StellarService.prepareSorobanTransaction d (StellarService.orEmpty (bodyProp body "xdr"))
      (StellarService.orEmpty (bodyProp body "publicKey"))
  | .submitSoroban body => .sent <$> StellarService.submitSorobanTransaction d (StellarService.orEmpty (bodyProp body "signedXdr"))
      (StellarService.orEmpty (bodyProp body "publicKey"))
  | .getSoroban hash => .transaction <$> StellarService.getSorobanTransaction d hash
  | .fund publicKey => .funded <$> StellarService.fundTestnet d publicKey

end StellarController

/-- Any number of requests; the network answers as it likes. -/
def stellar (d : Deployment) : System HttpRequest Op Op.Answer Exception Response Unit :=
  ⟨StellarController.handle d, fun _ _ _ _ => True⟩

end AfriPay.Stellar.Api
