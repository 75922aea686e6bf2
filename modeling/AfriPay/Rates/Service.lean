import AfriPay.Calls.Program
import AfriPay.Exception
import AfriPay.Text.JsonText

/-!
# Exchange rates (`rates/rates.service.ts`, `rates/rates.controller.ts`)

A rate is asked of the provider and kept in Redis for a quarter of an hour, as the
text of the whole result. Redis may fail at any time, and any number of instances
share it.
-/

namespace AfriPay.Rates
open Calls Text

structure Deployment where
  /-- `process.env.OPEN_EXCHANGE_RATES_APP_ID` as a template writes it. -/
  appId : String
  toUpperCase : String → String
  /-- `new Date(t).toISOString()` -/
  toISOString : Timestamp → String

structure RateResult where
  from_ : String
  to_ : String
  rate : JsNumber
  source : String
  timestamp : String

def cacheTtlSeconds : Nat := 60 * 15

/-- What `fetch` and reading the body come to. `clock` is `Date.now()` of the instance after it. -/
inductive FetchAnswer where
  | unreachable (message : String)
  | rejected (status : Nat)
  | unreadable (message : String)
  | body (text : String) (clock : Timestamp)

/-- The operations awaited. `set` has the expiry `cacheTtlSeconds`. -/
inductive Op where
  | get (key : String)
  | set (key value : String)
  | fetch (url : String)

/-- `none` and `false` where Redis throws. -/
def Op.Answer : Op → Type
  | .get _ => Option (Option String)
  | .set .. => Bool
  | .fetch _ => FetchAnswer

abbrev RatesProg := Prog Op Op.Answer Exception

/-- The result as an object. -/
def RateResult.json (r : RateResult) : Json :=
  .obj [("from", .str r.from_), ("to", .str r.to_), ("rate", .num r.rate), ("source", .str r.source), ("timestamp", .str r.timestamp)]

/-- `v?.[key]`. The properties of a text are no numbers, and are left out. -/
def element (key : String) : Option Json → Option Json
  | some (.obj fields) => (Json.obj fields).prop key
  | some (.arr xs) => (xs.zipIdx.find? fun x => toString x.2 = key).map Prod.fst
  | _ => none

/-- `data.rates` -/
def ratesOf : Json → Except Exception (Option Json)
  | .null => .error (.error "Cannot read properties of null (reading 'rates')")
  | data => .ok (data.prop "rates")

namespace RatesService

variable (d : Deployment)

def cacheKey (from_ to_ : String) : String := "rate:" ++ d.toUpperCase from_ ++ ":" ++ d.toUpperCase to_

def providerUrl (from_ to_ : String) : String :=
  "https://openexchangerates.org/api/latest.json?app_id=" ++ d.appId ++ "&base=" ++ d.toUpperCase from_ ++ "&symbols=" ++ d.toUpperCase to_

/-- What `fetchFromProvider` makes of the answer. -/
def rateOf (from_ to_ : String) : FetchAnswer → Except Exception RateResult
  | .unreachable message => .error (.error message)
  | .rejected status => .error (.error ("Exchange rate provider error: " ++ toString status))
  | .unreadable message => .error (.error message)
  | .body text clock =>
    match jsonParse text with
    | none => .error (.error ("Unexpected token in JSON: " ++ text))
    | some data => do
      match element (d.toUpperCase to_) (← ratesOf data) with
      | some (.num rate) =>
        return { from_ := d.toUpperCase from_, to_ := d.toUpperCase to_, rate, source := "openexchangerates.org", timestamp := d.toISOString clock }
      | _ => throw (.error ("No rate found for " ++ from_ ++ " -> " ++ to_))

def fetchFromProvider (from_ to_ : String) : RatesProg RateResult := do
  let response ← (Prog.await (Op.fetch (providerUrl d from_ to_)) : RatesProg FetchAnswer)
  Prog.ofExcept (rateOf d from_ to_ response)

/-- What is made of Redis' answer: a value that can be read, or none. -/
def parseCached : Option (Option String) → Except Exception (Option Json)
  | none => .error (.error "Redis unavailable")
  | some none => .ok none
  | some (some cached) =>
    if cached = "" then .ok none
    else match jsonParse cached with
      | some v => .ok (some v)
      | none => .error (.error ("Unexpected token in JSON: " ++ cached))

/-- The first `try`. -/
def readCache (key : String) : RatesProg (Option Json) :=
  tryCatch (do
    let cached ← (Prog.await (Op.get key) : RatesProg (Option (Option String)))
    Prog.ofExcept (parseCached cached))
    fun _ => return none

/-- The second `try`. -/
def writeCache (key value : String) : RatesProg Unit :=
  tryCatch (do
    match ← (Prog.await (Op.set key value) : RatesProg Bool) with
    | true => return ()
    | false => throw (.error "Redis unavailable"))
    fun _ => return ()

def getRate (from_ to_ : String) : RatesProg Json := do
  let key := cacheKey d from_ to_
  match ← readCache key with
  | some cached => return cached
  | none =>
    let result ← fetchFromProvider d from_ to_
    writeCache key (jsonStringify result.json)
    return result.json

end RatesService

namespace RatesController

/-- The query parameters `from` and `to`. -/
structure Query where
  from_ : Option String
  to_ : Option String
  deriving DecidableEq

def getRate (d : Deployment) (query : Query) : RatesProg Json :=
  match query.from_, query.to_ with
  | some from_, some to_ =>
    if from_ = "" ∨ to_ = "" then throw (.badRequest "Both \"from\" and \"to\" query params are required")
    else RatesService.getRate d from_ to_
  | _, _ => throw (.badRequest "Both \"from\" and \"to\" query params are required")

end RatesController

end AfriPay.Rates
