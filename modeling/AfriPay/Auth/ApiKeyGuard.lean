import AfriPay.Auth.RateLimitGuard
import AfriPay.Text.Utf8

/-!
# Secrets (`auth/api-key.guard.ts`, `momo/momo-webhook.guard.ts`)

A request shows the service's key in a header, a provider's callback its token in
the query. Either is compared byte by byte, and in production nothing passes where
no secret is configured.
-/

namespace AfriPay.Auth
open Text

/-- The environment variables the guards read. -/
structure Environment where
  nodeEnv : Option String
  apiKey : Option String
  apiRateLimit : Option String
  /-- `MTN_MOMO_WEBHOOK_TOKEN` -/
  webhookToken : Option String

/-- Node's `timingSafeEqual`, for buffers of one length. -/
def timingSafeEqual (a b : List UInt8) : Bool := (a.zip b).all fun x => x.1 = x.2

def sameBytes (expected actual : List UInt8) : Bool := decide (expected.length = actual.length) && timingSafeEqual expected actual

def unauthorized (message : String) : HttpException := ⟨message, 401⟩

/-- `request.headers['x-api-key']` -/
inductive Header where
  | one (value : String)
  | many (values : List String)

/-- `Array.isArray(supplied) ? supplied[0] : supplied` -/
def Header.first : Header → Option String
  | .one value => some value
  | .many values => values.head?

/-- `process.env.API_KEY?.trim()`, absent where it is empty. -/
def Environment.key (env : Environment) : Option String := (env.apiKey.map trim).filter (· ≠ "")

def Environment.production (env : Environment) : Bool := env.nodeEnv = some "production"

namespace ApiKeyGuard

def canActivate (env : Environment) (supplied : Option Header) : Except HttpException Bool :=
  match env.key with
  | none => if env.production then .error (unauthorized "API authentication is not configured") else .ok true
  | some configured =>
    match (supplied.bind Header.first).filter (· ≠ "") with
    | none => .error (unauthorized "Missing API key")
    | some value =>
      if !sameBytes (utf8Encode configured) (utf8Encode value) then .error (unauthorized "Invalid API key") else .ok true

end ApiKeyGuard

/-- An element of an array as a byte: `ToNumber`, and then modulo 256. -/
def byteOf (s : String) : UInt8 :=
  match stringToNumber s with
  | .finite q => UInt8.ofNat ((if 0 ≤ q then ⌊q⌋ else ⌈q⌉) % 256).toNat
  | _ => 0

/-- `Buffer.from(value)` -/
def queryBytes : QueryValue → List UInt8
  | .one value => utf8Encode value
  | .many values => values.map byteOf

def verifyWebhookToken (env : Environment) (provided : Option QueryValue) : Bool :=
  match env.webhookToken.filter (· ≠ "") with
  | none => !env.production
  | some webhookToken =>
    match provided with
    | none | some (.one "") => false
    | some value => sameBytes (utf8Encode webhookToken) (queryBytes value)

/-- What a request with this header may do. -/
def Keyed (env : Environment) (supplied : Option Header) : Prop :=
  match env.key with
  | none => env.nodeEnv ≠ some "production"
  | some configured => supplied.bind Header.first = some configured

/-- What a callback with this token may do. -/
def Tokened (env : Environment) (provided : Option QueryValue) : Prop :=
  match env.webhookToken.filter (· ≠ "") with
  | none => env.nodeEnv ≠ some "production"
  | some webhookToken => ∃ value, provided = some value ∧ queryBytes value = utf8Encode webhookToken

theorem timingSafeEqual_iff {a b : List UInt8} (length : a.length = b.length) : timingSafeEqual a b = true ↔ a = b := by
  induction a generalizing b with
  | nil =>
    obtain rfl := List.length_eq_zero_iff.1 length.symm
    simp [timingSafeEqual]
  | cons x a ih =>
    cases b with
    | nil => simp at length
    | cons y b =>
      have rest := ih (Nat.succ.inj length)
      simp only [timingSafeEqual] at rest ⊢
      simp [rest]

theorem sameBytes_iff {a b : List UInt8} : sameBytes a b = true ↔ a = b := by
  rw [sameBytes, Bool.and_eq_true, decide_eq_true_eq]
  constructor
  · rintro ⟨length, same⟩
    exact (timingSafeEqual_iff length).1 same
  · rintro rfl
    exact ⟨rfl, (timingSafeEqual_iff rfl).2 rfl⟩

/-- A text is known by its bytes. -/
theorem utf8Encode_inj {s t : String} (h : utf8Encode s = utf8Encode t) : s = t := by
  have bytes : s.toByteArray = t.toByteArray := by
    rw [← String.utf8Encode_toList, ← String.utf8Encode_toList, List.utf8Encode, List.utf8Encode]
    exact congrArg List.toByteArray h
  exact String.toByteArray_inj.1 bytes

/-- The key passes where it is the one configured, and without one outside production only. -/
theorem canActivate_ok {env : Environment} {supplied : Option Header} : ApiKeyGuard.canActivate env supplied = .ok true ↔ Keyed env supplied := by
  unfold ApiKeyGuard.canActivate Keyed
  cases configured : env.key with
  | none => by_cases production : env.nodeEnv = some "production" <;> simp [Environment.production, production]
  | some key =>
    have given : key ≠ "" := by simpa using (Option.filter_eq_some_iff.1 configured).2
    dsimp only
    cases value : (supplied.bind Header.first).filter (· ≠ "") with
    | none =>
      simp only [reduceCtorEq, false_iff]
      intro same
      rw [same, Option.filter_some, if_pos (by simpa using given)] at value
      cases value
    | some text =>
      obtain ⟨same, -⟩ := Option.filter_eq_some_iff.1 value
      rw [same]
      by_cases equal : key = text
      · simp [equal, sameBytes_iff.2]
      · have other : sameBytes (utf8Encode key) (utf8Encode text) = false :=
          Bool.eq_false_of_not_eq_true fun bytes => equal (utf8Encode_inj (sameBytes_iff.1 bytes))
        simp [other, Ne.symm equal]

theorem verifyWebhookToken_ok {env : Environment} {provided : Option QueryValue} (h : verifyWebhookToken env provided = true) :
    Tokened env provided := by
  unfold verifyWebhookToken at h
  unfold Tokened
  cases configured : env.webhookToken.filter (· ≠ "") with
  | none =>
    rw [configured] at h
    simpa [Environment.production] using h
  | some token =>
    rw [configured] at h
    dsimp only at h ⊢
    split at h
    · cases h
    · cases h
    · exact ⟨_, rfl, (sameBytes_iff.1 h).symm⟩

end AfriPay.Auth
