import AfriPay.Momo.Service

/-!
# Access tokens (`momo/momo-auth.service.ts`)

A token is kept per product until shortly before it expires. Calls of `getToken`
may refresh it at the same time; each stores what it has got, whichever comes
last. Lifetimes are numbers of seconds and taken as exact.
-/

namespace AfriPay.Momo.Auth
open Calls Text

structure MomoProductConfig where
  subscriptionKey : String
  apiUser : String
  apiKey : String

/-- The configuration that `getMomoConfig` reads for the products, and the platform's `base64`. -/
structure Credentials where
  deployment : Momo.Deployment
  productConfig : MomoTransactionType → MomoProductConfig
  base64 : String → String

structure CachedToken where
  accessToken : String
  /-- In milliseconds since the epoch. -/
  expiresAt : ℚ

/-- What the code reads of a `MomoTokenResponse`. `issuedAt` is the provider's
time, which the code does not learn. -/
structure MomoTokenResponse where
  accessToken : String
  /-- In seconds. -/
  expiresIn : ℚ
  issuedAt : Timestamp

/-- When the provider stops to accept a token. -/
def MomoTokenResponse.expiry (response : MomoTokenResponse) : ℚ := response.issuedAt + 1000 * response.expiresIn

structure TokenRequest where
  product : MomoTransactionType
  url : String
  authorization : String
  subscriptionKey : String

/-- What `fetch` and reading the body come to. -/
inductive TokenAnswer where
  | unreachable
  | rejected (status : Nat)
  | unreadable (message : String)
  | token (response : MomoTokenResponse)

/-- The segments of `getToken` between its awaits, and the request. -/
inductive Op where
  /-- `this.cache.get(product)` and `Date.now()` -/
  | lookup (product : MomoTransactionType)
  | request (request : TokenRequest)
  /-- `Date.now()` and `this.cache.set(product, ...)` -/
  | store (product : MomoTransactionType) (response : MomoTokenResponse)
  | clear

def Op.Answer : Op → Type
  | .lookup _ => Option CachedToken × Timestamp
  | .request _ => TokenAnswer
  | .store .. => Unit
  | .clear => Unit

def expiryBufferMs : Nat := 60000

def requestTimeoutMs : Nat := 15000

/-- The clock, the cache, and the tokens issued so far. -/
structure World where
  now : Timestamp
  cache : MomoTransactionType → Option CachedToken
  issued : List (MomoTransactionType × MomoTokenResponse)

def World.initial (now : Timestamp) : World := ⟨now, fun _ => none, []⟩

def cachedAt (response : MomoTokenResponse) (now : Timestamp) : CachedToken :=
  { accessToken := response.accessToken, expiresAt := now + response.expiresIn * 1000 - expiryBufferMs }

/-- What an operation answers and does. Time passes at will, but a token is
stored before the request for it times out, counted from when it was issued. -/
def exec : (op : Op) → World → op.Answer → World → Prop
  | .lookup product, w, ans, w' => ∃ now, w.now ≤ now ∧ ans = (w.cache product, now) ∧ w' = { w with now }
  | .request request, w, ans, w' => ∃ now, w.now ≤ now ∧ match (ans : TokenAnswer) with
    | .token response => response.issuedAt ≤ now ∧ w' = { w with now, issued := (request.product, response) :: w.issued }
    | _ => w' = { w with now }
  | .store product response, w, _, w' => ∃ now, w.now ≤ now ∧ now < response.issuedAt + requestTimeoutMs ∧
    w' = { w with now, cache := Function.update w.cache product (some (cachedAt response now)) }
  | .clear, w, _, w' => w' = { w with cache := fun _ => none }

abbrev AuthProg := Prog Op Op.Answer Exception

/-- `/collection/token/` and `/disbursement/token/` -/
def tokenPath : MomoTransactionType → String
  | .collection => "/collection/token/"
  | .disbursement => "/disbursement/token/"

def productUpper : MomoTransactionType → String
  | .collection => "COLLECTION"
  | .disbursement => "DISBURSEMENT"

def assertProductConfig (config : MomoProductConfig) (product : MomoTransactionType) : Except Exception Unit :=
  if config.subscriptionKey = "" ∨ config.apiUser = "" ∨ config.apiKey = "" then
    .error (.error ("MTN MoMo " ++ product.product ++ " is not configured. Set MTN_MOMO_API_KEY, " ++
      "MTN_MOMO_" ++ productUpper product ++ "_API_USER and MTN_MOMO_" ++ productUpper product ++ "_API_SECRET."))
  else .ok ()

variable (d : Credentials)

def requestToken (product : MomoTransactionType) (config : MomoProductConfig) (baseUrl : String) : AuthProg MomoTokenResponse := do
  let basicAuth := d.base64 (config.apiUser ++ ":" ++ config.apiKey)
  let request : TokenRequest :=
    { product, url := baseUrl ++ tokenPath product, authorization := "Basic " ++ basicAuth, subscriptionKey := config.subscriptionKey }
  match ← (Prog.await (Op.request request) : AuthProg TokenAnswer) with
  | .unreachable => throw (.badGateway ("Unable to reach MTN MoMo " ++ product.product ++ " service") none)
  | .rejected status => throw (.badGateway ("MTN MoMo " ++ product.product ++ " authentication failed") (some status))
  | .unreadable message => throw (.error message)
  | .token response => return response

/-- What follows when there is no cached token to return. -/
def refresh (product : MomoTransactionType) : AuthProg String := do
  let config ← Prog.ofExcept (getMomoConfig d.deployment)
  let productConfig := d.productConfig product
  Prog.ofExcept (assertProductConfig productConfig product)
  let token ← requestToken d product productConfig config.baseUrl
  (Prog.await (Op.store product token) : AuthProg Unit)
  return token.accessToken

def getToken (product : MomoTransactionType) : AuthProg String := do
  let (cached, now) ← (Prog.await (Op.lookup product) : AuthProg (Option CachedToken × Timestamp))
  match cached.filter fun cached => decide ((now : ℚ) < cached.expiresAt) with
  | some cached => return cached.accessToken
  | none => refresh d product

inductive Call where
  | getToken (product : MomoTransactionType)
  | reset

def Call.body : Call → AuthProg (Option String)
  | .getToken product => some <$> Auth.getToken d product
  | .reset => (fun _ => none) <$> (Prog.await Op.clear : AuthProg Unit)

/-- Any number of calls, of any clients. -/
def auth : System Call Op Op.Answer Exception (Option String) World := ⟨Call.body d, exec⟩

abbrev AuthConfig := Config Call Op Op.Answer Exception (Option String) World
abbrev AuthState := Shared Call Op Op.Answer World

/-- Reachable from an empty cache, at any time. -/
def Reachable (cfg : AuthConfig) : Prop := ∃ now, (auth d).Steps (.initial (.initial now)) cfg

/-! ## What is cached -/

/-- The provider issued the token for the product. -/
def Issued (w : World) (product : MomoTransactionType) (response : MomoTokenResponse) : Prop := (product, response) ∈ w.issued

/-- A cached token was issued for its product, and lives 45 seconds longer than the cache says at least. -/
def Inv (w : World) : Prop :=
  ∀ product cached, w.cache product = some cached → ∃ response, Issued w product response ∧ response.accessToken = cached.accessToken ∧
    cached.expiresAt + 45000 < response.expiry

/-- What no operation undoes. -/
def Grows (w w' : World) : Prop := ∀ product response, Issued w product response → Issued w' product response

section Exec

variable {op : Op} {ans : op.Answer} {w w' : World}

theorem exec_grows (h : exec op w ans w') : Grows w w' := by
  intro product response issued
  cases op with
  | lookup p =>
    obtain ⟨now, -, -, rfl⟩ := h
    exact issued
  | request r =>
    obtain ⟨now, -, h⟩ := h
    cases (ans : TokenAnswer) with
    | token response' =>
      obtain ⟨-, rfl⟩ := h
      exact List.mem_cons_of_mem _ issued
    | _ =>
      obtain rfl := h
      exact issued
  | store p r =>
    obtain ⟨now, -, -, rfl⟩ := h
    exact issued
  | clear =>
    obtain rfl := h
    exact issued

/-- A token stored in time lives longer than the cache will use it. -/
theorem cachedAt_expiry {response : MomoTokenResponse} {now : Timestamp} (inTime : now < response.issuedAt + requestTimeoutMs) :
    (cachedAt response now).expiresAt + 45000 < response.expiry := by
  have late : (now : ℚ) < response.issuedAt + 15000 := by exact_mod_cast inTime
  show now + response.expiresIn * 1000 - ((60000 : Nat) : ℚ) + 45000 < response.issuedAt + 1000 * response.expiresIn
  push_cast
  linarith

theorem Inv.exec (inv : Inv w) (h : Auth.exec op w ans w') (issued : ∀ product response, op = .store product response → Issued w product response) :
    Inv w' := by
  have grows : Grows w w' := exec_grows h
  -- a cache that is as before, or loses something
  have kept : (∀ product, w'.cache product = w.cache product ∨ w'.cache product = none) → Inv w' := by
    intro same product cached here
    rcases same product with same | gone
    · rw [same] at here
      obtain ⟨response, issued, token, lives⟩ := inv product cached here
      exact ⟨response, grows product response issued, token, lives⟩
    · rw [gone] at here
      cases here
  cases op with
  | lookup p =>
    obtain ⟨now, -, -, rfl⟩ := h
    exact kept fun _ => .inl rfl
  | request r =>
    obtain ⟨now, -, h⟩ := h
    cases (ans : TokenAnswer) with
    | token response =>
      obtain ⟨-, rfl⟩ := h
      exact kept fun _ => .inl rfl
    | _ =>
      obtain rfl := h
      exact kept fun _ => .inl rfl
  | store p r =>
    obtain ⟨now, -, inTime, rfl⟩ := h
    intro product cached here
    dsimp only at here
    by_cases own : product = p
    · subst own
      rw [Function.update_self] at here
      cases here
      exact ⟨r, issued product r rfl, rfl, cachedAt_expiry inTime⟩
    · rw [Function.update_of_ne own] at here
      exact inv product cached here
  | clear =>
    obtain rfl := h
    exact kept fun _ => .inr rfl

end Exec

/-! ## All calls together -/

def protocol : Protocol (auth d) := ⟨fun s => Inv s.world, fun s _ s' => Grows s.world s'.world⟩

/-- The last thing done was to look into the cache. -/
def Looked (s : AuthState) : Prop := ∃ e rest product, s.log = e :: rest ∧ e.op = .lookup product

/-- What a call returns: a token issued for its product, which lives on for more
than 45 seconds if it was read from the cache just now. -/
def Returns (product : MomoTransactionType) (token : String) (s : AuthState) : Prop :=
  ∃ response, Issued s.world product response ∧ response.accessToken = token ∧ (Looked s → (s.world.now : ℚ) + 45000 < response.expiry)

def Post : Nat → Call → Option String → AuthState → Prop
  | _, .getToken product, some token, s => Returns product token s
  | _, .getToken _, none, _ => False
  | _, .reset, _, _ => True

section Calls

variable {d} {tid : Nat} {c : Call} {s s' : AuthState} {product : MomoTransactionType}

theorem others_grows (others : (protocol d).Others tid s s') : Grows s.world s'.world := by
  induction others with
  | refl => exact fun _ _ issued => issued
  | tail _ step ih =>
    obtain ⟨e, -, -, -, guar, -⟩ := step
    exact fun product response issued => guar product response (ih product response issued)

/-- An operation that stores nothing keeps the protocol. -/
theorem keeps {e : Event Call Op Op.Answer} (inv : Inv s.world) (does : (auth d).Does s e s')
    (issued : ∀ product response, e.op = .store product response → Issued s.world product response) :
    Inv s'.world ∧ Grows s.world s'.world := ⟨inv.exec does.1 issued, exec_grows does.1⟩

theorem safe_requestToken {config : MomoProductConfig} {baseUrl : String} :
    (protocol d).Safe tid c (fun response s' => Issued s'.world product response) (fun _ _ => True) (requestToken d product config baseUrl) s := by
  intro s₁ others inv ans s₂ does
  obtain ⟨inv', grows⟩ := keeps inv does nofun
  refine ⟨inv', grows, ?_⟩
  obtain ⟨now, -, h⟩ := does.1
  cases (ans : TokenAnswer) with
  | token response =>
    obtain ⟨-, after⟩ := h
    show Issued s₂.world product response
    rw [after]
    exact List.mem_cons_self
  | _ => trivial

theorem safe_refresh : (protocol d).Safe tid c (Returns product) (fun _ _ => True) (refresh d product) s := by
  unfold refresh
  refine Protocol.safe_bind.2 (Protocol.safe_ofExcept.2 ⟨fun config _ => ?_, fun _ _ => trivial⟩)
  refine Protocol.safe_bind.2 (Protocol.safe_ofExcept.2 ⟨fun _ _ => ?_, fun _ _ => trivial⟩)
  refine Protocol.safe_bind.2 (Protocol.safe_mono safe_requestToken fun response s issued => ?_)
  intro s₁ others inv ans s₂ does
  obtain ⟨inv', grows⟩ := keeps inv does (by
    rintro _ _ ⟨⟩
    exact others_grows others product response issued)
  refine ⟨inv', grows, response, grows product response (others_grows others product response issued), rfl, ?_⟩
  rintro ⟨e, rest, p, log, looked⟩
  rw [does.2] at log
  cases log
  cases looked

theorem safe_getToken : (protocol d).Safe tid c (Returns product) (fun _ _ => True) (getToken d product) s := by
  intro s₁ others inv ans s₂ does
  obtain ⟨inv', grows⟩ := keeps inv does nofun
  refine ⟨inv', grows, ?_⟩
  obtain ⟨now, -, answer, after⟩ := does.1
  subst answer
  show (protocol d).Safe tid c _ _ (match (s₁.world.cache product).filter fun cached => decide ((now : ℚ) < cached.expiresAt) with
    | some cached => .ret cached.accessToken
    | none => refresh d product) s₂
  cases fresh : (s₁.world.cache product).filter fun cached => decide ((now : ℚ) < cached.expiresAt) with
  | none => exact safe_refresh
  | some cached =>
    obtain ⟨here, live⟩ := Option.filter_eq_some_iff.1 fresh
    obtain ⟨response, issued, token, lives⟩ := inv product cached here
    refine ⟨response, grows product response issued, token, fun _ => ?_⟩
    have live : (now : ℚ) < cached.expiresAt := of_decide_eq_true live
    rw [after]
    show (now : ℚ) + 45000 < response.expiry
    linarith

theorem sound : (protocol d).Sound Post := by
  intro tid c s inv _
  cases c with
  | getToken product => exact Protocol.safe_bind.2 (Protocol.safe_mono safe_getToken fun _ _ returns => returns)
  | reset =>
    intro s₁ others inv ans s₂ does
    obtain ⟨inv', grows⟩ := keeps inv does nofun
    exact ⟨inv', grows, trivial⟩

end Calls

section Cached

variable {d} {cfg cfg' : AuthConfig}

theorem holds (run : Reachable d cfg) : (protocol d).Holds Post cfg := by
  obtain ⟨now, steps⟩ := run
  have empty : Inv (.initial now) := by rintro product cached ⟨⟩
  exact Protocol.reach sound (Protocol.Holds.initial empty) steps

/-- **A cached token is never stale.** In any run of any calls, a call that returns from
its look into the cache, at the time it reads there, returns a token that was issued for
the requested product and expires more than 45 seconds later. -/
theorem cached_never_stale (run : Reachable d cfg) (step : (auth d).Step cfg cfg') {tid : Nat} {product p : MomoTransactionType}
    {next : Op.Answer (.lookup p) → AuthProg (Option String)} {token : String}
    (waiting : cfg.calls[tid]? = some (.getToken product, .act (.lookup p) next))
    (returned : cfg'.calls[tid]? = some (.getToken product, .ret (some token))) :
    ∃ response : MomoTokenResponse, (product, response) ∈ cfg'.shared.world.issued ∧ response.accessToken = token ∧
      (cfg'.shared.world.now : ℚ) + 45000 < response.issuedAt + 1000 * response.expiresIn := by
  obtain ⟨response, issued, same, lives⟩ := (holds run).returns step waiting returned
  refine ⟨response, issued, same, lives ?_⟩
  have lt : tid < cfg.calls.length := (List.getElem?_eq_some_iff.1 waiting).1
  cases step with
  | start c =>
    rw [List.getElem?_append_left lt, waiting] at returned
    cases returned
  | @act tid' c op next' ans s' waiting' does =>
    by_cases own : tid' = tid
    · subst own
      rw [waiting] at waiting'
      cases waiting'
      exact ⟨_, _, p, does.2, rfl⟩
    · rw [List.getElem?_set_ne own, waiting] at returned
      cases returned

end Cached

/-! ## A chosen run -/

/-- When an operation happens, and what the provider answers. -/
inductive Choice where
  | clock (now : Timestamp)
  | token (now : Timestamp) (response : MomoTokenResponse)

def effect : Effect Op Op.Answer World Choice
  | .clock now, .lookup product, w => if w.now ≤ now then some ((w.cache product, now), { w with now }) else none
  | .token now response, .request request, w =>
    if w.now ≤ now ∧ response.issuedAt ≤ now then some (.token response, { w with now, issued := (request.product, response) :: w.issued })
    else none
  | .clock now, .store product response, w =>
    if w.now ≤ now ∧ now < response.issuedAt + requestTimeoutMs then
      some ((), { w with now, cache := Function.update w.cache product (some (cachedAt response now)) })
    else none
  | _, _, _ => none

theorem effect_exec (x : Choice) (op : Op) (w : World) (ans : op.Answer) (w' : World) (h : effect x op w = some (ans, w')) :
    exec op w ans w' := by
  unfold effect at h
  split at h
  · split at h
    · rename_i now product le; cases h; exact ⟨now, le, rfl, rfl⟩
    · cases h
  · split at h
    · rename_i now response request le; cases h; exact ⟨now, le.1, le.2, rfl⟩
    · cases h
  · split at h
    · rename_i now product response le; cases h; exact ⟨now, le.1, le.2, rfl⟩
    · cases h
  · cases h

namespace Sample

def credentials : Credentials := ⟨Momo.Sample.deployment false, fun _ => ⟨"key", "user", "secret"⟩, fun text => text⟩

/-- One call stores a token for an hour; the next is about to look. -/
def refreshed : List (Scheduled Call Choice) :=
  [.start (.getToken .collection), .act 0 (.clock 1000), .act 0 (.token 1500 ⟨"token", 3600, 1200⟩), .act 0 (.clock 1500),
   .start (.getToken .collection)]

/-- Call 1 is about to look into the cache. -/
def looking (cfg : AuthConfig) : Bool :=
  match (cfg.calls[1]? : Option (Call × AuthProg (Option String))) with
  | some (.getToken .collection, .act (.lookup .collection) _) => true
  | _ => false

/-- Call 1 has returned this token. -/
def returned (cfg : AuthConfig) : Option String :=
  match (cfg.calls[1]? : Option (Call × AuthProg (Option String))) with
  | some (.getToken .collection, .ret token) => token
  | _ => none

theorem looking_eq {cfg : AuthConfig} (h : looking cfg = true) :
    ∃ next, cfg.calls[1]? = some (.getToken .collection, .act (.lookup .collection) next) := by
  unfold looking at h
  split at h
  · rename_i next waiting; exact ⟨next, waiting⟩
  · cases h

theorem returned_eq {cfg : AuthConfig} {token : String} (h : returned cfg = some token) :
    cfg.calls[1]? = some (.getToken .collection, .ret (some token)) := by
  unfold returned at h
  split at h
  · rename_i here; rw [here, h]
  · cases h

end Sample

theorem cached_never_stale_sample : ∃ cfg' : AuthConfig, Sample.returned cfg' = some "token" ∧ ∃ response : MomoTokenResponse,
    (MomoTransactionType.collection, response) ∈ cfg'.shared.world.issued ∧ response.accessToken = "token" ∧
      (cfg'.shared.world.now : ℚ) + 45000 < response.issuedAt + 1000 * response.expiresIn := by
  have ran : ((auth Sample.credentials).replay effect Sample.refreshed (.initial (.initial 0))).any (fun cfg => Sample.looking cfg &&
      ((auth Sample.credentials).after effect cfg (.act 1 (.clock 3540000))).any fun cfg' => decide (Sample.returned cfg' = some "token"))
        = true := by
    decide +kernel
  obtain ⟨cfg, ran, both⟩ := (Option.any_eq_true _ _).1 ran
  obtain ⟨looking, later⟩ := Bool.and_eq_true_iff.1 both
  obtain ⟨cfg', stepped, returned⟩ := (Option.any_eq_true _ _).1 later
  have returned : Sample.returned cfg' = some "token" := of_decide_eq_true returned
  obtain ⟨next, waiting⟩ := Sample.looking_eq looking
  exact ⟨cfg', returned, cached_never_stale ⟨0, System.replay_steps effect_exec ran⟩ (System.after_step effect_exec stepped) waiting
    (Sample.returned_eq returned)⟩

end AfriPay.Momo.Auth
