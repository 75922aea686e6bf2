import AfriPay.Calls.Replay
import AfriPay.Stellar.Controller

/-!
# What the Stellar routes do to the network

Off Testnet nothing is asked of anyone. On it an envelope is sent only as the request
brought it, for the source that the request names, and a payment's outcome is the
network's answer for the hash of that envelope, asked for after it was sent.
-/

namespace AfriPay.Stellar.Api
open Calls Text Storage

/-! ## What is asked of the network -/

section Asked

variable {d : Deployment}

/-- A property of a request is this text; a missing one is empty. -/
def Reads (body : Option Json) (name : String) (text : JsString) : Prop := StellarService.orEmpty (bodyProp body name) = text.json

/-- The envelope in a request: it decodes to `tx`, whose source is the public key in the request. -/
def Brings (d : Deployment) (body : Option Json) (name : String) (tx : Transaction) : Prop :=
  ∃ xdr, Reads body name xdr ∧ Reads body "publicKey" tx.source ∧ d.sdk.fromXDR xdr = some (.transaction tx)

/-- What a request may ask of the network. -/
def Asks (d : Deployment) : HttpRequest → Op → Prop
  | .account publicKey, op => d.sdk.isValidEd25519PublicKey publicKey = true ∧ op = .loadAccount publicKey
  | .history publicKey, op => d.sdk.isValidEd25519PublicKey publicKey = true ∧ op = .payments publicKey
  | .fund publicKey, op => d.sdk.isValidEd25519PublicKey publicKey = true ∧ op = .friendbot (StellarService.friendbotUrl publicKey)
  | .submit body, op => ∃ tx, Brings d body "signedXdr" tx ∧ Relayable d.sdk tx ∧
      (op = .horizon (.submitTransaction tx) ∨ op = .horizon (.transaction (.str (toHex tx.hash))))
  | .prepareSoroban body, op => ∃ tx, Brings d body "xdr" tx ∧ d.sdk.isValidEd25519PublicKey tx.source = true ∧ op = .prepareTransaction tx
  | .submitSoroban body, op => ∃ tx, Brings d body "signedXdr" tx ∧ d.sdk.isValidEd25519PublicKey tx.source = true ∧ op = .sendTransaction tx
  | .getSoroban hash, op => isHashAnyCase hash = true ∧ op = .getTransaction hash

theorem assertTestnet_ok {network : String} (h : assertTestnet network = .ok ()) : network = "testnet" := by
  unfold assertTestnet at h
  split at h
  · cases h
  · rename_i testnet
    exact not_not.1 testnet

theorem checkPublicKey_ok {publicKey : String} (h : StellarService.checkPublicKey d publicKey = .ok ()) :
    d.network = "testnet" ∧ d.sdk.isValidEd25519PublicKey publicKey = true := by
  obtain ⟨_, testnet, h⟩ := bind_ok h
  refine ⟨assertTestnet_ok testnet, ?_⟩
  split at h
  · cases h
  · rename_i valid
    simpa using valid

theorem checkSorobanHash_ok {hash : String} (h : StellarService.checkSorobanHash d hash = .ok ()) :
    d.network = "testnet" ∧ isHashAnyCase hash = true := by
  obtain ⟨_, testnet, h⟩ := bind_ok h
  refine ⟨assertTestnet_ok testnet, ?_⟩
  split at h
  · cases h
  · rename_i valid
    simpa using valid

theorem reads_of_prop {body : Option Json} {name : String} {text : JsString} (h : bodyProp body name = some text.json) : Reads body name text := by
  rw [Reads, h]
  cases text <;> rfl

theorem publicKeyOf_str {v : Json} {source : String} (h : publicKeyOf d.sdk (some v) = some source) :
    v = .str source ∧ d.sdk.isValidEd25519PublicKey source = true := by
  obtain ⟨same, valid⟩ := publicKeyOf_eq_some.1 h
  exact ⟨Option.some.inj same, valid⟩

/-- An accepted Soroban envelope is the request's own. -/
theorem sorobanEnvelope_ok {xdr publicKey : Json} {tx : Transaction} (h : StellarService.sorobanEnvelope d xdr publicKey = .ok tx) :
    d.network = "testnet" ∧ d.sdk.isValidEd25519PublicKey tx.source = true ∧ publicKey = .str tx.source ∧
      ∃ text : JsString, xdr = text.json ∧ d.sdk.fromXDR text = some (.transaction tx) := by
  obtain ⟨_, testnet, h⟩ := bind_ok h
  refine ⟨assertTestnet_ok testnet, ?_⟩
  unfold StellarService.parseTestnetTransaction at h
  cases given : stringOf (some xdr) with
  | none => rw [given] at h; cases h
  | some text =>
    obtain rfl : xdr = text.json := Option.some.inj (stringOf_eq_some.1 given)
    simp only [stringOf_json] at h
    cases keyed : publicKeyOf d.sdk (some publicKey) with
    | none => rw [keyed] at h; cases h
    | some source =>
    obtain ⟨same, valid⟩ := publicKeyOf_str keyed
    by_cases blank : text.trim = .text ""
    · simp only [keyed, blank, if_true] at h
      cases h
    cases decoded : d.sdk.fromXDR text with
    | none => simp only [keyed, blank, if_false, decoded] at h; cases h
    | some envelope =>
    cases envelope with
    | feeBump => simp only [keyed, blank, if_false, decoded] at h; cases h
    | transaction tx' =>
    simp only [keyed, blank, if_false, decoded, bind, Except.bind, pure, Except.pure] at h
    split at h
    · cases h
    · rename_i own
      cases h
      obtain rfl := not_not.1 own
      exact ⟨valid, same, text, rfl, decoded⟩

/-- An envelope the controller hands on is the request's own. -/
theorem checkSubmit_ok {body : Option Json} {xdr : JsString} (h : StellarController.checkSubmit d body = .ok xdr) :
    bodyProp body "signedXdr" = some xdr.json ∧
      ∃ tx, bodyProp body "publicKey" = some (.str tx.source) ∧ d.sdk.fromXDR xdr = some (.transaction tx) := by
  unfold StellarController.checkSubmit at h
  split at h
  · cases h
  split at h
  · rename_i signedXdr given
    cases decoded : d.sdk.fromXDR signedXdr with
    | none => rw [decoded] at h; cases h
    | some envelope =>
    cases envelope with
    | feeBump => rw [decoded] at h; cases h
    | transaction tx =>
    simp only [decoded, bind, Except.bind, pure, Except.pure] at h
    split at h
    · cases h
    · rename_i own
      cases h
      exact ⟨stringOf_eq_some.1 given, tx, isString_iff.1 (by simpa using own), decoded⟩
  · cases h

/-- The body of a relayed envelope: it is sent, and its hash is asked for. -/
def relay (tx : Transaction) : StellarProg Submission :=
  .act (.horizon (.submitTransaction tx)) fun _ => .act (.horizon (.transaction (.str (toHex tx.hash)))) fun answer =>
    .ret ⟨toHex tx.hash, "https://stellar.expert/explorer/testnet/tx/" ++ toHex tx.hash, verdict (.str (toHex tx.hash)) answer⟩

/-- `POST /stellar/submit` is refused, or relays the envelope in the request. -/
theorem submit_cases (body : Option Json) : (∃ e, StellarController.submit d body = .fail e) ∨
    ∃ tx, d.network = "testnet" ∧ Brings d body "signedXdr" tx ∧ Relayable d.sdk tx ∧ StellarController.submit d body = relay tx := by
  unfold StellarController.submit
  cases checked : StellarController.checkSubmit d body with
  | error e => exact .inl ⟨e, rfl⟩
  | ok xdr =>
  obtain ⟨given, tx, source, decoded⟩ := checkSubmit_ok checked
  cases accepted : checkSubmission d.sdk d.network xdr none none with
  | error e =>
    refine .inl ⟨e, ?_⟩
    simp [submitSignedTransaction, accepted, horizon, Prog.embed]
  | ok tx' =>
    obtain ⟨testnet, -, parsed, -⟩ := checkSubmission_iff.1 accepted
    obtain ⟨decoded', relayable, -⟩ := parsePayment_ok.1 parsed
    obtain rfl : tx = tx' := by
      rw [decoded'] at decoded
      cases decoded
      rfl
    refine .inr ⟨tx, testnet, ⟨xdr, reads_of_prop given, reads_of_prop source, decoded⟩, relayable, ?_⟩
    have hash : checkHash d.network (.str (toHex tx.hash)) = .ok () := by
      simp [checkHash, assertTestnet, testnet, isHashText, isHashString_toHex, bind, Except.bind, pure, Except.pure]
    simp only [submitSignedTransaction, accepted, verifyTransaction, hash, horizon, Prog.ofExcept_ok, Prog.ret_bind, Prog.pure_eq]
    rfl

/-- A call that is refused, or asks for one thing that `r` may ask for and ends with the answer. -/
def Brief (d : Deployment) (r : HttpRequest) (p : StellarProg Response) : Prop :=
  (∃ e, p = .fail e) ∨ ∃ op next, d.network = "testnet" ∧ Asks d r op ∧ p = .act op next ∧ ∀ ans, (next ans).Ended

/-- Checks, and then one request. -/
theorem brief {r : HttpRequest} {α β : Type} {x : Except Exception α} {op : α → Op} {f : (a : α) → (op a).Answer → StellarProg β}
    {respond : β → Response} (allowed : ∀ a, x = .ok a → d.network = "testnet" ∧ Asks d r (op a))
    (ends : ∀ a ans, (respond <$> f a ans).Ended) :
    Brief d r (respond <$> (Prog.ofExcept x >>= fun a => (Prog.await (op a) : StellarProg (op a).Answer) >>= f a)) := by
  cases x with
  | error e => exact .inl ⟨e, rfl⟩
  | ok a =>
    obtain ⟨testnet, asks⟩ := allowed a rfl
    exact .inr ⟨op a, _, testnet, asks, rfl, ends a⟩

theorem brings_soroban {body : Option Json} {name : String} {tx : Transaction}
    (h : StellarService.sorobanEnvelope d (StellarService.orEmpty (bodyProp body name))
      (StellarService.orEmpty (bodyProp body "publicKey")) = .ok tx) :
    d.network = "testnet" ∧ Brings d body name tx ∧ d.sdk.isValidEd25519PublicKey tx.source = true := by
  obtain ⟨testnet, valid, source, text, given, decoded⟩ := sorobanEnvelope_ok h
  exact ⟨testnet, ⟨text, given, source, decoded⟩, valid⟩

/-- The other routes are brief. -/
theorem handle_brief (r : HttpRequest) (other : ∀ body, r ≠ .submit body) : Brief d r (StellarController.handle d r) := by
  cases r with
  | submit body => exact (other body rfl).elim
  | account publicKey =>
    unfold StellarController.handle StellarService.getAccountSummary StellarService.loadAccount
    simp only [Prog.bind_assoc]
    refine brief (fun _ ok => ?_) fun _ ans => ?_
    · obtain ⟨testnet, valid⟩ := checkPublicKey_ok ok
      exact ⟨testnet, valid, rfl⟩
    · cases ans with
      | ok account => trivial
      | error e => dsimp only; split <;> trivial
  | history publicKey =>
    refine brief (fun _ ok => ?_) fun _ ans => ?_
    · obtain ⟨testnet, valid⟩ := checkPublicKey_ok ok
      exact ⟨testnet, valid, rfl⟩
    · cases ans <;> trivial
  | prepareSoroban body =>
    refine brief (fun tx ok => ?_) fun _ ans => ?_
    · obtain ⟨testnet, brings, valid⟩ := brings_soroban ok
      exact ⟨testnet, tx, brings, valid, rfl⟩
    · cases ans <;> trivial
  | submitSoroban body =>
    refine brief (fun tx ok => ?_) fun _ ans => ?_
    · obtain ⟨testnet, brings, valid⟩ := brings_soroban ok
      exact ⟨testnet, tx, brings, valid, rfl⟩
    · cases ans <;> trivial
  | getSoroban hash =>
    refine brief (fun _ ok => ?_) fun _ ans => ?_
    · obtain ⟨testnet, valid⟩ := checkSorobanHash_ok ok
      exact ⟨testnet, valid, rfl⟩
    · cases ans <;> trivial
  | fund publicKey =>
    refine brief (fun _ ok => ?_) fun _ ans => ?_
    · obtain ⟨testnet, valid⟩ := checkPublicKey_ok ok
      exact ⟨testnet, valid, rfl⟩
    · cases ans with
      | ok status => dsimp only; split <;> trivial
      | error e => trivial

theorem each_handle (r : HttpRequest) : (StellarController.handle d r).Each fun op _ => d.network = "testnet" ∧ Asks d r op := by
  by_cases submits : ∃ body, r = .submit body
  · obtain ⟨body, rfl⟩ := submits
    apply Prog.each_map
    rcases submit_cases (d := d) body with ⟨e, same⟩ | ⟨tx, testnet, brings, relayable, same⟩
    · rw [same]
      trivial
    · rw [same]
      exact ⟨⟨testnet, tx, brings, relayable, .inl rfl⟩, fun _ => ⟨⟨testnet, tx, brings, relayable, .inr rfl⟩, fun _ => trivial⟩⟩
  · rcases handle_brief (d := d) r fun body same => submits ⟨body, same⟩ with ⟨e, same⟩ | ⟨op, next, testnet, asks, same, ends⟩
    · rw [same]
      trivial
    · rw [same]
      exact ⟨⟨testnet, asks⟩, fun ans => (ends ans).each⟩

end Asked

/-! ## What a run does -/

section Runs

variable {d : Deployment} {cfg : Config HttpRequest Op Op.Answer Exception Response Unit}

def Reachable (d : Deployment) (cfg : Config HttpRequest Op Op.Answer Exception Response Unit) : Prop := (stellar d).Steps (.initial ()) cfg

/-- How far a request to relay an envelope has come, and what it has done. -/
inductive Relaying (d : Deployment) (body : Option Json) : List (Done Op Op.Answer) → StellarProg Response → Prop where
  | refused (e : Exception) : Relaying d body [] (.fail e)
  | accepted (tx : Transaction) (brings : Brings d body "signedXdr" tx) (relayable : Relayable d.sdk tx) (p : StellarProg Response)
      (waits : ¬p.Ended) : Relaying d body [] p
  | sent (tx : Transaction) (brings : Brings d body "signedXdr" tx) (relayable : Relayable d.sdk tx) (p : StellarProg Response)
      (waits : ¬p.Ended) : Relaying d body [⟨.horizon (.submitTransaction tx), ()⟩] p
  | answered (tx : Transaction) (brings : Brings d body "signedXdr" tx) (relayable : Relayable d.sdk tx) (answer : Option TransactionRecord)
      (s : Submission) (hash : s.hash = toHex tx.hash) (status : s.status = verdict (.str s.hash) answer) :
      Relaying d body [⟨.horizon (.submitTransaction tx), ()⟩, ⟨.horizon (.transaction (.str s.hash)), answer⟩] (.ret (.submission s))

/-- What the Stellar routes do in a run. -/
structure Relayed (d : Deployment) (cfg : Config HttpRequest Op Op.Answer Exception Response Unit) : Prop where
  /-- Whatever is asked of the network is asked on Testnet, and is what the request may ask. -/
  asked : ∀ e ∈ cfg.shared.log, d.network = "testnet" ∧ Asks d e.call e.op
  /-- An envelope is sent once, and then its hash is asked for, once: the answer decides the outcome. -/
  relaying : ∀ tid body p, cfg.calls[tid]? = some (.submit body, p) → Relaying d body (cfg.shared.trace tid) p
  /-- Every other request asks for one thing at most, and ends with the answer. -/
  brief : ∀ tid r p, cfg.calls[tid]? = some (r, p) → (∀ body, r ≠ .submit body) → cfg.shared.trace tid = [] ∨
    ∃ e, cfg.shared.trace tid = [e] ∧ p.Ended

theorem follows_fail {e : Exception} {es : List (Done Op Op.Answer)} {p : StellarProg Response} (h : p.Follows es (.fail e)) :
    es = [] ∧ p = .fail e := by
  cases es with
  | nil => exact ⟨rfl, h.symm⟩
  | cons e es =>
    obtain ⟨next, first, -⟩ := h
    cases first

theorem relaying_of_follows {body : Option Json} {tx : Transaction} (brings : Brings d body "signedXdr" tx) (relayable : Relayable d.sdk tx)
    {es : List (Done Op Op.Answer)} {p : StellarProg Response} (h : p.Follows es (Response.submission <$> relay tx)) :
    Relaying d body es p := by
  cases es with
  | nil =>
    obtain rfl : Response.submission <$> relay tx = p := h
    exact .accepted tx brings relayable _ id
  | cons e es =>
    obtain ⟨op, ans⟩ := e
    obtain ⟨next, first, rest⟩ := h
    cases first
    cases es with
    | nil =>
      cases rest
      exact .sent tx brings relayable _ id
    | cons e es =>
      obtain ⟨op, answer⟩ := e
      obtain ⟨next, second, rest⟩ := rest
      cases second
      cases es with
      | nil =>
        cases rest
        exact .answered tx brings relayable answer
          ⟨toHex tx.hash, "https://stellar.expert/explorer/testnet/tx/" ++ toHex tx.hash, verdict (.str (toHex tx.hash)) answer⟩ rfl rfl
      | cons e es =>
        obtain ⟨next, third, -⟩ := rest
        cases third

/-- **The Stellar routes**, in every reachable configuration. -/
theorem relayed (run : Reachable d cfg) : Relayed d cfg := by
  refine ⟨System.each_logged each_handle run, fun tid body p here => ?_, fun tid r p here other => ?_⟩
  · have follows : p.Follows (cfg.shared.trace tid) (Response.submission <$> StellarController.submit d body) := System.traced run here
    rcases submit_cases (d := d) body with ⟨e, same⟩ | ⟨tx, -, brings, relayable, same⟩
    · rw [same] at follows
      obtain ⟨none, rfl⟩ := follows_fail follows
      rw [none]
      exact .refused e
    · rw [same] at follows
      exact relaying_of_follows brings relayable follows
  · have follows : p.Follows (cfg.shared.trace tid) (StellarController.handle d r) := System.traced run here
    rcases handle_brief (d := d) r other with ⟨e, same⟩ | ⟨op, next, -, -, same, ends⟩
    · rw [same] at follows
      exact .inl (follows_fail follows).1
    · rw [same] at follows
      cases done : cfg.shared.trace tid with
      | nil => exact .inl rfl
      | cons e es =>
        rw [done] at follows
        obtain ⟨next', first, rest⟩ := follows
        obtain ⟨op', ans⟩ := e
        cases first
        have ended := ends ans
        cases es with
        | nil =>
          cases rest
          exact .inr ⟨_, rfl, ended⟩
        | cons e es =>
          obtain ⟨next'', second, -⟩ := rest
          rw [second] at ended
          exact ended.elim

end Runs

/-! ## A chosen run -/

namespace Sample

def key : String := "GAAZI4TCR3TY5OJHCTJC2A4QSY6CJWJH5IAJTGKIN2ER7LBNVKOCCWN7"

def tx : Transaction :=
  { source := key, hash := .replicate 32 7, signatures := [[1]], operations := [.other], memo := ⟨.none, .null⟩,
    timeBounds := some ⟨0, 600⟩, fee := 100 }

def deployment : Deployment :=
  { sdk :=
      { isValidEd25519PublicKey := fun s => s = key, fromXDR := fun s => if s = "signed" then some (.transaction tx) else none
        fromPublicKey := fun s => s = key, verify := fun _ _ signature => some (signature = [1]), buildPayment := fun _ => none }
    network := "testnet" }

def body : Option Json := some (.obj [("signedXdr", .str "signed"), ("publicKey", .str key)])

/-- Whatever is asked, the network has not seen the transaction. -/
def effect : Effect Op Op.Answer Unit Unit
  | _, .horizon (.submitTransaction _), w => some ((), w)
  | _, .horizon (.transaction _), w => some (none, w)
  | _, _, _ => none

def run : Option (Config HttpRequest Op Op.Answer Exception Response Unit) :=
  (stellar deployment).replay effect [.start (.submit body), .act 0 (), .act 0 ()] (.initial ())

/-- The request is answered that the payment is pending. -/
def pending (cfg : Config HttpRequest Op Op.Answer Exception Response Unit) : Bool :=
  match (cfg.calls[0]? : Option (HttpRequest × StellarProg Response)) with
  | some (.submit _, .ret (.submission s)) => s.status = .pending
  | _ => false

end Sample

theorem relayed_sample : ∃ cfg, Sample.run = some cfg ∧ Sample.pending cfg = true ∧ Relayed Sample.deployment cfg := by
  have ran : Sample.run.any Sample.pending = true := by decide +kernel
  obtain ⟨cfg, ran, pending⟩ := (Option.any_eq_true _ _).1 ran
  exact ⟨cfg, ran, pending, relayed (System.replay_steps (fun _ _ _ _ _ _ => trivial) ran)⟩

end AfriPay.Stellar.Api
