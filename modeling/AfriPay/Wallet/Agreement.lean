import AfriPay.Payments.Creation
import AfriPay.Wallet.Signing

/-!
# What is built is signed, and what is signed is accepted

The backend builds an envelope for a stored intent, the wallet signs it against
the payment its user has reviewed, and the backend verifies the signed envelope
against the intent. The three checks are written three times; they agree
because they read amounts, fees and times alike, and memos as far as the two
decoders do: the browser's leaves out a byte order mark at the front.

`SdksAgree` lists what the SDK is relied on for.
-/

namespace AfriPay.Wallet
open Calls Discipline Text Stellar Storage Payments

/-- The review `SendFlow` shows: what the request said. -/
structure ReviewOf (input : PaymentFields) (review : PaymentReview) : Prop where
  recipient : input.recipient = some (.str review.recipient)
  amount : input.amount = some (.str review.amount)
  memo : input.memo = review.memo.map JsString.json

/-- The transaction that `TransactionBuilder` builds: one payment with the exact
amount, the base fee once, and the memo in UTF-8. -/
structure Encodes (t : PaymentTemplate) (tx : Transaction) : Prop where
  source : tx.source = t.source
  operation : ∃ amount, tx.operations = [.payment none t.destination true amount] ∧ stroops amount = stroops t.amount
  fee : tx.fee = t.fee * tx.operations.length
  noMemo : t.memo = none → tx.memo.type = .none
  memo : ∀ memo, t.memo = some memo → tx.memo.type = .text ∧ tx.memo.value = .bytes (utf8Encode memo)
  bounds : tx.timeBounds = some ⟨0, t.now / 1000 + 300⟩
  unsigned : tx.signatures = []

/-- The SDK in the browser and the one on the server are the same, and do what they are for. -/
structure SdksAgree (sdk : Sdk) (wallet : WalletSdk) : Prop where
  fromXDR : ∀ xdr envelope, wallet.fromXDR xdr = .ok envelope ↔ sdk.fromXDR xdr = some envelope
  toXDR : ∀ secret xdr tx, sdk.fromXDR xdr = some (.transaction tx) → tx.signatures = [] →
    sdk.fromXDR (wallet.toXDR (signed wallet secret tx)) = some (.transaction (signed wallet secret tx))
  buildPayment : ∀ t xdr, sdk.buildPayment t = some xdr → ∃ tx, sdk.fromXDR xdr = some (.transaction tx) ∧ Encodes t tx
  ed25519 : ∀ secret hash, wallet.isValidEd25519SecretSeed secret = true → sdk.fromPublicKey (wallet.publicKey secret) = true ∧
    sdk.verify (wallet.publicKey secret) hash (wallet.sign secret hash) = some true

/-- A memo is decoded to what was encoded. -/
def DecodesBack (memo : JsString) : Prop := .text (walletMemoText (.bytes (utf8Encode memo))) = memo

/-- The memo decoders give the same string for the memo the envelope carries, if it carries a text. -/
def DecodersAgree (sdk : Sdk) (xdr : JsString) : Prop :=
  ∀ tx, sdk.fromXDR xdr = some (.transaction tx) → tx.memo.type = .text → walletMemoText tx.memo.value = memoText tx.memo.value

/-- The client's clock shows a time at which the envelope may be signed. -/
def InWindow (maxTime : Nat) (now : Timestamp) : Prop := maxTime * 1000 ≤ now + 360 * 1000 ∧ now < maxTime * 1000

theorem amountUnits_ok {a : String} {n : Nat} : amountUnits a = .ok n ↔ stroops a = .ok n := by
  unfold amountUnits stroops
  split
  · simp
  · simp

/-- A memo of whole characters without a byte order mark at its front is read back by both. -/
structure PlainMemo (memo : JsString) : Prop where
  whole : memo.isWellFormed = true
  unmarked : memo.toWellFormed.toList.head? ≠ some '\uFEFF'

theorem PlainMemo.decodesBack {memo : JsString} (plain : PlainMemo memo) : DecodesBack memo := by
  rw [DecodesBack, walletMemoText, utf8Decode_encode plain.unmarked]
  exact (JsString.isWellFormed_iff.1 plain.whole).symm

theorem PlainMemo.alike {memo : JsString} (plain : PlainMemo memo) :
    walletMemoText (.bytes (utf8Encode memo)) = memoText (.bytes (utf8Encode memo)) := by
  rw [walletMemoText, memoText, utf8Decode_encode plain.unmarked, utf8Text_encode]

/-- The memo of the review is the memo of the payment, an absent one being empty. -/
theorem ReviewOf.memo_eq {input : PaymentFields} {review : PaymentReview} {p : NativePayment} (r : ReviewOf input review)
    (requested : Requested input p) : review.memo.getD "" = p.memo.getD "" := by
  obtain ⟨memo, given, same⟩ := requested.memo
  rw [r.memo] at given
  cases hm : review.memo with
  | none =>
    rw [hm] at given
    cases given
    exact same
  | some m =>
    rw [hm] at given
    simp only [Option.map_some, memoOf, stringOf_json] at given
    obtain ⟨-, given⟩ := else_ok given
    cases given
    exact same

theorem ReviewOf.recipient_eq {input : PaymentFields} {review : PaymentReview} {p : NativePayment} (r : ReviewOf input review)
    (requested : Requested input p) : review.recipient = p.recipient :=
  Json.str.inj (Option.some.inj (r.recipient.symm.trans requested.recipient))

/-- The amount of the review is the amount of the payment in stroops. -/
theorem ReviewOf.units {input : PaymentFields} {review : PaymentReview} {p : NativePayment} (r : ReviewOf input review)
    (requested : Requested input p) : ∃ units, stroops review.amount = .ok units ∧ stroops p.amount = .ok units := by
  obtain ⟨a, units, given, ha, hp⟩ := requested.amount
  obtain rfl := Json.str.inj (Option.some.inj (r.amount.symm.trans given))
  exact ⟨units, ha, hp⟩

/-- `buildNativePayment` may return what it builds from a snapshot, for a valid payment. -/
theorem canReturn_buildNativePayment {sdk : Sdk} {network : String} {p : NativePayment} (lumens : p.asset = "XLM") {u : UnsignedPayment} :
    (buildNativePayment sdk network p.sender p.recipient p.amount p.memo).CanReturn u ↔
      assertTestnet network = .ok () ∧ (∃ q, validatePayment sdk p.fields = .ok q) ∧
        ∃ snapshot now, buildFrom sdk p snapshot now = .ok u := by
  have same : (⟨p.sender, p.recipient, p.amount, "XLM", p.memo⟩ : NativePayment) = p := by rw [← lumens]
  unfold buildNativePayment
  simp only [same]
  constructor
  · intro h
    cases ha : assertTestnet network with
    | error e => rw [ha] at h; exact h.elim
    | ok _ =>
    cases hv : validatePayment sdk p.fields with
    | error e => rw [ha, hv] at h; exact h.elim
    | ok q =>
    rw [ha, hv] at h
    obtain ⟨now, answer, h⟩ := h
    cases answer with
    | error e => cases e <;> exact h.elim
    | ok snapshot => exact ⟨rfl, ⟨q, rfl⟩, snapshot, now, Prog.canReturn_ofExcept.1 h⟩
  · rintro ⟨ha, ⟨q, hv⟩, snapshot, now, h⟩
    rw [ha, hv]
    exact ⟨now, .ok snapshot, Prog.canReturn_ofExcept.2 h⟩

/-- The conditions of `signTransactionXdr` hold of what the backend has built. -/
theorem reviewed_built {sdk : Sdk} {wallet : WalletSdk} {network : String} (agree : SdksAgree sdk wallet) {input : PaymentFields} {p : NativePayment}
    (requested : Requested input p) (checked : Checked sdk p.fields p) {review : PaymentReview} (r : ReviewOf input review)
    {u : UnsignedPayment} (built : (buildNativePayment sdk network p.sender p.recipient p.amount p.memo).CanReturn u)
    (fee : review.fee = Nat.repr u.fee) (reads : ∀ memo, p.memo = some memo → DecodesBack memo) {secret : String}
    (unlocks : wallet.isValidEd25519SecretSeed secret = true) (owner : p.sender = wallet.publicKey secret) :
      ∃ tx maxTime, sdk.fromXDR u.xdr = some (.transaction tx) ∧ tx.timeBounds = some ⟨0, maxTime⟩ ∧
      ∀ now later, InWindow maxTime now → InWindow maxTime later → Reviewed wallet secret u.xdr review now later tx := by
  obtain ⟨-, -, snapshot, t, ok⟩ := (canReturn_buildNativePayment checked.lumens).1 built
  obtain ⟨limit, template⟩ := buildFrom_ok ok
  obtain ⟨tx, decoded, encodes⟩ := agree.buildPayment _ _ template
  refine ⟨tx, t / 1000 + 300, decoded, encodes.bounds, fun now later window window' => ?_⟩
  obtain ⟨amount, operations, exact'⟩ := encodes.operation
  have envelopeFee : tx.fee = u.fee := by
    rw [encodes.fee, operations]
    simp
  obtain ⟨units, hr, hp⟩ := r.units requested
  obtain ⟨units', hp', positive⟩ := checked.positive
  obtain rfl : units = units' := Except.ok.inj (hp.symm.trans hp')
  refine ⟨unlocks, (agree.fromXDR _ _).2 decoded, encodes.source.trans owner, ?payment, ?fee, ?limit, ?memo, ?bounds, encodes.unsigned⟩
  case payment =>
    refine matchesReview_ok.2 ⟨amount, units, ?_, amountUnits_ok.2 (exact'.trans hp), amountUnits_ok.2 hr, positive⟩
    rw [operations, r.recipient_eq requested]
  case fee => rw [envelopeFee, fee]
  case limit => rw [envelopeFee]; exact limit
  case memo =>
    unfold memoReviewed
    rw [r.memo_eq requested]
    by_cases empty : p.memo.getD "" = ""
    · have none : p.memo.filter (· ≠ .text "") = none := by
        cases hm : p.memo with
        | none => rfl
        | some m => rw [hm] at empty; simp [Option.filter, show m = "" from empty]
      simp [empty, encodes.noMemo none]
    · obtain ⟨m, given⟩ : ∃ m, p.memo = some m := by
        cases hm : p.memo with
        | none => rw [hm] at empty; exact (empty rfl).elim
        | some m => exact ⟨m, rfl⟩
      rw [given, Option.getD_some] at empty
      have kept : p.memo.filter (· ≠ .text "") = some m := by
        rw [given, Option.filter_some, if_pos (decide_eq_true empty)]
      obtain ⟨type, value⟩ := encodes.memo _ kept
      have text : .text (walletMemoText tx.memo.value) = m := by
        rw [value]
        exact reads m given
      simp [given, empty, type, text]
  case bounds =>
    unfold hasOpenBounds
    rw [encodes.bounds]
    exact decide_eq_true ⟨window.2, window'.1⟩

/-- The server's memo check passes where the wallet's has, if the decoders agree. -/
theorem memoMatches_reviewed {tx : Transaction} (alike : tx.memo.type = .text → walletMemoText tx.memo.value = memoText tx.memo.value)
    {review : PaymentReview} {p : NativePayment} (memo : memoReviewed tx review = true) (same : review.memo.getD "" = p.memo.getD "") :
      memoMatches tx p = true := by
  unfold memoReviewed at memo
  unfold memoMatches
  rw [same] at memo
  cases hp : p.memo with
  | none =>
    rw [hp] at memo
    exact memo
  | some m =>
    rw [hp, Option.getD_some] at memo
    by_cases empty : m = .text ""
    · subst empty
      exact memo
    · obtain ⟨type, text⟩ := of_decide_eq_true ((if_pos empty).symm.trans memo)
      rw [alike type] at text
      exact (if_pos empty).trans (decide_eq_true ⟨type, text⟩)

/-- What is built for a plain memo is read alike. -/
theorem decodersAgree_built {sdk : Sdk} {wallet : WalletSdk} {network : String} (agree : SdksAgree sdk wallet) {p : NativePayment}
    (lumens : p.asset = "XLM") (plain : ∀ memo, p.memo = some memo → PlainMemo memo) {u : UnsignedPayment}
    (built : (buildNativePayment sdk network p.sender p.recipient p.amount p.memo).CanReturn u) : DecodersAgree sdk u.xdr := by
  obtain ⟨-, -, snapshot, t, ok⟩ := (canReturn_buildNativePayment lumens).1 built
  obtain ⟨-, template⟩ := buildFrom_ok ok
  obtain ⟨tx, decoded, encodes⟩ := agree.buildPayment _ _ template
  intro tx' decoded' text
  obtain rfl : tx = tx' := Envelope.transaction.inj (Option.some.inj (decoded.symm.trans decoded'))
  cases kept : p.memo.filter (· ≠ .text "") with
  | none =>
    rw [encodes.noMemo kept] at text
    cases text
  | some memo =>
    obtain ⟨-, value⟩ := encodes.memo memo kept
    rw [value]
    exact (plain memo (Option.filter_eq_some_iff.1 kept).1).alike

/-- **What the wallet signs, the server accepts** against the payment of the review. -/
theorem parsePayment_reviewed {sdk : Sdk} {wallet : WalletSdk} (agree : SdksAgree sdk wallet) {input : PaymentFields}
    {p : NativePayment} (requested : Requested input p) (checked : Checked sdk p.fields p) {review : PaymentReview}
    (r : ReviewOf input review) {secret : String} {xdr : JsString} (owner : p.sender = wallet.publicKey secret) {now later : Timestamp}
    {tx : Transaction} (reviewed : Reviewed wallet secret xdr review now later tx)
    (alike : tx.memo.type = .text → walletMemoText tx.memo.value = memoText tx.memo.value) :
    parsePayment sdk (wallet.toXDR (signed wallet secret tx)) (some p) = .ok (signed wallet secret tx) := by
  have decoded := agree.toXDR secret xdr tx ((agree.fromXDR _ _).1 reviewed.decoded) reviewed.unsigned
  obtain ⟨key, verified⟩ := agree.ed25519 secret tx.hash reviewed.unlocks
  have signer : sdk.fromPublicKey (signed wallet secret tx).source = true := by
    show sdk.fromPublicKey tx.source = true
    rw [reviewed.source, key]
  have signature : (signed wallet secret tx).signatures.any
      (fun signature => (sdk.verify (signed wallet secret tx).source (signed wallet secret tx).hash signature).getD false) = true := by
    rw [show (signed wallet secret tx).source = wallet.publicKey secret from reviewed.source]
    refine List.any_eq_true.2 ⟨wallet.sign secret tx.hash, List.mem_append_right _ List.mem_cons_self, ?_⟩
    rw [show (signed wallet secret tx).hash = tx.hash from rfl, verified]
    rfl
  have operation : operationMatches (signed wallet secret tx) p = .ok true := by
    obtain ⟨amount, units, operations, ha, hr, -⟩ := matchesReview_ok.1 reviewed.payment
    obtain ⟨units', hr', hp⟩ := r.units requested
    obtain rfl : units = units' := Except.ok.inj ((amountUnits_ok.1 hr).symm.trans hr')
    have source : (signed wallet secret tx).source = p.sender := reviewed.source.trans owner.symm
    have operations : (signed wallet secret tx).operations = [.payment none p.recipient true amount] := by
      rw [← r.recipient_eq requested]
      exact operations
    simp [operationMatches, source, operations, amountUnits_ok.1 ha, hp, bind, Except.bind]
    rfl
  have memo : memoMatches (signed wallet secret tx) p = true :=
    @memoMatches_reviewed (signed wallet secret tx) alike _ _ reviewed.memo (r.memo_eq requested)
  have expected : checkExpected sdk (signed wallet secret tx) p = .ok () := by
    have valid := validatePayment_ok.2 checked
    simp [checkExpected, valid, operation, memo, bind, Except.bind]
    rfl
  have finite : hasFiniteBounds (signed wallet secret tx) = true := by
    have bounds := reviewed.bounds
    unfold hasOpenBounds at bounds
    unfold hasFiniteBounds
    rw [show (signed wallet secret tx).timeBounds = tx.timeBounds from rfl]
    cases hb : tx.timeBounds with
    | none => rw [hb] at bounds; cases bounds
    | some b =>
      rw [hb] at bounds
      obtain ⟨notYet, -⟩ : now < b.maxTime * 1000 ∧ b.maxTime * 1000 ≤ later + 360 * 1000 := of_decide_eq_true bounds
      have finite : b.maxTime ≠ 0 := by
        intro zero
        rw [zero, Nat.zero_mul] at notYet
        exact Nat.not_lt_zero now notYet
      exact decide_eq_true finite
  have limit : ¬ 1000000 < (signed wallet secret tx).fee := Nat.not_lt.2 reviewed.limit
  simp [parsePayment, decoded, signer, signature, expected, finite, limit, bind, Except.bind]
  rfl

/-! ## From creation to verification -/

/-- Build, sign and verify agree on an intent: what is built for it is signed in
time, and whatever is signed against a review of it is accepted for it. The memo
decoders are taken to read what was encoded, and to agree. -/
structure BuildSignVerify (d : Deployment) (wallet : WalletSdk) (secret : String) (input : PaymentFields) (i : PaymentIntent) :
    Prop where
  signs : ∀ u review, (buildNativePayment d.sdk d.network i.sender i.recipient i.amount i.memo).CanReturn u →
    ReviewOf input review → review.fee = Nat.repr u.fee → (∀ memo, i.memo = some memo → DecodesBack memo) →
      ∃ tx maxTime, d.sdk.fromXDR u.xdr = some (.transaction tx) ∧
      tx.timeBounds = some ⟨0, maxTime⟩ ∧ ∀ now later, InWindow maxTime now → InWindow maxTime later →
        ∃ text, signTransactionXdr wallet secret u.xdr review now later = .ok text
  accepts : ∀ xdr review now later text, ReviewOf input review → DecodersAgree d.sdk xdr →
    signTransactionXdr wallet secret xdr review now later = .ok text →
    ∃ tx, parsePayment d.sdk text (some i.toNativePayment) = .ok tx

/-- **Build, sign and verify agree** on every intent a `create` has returned, as
it is stored at any later time, for the wallet of its sender. -/
theorem build_sign_verify {d : Deployment} {wallet : WalletSdk} (agree : SdksAgree d.sdk wallet) {cfg : PaymentConfig}
    (run : Reachable d cfg) {tid : Nat} {input : DeclaredInput} {saved : PaymentIntent}
    (created : cfg.calls[tid]? = some (.create input, .ret (.intent (some saved)))) {i : PaymentIntent}
    (stored : cfg.shared.world.intent d saved.id = some i) {secret : String}
    (unlocks : wallet.isValidEd25519SecretSeed secret = true)
    (owner : input.payment.sender = some (.str (wallet.publicKey secret))) : BuildSignVerify d wallet secret input.payment i := by
  obtain ⟨s, ⟨-, kept⟩, post⟩ := (kept_along d).returned (payments_holds run) created
  have post : Created d input.input saved s := post
  obtain ⟨i', stored', ⟨hash, status, updatedAt, rfl⟩, -⟩ := kept saved.id saved post.stored
  obtain rfl := Option.some.inj (stored'.symm.trans stored)
  have sender : saved.sender = wallet.publicKey secret := Json.str.inj (Option.some.inj (post.requested.sender.symm.trans owner))
  constructor
  · intro u review built r fee reads
    obtain ⟨tx, maxTime, decoded, bounds, reviewed⟩ := reviewed_built agree post.requested post.checked r built fee reads unlocks sender
    refine ⟨tx, maxTime, decoded, bounds, fun now later window window' => ?_⟩
    exact ⟨_, signTransactionXdr_ok.2 ⟨tx, reviewed now later window window', rfl⟩⟩
  · intro xdr review now later text r alike signs
    obtain ⟨tx, reviewed, rfl⟩ := signTransactionXdr_ok.1 signs
    exact ⟨_, parsePayment_reviewed agree post.requested post.checked r sender reviewed (alike tx ((agree.fromXDR _ _).1 reviewed.decoded))⟩

/-! A payment of 2 XLM with a memo, from request to signed envelope. -/

namespace Sample
open Payments.Sample

def unsignedTx : Transaction :=
  { source := alice, hash := Vector.replicate 32 7, signatures := [], operations := [.payment none bob true "2.0000000"]
    memo := ⟨.text, .bytes [114, 101, 110, 116]⟩, timeBounds := some ⟨0, 300⟩, fee := 100 }

def signedTx : Transaction := { unsignedTx with signatures := [[1]] }

def sdk : Sdk :=
  { Payments.Sample.sdk with
    fromXDR := fun s => if s = "unsigned" then some (.transaction unsignedTx) else if s = "signed" then some (.transaction signedTx) else none
    buildPayment := fun t =>
      if t.source = alice ∧ t.destination = bob ∧ t.amount = "2" ∧ t.memo = some "rent" ∧ t.fee = 100 ∧ t.now = 0 then some "unsigned"
      else none }

def wallet : WalletSdk :=
  { isValidEd25519SecretSeed := fun s => s = "secret"
    publicKey := fun _ => alice
    fromXDR := fun s => match sdk.fromXDR s with | some envelope => .ok envelope | none => .error "unreadable"
    sign := fun _ _ => [1]
    toXDR := fun tx => if tx = signedTx then "signed" else "unsigned" }

theorem decoded_unsigned {xdr : JsString} {tx : Transaction} (decoded : sdk.fromXDR xdr = some (.transaction tx))
    (unsigned : tx.signatures = []) : tx = unsignedTx := by
  have cases' : (if xdr = "unsigned" then some (Envelope.transaction unsignedTx)
      else if xdr = "signed" then some (.transaction signedTx) else none) = some (.transaction tx) := decoded
  split at cases'
  · cases cases'; rfl
  · split at cases'
    · cases cases'; cases unsigned
    · cases cases'

theorem sdksAgree : SdksAgree sdk wallet := by
  constructor
  · intro xdr envelope
    show (match sdk.fromXDR xdr with | some envelope => Except.ok envelope | none => .error "unreadable") = .ok envelope ↔ _
    cases sdk.fromXDR xdr <;> simp
  · intro secret xdr tx decoded unsigned
    rw [decoded_unsigned decoded unsigned]
    rfl
  · intro t xdr built
    have cases' : (if t.source = alice ∧ t.destination = bob ∧ t.amount = "2" ∧ t.memo = some "rent" ∧ t.fee = 100 ∧ t.now = 0
        then some "unsigned" else none) = some xdr := built
    split at cases'
    · rename_i expected
      obtain ⟨source, destination, amount, memo, fee, now⟩ := expected
      obtain rfl := Option.some.inj cases'
      refine ⟨unsignedTx, rfl, source.symm, ⟨"2.0000000", ?_, ?_⟩, ?_, ?_, ?_, ?_, rfl⟩
      · rw [destination]; rfl
      · rw [amount]; rfl
      · rw [fee]; rfl
      · rw [memo]; rintro ⟨⟩
      · rw [memo]; rintro m ⟨⟩; exact ⟨rfl, by decide⟩
      · rw [now]; rfl
    · cases cases'
  · intro secret hash valid
    exact ⟨rfl, rfl⟩

def deployment : Deployment := { Payments.Sample.deployment false with sdk }

def request : DeclaredInput :=
  ⟨⟨some (.str alice), some (.str bob), some (.str "2"), some (.str "XLM"), some (.str "rent")⟩, some (.str "key")⟩

def created : List (Scheduled Call Choice) :=
  [.start (.create request), .act 0 (.now 1000), .act 0 (.uuid intentId), .act 0 (.done 0)]

def payment : NativePayment := ⟨alice, bob, "2", "XLM", some "rent"⟩

/-- An account that can pay. -/
def snapshot : PaymentSnapshot :=
  { sequence := 1, subentryCount := 0, numSponsoring := none, numSponsored := none
    balances := [⟨true, "10.0000000", none⟩], baseReserveInStroops := 5000000, feeP95 := "100" }

theorem built : buildFrom sdk payment snapshot 0 = .ok ⟨"unsigned", "testnet", 100⟩ := by decide +kernel

theorem valid : validatePayment sdk payment.fields = .ok payment := by decide +kernel

/-- The request of the first call, what it returned, and what is stored of it. -/
def outcome (cfg : PaymentConfig) : Option (DeclaredInput × PaymentIntent × PaymentIntent) :=
  match (cfg.calls[0]? : Option (Call × PaymentProg Returned)) with
  | some (.create input, .ret (.intent (some saved))) => (cfg.shared.world.intent deployment saved.id).map fun i => (input, saved, i)
  | _ => none

theorem outcome_eq {cfg : PaymentConfig} {input : DeclaredInput} {saved i : PaymentIntent} (h : outcome cfg = some (input, saved, i)) :
    cfg.calls[0]? = some (.create input, .ret (.intent (some saved))) ∧ cfg.shared.world.intent deployment saved.id = some i := by
  unfold outcome at h
  split at h
  · rename_i created
    obtain ⟨i', stored, same⟩ := Option.map_eq_some_iff.1 h
    cases same
    exact ⟨created, stored⟩
  · cases h

end Sample

/-- An intent of 2 XLM is created, an envelope for it can be built, and the three agree on it. -/
theorem build_sign_verify_sample : ∃ cfg input saved i, Reachable Sample.deployment cfg ∧
    cfg.calls[0]? = some (.create input, .ret (.intent (some saved))) ∧ i.toNativePayment = Sample.payment ∧
    (buildNativePayment Sample.sdk "testnet" i.sender i.recipient i.amount i.memo).CanReturn ⟨"unsigned", "testnet", 100⟩ ∧
    BuildSignVerify Sample.deployment Sample.wallet "secret" input.payment i := by
  have ran : ((payments Sample.deployment).replay (effect Sample.deployment) Sample.created (.initial .empty)).any (fun cfg =>
      (Sample.outcome cfg).any fun (input, _, i) =>
        isString (Sample.wallet.publicKey "secret") input.payment.sender ∧ i.toNativePayment = Sample.payment) = true := by
    decide +kernel
  obtain ⟨cfg, ran, found⟩ := (Option.any_eq_true _ _).1 ran
  obtain ⟨⟨input, saved, i⟩, found, facts⟩ := (Option.any_eq_true _ _).1 found
  obtain ⟨owner, same⟩ := of_decide_eq_true facts
  obtain ⟨created, stored⟩ := Sample.outcome_eq found
  have run : Reachable Sample.deployment cfg := System.replay_steps (effect_exec Sample.deployment) ran
  refine ⟨cfg, input, saved, i, run, created, same, ?_, ?_⟩
  · show (buildNativePayment Sample.sdk "testnet" i.toNativePayment.sender i.toNativePayment.recipient i.toNativePayment.amount
      i.toNativePayment.memo).CanReturn _
    rw [same]
    exact (canReturn_buildNativePayment rfl).2 ⟨rfl, ⟨_, Sample.valid⟩, Sample.snapshot, 0, Sample.built⟩
  · exact build_sign_verify Sample.sdksAgree run created stored rfl (isString_iff.1 owner)

end AfriPay.Wallet
