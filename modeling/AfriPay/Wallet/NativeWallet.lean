import AfriPay.Wallet.RoundTrip

/-!
# The wallet on its pages (`hooks/useNativeWallet.ts`)

Every page has the hook's state to itself, and all of them share the item in local
storage. The storage keeps the wallet that was created or imported last, under its
password, until it is removed (`run_keeps`).
-/

namespace AfriPay.Wallet
open Text Storage

/-- The state of the hook. The address is what the record names as the public key. -/
structure NativeWallet where
  encrypted : Option Json
  address : Option Json
  secret : Option String

/-- What `generateKeypair` returns: a generated secret has no white space around it. -/
structure Keypair where
  publicKey : String
  secret : String
  bare : trim secret = secret

/-- What `encryptWallet` draws at random, and the time it reads. -/
structure Drawn where
  salt : Vector UInt8 16
  iv : Vector UInt8 12
  createdAt : String

/-- What happens on a page. `unlock` goes on with the record the page had when it was called. -/
inductive WalletEvent where
  | mount
  | create (pair : Keypair) (password : JsString) (drawn : Drawn)
  | importWallet (rawSecret : String) (password : JsString) (drawn : Drawn)
  | unlock (encrypted : Option Json) (password : JsString)
  /-- `lock`, or a quarter of an hour without a touch. -/
  | lock
  | remove

structure WalletPages where
  storage : LocalStorage
  pages : Nat → NativeWallet

namespace WalletPages

def set (b : WalletPages) (n : Nat) (page : NativeWallet) : WalletPages := { b with pages := Function.update b.pages n page }

/-- An encrypted wallet is saved, and the page has it unlocked. -/
def adopt (b : WalletPages) (n : Nat) (wallet : EncryptedWallet) (publicKey secret : String) : WalletPages :=
  { b with storage := saveEncryptedWallet b.storage wallet }.set n ⟨some wallet.json, some (.str publicKey), some secret⟩

variable (P : WalletPlatform)

def step (b : WalletPages) (n : Nat) : WalletEvent → Except WalletError WalletPages
  | .mount => .ok (b.set n ⟨readEncryptedWallet (some b.storage), none, none⟩)
  | .create pair password drawn => do
    let wallet ← P.encryptWallet pair.secret pair.publicKey password drawn.salt drawn.iv drawn.createdAt
    return b.adopt n wallet pair.publicKey pair.secret
  | .importWallet rawSecret password drawn =>
    match P.validateSecret rawSecret with
    | none => .error (.error "Invalid Stellar secret key")
    | some publicKey => do
      let wallet ← P.encryptWallet (trim rawSecret) publicKey password drawn.salt drawn.iv drawn.createdAt
      return b.adopt n wallet publicKey (trim rawSecret)
  | .unlock none _ => .error (.error "No encrypted wallet found")
  | .unlock (some encrypted) password => do
    let decrypted ← P.decryptWallet encrypted password
    return b.set n { b.pages n with secret := some decrypted, address := encrypted.prop "publicKey" }
  | .lock => .ok (b.set n { b.pages n with secret := none, address := none })
  | .remove => .ok ({ b with storage := removeEncryptedWallet b.storage }.set n ⟨none, none, none⟩)

/-- An event that throws changes nothing. -/
def after (b : WalletPages) (e : Nat × WalletEvent) : WalletPages := (b.step P e.1 e.2).toOption.getD b

def run (b : WalletPages) (events : List (Nat × WalletEvent)) : WalletPages := events.foldl (after P) b

end WalletPages

/-- The secret to be kept, with its password, after an event. -/
def kept (P : WalletPlatform) (slot : Option (String × JsString)) : WalletEvent → Option (String × JsString)
  | .create pair password _ =>
    if P.validateSecret pair.secret = some pair.publicKey ∧ 8 ≤ utf16Length password then some (pair.secret, password) else slot
  | .importWallet rawSecret password _ =>
    if (P.validateSecret rawSecret).isSome ∧ 8 ≤ utf16Length password then some (trim rawSecret, password) else slot
  | .remove => none
  | _ => slot

/-- The storage has a wallet that opens, or none. -/
def Keeps (P : WalletPlatform) (storage : LocalStorage) : Option (String × JsString) → Prop
  | none => readEncryptedWallet (some storage) = none
  | some (secret, password) => ∃ found, readEncryptedWallet (some storage) = some found ∧ P.decryptWallet found password = .ok secret

/-! ## One event -/

section Steps

variable {P : WalletPlatform} {b b' : WalletPages} {n : Nat} {e : WalletEvent} {secret publicKey createdAt : String} {password : JsString}
  {salt : Vector UInt8 16} {iv : Vector UInt8 12} {w : EncryptedWallet}

theorem encryptWallet_asks (made : P.encryptWallet secret publicKey password salt iv createdAt = .ok w) :
    P.validateSecret secret = some publicKey ∧ 8 ≤ utf16Length password := by
  rw [WalletPlatform.encryptWallet] at made
  obtain ⟨long, made⟩ := else_ok made
  obtain ⟨valid, -⟩ := else_ok made
  exact ⟨not_not.1 valid, Nat.le_of_not_lt fun short => long (.inr short)⟩

/-- What an event does that does not throw: a wallet is saved, a page changes, or the wallet is removed. -/
theorem step_ok (stepped : b.step P n e = .ok b') :
    (∃ w publicKey secret password, Sealed P secret password w ∧ P.validateSecret secret = some publicKey ∧ trim secret = secret ∧
      b' = b.adopt n w publicKey secret ∧ ∀ slot, kept P slot e = some (secret, password)) ∨
    (∃ page, b' = b.set n page ∧ ∀ slot, kept P slot e = slot) ∨
    (e = .remove ∧ b' = { b with storage := removeEncryptedWallet b.storage }.set n ⟨none, none, none⟩) := by
  cases e with
  | mount =>
    obtain rfl := Except.ok.inj stepped
    exact .inr (.inl ⟨_, rfl, fun _ => rfl⟩)
  | create pair password drawn =>
    obtain ⟨w, made, same⟩ := bind_ok stepped
    obtain rfl := Except.ok.inj same
    have asks := encryptWallet_asks made
    exact .inl ⟨w, _, _, password, encryptWallet_sealed made, asks.1, pair.bare, rfl, fun _ => if_pos asks⟩
  | importWallet rawSecret password drawn =>
    cases valid : P.validateSecret rawSecret with
    | none =>
      simp only [WalletPages.step, valid] at stepped
      cases stepped
    | some key =>
      simp only [WalletPages.step, valid] at stepped
      obtain ⟨w, made, same⟩ := bind_ok stepped
      obtain rfl := Except.ok.inj same
      have asks := encryptWallet_asks made
      have given : (P.validateSecret rawSecret).isSome = true ∧ 8 ≤ utf16Length password := ⟨by rw [valid]; rfl, asks.2⟩
      exact .inl ⟨w, _, _, password, encryptWallet_sealed made, asks.1, trim_trim _, rfl, fun _ => if_pos given⟩
  | unlock encrypted password =>
    cases encrypted with
    | none => cases stepped
    | some record =>
      obtain ⟨decrypted, opened, same⟩ := bind_ok stepped
      obtain rfl := Except.ok.inj same
      exact .inr (.inl ⟨_, rfl, fun _ => rfl⟩)
  | lock =>
    obtain rfl := Except.ok.inj stepped
    exact .inr (.inl ⟨_, rfl, fun _ => rfl⟩)
  | remove => exact .inr (.inr ⟨rfl, (Except.ok.inj stepped).symm⟩)

/-- An event that throws keeps what was kept. -/
theorem step_error {err : WalletError} (threw : b.step P n e = .error err) (slot : Option (String × JsString)) : kept P slot e = slot := by
  cases e with
  | mount | lock | remove => cases threw
  | unlock => rfl
  | create pair password drawn =>
    rw [kept, if_neg]
    rintro ⟨valid, long⟩
    obtain ⟨w, made⟩ := encryptWallet_accepts valid long drawn.salt drawn.iv drawn.createdAt
    simp only [WalletPages.step, made] at threw
    cases threw
  | importWallet rawSecret password drawn =>
    rw [kept, if_neg]
    rintro ⟨given, long⟩
    obtain ⟨key, valid⟩ := Option.isSome_iff_exists.1 given
    have valid' : P.validateSecret (trim rawSecret) = some key := by rw [WalletPlatform.validateSecret, trim_trim, ← valid,
      WalletPlatform.validateSecret]
    obtain ⟨w, made⟩ := encryptWallet_accepts valid' long drawn.salt drawn.iv drawn.createdAt
    simp only [WalletPages.step, valid, made] at threw
    cases threw

theorem step_keeps (lawful : P.Lawful) {slot : Option (String × JsString)} (before : Keeps P b.storage slot) (stepped : b.step P n e = .ok b') :
    Keeps P b'.storage (kept P slot e) := by
  rcases step_ok stepped with ⟨w, key, secret, password, made, -, bare, rfl, is⟩ | ⟨page, rfl, is⟩ | ⟨rfl, rfl⟩
  · rw [is slot]
    exact ⟨w.json, made.read lawful b.storage, made.decrypt lawful bare⟩
  · rw [is slot]
    exact before
  · have removed : removeEncryptedWallet b.storage walletStorageKey = none := Function.update_self _ _ _
    change readEncryptedWallet (some (removeEncryptedWallet b.storage)) = none
    rw [readEncryptedWallet, Option.bind_eq_bind, Option.bind_some, removed]
    rfl

end Steps

/-! ## Whole runs -/

section Runs

variable {P : WalletPlatform} {b : WalletPages}

/-- The storage keeps what was created or imported last and not removed since, under its password. -/
theorem run_keeps (lawful : P.Lawful) {slot : Option (String × JsString)} (before : Keeps P b.storage slot) (events : List (Nat × WalletEvent)) :
    Keeps P (b.run P events).storage (events.foldl (fun slot e => kept P slot e.2) slot) := by
  induction events generalizing b slot with
  | nil => exact before
  | cons e events ih =>
    refine ih ?_
    rw [WalletPages.after]
    cases stepped : b.step P e.1 e.2 with
    | error err =>
      change Keeps P b.storage (kept P slot e.2)
      rw [step_error stepped]
      exact before
    | ok b' => exact step_keeps lawful before stepped

end Runs

end AfriPay.Wallet
