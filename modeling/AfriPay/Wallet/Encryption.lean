import AfriPay.Text.Base64
import AfriPay.Text.JsonText
import AfriPay.Text.Utf8

/-!
# The stored wallet (`lib/wallet.ts`)

The browser keeps the secret of a wallet in local storage, encrypted with a key that
is derived from the password. What WebCrypto and the Stellar SDK contribute is the
parameter `WalletPlatform`; the random salt and nonce and the clock are arguments.
-/

namespace AfriPay.Wallet
open Text

/-- What a function of the module throws. -/
inductive WalletError where
  /-- `new Error(message)` -/
  | error (message : String)
  /-- `InvalidCharacterError`, from `atob` and `btoa`. -/
  | invalidCharacter
  /-- `TypeError`, where a value cannot be written as text. -/
  | notText
  /-- `OperationError`, where a ciphertext does not belong to the key. -/
  | operation
  deriving DecidableEq, Repr

/-- WebCrypto and the Stellar SDK in the browser. -/
structure WalletPlatform where
  Key : Type
  /-- PBKDF2 with SHA-256, for an AES-GCM key of 256 bits. -/
  deriveKey : (password salt : List UInt8) → (iterations : Nat) → Key
  /-- AES-GCM -/
  encrypt : Key → (iv plaintext : List UInt8) → List UInt8
  decrypt : Key → (iv ciphertext : List UInt8) → Option (List UInt8)
  /-- `Keypair.fromSecret(secret).publicKey()`, `none` where it throws. -/
  fromSecret : (secret : String) → Option String

def walletStorageKey : String := "afripay.native-wallet.v1"

def iterations : Nat := 310000

structure KdfParameters where
  iterations : Nat
  deriving DecidableEq, Repr

structure EncryptedWallet where
  version : Nat
  publicKey : String
  ciphertext : String
  salt : String
  iv : String
  kdf : String
  kdfParameters : KdfParameters
  createdAt : String
  network : String
  deriving DecidableEq, Repr

/-- The record as a JSON value. -/
def EncryptedWallet.json (w : EncryptedWallet) : Json :=
  .obj [("version", .num (.finite w.version)), ("publicKey", .str w.publicKey), ("ciphertext", .str w.ciphertext), ("salt", .str w.salt),
    ("iv", .str w.iv), ("kdf", .str w.kdf), ("kdfParameters", .obj [("iterations", .num (.finite w.kdfParameters.iterations))]),
    ("createdAt", .str w.createdAt), ("network", .str w.network)]

def bytesToBase64 (bytes : List UInt8) : Except WalletError String :=
  match btoa (String.ofList (bytes.map fun b => Char.ofNat b.toNat)) with
  | some text => .ok text
  | none => .error .invalidCharacter

def base64ToBytes (value : Option Json) : Except WalletError (List UInt8) :=
  match toText value with
  | none => .error .notText
  | some (.lone _) => .error .invalidCharacter
  | some (.text text) =>
    match atob text with
    | some bytes => .ok (bytes.toList.map fun c => UInt8.ofNat c.toNat)
    | none => .error .invalidCharacter

/-- `v === n` for a whole number `n`. -/
def isNumber (n : Nat) : Option Json → Bool
  | some (.num x) => x.same (.finite n)
  | _ => false

namespace WalletPlatform

variable (P : WalletPlatform)

/-- The public key of a secret that is valid. -/
def validateSecret (secret : String) : Option String := P.fromSecret (trim secret)

def encryptWallet (secret publicKey : String) (password : JsString) (salt : Vector UInt8 16) (iv : Vector UInt8 12) (createdAt : String) :
    Except WalletError EncryptedWallet :=
  if password = .text "" ∨ utf16Length password < 8 then .error (.error "Wallet password must be at least 8 characters")
  else if P.validateSecret secret ≠ some publicKey then .error (.error "Wallet key mismatch")
  else do
    let key := P.deriveKey (utf8Encode password) salt.toList iterations
    let ciphertext ← bytesToBase64 (P.encrypt key iv.toList (utf8Encode secret))
    let salt ← bytesToBase64 salt.toList
    let iv ← bytesToBase64 iv.toList
    return { version := 1, publicKey, ciphertext, salt, iv, kdf := "PBKDF2-SHA-256", kdfParameters := ⟨iterations⟩, createdAt, network := "testnet" }

def decryptWallet (wallet : Json) (password : JsString) : Except WalletError String :=
  if !isNumber 1 (wallet.prop "version") || !isString "testnet" (wallet.prop "network") || !isString "PBKDF2-SHA-256" (wallet.prop "kdf")
      || !isNumber iterations ((wallet.prop "kdfParameters").bind (Json.prop "iterations")) then
    .error (.error "Invalid wallet metadata")
  else do
    let salt ← base64ToBytes (wallet.prop "salt")
    if salt.length ≠ 16 then .error (.error "Invalid wallet metadata") else
    let iv ← base64ToBytes (wallet.prop "iv")
    if iv.length ≠ 12 then .error (.error "Invalid wallet metadata") else
    let key := P.deriveKey (utf8Encode password) salt iterations
    let ciphertext ← base64ToBytes (wallet.prop "ciphertext")
    match P.decrypt key iv ciphertext with
    | none => .error .operation
    | some plaintext =>
      let secret := utf8Decode plaintext
      match P.validateSecret secret with
      | none => .error (.error "Wallet key mismatch")
      | some publicKey => if isString publicKey (wallet.prop "publicKey") then .ok secret else .error (.error "Wallet key mismatch")

end WalletPlatform

/-! ## Local storage -/

/-- The items of `window.localStorage`. -/
abbrev LocalStorage := String → Option String

/-- Without a window nothing is stored. -/
def readEncryptedWallet (window : Option LocalStorage) : Option Json := do
  let storage ← window
  let raw ← storage walletStorageKey
  if raw = "" then none else
  let parsed ← jsonParse raw
  if !isNumber 1 (parsed.prop "version") || !isString "testnet" (parsed.prop "network") || !truthy (parsed.prop "publicKey")
      || !truthy (parsed.prop "ciphertext") then none
  else some parsed

def saveEncryptedWallet (storage : LocalStorage) (wallet : EncryptedWallet) : LocalStorage :=
  Function.update storage walletStorageKey (some (jsonStringify wallet.json))

def removeEncryptedWallet (storage : LocalStorage) : LocalStorage := Function.update storage walletStorageKey none

end AfriPay.Wallet
