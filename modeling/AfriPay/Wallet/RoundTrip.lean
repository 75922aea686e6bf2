import AfriPay.Storage.Sql
import AfriPay.Text.JsonRoundTrip
import AfriPay.Wallet.Encryption

/-!
# The stored wallet read back

A wallet that is saved is found again and opens with its password
(`storage_sound`), and whatever the storage holds, a record that opens has passed
every check and names the public key of the secret in it.
-/

namespace AfriPay.Wallet
open Text Storage

/-- What the code relies on: AES-GCM decrypts what it encrypted and adds a tag, and no public key is empty. -/
structure WalletPlatform.Lawful (P : WalletPlatform) : Prop where
  decrypts : ∀ (key : P.Key) {iv : List UInt8} (plaintext : List UInt8), iv.length = 12 →
    P.decrypt key iv (P.encrypt key iv plaintext) = some plaintext
  tagged : ∀ (key : P.Key) (iv plaintext : List UInt8), (P.encrypt key iv plaintext).length = plaintext.length + 16
  named : ∀ {secret publicKey : String}, P.fromSecret secret = some publicKey → publicKey ≠ ""

/-! ## Bytes as text -/

theorem toNat_ofNat_byte (b : UInt8) : (Char.ofNat b.toNat).toNat = b.toNat := by
  have small : b.toNat < 256 := b.toNat_lt
  have valid : b.toNat.isValidChar := .inl (by omega)
  rw [Char.ofNat, dif_pos valid]
  rfl

/-- Every byte string can be written. -/
theorem bytesToBase64_writes (bytes : List UInt8) : ∃ text, bytesToBase64 bytes = .ok text := by
  have small : ((bytes.map fun b => Char.ofNat b.toNat).map Char.toNat).all (· ≤ 0xFF) = true := by
    rw [List.map_map, List.all_map, List.all_eq_true]
    intro b _
    have := b.toNat_lt
    simp only [Function.comp_apply, toNat_ofNat_byte, decide_eq_true_eq]
    omega
  rw [bytesToBase64, btoa, String.toList_ofList, if_pos small]
  exact ⟨_, rfl⟩

/-- What is written is read back. -/
theorem base64ToBytes_written {bytes : List UInt8} {text : String} (written : bytesToBase64 bytes = .ok text) :
    base64ToBytes (some (.str text)) = .ok bytes := by
  have back : (bytes.map fun b => Char.ofNat b.toNat).map (fun c => UInt8.ofNat c.toNat) = bytes := by
    rw [List.map_map]
    refine (List.map_congr_left fun b _ => ?_).trans (List.map_id bytes)
    simp only [Function.comp_apply, id, toNat_ofNat_byte, UInt8.ofNat_toNat]
  rw [bytesToBase64] at written
  split at written
  case h_1 found =>
    obtain rfl := Except.ok.inj written
    simp only [base64ToBytes, toText, Json.text, atob_btoa found, String.toList_ofList, back]
  case h_2 => cases written

/-- No bytes, no text. -/
theorem base64ToBytes_empty : base64ToBytes (some (.str "")) = .ok [] := by
  simp only [base64ToBytes, toText, Json.text]
  rfl

@[simp] theorem isNumber_natCast (n : Nat) : isNumber n (some (.num (.finite n))) = true := by simp [isNumber, JsNumber.same]

/-! ## Records that `encryptWallet` makes -/

/-- A record of a secret, under a password. -/
structure Sealed (P : WalletPlatform) (secret : String) (password : JsString) (w : EncryptedWallet) : Prop where
  publicKey : P.validateSecret secret = some w.publicKey
  version : w.version = 1
  kdf : w.kdf = "PBKDF2-SHA-256"
  kdfParameters : w.kdfParameters = ⟨iterations⟩
  network : w.network = "testnet"
  bytes : ∃ salt iv, base64ToBytes (w.json.prop "salt") = .ok salt ∧ salt.length = 16 ∧ base64ToBytes (w.json.prop "iv") = .ok iv ∧ iv.length = 12 ∧
    base64ToBytes (w.json.prop "ciphertext") = .ok (P.encrypt (P.deriveKey (utf8Encode password) salt iterations) iv (utf8Encode secret))

section Records

variable {P : WalletPlatform} {secret publicKey createdAt : String} {password : JsString} {salt : Vector UInt8 16} {iv : Vector UInt8 12}
  {w : EncryptedWallet}

/-- A long enough password and the matching key are all that is asked for. -/
theorem encryptWallet_accepts (valid : P.validateSecret secret = some publicKey) (long : 8 ≤ utf16Length password)
    (salt : Vector UInt8 16) (iv : Vector UInt8 12) (createdAt : String) :
    ∃ w, P.encryptWallet secret publicKey password salt iv createdAt = .ok w := by
  obtain ⟨_, ciphertext⟩ := bytesToBase64_writes (P.encrypt (P.deriveKey (utf8Encode password) salt.toList iterations) iv.toList (utf8Encode secret))
  obtain ⟨_, salted⟩ := bytesToBase64_writes salt.toList
  obtain ⟨_, nonce⟩ := bytesToBase64_writes iv.toList
  have accepted : ¬(password = .text "" ∨ utf16Length password < 8) := by
    rintro (rfl | short)
    · exact absurd long (by decide)
    · omega
  rw [WalletPlatform.encryptWallet, if_neg accepted, if_neg (not_not.2 valid)]
  simp only [ciphertext, salted, nonce]
  exact ⟨_, rfl⟩

theorem encryptWallet_sealed (made : P.encryptWallet secret publicKey password salt iv createdAt = .ok w) : Sealed P secret password w := by
  rw [WalletPlatform.encryptWallet] at made
  obtain ⟨-, made⟩ := else_ok made
  obtain ⟨valid, made⟩ := else_ok made
  obtain ⟨ciphertext, written, made⟩ := bind_ok made
  obtain ⟨salted, written', made⟩ := bind_ok made
  obtain ⟨nonce, written'', made⟩ := bind_ok made
  obtain rfl := Except.ok.inj made
  exact ⟨not_not.1 valid, rfl, rfl, rfl, rfl, salt.toList, iv.toList, base64ToBytes_written written', Vector.length_toList,
    base64ToBytes_written written'', Vector.length_toList, base64ToBytes_written written⟩

namespace Sealed

theorem wellFormed (made : Sealed P secret password w) : w.json.WellFormed Readable := by
  have whole : ∀ n < 10 ^ 15, (Json.num (.finite (n : ℕ))).WellFormed Readable := fun _ small => readable_natCast small
  refine ⟨by simp, ?_, trivial, trivial, trivial, trivial, trivial, ⟨by simp, ?_, trivial⟩, trivial, trivial, trivial⟩
  · rw [made.version]
    exact whole 1 (by decide)
  · rw [made.kdfParameters]
    exact whole iterations (by decide)

theorem isVersion (made : Sealed P secret password w) : isNumber 1 (w.json.prop "version") = true := by
  change isNumber 1 (some (.num (.finite w.version))) = true
  rw [made.version, isNumber_natCast]

theorem isNetwork (made : Sealed P secret password w) : isString "testnet" (w.json.prop "network") = true :=
  isString_iff.2 (congrArg (some ∘ Json.str) made.network)

/-- A saved record is found. -/
theorem read (made : Sealed P secret password w) (lawful : P.Lawful) (storage : LocalStorage) :
    readEncryptedWallet (some (saveEncryptedWallet storage w)) = some w.json := by
  have parsed := jsonParse_stringify made.wellFormed
  have nonempty : jsonStringify w.json ≠ "" := by
    intro empty
    rw [empty] at parsed
    cases parsed
  have stored : saveEncryptedWallet storage w walletStorageKey = some (jsonStringify w.json) := Function.update_self _ _ _
  have publicKey : truthy (w.json.prop "publicKey") = true := decide_eq_true (lawful.named made.publicKey)
  have ciphertext : truthy (w.json.prop "ciphertext") = true := by
    obtain ⟨salt, iv, -, -, -, -, ciphertext⟩ := made.bytes
    refine decide_eq_true fun empty => ?_
    change base64ToBytes (some (.str w.ciphertext)) = _ at ciphertext
    rw [empty, base64ToBytes_empty, Except.ok.injEq] at ciphertext
    have tagged := lawful.tagged (P.deriveKey (utf8Encode password) salt iterations) iv (utf8Encode secret)
    rw [← ciphertext] at tagged
    cases tagged
  simp only [readEncryptedWallet, Option.bind_eq_bind, Option.bind_some, stored, if_neg nonempty, parsed, made.isVersion, made.isNetwork,
    publicKey, ciphertext]
  rfl

/-- And opens with its password. -/
theorem decrypt (made : Sealed P secret password w) (lawful : P.Lawful) (bare : trim secret = secret) :
    P.decryptWallet w.json password = .ok secret := by
  obtain ⟨salt, iv, salted, length, nonce, length', ciphertext⟩ := made.bytes
  have kdf : isString "PBKDF2-SHA-256" (w.json.prop "kdf") = true := isString_iff.2 (congrArg (some ∘ Json.str) made.kdf)
  have parameters : isNumber iterations ((w.json.prop "kdfParameters").bind (Json.prop "iterations")) = true := by
    change isNumber iterations (some (.num (.finite w.kdfParameters.iterations))) = true
    rw [made.kdfParameters, isNumber_natCast]
  have publicKey : isString w.publicKey (w.json.prop "publicKey") = true := decide_eq_true rfl
  have unmarked : (secret : JsString).toWellFormed.toList.head? ≠ some '\uFEFF' := by
    intro mark
    have chars := congrArg String.toList bare
    rw [trim, String.toList_ofList] at chars
    rw [JsString.toWellFormed_text, ← chars] at mark
    exact absurd (trimChars_head mark) (by decide)
  have decoded : utf8Decode (utf8Encode secret) = secret := utf8Decode_encode unmarked
  have bound : ∀ {α : Type} (a : α) (f : α → Except WalletError String), (Except.ok a >>= f) = f a := fun _ _ => rfl
  simp only [WalletPlatform.decryptWallet, made.isVersion, made.isNetwork, kdf, parameters, salted, nonce, ciphertext, bound, length, length',
    lawful.decrypts _ _ length', decoded, made.publicKey, publicKey]
  rfl

end Sealed

/-! ## Records that open -/

/-- What a record is checked for before a secret is handed out. -/
structure RecordChecked (P : WalletPlatform) (wallet : Json) (secret : String) : Prop where
  publicKey : ∃ key, P.validateSecret secret = some key ∧ wallet.prop "publicKey" = some (.str key)
  version : wallet.prop "version" = some (.num (.finite 1))
  network : wallet.prop "network" = some (.str "testnet")
  kdf : wallet.prop "kdf" = some (.str "PBKDF2-SHA-256")
  iterations : (wallet.prop "kdfParameters").bind (Json.prop "iterations") = some (.num (.finite 310000))
  salt : ∃ bytes, base64ToBytes (wallet.prop "salt") = .ok bytes ∧ bytes.length = 16
  iv : ∃ bytes, base64ToBytes (wallet.prop "iv") = .ok bytes ∧ bytes.length = 12

theorem isNumber_iff {n : Nat} {v : Option Json} : isNumber n v = true ↔ v = some (.num (.finite n)) := by
  constructor
  · intro is
    cases v with
    | none => cases is
    | some j =>
      cases j with
      | num x =>
        cases x with
        | nan => cases is
        | inf _ => simp [isNumber, JsNumber.same] at is
        | finite q => rw [of_decide_eq_true is]
      | _ => cases is
  · rintro rfl
    exact isNumber_natCast n

/-- A record that opens has passed every check. -/
theorem decryptWallet_checked {wallet : Json} (opened : P.decryptWallet wallet password = .ok secret) : RecordChecked P wallet secret := by
  rw [WalletPlatform.decryptWallet] at opened
  obtain ⟨metadata, opened⟩ := else_ok opened
  obtain ⟨salt, salted, opened⟩ := bind_ok opened
  obtain ⟨length, opened⟩ := else_ok opened
  obtain ⟨iv, nonce, opened⟩ := bind_ok opened
  obtain ⟨length', opened⟩ := else_ok opened
  obtain ⟨ciphertext, -, opened⟩ := bind_ok opened
  simp only [Bool.or_eq_true, Bool.not_eq_true', not_or, Bool.not_eq_false, isNumber_iff, isString_iff] at metadata
  obtain ⟨⟨⟨version, network⟩, kdf⟩, parameters⟩ := metadata
  split at opened
  case h_1 => cases opened
  case h_2 plaintext _ =>
    dsimp only at opened
    split at opened
    case h_1 => cases opened
    case h_2 key valid =>
      split at opened
      case isFalse => cases opened
      case isTrue same =>
        obtain rfl := Except.ok.inj opened
        exact ⟨⟨key, valid, isString_iff.1 same⟩, by simpa using version, network, kdf, parameters, ⟨salt, salted, not_not.1 length⟩,
          ⟨iv, nonce, not_not.1 length'⟩⟩

/-- What the stored wallet is for. -/
structure StorageSound (P : WalletPlatform) : Prop where
  /-- A password of eight characters is accepted for a secret and its public key. -/
  accepted : ∀ {secret publicKey : String} {password : JsString}, P.validateSecret secret = some publicKey → 8 ≤ utf16Length password →
    ∀ salt iv createdAt, ∃ w, P.encryptWallet secret publicKey password salt iv createdAt = .ok w
  /-- A secret is stored and read back. -/
  readBack : ∀ {secret publicKey createdAt : String} {password : JsString} {salt : Vector UInt8 16} {iv : Vector UInt8 12}
    {w : EncryptedWallet}, trim secret = secret → P.encryptWallet secret publicKey password salt iv createdAt = .ok w →
    ∀ storage, ∃ found, readEncryptedWallet (some (saveEncryptedWallet storage w)) = some found ∧ P.decryptWallet found password = .ok secret
  /-- Whatever is stored, a secret comes out of a record that has been checked against it. -/
  checked : ∀ {window : Option LocalStorage} {found : Json} {password : JsString} {secret : String},
    readEncryptedWallet window = some found → P.decryptWallet found password = .ok secret → RecordChecked P found secret

theorem storage_sound (lawful : P.Lawful) : StorageSound P :=
  ⟨encryptWallet_accepts, fun bare made storage => ⟨_, (encryptWallet_sealed made).read lawful storage,
    (encryptWallet_sealed made).decrypt lawful bare⟩,
    fun _ opened => decryptWallet_checked opened⟩

end Records

namespace Sample

def secret : String := "SBGWSG6BTNCKCOB3DIFBGCVMUPQFYPA2G4O34RMTB343OYPXU5DJDVMN"

def publicKey : String := "GDRXE2BQUC3AZNPVFSCEZ76NJ3WWL25FYFK6RGZGIEKWE4SOOHSUJUJ6"

def tag (key iv : List UInt8) : List UInt8 := (key ++ iv ++ List.replicate 16 0).take 16

/-- A platform with one keypair, whose cipher only adds the tag. -/
def platform : WalletPlatform where
  Key := List UInt8
  deriveKey password salt _ := password ++ salt
  encrypt key iv plaintext := plaintext ++ tag key iv
  decrypt key iv ciphertext :=
    if ciphertext.drop (ciphertext.length - 16) = tag key iv then some (ciphertext.take (ciphertext.length - 16)) else none
  fromSecret s := if s = secret then some publicKey else none

theorem platform_lawful : platform.Lawful := by
  have length : ∀ key iv, (tag key iv).length = 16 := fun key iv => by
    rw [tag, List.length_take, List.length_append, List.length_replicate]
    omega
  have total : ∀ key iv plaintext, (plaintext ++ tag key iv).length = plaintext.length + 16 := fun key iv plaintext => by
    rw [List.length_append, length]
  have opens : ∀ key iv plaintext : List UInt8, (if (plaintext ++ tag key iv).drop ((plaintext ++ tag key iv).length - 16) = tag key iv then
      some ((plaintext ++ tag key iv).take ((plaintext ++ tag key iv).length - 16)) else none) = some plaintext := by
    intro key iv plaintext
    rw [total, Nat.add_sub_cancel, List.drop_left, List.take_left, if_pos rfl]
  refine ⟨fun key iv plaintext _ => opens key iv plaintext, total, fun found => ?_⟩
  simp only [platform, Option.ite_none_right_eq_some, Option.some.injEq] at found
  rw [← found.2]
  decide

end Sample

theorem storage_sound_sample : ∃ w, Sample.platform.encryptWallet Sample.secret Sample.publicKey "correct horse battery staple"
      (Vector.replicate 16 7) (Vector.replicate 12 9) "2026-01-01T00:00:00.000Z" = .ok w ∧
    ∃ found, readEncryptedWallet (some (saveEncryptedWallet (fun _ => none) w)) = some found ∧
      Sample.platform.decryptWallet found "correct horse battery staple" = .ok Sample.secret := by
  have sound := storage_sound Sample.platform_lawful
  have valid : Sample.platform.validateSecret Sample.secret = some Sample.publicKey := by decide
  obtain ⟨w, made⟩ := sound.accepted valid (by decide : 8 ≤ utf16Length "correct horse battery staple") (Vector.replicate 16 7)
    (Vector.replicate 12 9) "2026-01-01T00:00:00.000Z"
  exact ⟨w, made, sound.readBack (by decide) made _⟩

end AfriPay.Wallet
