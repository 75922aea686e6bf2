import AfriPay.Calls.Effects
import AfriPay.Wallet.NativeWallet

/-!
# The wallet around the pages (`components/wallet/WalletProvider.tsx`, `WalletGate.tsx`)

Every tab has one provider over its `useNativeWallet`: it loads the account of the
address, and holds what the create flow is about. The gate shows onboarding, the
backup or the unlock form until the pages may be shown. A wallet operation waits
for WebCrypto and goes on in a later step, whatever has happened meanwhile; React
runs the effects of a step with it.
-/

namespace AfriPay.Wallet
open Calls Text

/-- `AssetBalance` -/
structure AssetBalance where
  asset : String
  balance : String

/-- What the provider reads of `GET /stellar/accounts/:publicKey`. -/
structure AccountSummary where
  activated : Bool
  balances : Option (List AssetBalance)

structure AccountState where
  loading : Bool
  activated : Option Bool
  xlm : Option String
  assets : List AssetBalance
  history : Option (List Json)
  error : Option String

def emptyAccount : AccountState := ⟨false, none, none, [], none, none⟩

/-- What the two requests for an account come to. A failed one throws an `Error` with a message, or something else. -/
inductive AccountAnswer where
  | summary (summary : AccountSummary)
  | noSummary (message : Option String)
  | history (records : Option (List Json))
  | noHistory

/-- Whether an answer is to the first of the two requests. -/
def AccountAnswer.first : AccountAnswer → Bool
  | .summary _ | .noSummary _ => true
  | .history _ | .noHistory => false

def AccountSummary.xlm (summary : AccountSummary) : String :=
  (((summary.balances.getD []).find? fun item => item.asset = "XLM").map AssetBalance.balance).getD "0"

def AccountSummary.assets (summary : AccountSummary) : List AssetBalance :=
  (summary.balances.getD []).filter fun item => item.asset ≠ "XLM"

/-- The effect on the address and the refresh token. -/
def accountEffect : ViewEffect AccountState AccountAnswer where
  empty := emptyAccount
  asking account := { account with loading := true, error := none }
  take account
    | .summary summary =>
      { account with loading := false, activated := some summary.activated, xlm := some summary.xlm, assets := summary.assets }
    | .noSummary message =>
      { account with loading := false, activated := some false, error := some (message.getD "Unable to load Testnet balance.") }
    | .history records => { account with history := some (records.getD []) }
    | .noHistory => { account with history := some [] }

/-- Set while the create flow is running and until the backup of the secret is acknowledged. -/
structure Setup where
  active : Bool
  backupSecret : Option String

/-- A string or `null`, as a condition. -/
def filled (s : Option String) : Bool := truthy (s.map .str)

namespace NativeWallet

def isUnlocked (wallet : NativeWallet) : Bool := filled wallet.secret

/-- `wallet.address`, which is a string if there is one (`TabInv.hook`). -/
def addressText (wallet : NativeWallet) : Option String :=
  match wallet.address with
  | some (.str address) => some address
  | _ => none

/-- The address to load an account for. -/
def accountAddress (wallet : NativeWallet) : Option String := wallet.addressText.filter fun address => filled (some address)

end NativeWallet

/-- What `WalletGate` shows. -/
inductive Screen where
  | loading
  | backup (secret : String)
  | onboarding
  | unlock
  | children
  deriving DecidableEq

structure Provider where
  ready : Bool
  account : Watched AccountState String AccountAnswer
  setup : Setup
  /-- The operations that wait for WebCrypto, as `useNativeWallet` was called for them. -/
  pending : List WalletEvent

namespace Provider

def initial : Provider := ⟨false, ⟨emptyAccount, [], 0⟩, ⟨false, none⟩, []⟩

def screen (t : Provider) (wallet : NativeWallet) : Screen :=
  if !t.ready then .loading
  else if filled t.setup.backupSecret then .backup (t.setup.backupSecret.getD "")
  else if t.setup.active || wallet.encrypted.isNone then .onboarding
  else if !wallet.isUnlocked then .unlock
  else .children

/-- Locking drops a secret that is still on screen. -/
def locked (t : Provider) : Provider := if filled t.setup.backupSecret then { t with setup := ⟨false, none⟩ } else t

/-- The effects that run when the hook's state has changed, or the refresh token. -/
def rendered (t : Provider) (wallet wallet' : NativeWallet) (refreshed : Bool) : Provider :=
  let t := if wallet.isUnlocked && !wallet'.isUnlocked then t.locked else t
  if wallet.addressText ≠ wallet'.addressText ∨ refreshed then { t with account := accountEffect.renew t.account wallet'.accountAddress } else t

end Provider

/-- The forms of `Onboarding` and `Unlock`. The two passwords of the former are the same when it is submitted. -/
inductive WalletForm where
  | create (pair : Keypair) (password : String) (drawn : Drawn)
  | importWallet (rawSecret password : String) (drawn : Drawn)
  | unlock (password : String)

namespace WalletForm

def screen : WalletForm → Screen
  | .create .. | .importWallet .. => .onboarding
  | .unlock _ => .unlock

/-- `beginSetup` -/
def begun (setup : Setup) : WalletForm → Setup
  | .create .. => ⟨true, none⟩
  | .importWallet .. | .unlock _ => setup

/-- The call of the hook: `unlock` has the record of the last render. -/
def event (wallet : NativeWallet) : WalletForm → WalletEvent
  | .create pair password drawn => .create pair password drawn
  | .importWallet rawSecret password drawn => .importWallet rawSecret password drawn
  | .unlock password => .unlock wallet.encrypted password

end WalletForm

/-- `showBackup`, after `create`. -/
def Setup.done (setup : Setup) : WalletEvent → Setup
  | .create pair _ _ => ⟨true, some pair.secret⟩
  | _ => setup

/-- `endSetup`, where `Onboarding` catches an exception. -/
def Setup.failed (setup : Setup) : WalletEvent → Setup
  | .create .. | .importWallet .. => ⟨false, none⟩
  | _ => setup

/-! ## The tabs -/

inductive TabEvent where
  /-- The tab is opened or reloaded. -/
  | load
  | submit (form : WalletForm)
  /-- The `k`-th operation that waits goes on. -/
  | resume (k : Nat)
  | lock
  | remove
  /-- The button under the backup. -/
  | endSetup
  | refresh
  /-- A request of the `k`-th run of the account effect is answered. -/
  | answer (k : Nat) (answer : AccountAnswer)

structure WalletTabs where
  wallets : WalletPages
  providers : Nat → Provider

namespace WalletTabs

def initial (storage : LocalStorage) : WalletTabs := ⟨⟨storage, fun _ => ⟨none, none, none⟩⟩, fun _ => .initial⟩

/-- A tab's hook and its provider have changed, and its effects run. -/
def render (b : WalletTabs) (n : Nat) (wallets : WalletPages) (t : Provider) (refreshed : Bool) : WalletTabs :=
  ⟨wallets, Function.update b.providers n (t.rendered (b.wallets.pages n) (wallets.pages n) refreshed)⟩

/-- Only the provider has changed, not what effects depend on. -/
def set (b : WalletTabs) (n : Nat) (t : Provider) : WalletTabs := { b with providers := Function.update b.providers n t }

variable (P : WalletPlatform)

/-- The tabs after an event in the `n`-th, if it can happen there. -/
def step (b : WalletTabs) (n : Nat) : TabEvent → Option WalletTabs
  | .load => some (({ b with wallets := b.wallets.after P (n, .mount) }).set n { Provider.initial with ready := true })
  | .submit form =>
    let t := b.providers n
    let wallet := b.wallets.pages n
    if t.screen wallet = form.screen then some (b.set n { t with setup := form.begun t.setup, pending := t.pending ++ [form.event wallet] })
    else none
  | .resume k =>
    let t := b.providers n
    t.pending[k]?.map fun event =>
      let t := { t with pending := t.pending.eraseIdx k }
      match b.wallets.step P n event with
      | .ok wallets => b.render n wallets { t with setup := t.setup.done event } false
      | .error _ => b.set n { t with setup := t.setup.failed event }
  | .lock => some (b.render n (b.wallets.after P (n, .lock)) (b.providers n) false)
  | .remove =>
    let t := b.providers n
    let screen := t.screen (b.wallets.pages n)
    if screen = .unlock ∨ screen = .children then some (b.render n (b.wallets.after P (n, .remove)) t false) else none
  | .endSetup =>
    let t := b.providers n
    match t.screen (b.wallets.pages n) with
    | .backup _ => some (b.set n { t with setup := ⟨false, none⟩ })
    | _ => none
  | .refresh => some (b.render n b.wallets (b.providers n) true)
  | .answer k answer =>
    let t := b.providers n
    t.account.runs[k]?.bind fun run =>
      if run.taken.any fun other => other.first = answer.first then none
      else some (b.set n { t with account := accountEffect.answer t.account k answer })

/-- Nothing waits in the tab when a form is submitted there or the wallet is removed. -/
def orderly (b : WalletTabs) (n : Nat) : TabEvent → Bool
  | .submit _ | .remove => (b.providers n).pending.isEmpty
  | _ => true

end WalletTabs

/-- The tabs that events lead to, and whether all of them were orderly. -/
inductive Browsed (P : WalletPlatform) (storage : LocalStorage) : Bool → WalletTabs → Prop where
  | opened : Browsed P storage true (.initial storage)
  | step {orderly : Bool} {b b' : WalletTabs} (n : Nat) (e : TabEvent) (before : Browsed P storage orderly b) (stepped : b.step P n e = some b') :
    Browsed P storage (orderly && b.orderly n e) b'

end AfriPay.Wallet
