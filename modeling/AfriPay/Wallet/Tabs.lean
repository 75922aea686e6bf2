import AfriPay.Wallet.Provider

/-!
# What a tab shows

A tab shows of an account only what its requests since the last locking were
answered, one after the other (`tabs_present`; the session is empty while the tab is
locked and goes on with each run, by `session_goes_on`), and pages and a backup only
while it is unlocked. Whatever the tabs do, the storage keeps the wallet that was
created or imported last (`tabs_keep`). If no form is submitted and no wallet removed
while an operation of the wallet waits, all of these requests were for the address that
is shown, and the secret to be backed up is the one the tab signs with.
-/

namespace AfriPay.Wallet
open Calls Text Storage

/-- No seed and no public key is empty. -/
structure WalletPlatform.Keyed (P : WalletPlatform) : Prop where
  seed : P.fromSecret "" = none
  key : ∀ {secret publicKey : String}, P.fromSecret secret = some publicKey → publicKey ≠ ""

def NativeWallet.Locked (wallet : NativeWallet) : Prop := wallet.secret = none ∧ wallet.address = none

/-- What has been answered of an account. -/
structure Answered (session : List (EffectRun String AccountAnswer)) (account : AccountState) : Prop where
  activated : account.activated = some true → ∃ run ∈ session, ∃ summary, .summary summary ∈ run.taken ∧ summary.activated = true
  xlm : ∀ balance, account.xlm = some balance → ∃ run ∈ session, ∃ summary, .summary summary ∈ run.taken ∧ summary.xlm = balance
  assets : ∀ item ∈ account.assets, ∃ run ∈ session, ∃ summary, .summary summary ∈ run.taken ∧ item ∈ summary.assets
  history : ∀ record ∈ account.history.getD [], ∃ run ∈ session, ∃ records, .history (some records) ∈ run.taken ∧ record ∈ records

/-- What holds of a tab: after orderly events, also that all it shows is of the one wallet it has. -/
structure Presents (P : WalletPlatform) (orderly : Bool) (wallet : NativeWallet) (t : Provider) : Prop where
  account : Since accountEffect t.account wallet.accountAddress ∧ Answered t.account.session t.account.shown ∧
    (orderly = true → ForKey wallet.accountAddress t.account.session)
  children : t.screen wallet = .children →
    ∃ secret key, wallet.secret = some secret ∧ P.validateSecret secret = some key ∧ wallet.address = some (.str key)
  backup : ∀ secret, t.setup.backupSecret = some secret → wallet.isUnlocked = true ∧ (orderly = true → wallet.secret = some secret)
  locked : wallet.isUnlocked = false →
    wallet.Locked ∧ t.account.session = [] ∧ t.account.shown = emptyAccount ∧ t.setup.backupSecret = none

/-! ## The account -/

/-- What only a summary can bring about has come with one. -/
theorem summarised {Q : AccountState → Prop} {brings : AccountSummary → Prop} {session : List (EffectRun String AccountAnswer)}
    (empty : ¬Q emptyAccount) (asking : ∀ v, Q (accountEffect.asking v) → Q v)
    (summary : ∀ v summary, Q (accountEffect.take v (.summary summary)) → brings summary)
    (others : ∀ v a, (∀ summary, a ≠ .summary summary) → Q (accountEffect.take v a) → Q v) (holds : Q (accountEffect.shownBy session)) :
    ∃ run ∈ session, ∃ summary, .summary summary ∈ run.taken ∧ brings summary := by
  have take : ∀ v a, Q (accountEffect.take v a) → Q v ∨ ∃ summary, a = .summary summary ∧ brings summary := fun v a h => by
    cases a with
    | summary s => exact .inr ⟨s, rfl, summary v s h⟩
    | noSummary | history | noHistory => exact .inl (others v _ (by simp) h)
  obtain ⟨run, mem, a, taken, s, rfl, yes⟩ := ViewEffect.answered empty asking take holds
  exact ⟨run, mem, s, taken, yes⟩

theorem answered_shownBy (session : List (EffectRun String AccountAnswer)) : Answered session (accountEffect.shownBy session) where
  activated := summarised (Q := fun v => v.activated = some true) (by simp [emptyAccount]) (fun _ h => h)
    (fun _ _ h => Option.some.inj h) fun v a other h => by
    cases a with
    | summary s => exact absurd rfl (other s)
    | noSummary => cases h
    | history | noHistory => exact h
  xlm := fun balance => summarised (Q := fun v => v.xlm = some balance) (by simp [emptyAccount]) (fun _ h => h)
    (fun _ _ h => Option.some.inj h) fun v a other h => by
      cases a with
      | summary s => exact absurd rfl (other s)
      | noSummary | history | noHistory => exact h
  assets := fun item => summarised (Q := fun v => item ∈ v.assets) (by simp [emptyAccount]) (fun _ h => h) (fun _ _ h => h)
    fun v a other h => by
      cases a with
      | summary s => exact absurd rfl (other s)
      | noSummary | history | noHistory => exact h
  history := fun record holds => by
    have take : ∀ v a, record ∈ (accountEffect.take v a).history.getD [] → record ∈ v.history.getD [] ∨
        ∃ records, a = .history (some records) ∧ record ∈ records := fun v a h => by
      cases a with
      | summary | noSummary => exact .inl h
      | noHistory => cases h
      | history records =>
        cases records with
        | none => cases h
        | some records => exact .inr ⟨records, rfl, h⟩
    have empty : ¬record ∈ emptyAccount.history.getD [] := by simp [emptyAccount]
    obtain ⟨run, mem, a, taken, records, rfl, there⟩ := ViewEffect.answered (Q := fun v : AccountState => record ∈ v.history.getD []) empty
      (fun _ h => h) take holds
    exact ⟨run, mem, records, taken, there⟩

/-! ## The hook under the provider -/

section Hook

variable {P : WalletPlatform} {w w' : WalletPages} {n : Nat} {e : WalletEvent}

/-- The wallet has a secret, and the address is its public key. -/
def NativeWallet.Open (P : WalletPlatform) (wallet : NativeWallet) : Prop :=
  ∃ secret key, wallet.secret = some secret ∧ P.validateSecret secret = some key ∧ wallet.address = some (.str key)

theorem filled_some {s : String} : filled (some s) = true ↔ s ≠ "" := by simp [filled, truthy]

theorem WalletPlatform.Keyed.valid {secret key : String} (keyed : P.Keyed) (valid : P.validateSecret secret = some key) :
    secret ≠ "" ∧ key ≠ "" := by
  refine ⟨?_, keyed.key valid⟩
  rintro rfl
  have empty : P.validateSecret "" = none := keyed.seed
  rw [empty] at valid
  cases valid

theorem NativeWallet.Locked.isUnlocked {wallet : NativeWallet} (locked : wallet.Locked) : wallet.isUnlocked = false := by
  simp [NativeWallet.isUnlocked, filled, truthy, locked.1]

theorem NativeWallet.Locked.accountAddress {wallet : NativeWallet} (locked : wallet.Locked) : wallet.accountAddress = none := by
  simp [NativeWallet.accountAddress, NativeWallet.addressText, locked.2]

theorem NativeWallet.Open.isUnlocked {wallet : NativeWallet} (keyed : P.Keyed) (opened : wallet.Open P) : wallet.isUnlocked = true := by
  obtain ⟨secret, key, has, valid, -⟩ := opened
  rw [NativeWallet.isUnlocked, has, filled_some]
  exact (keyed.valid valid).1

theorem set_page (wallet : NativeWallet) : (w.set n wallet).pages n = wallet := Function.update_self ..

theorem adopt_page (made : EncryptedWallet) (key secret : String) :
    (w.adopt n made key secret).pages n = ⟨some made.json, some (.str key), some secret⟩ := Function.update_self ..

/-- What the hook holds after an operation: nothing, or the secret of a wallet that has been made or was stored, and its address. -/
theorem hook_ok (stepped : w.step P n e = .ok w') :
    ((w'.pages n).Locked ∧ ∀ pair password drawn, e ≠ .create pair password drawn) ∨
    (∃ (made : EncryptedWallet) (key secret : String), w'.pages n = ⟨some made.json, some (.str key), some secret⟩ ∧
      P.validateSecret secret = some key ∧ ∀ pair password drawn, e = .create pair password drawn → secret = pair.secret) ∨
    (∃ record password secret key, e = .unlock (some record) password ∧ P.validateSecret secret = some key ∧
      w'.pages n = { w.pages n with secret := some secret, address := some (.str key) }) := by
  cases e with
  | mount | lock | remove =>
    obtain rfl := Except.ok.inj stepped
    refine .inl ⟨?_, by simp⟩
    simp [WalletPages.set, NativeWallet.Locked]
  | create pair password drawn =>
    obtain ⟨made, encrypts, same⟩ := bind_ok stepped
    obtain rfl := Except.ok.inj same
    refine .inr (.inl ⟨made, pair.publicKey, pair.secret, adopt_page .., (encryptWallet_asks encrypts).1, ?_⟩)
    rintro _ _ _ ⟨⟩
    rfl
  | importWallet rawSecret password drawn =>
    cases valid : P.validateSecret rawSecret with
    | none =>
      simp only [WalletPages.step, valid] at stepped
      cases stepped
    | some key =>
      simp only [WalletPages.step, valid] at stepped
      obtain ⟨made, encrypts, same⟩ := bind_ok stepped
      obtain rfl := Except.ok.inj same
      exact .inr (.inl ⟨made, key, trim rawSecret, adopt_page .., (encryptWallet_asks encrypts).1, by simp⟩)
  | unlock encrypted password =>
    cases encrypted with
    | none => cases stepped
    | some record =>
      obtain ⟨decrypted, opened, same⟩ := bind_ok stepped
      obtain rfl := Except.ok.inj same
      obtain ⟨key, valid, named⟩ := (decryptWallet_checked opened).publicKey
      refine .inr (.inr ⟨record, password, decrypted, key, rfl, valid, ?_⟩)
      rw [set_page, named]

/-- No other tab notices. -/
theorem hook_others (stepped : w.step P n e = .ok w') {m : Nat} (other : m ≠ n) : w'.pages m = w.pages m := by
  rcases step_ok stepped with ⟨made, key, secret, password, -, -, -, rfl, -⟩ | ⟨page, rfl, -⟩ | ⟨-, rfl⟩
  · exact Function.update_of_ne other ..
  · exact Function.update_of_ne other ..
  · exact Function.update_of_ne other ..

end Hook

/-! ## One tab -/

/-- The account is that of the requests since the last locking, after orderly events all for one address. -/
def Loads (orderly : Bool) (wallet : NativeWallet) (account : Watched AccountState String AccountAnswer) : Prop :=
  Since accountEffect account wallet.accountAddress ∧ (orderly = true → ForKey wallet.accountAddress account.session)

/-- A secret is on screen only while the wallet is unlocked. -/
def Guards (wallet : NativeWallet) (setup : Setup) : Prop :=
  ∀ secret, setup.backupSecret = some secret → secret ≠ "" ∧ wallet.isUnlocked = true

/-- What orderly events keep as well: one operation waits at a time, and nothing is unlocked meanwhile. -/
structure OneWallet (wallet : NativeWallet) (setup : Setup) (pending : List WalletEvent) : Prop where
  backup : ∀ secret, setup.backupSecret = some secret → wallet.secret = some secret
  waiting : pending ≠ [] → wallet.Locked ∧ ∃ event, pending = [event]
  creating : setup.active = true → setup.backupSecret = none → ∃ pair password drawn, pending = [.create pair password drawn]
  stored : wallet.encrypted = none → wallet.Locked
  unlocking : ∀ encrypted password, .unlock encrypted password ∈ pending → wallet.encrypted = encrypted

structure TabInv (P : WalletPlatform) (orderly : Bool) (wallet : NativeWallet) (t : Provider) : Prop where
  hook : wallet.Locked ∨ wallet.Open P
  account : Loads orderly wallet t.account
  backup : Guards wallet t.setup
  one : orderly = true → OneWallet wallet t.setup t.pending

section Tabs

variable {P : WalletPlatform} {orderly : Bool} {wallet wallet' : NativeWallet} {t : Provider}

@[simp] theorem locked_pending : t.locked.pending = t.pending := by
  unfold Provider.locked
  split <;> rfl

@[simp] theorem locked_account : t.locked.account = t.account := by
  unfold Provider.locked
  split <;> rfl

@[simp] theorem rendered_pending (refreshed : Bool) : (t.rendered wallet wallet' refreshed).pending = t.pending := by
  unfold Provider.rendered
  split <;> split <;> simp

theorem rendered_setup (refreshed : Bool) :
    (t.rendered wallet wallet' refreshed).setup = if wallet.isUnlocked && !wallet'.isUnlocked then t.locked.setup else t.setup := by
  unfold Provider.rendered
  split <;> split <;> rfl

theorem rendered_account (refreshed : Bool) : (t.rendered wallet wallet' refreshed).account =
    if wallet.addressText ≠ wallet'.addressText ∨ refreshed then accountEffect.renew t.account wallet'.accountAddress else t.account := by
  unfold Provider.rendered
  split <;> split <;> simp

/-- Without an address a session has not begun. -/
theorem Loads.renew {account : Watched AccountState String AccountAnswer} (loads : Loads orderly wallet account)
    (one : orderly = true → wallet.accountAddress = none ∨ wallet'.accountAddress = none ∨ wallet.accountAddress = wallet'.accountAddress) :
    Loads orderly wallet' (accountEffect.renew account wallet'.accountAddress) := by
  obtain ⟨since, own⟩ := loads
  unfold Loads
  cases next : wallet'.accountAddress with
  | none => exact ⟨.leave account, fun _ => Since.session_leave account ▸ .nil none⟩
  | some key =>
    refine ⟨since.renew key, fun ordered => since.session_renew key ▸ .renew ?_⟩
    rcases one ordered with none | none | same
    · rcases since.current with ⟨empty, -⟩ | ⟨before, run, -, -, -, is⟩
      · rw [empty]
        exact .nil _
      · rw [none] at is
        cases is
    · rw [next] at none
      cases none
    · rw [← next, ← same]
      exact own ordered

theorem Loads.rendered (loads : Loads orderly wallet t.account)
    (one : orderly = true → wallet.accountAddress = none ∨ wallet'.accountAddress = none ∨ wallet.accountAddress = wallet'.accountAddress)
    (refreshed : Bool) : Loads orderly wallet' (t.rendered wallet wallet' refreshed).account := by
  rw [rendered_account]
  split
  · exact loads.renew one
  · rename_i same
    have address : wallet.accountAddress = wallet'.accountAddress := by
      simp only [not_or, not_not] at same
      rw [NativeWallet.accountAddress, NativeWallet.accountAddress, same.1]
    exact ⟨address ▸ loads.1, fun ordered => address ▸ loads.2 ordered⟩

/-- Less is known when an event was not orderly. -/
theorem Loads.weaken {o : Bool} {account : Watched AccountState String AccountAnswer} (loads : Loads orderly wallet account) :
    Loads (orderly && o) wallet account := by
  exact ⟨loads.1, fun ordered => loads.2 (Bool.and_eq_true_iff.1 ordered).1⟩

/-- A secret that has come on screen with the wallet unlocked is dropped with the next locking. -/
theorem Guards.rendered (guards : ∀ secret, t.setup.backupSecret = some secret → secret ≠ "" ∧ (wallet.isUnlocked = true ∨ wallet'.isUnlocked = true))
    (refreshed : Bool) : Guards wallet' (t.rendered wallet wallet' refreshed).setup := by
  intro secret has
  rw [rendered_setup] at has
  split at has
  · rename_i locking
    unfold Provider.locked at has
    split at has
    · cases has
    · rename_i empty
      rw [has, filled_some, not_not] at empty
      exact absurd empty (guards secret has).1
  · rename_i other
    obtain ⟨some, unlocked⟩ := guards secret has
    refine ⟨some, unlocked.elim (fun before => ?_) id⟩
    rw [before] at other
    simpa using other

/-- A locked wallet shows no backup, and locking one drops it. -/
theorem OneWallet.lock {setup setup' : Setup} {pending : List WalletEvent} (one : OneWallet wallet setup pending) (locked : wallet'.Locked)
    (kept : wallet'.encrypted = wallet.encrypted ∨ pending = []) (guards : Guards wallet' setup')
    (dropped : setup' = setup ∨ setup' = ⟨false, none⟩) : OneWallet wallet' setup' pending where
  backup := fun secret has => by
    have unlocked := (guards secret has).2
    rw [locked.isUnlocked] at unlocked
    cases unlocked
  waiting := fun some => ⟨locked, (one.waiting some).2⟩
  creating := fun active none => by
    rcases dropped with rfl | rfl
    · exact one.creating active none
    · cases active
  stored := fun _ => locked
  unlocking := fun encrypted password mem => by
    rcases kept with same | rfl
    · rw [same]
      exact one.unlocking encrypted password mem
    · cases mem

theorem locked_setup : t.locked.setup = t.setup ∨ t.locked.setup = ⟨false, none⟩ := by
  unfold Provider.locked
  split
  · exact .inr rfl
  · exact .inl rfl

/-- The effects change the setup by dropping the backup at most. -/
theorem rendered_dropped (refreshed : Bool) :
    (t.rendered wallet wallet' refreshed).setup = t.setup ∨ (t.rendered wallet wallet' refreshed).setup = ⟨false, none⟩ := by
  rw [rendered_setup]
  split
  · exact locked_setup
  · exact .inl rfl

/-! ### What is on screen -/

theorem screen_onboarding (shown : t.screen wallet = .onboarding) :
    filled t.setup.backupSecret = false ∧ (t.setup.active = true ∨ wallet.encrypted = none) := by
  unfold Provider.screen at shown
  grind [Option.isNone_iff_eq_none]

theorem screen_unlock (shown : t.screen wallet = .unlock) :
    filled t.setup.backupSecret = false ∧ t.setup.active = false ∧ wallet.encrypted ≠ none ∧ wallet.isUnlocked = false := by
  unfold Provider.screen at shown
  grind [Option.isNone_iff_eq_none]

theorem screen_children (shown : t.screen wallet = .children) : wallet.isUnlocked = true := by
  unfold Provider.screen at shown
  grind

end Tabs

/-! ## One event -/

section Events

variable {P : WalletPlatform} {orderly : Bool} {wallet wallet' : NativeWallet} {t : Provider} {w w' : WalletPages} {n : Nat}

theorem NativeWallet.Open.of_valid {encrypted : Option Json} {key secret : String} (valid : P.validateSecret secret = some key) :
    NativeWallet.Open P ⟨encrypted, some (.str key), some secret⟩ := ⟨secret, key, rfl, valid, rfl⟩

/-- After orderly events an operation that waits is the only one. -/
theorem OneWallet.only {event : WalletEvent} {k : Nat} (one : OneWallet wallet t.setup t.pending) (found : t.pending[k]? = some event) :
    wallet.Locked ∧ t.pending = [event] ∧ t.pending.eraseIdx k = [] := by
  have mem := List.mem_of_getElem? found
  obtain ⟨locked, other, only⟩ := one.waiting (List.ne_nil_of_mem mem)
  rw [only, List.mem_singleton] at mem
  rw [only] at found ⊢
  have first : k = 0 := by
    have := List.getElem?_eq_some_iff.1 found |>.1
    simpa using this
  subst first mem
  exact ⟨locked, rfl, rfl⟩

theorem TabInv.resumed {event : WalletEvent} {k : Nat} (keyed : P.Keyed) (inv : TabInv P orderly (w.pages n) t)
    (found : t.pending[k]? = some event) (stepped : w.step P n event = .ok w') :
    TabInv P orderly (w'.pages n) (({ t with pending := t.pending.eraseIdx k, setup := t.setup.done event } : Provider).rendered
      (w.pages n) (w'.pages n) false) := by
  have hook := hook_ok stepped
  have shows : (w'.pages n).Locked ∨ (w'.pages n).Open P := by
    rcases hook with ⟨locked, -⟩ | ⟨made, key, secret, page, valid, -⟩ | ⟨record, password, secret, key, -, valid, page⟩
    · exact .inl locked
    · exact .inr (page ▸ .of_valid valid)
    · exact .inr (page ▸ .of_valid valid)
  -- the secret of a created wallet is the one to be backed up
  have created : ∀ pair password drawn, event = .create pair password drawn →
      (w'.pages n).secret = some pair.secret ∧ (w'.pages n).Open P ∧ pair.secret ≠ "" := by
    rintro pair password drawn rfl
    rcases hook with ⟨-, other⟩ | ⟨made, key, secret, page, valid, same⟩ | ⟨record, password', secret, key, other, -, -⟩
    · exact absurd rfl (other pair password drawn)
    · obtain rfl := same _ _ _ rfl
      rw [page]
      exact ⟨rfl, .of_valid valid, (keyed.valid valid).1⟩
    · cases other
  have done : ∀ secret, (t.setup.done event).backupSecret = some secret →
      (∃ pair password drawn, event = .create pair password drawn ∧ secret = pair.secret) ∨ t.setup.backupSecret = some secret := by
    intro secret has
    cases event with
    | create pair password drawn => exact .inl ⟨_, _, _, rfl, (Option.some.inj has).symm⟩
    | _ => exact .inr has
  refine ⟨shows, ?_, ?_, fun ordered => ?_⟩
  · exact Loads.rendered (t := { t with pending := t.pending.eraseIdx k, setup := t.setup.done event }) inv.account
      (fun ordered => .inl ((inv.one ordered).only found).1.accountAddress) false
  · refine Guards.rendered (fun secret has => ?_) false
    rcases done secret has with ⟨pair, password, drawn, is, rfl⟩ | before
    · obtain ⟨-, opened, some⟩ := created pair password drawn is
      exact ⟨some, .inr (opened.isUnlocked keyed)⟩
    · exact ⟨(inv.backup secret before).1, .inl (inv.backup secret before).2⟩
  · obtain ⟨locked, only, erased⟩ := (inv.one ordered).only found
    have setup : (({ t with pending := t.pending.eraseIdx k, setup := t.setup.done event } : Provider).rendered
        (w.pages n) (w'.pages n) false).setup = t.setup.done event := by
      rw [rendered_setup, locked.isUnlocked]
      rfl
    rw [setup, rendered_pending]
    constructor
    · intro secret has
      rcases done secret has with ⟨pair, password, drawn, is, rfl⟩ | before
      · exact (created pair password drawn is).1
      · have unlocked := (inv.backup secret before).2
        rw [locked.isUnlocked] at unlocked
        cases unlocked
    · exact fun some => absurd erased some
    · intro active none
      cases event with
      | create => cases none
      | _ =>
        obtain ⟨_, _, _, is⟩ := (inv.one ordered).creating active none
        rw [only] at is
        cases is
    · intro none
      rcases hook with ⟨locked', -⟩ | ⟨made, key, secret, page, -, -⟩ | ⟨record, password, secret, key, rfl, -, page⟩
      · exact locked'
      · rw [page] at none
        cases none
      · rw [page] at none
        rw [(inv.one ordered).unlocking (some record) password (by simp [only])] at none
        cases none
    · intro encrypted password mem
      rw [erased] at mem
      cases mem

/-- An operation that throws leaves the hook as it was. -/
theorem TabInv.failed {event : WalletEvent} {k : Nat} (inv : TabInv P orderly wallet t) (found : t.pending[k]? = some event) :
    TabInv P orderly wallet { t with pending := t.pending.eraseIdx k, setup := t.setup.failed event } := by
  have setup : t.setup.failed event = t.setup ∨ t.setup.failed event = ⟨false, none⟩ := by
    cases event <;> simp [Setup.failed]
  have none_new : ∀ secret, (t.setup.failed event).backupSecret = some secret → t.setup.backupSecret = some secret := by
    intro secret has
    rcases setup with same | ended
    · rw [← same]
      exact has
    · rw [ended] at has
      cases has
  refine ⟨inv.hook, inv.account, fun secret has => inv.backup secret (none_new secret has), fun ordered => ?_⟩
  have one := inv.one ordered
  obtain ⟨-, only, erased⟩ := one.only found
  refine ⟨fun secret has => one.backup secret (none_new secret has), ?_, ?_, one.stored, ?_⟩
  · exact fun some => absurd erased some
  · intro active none
    cases event with
    | create | importWallet => cases active
    | _ =>
      obtain ⟨_, _, _, is⟩ := one.creating active none
      rw [only] at is
      cases is
  · intro encrypted password mem
    change _ ∈ t.pending.eraseIdx k at mem
    rw [erased] at mem
    cases mem

/-- A form is shown only while the wallet is locked, if all events were orderly. -/
theorem TabInv.submitted {form : WalletForm} (inv : TabInv P orderly wallet t) (keyed : P.Keyed) (shown : t.screen wallet = form.screen) :
    TabInv P (orderly && t.pending.isEmpty) wallet { t with setup := form.begun t.setup, pending := t.pending ++ [form.event wallet] } := by
  have noBackup : filled t.setup.backupSecret = false → t.setup.backupSecret = none := fun empty => by
    cases has : t.setup.backupSecret with
    | none => rfl
    | some secret =>
      rw [has] at empty
      rw [filled_some.2 (inv.backup secret has).1] at empty
      cases empty
  have began : ∀ secret, (form.begun t.setup).backupSecret = some secret → t.setup.backupSecret = some secret := by
    intro secret has
    cases form with
    | create => cases has
    | importWallet | unlock => exact has
  refine ⟨inv.hook, inv.account.weaken, fun secret has => inv.backup secret (began secret has), fun ordered => ?_⟩
  rw [Bool.and_eq_true_iff] at ordered
  have one := inv.one ordered.1
  have idle : t.pending = [] := by simpa using ordered.2
  have locked : wallet.Locked := by
    cases form with
    | create | importWallet =>
      obtain ⟨empty, active | none⟩ := screen_onboarding shown
      · obtain ⟨_, _, _, is⟩ := one.creating active (noBackup empty)
        rw [idle] at is
        cases is
      · exact one.stored none
    | unlock password =>
      obtain ⟨-, -, -, closed⟩ := screen_unlock shown
      rcases inv.hook with locked | opened
      · exact locked
      · rw [opened.isUnlocked keyed] at closed
        cases closed
  refine ⟨fun secret has => one.backup secret (began secret has), ?_, ?_, one.stored, ?_⟩
  · refine fun _ => ⟨locked, form.event wallet, ?_⟩
    simp [idle]
  · intro active none
    cases form with
    | create pair password drawn => exact ⟨pair, password, drawn, by simp [idle, WalletForm.event]⟩
    | importWallet | unlock =>
      obtain ⟨_, _, _, is⟩ := one.creating active none
      rw [idle] at is
      cases is
  · intro encrypted password mem
    rw [idle, List.nil_append, List.mem_singleton] at mem
    cases form with
    | create | importWallet => cases mem
    | unlock =>
      cases mem
      rfl

/-- The wallet is locked or removed. -/
theorem TabInv.locks {o : Bool} (inv : TabInv P orderly wallet t) (locked : wallet'.Locked)
    (kept : (orderly && o) = true → wallet'.encrypted = wallet.encrypted ∨ t.pending = []) :
    TabInv P (orderly && o) wallet' (t.rendered wallet wallet' false) := by
  have guards : Guards wallet' (t.rendered wallet wallet' false).setup :=
    Guards.rendered (fun secret has => ⟨(inv.backup secret has).1, .inl (inv.backup secret has).2⟩) false
  refine ⟨.inl locked, (inv.account.weaken).rendered (fun _ => .inr (.inl locked.accountAddress)) false, guards, fun ordered => ?_⟩
  rw [rendered_pending]
  exact (inv.one (Bool.and_eq_true_iff.1 ordered).1).lock locked (kept ordered) guards (rendered_dropped false)

theorem TabInv.refreshed (inv : TabInv P orderly wallet t) : TabInv P orderly wallet (t.rendered wallet wallet true) := by
  have setup : (t.rendered wallet wallet true).setup = t.setup := by simp [rendered_setup]
  refine ⟨inv.hook, inv.account.rendered (fun _ => .inr (.inr rfl)) true, ?_, fun ordered => ?_⟩
  · rw [setup]
    exact inv.backup
  · rw [setup, rendered_pending]
    exact inv.one ordered

theorem TabInv.answered (inv : TabInv P orderly wallet t) (k : Nat) (a : AccountAnswer) :
    TabInv P orderly wallet { t with account := accountEffect.answer t.account k a } := by
  obtain ⟨since, own⟩ := inv.account
  obtain ⟨since', keys⟩ := since.answer k a
  exact ⟨inv.hook, ⟨since', fun ordered => (own ordered).of_keys keys⟩, inv.backup, inv.one⟩

end Events

/-! ## Whole runs -/

section Runs

variable {P : WalletPlatform} {orderly : Bool} {storage : LocalStorage} {b b' : WalletTabs} {n m : Nat} {e : TabEvent}

theorem after_others (w : WalletPages) (event : WalletEvent) (other : m ≠ n) : (w.after P (n, event)).pages m = w.pages m := by
  rw [WalletPages.after]
  cases stepped : w.step P n event with
  | error => rfl
  | ok w' => exact hook_others stepped other

theorem set_others (t : Provider) (other : m ≠ n) : (b.set n t).providers m = b.providers m := Function.update_of_ne other ..

theorem render_others (w : WalletPages) (t : Provider) (refreshed : Bool) (other : m ≠ n) :
    (b.render n w t refreshed).providers m = b.providers m := Function.update_of_ne other ..

/-- An event happens in one tab. -/
theorem step_others (stepped : b.step P n e = some b') (other : m ≠ n) :
    b'.wallets.pages m = b.wallets.pages m ∧ b'.providers m = b.providers m := by
  cases e with
  | load =>
    obtain rfl := Option.some.inj stepped
    exact ⟨after_others (P := P) b.wallets .mount other, set_others _ other⟩
  | submit form =>
    obtain ⟨-, same⟩ := Option.ite_none_right_eq_some.1 stepped
    obtain rfl := Option.some.inj same
    exact ⟨rfl, set_others _ other⟩
  | resume k =>
    obtain ⟨event, -, same⟩ := Option.map_eq_some_iff.1 stepped
    cases hook : b.wallets.step P n event with
    | ok w =>
      simp only [hook] at same
      subst same
      exact ⟨hook_others hook other, render_others _ _ _ other⟩
    | error =>
      simp only [hook] at same
      subst same
      exact ⟨rfl, set_others _ other⟩
  | lock =>
    obtain rfl := Option.some.inj stepped
    exact ⟨after_others (P := P) b.wallets .lock other, render_others _ _ _ other⟩
  | remove =>
    obtain ⟨-, same⟩ := Option.ite_none_right_eq_some.1 stepped
    obtain rfl := Option.some.inj same
    exact ⟨after_others (P := P) b.wallets .remove other, render_others _ _ _ other⟩
  | endSetup =>
    simp only [WalletTabs.step] at stepped
    split at stepped
    · obtain rfl := Option.some.inj stepped
      exact ⟨rfl, set_others _ other⟩
    · cases stepped
  | refresh =>
    obtain rfl := Option.some.inj stepped
    exact ⟨rfl, render_others _ _ _ other⟩
  | answer k a =>
    obtain ⟨run, -, same⟩ := Option.bind_eq_some_iff.1 stepped
    obtain ⟨-, same⟩ := Option.ite_none_left_eq_some.1 same
    obtain rfl := Option.some.inj same
    exact ⟨rfl, set_others _ other⟩

theorem TabInv.weaken {wallet : NativeWallet} {t : Provider} {o : Bool} (inv : TabInv P orderly wallet t) : TabInv P (orderly && o) wallet t :=
  ⟨inv.hook, inv.account.weaken, inv.backup, fun ordered => inv.one (Bool.and_eq_true_iff.1 ordered).1⟩

theorem TabInv.loaded {wallet : NativeWallet} (locked : wallet.Locked) (ready : Bool) :
    TabInv P orderly wallet { Provider.initial with ready } := by
  refine ⟨.inl locked, ⟨locked.accountAddress ▸ .initial, fun _ => .nil _⟩, ?_, fun _ => ⟨?_, ?_, ?_, fun _ => locked, ?_⟩⟩ <;>
    simp [Guards, Provider.initial]

theorem TabInv.step (keyed : P.Keyed) (inv : TabInv P orderly (b.wallets.pages n) (b.providers n)) (stepped : b.step P n e = some b') :
    TabInv P (orderly && b.orderly n e) (b'.wallets.pages n) (b'.providers n) := by
  have set : ∀ (w : WalletPages) (t : Provider), (({ b with wallets := w } : WalletTabs).set n t).providers n = t :=
    fun _ _ => Function.update_self ..
  have render : ∀ (w : WalletPages) (t : Provider) (refreshed : Bool), (b.render n w t refreshed).providers n =
    t.rendered (b.wallets.pages n) (w.pages n) refreshed := fun _ _ _ => Function.update_self ..
  cases e with
  | load =>
    obtain rfl := Option.some.inj stepped
    rw [set]
    refine .loaded ?_ true
    change ((b.wallets.set n _).pages n).Locked
    rw [set_page]
    exact ⟨rfl, rfl⟩
  | submit form =>
    obtain ⟨shown, same⟩ := Option.ite_none_right_eq_some.1 stepped
    obtain rfl := Option.some.inj same
    rw [set b.wallets]
    exact inv.submitted keyed shown
  | resume k =>
    obtain ⟨event, found, same⟩ := Option.map_eq_some_iff.1 stepped
    have ordered : b.orderly n (.resume k) = true := rfl
    rw [ordered, Bool.and_true]
    cases hook : b.wallets.step P n event with
    | ok w =>
      simp only [hook] at same
      subst same
      rw [render]
      exact inv.resumed keyed found hook
    | error =>
      simp only [hook] at same
      subst same
      rw [set b.wallets]
      exact inv.failed found
  | lock =>
    obtain rfl := Option.some.inj stepped
    rw [render]
    change TabInv P _ ((b.wallets.set n _).pages n) (Provider.rendered _ _ ((b.wallets.set n _).pages n) _)
    rw [set_page]
    exact inv.locks ⟨rfl, rfl⟩ fun _ => .inl rfl
  | remove =>
    obtain ⟨-, same⟩ := Option.ite_none_right_eq_some.1 stepped
    obtain rfl := Option.some.inj same
    rw [render]
    change TabInv P _ ((({ b.wallets with storage := _ } : WalletPages).set n _).pages n)
      (Provider.rendered _ _ ((({ b.wallets with storage := _ } : WalletPages).set n _).pages n) _)
    rw [set_page]
    refine inv.locks ⟨rfl, rfl⟩ fun ordered => .inr ?_
    simpa [WalletTabs.orderly] using (Bool.and_eq_true_iff.1 ordered).2
  | endSetup =>
    simp only [WalletTabs.step] at stepped
    split at stepped
    · obtain rfl := Option.some.inj stepped
      rw [set b.wallets]
      refine ⟨inv.hook, inv.account.weaken, fun _ has => (by cases has), fun ordered => ?_⟩
      have one := inv.one (Bool.and_eq_true_iff.1 ordered).1
      exact ⟨fun _ has => (by cases has), one.waiting, fun active => (by cases active), one.stored, one.unlocking⟩
    · cases stepped
  | refresh =>
    obtain rfl := Option.some.inj stepped
    rw [render]
    exact inv.refreshed.weaken
  | answer k a =>
    obtain ⟨run, -, same⟩ := Option.bind_eq_some_iff.1 stepped
    obtain ⟨-, same⟩ := Option.ite_none_left_eq_some.1 same
    obtain rfl := Option.some.inj same
    rw [set b.wallets]
    exact (inv.answered k a).weaken

theorem inv_of_browsed (keyed : P.Keyed) (browsed : Browsed P storage orderly b) (n : Nat) :
    TabInv P orderly (b.wallets.pages n) (b.providers n) := by
  induction browsed generalizing n with
  | opened => exact .loaded ⟨rfl, rfl⟩ false
  | step m e before stepped ih =>
    by_cases same : n = m
    · subst same
      exact (ih n).step keyed stepped
    · obtain ⟨page, provider⟩ := step_others stepped same
      rw [page, provider]
      exact (ih n).weaken

/-- An event in a tab ends its session, or the session goes on, with one run more at most. -/
theorem session_goes_on (keyed : P.Keyed) (browsed : Browsed P storage orderly b) (stepped : b.step P n e = some b') :
    (b'.providers n).account.session = [] ∨ ∃ begun : List String, begun.length ≤ 1 ∧
      (b'.providers n).account.session.map EffectRun.key = (b.providers n).account.session.map EffectRun.key ++ begun := by
  have since := (inv_of_browsed keyed browsed n).account.1
  have set : ∀ (w : WalletPages) (t : Provider), (({ b with wallets := w } : WalletTabs).set n t).providers n = t :=
    fun _ _ => Function.update_self ..
  have render : ∀ (w : WalletPages) (t : Provider) (refreshed : Bool), (b.render n w t refreshed).providers n =
    t.rendered (b.wallets.pages n) (w.pages n) refreshed := fun _ _ _ => Function.update_self ..
  have rendered : ∀ (t : Provider) (wallet wallet' : NativeWallet) (refreshed : Bool), t.account = (b.providers n).account →
      (t.rendered wallet wallet' refreshed).account.session = [] ∨ ∃ begun : List String, begun.length ≤ 1 ∧
        (t.rendered wallet wallet' refreshed).account.session.map EffectRun.key = (b.providers n).account.session.map EffectRun.key ++ begun := by
    intro t wallet wallet' refreshed same
    rw [rendered_account, same]
    split
    · cases wallet'.accountAddress with
      | none => exact .inl (Since.session_leave _)
      | some key =>
        refine .inr ⟨[key], le_refl 1, ?_⟩
        rw [since.session_renew]
        simp [EffectRun.cleanup]
    · exact .inr ⟨[], Nat.zero_le 1, (List.append_nil _).symm⟩
  cases e with
  | load =>
    obtain rfl := Option.some.inj stepped
    exact .inl (by rw [set]; rfl)
  | submit form =>
    obtain ⟨-, same⟩ := Option.ite_none_right_eq_some.1 stepped
    obtain rfl := Option.some.inj same
    rw [set b.wallets]
    exact .inr ⟨[], Nat.zero_le 1, (List.append_nil _).symm⟩
  | resume k =>
    obtain ⟨event, -, same⟩ := Option.map_eq_some_iff.1 stepped
    cases hook : b.wallets.step P n event with
    | ok w =>
      simp only [hook] at same
      subst same
      rw [render]
      exact rendered _ _ _ _ rfl
    | error =>
      simp only [hook] at same
      subst same
      rw [set b.wallets]
      exact .inr ⟨[], Nat.zero_le 1, (List.append_nil _).symm⟩
  | lock =>
    obtain rfl := Option.some.inj stepped
    rw [render]
    exact rendered _ _ _ _ rfl
  | remove =>
    obtain ⟨-, same⟩ := Option.ite_none_right_eq_some.1 stepped
    obtain rfl := Option.some.inj same
    rw [render]
    exact rendered _ _ _ _ rfl
  | endSetup =>
    simp only [WalletTabs.step] at stepped
    split at stepped
    · obtain rfl := Option.some.inj stepped
      rw [set b.wallets]
      exact .inr ⟨[], Nat.zero_le 1, (List.append_nil _).symm⟩
    · cases stepped
  | refresh =>
    obtain rfl := Option.some.inj stepped
    rw [render]
    exact rendered _ _ _ _ rfl
  | answer k a =>
    obtain ⟨run, -, same⟩ := Option.bind_eq_some_iff.1 stepped
    obtain ⟨-, same⟩ := Option.ite_none_left_eq_some.1 same
    obtain rfl := Option.some.inj same
    rw [set b.wallets]
    exact .inr ⟨[], Nat.zero_le 1, (since.answer k a).2.trans (List.append_nil _).symm⟩

/-- **What a tab shows**: of the account only what was answered since the last locking, and of secrets nothing while it is locked. -/
theorem tabs_present (keyed : P.Keyed) (browsed : Browsed P storage orderly b) (n : Nat) :
    Presents P orderly (b.wallets.pages n) (b.providers n) := by
  have inv := inv_of_browsed keyed browsed n
  obtain ⟨since, own⟩ := inv.account
  constructor
  · refine ⟨since, ?_, own⟩
    rw [since.shown]
    exact answered_shownBy _
  · intro shown
    rcases inv.hook with locked | opened
    · have unlocked := screen_children shown
      rw [locked.isUnlocked] at unlocked
      cases unlocked
    · exact opened
  · exact fun secret has => ⟨(inv.backup secret has).2, fun ordered => (inv.one ordered).backup secret has⟩
  · intro closed
    have locked : (b.wallets.pages n).Locked := by
      rcases inv.hook with locked | opened
      · exact locked
      · rw [opened.isUnlocked keyed] at closed
        cases closed
    have begun : (b.providers n).account.session = [] := by
      rcases since.current with ⟨empty, -⟩ | ⟨before, run, -, -, -, is⟩
      · exact empty
      · rw [locked.accountAddress] at is
        cases is
    refine ⟨locked, begun, ?_, ?_⟩
    · rw [since.shown, begun]
      rfl
    · cases has : (b.providers n).setup.backupSecret with
      | none => rfl
      | some secret =>
        have unlocked := (inv.backup secret has).2
        rw [closed] at unlocked
        cases unlocked

/-- The hooks of the tabs have run through some events, one after the other. -/
theorem hooks_ran (browsed : Browsed P storage orderly b) : ∃ events, b.wallets = (WalletTabs.initial storage).wallets.run P events := by
  induction browsed with
  | opened => exact ⟨[], rfl⟩
  | @step _ b _ n e before stepped ih =>
    obtain ⟨events, ran⟩ := ih
    have next : ∀ event, ∃ events, b.wallets.after P (n, event) = (WalletTabs.initial storage).wallets.run P events := fun event =>
      ⟨events ++ [(n, event)], by rw [ran, WalletPages.run, WalletPages.run, List.foldl_append]; rfl⟩
    cases e with
    | load =>
      obtain rfl := Option.some.inj stepped
      exact next .mount
    | submit form =>
      obtain ⟨-, same⟩ := Option.ite_none_right_eq_some.1 stepped
      obtain rfl := Option.some.inj same
      exact ⟨events, ran⟩
    | resume k =>
      obtain ⟨event, -, same⟩ := Option.map_eq_some_iff.1 stepped
      cases hook : b.wallets.step P n event with
      | ok w =>
        simp only [hook] at same
        subst same
        have after : b.wallets.after P (n, event) = w := by rw [WalletPages.after, hook]; rfl
        exact after ▸ next event
      | error =>
        simp only [hook] at same
        subst same
        exact ⟨events, ran⟩
    | lock =>
      obtain rfl := Option.some.inj stepped
      exact next .lock
    | remove =>
      obtain ⟨-, same⟩ := Option.ite_none_right_eq_some.1 stepped
      obtain rfl := Option.some.inj same
      exact next .remove
    | endSetup =>
      simp only [WalletTabs.step] at stepped
      split at stepped
      · obtain rfl := Option.some.inj stepped
        exact ⟨events, ran⟩
      · cases stepped
    | refresh =>
      obtain rfl := Option.some.inj stepped
      exact ⟨events, ran⟩
    | answer k a =>
      obtain ⟨run, -, same⟩ := Option.bind_eq_some_iff.1 stepped
      obtain ⟨-, same⟩ := Option.ite_none_left_eq_some.1 same
      obtain rfl := Option.some.inj same
      exact ⟨events, ran⟩

/-- What the tabs leave in the storage: the wallet that was created or imported last and not removed since, under its password. -/
theorem tabs_keep (lawful : P.Lawful) (browsed : Browsed P storage orderly b) {slot : Option (String × JsString)} (before : Keeps P storage slot) :
    ∃ events, b.wallets = (WalletTabs.initial storage).wallets.run P events ∧
      Keeps P b.wallets.storage (events.foldl (fun slot e => kept P slot e.2) slot) := by
  obtain ⟨events, ran⟩ := hooks_ran browsed
  exact ⟨events, ran, ran ▸ run_keeps lawful before events⟩

end Runs

namespace Sample

theorem platform_keyed : platform.Keyed := ⟨by decide, platform_lawful.named⟩

/-- The tabs after some events, and whether they were orderly so far. -/
def browse : Bool × WalletTabs → List (Nat × TabEvent) → Option (Bool × WalletTabs)
  | tabs, [] => some tabs
  | (orderly, b), (n, e) :: events => (b.step platform n e).bind fun b' => browse (orderly && b.orderly n e, b') events

theorem browsed_of_browse {storage : LocalStorage} {events : List (Nat × TabEvent)} {o o' : Bool} {b b' : WalletTabs}
    (before : Browsed platform storage o b) (ran : browse (o, b) events = some (o', b')) : Browsed platform storage o' b' := by
  induction events generalizing o b with
  | nil =>
    cases ran
    exact before
  | cons e events ih =>
    obtain ⟨next, stepped, rest⟩ := Option.bind_eq_some_iff.1 ran
    exact ih (before.step e.1 e.2 stepped) rest

/-- A wallet is created, locked and unlocked again before the first answer arrives, which counts no more. -/
def relocked : List (Nat × TabEvent) :=
  [(0, .load), (0, .submit (.create ⟨publicKey, secret, by decide⟩ "a long password" ⟨.replicate 16 7, .replicate 12 9, "2026-01-01T00:00:00.000Z"⟩)),
   (0, .resume 0), (0, .endSetup), (0, .lock), (0, .submit (.unlock "a long password")), (0, .resume 0),
   (0, .answer 0 (.summary ⟨true, some [⟨"XLM", "25"⟩]⟩)), (0, .answer 1 (.summary ⟨true, some [⟨"XLM", "24"⟩]⟩))]

/-- What the first tab shows in the end. -/
def relockedShown : Option (Bool × Screen × Option String) :=
  (browse (true, .initial fun _ => none) relocked).map fun (orderly, b) =>
    (orderly, (b.providers 0).screen (b.wallets.pages 0), (b.providers 0).account.shown.xlm)

end Sample

theorem tabs_present_relocked : ∃ b, Browsed Sample.platform (fun _ => none) true b ∧ (b.providers 0).screen (b.wallets.pages 0) = .children ∧
    (b.providers 0).account.shown.xlm = some "24" ∧ Presents Sample.platform true (b.wallets.pages 0) (b.providers 0) := by
  have shown : Sample.relockedShown = some (true, .children, some "24") := by decide +kernel
  obtain ⟨⟨orderly, b⟩, ran, same⟩ := Option.map_eq_some_iff.1 shown
  obtain ⟨rfl, screen, xlm⟩ : orderly = true ∧ _ ∧ _ := by simpa using same
  have browsed := Sample.browsed_of_browse .opened ran
  exact ⟨b, browsed, screen, xlm, tabs_present Sample.platform_keyed browsed 0⟩

end AfriPay.Wallet
