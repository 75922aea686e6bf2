import AfriPay.Payments.Completion
import AfriPay.Payments.Links

/-!
# The life of a payment link

A link that `createLink` has returned is stored, whatever other calls do, and is
read back as the store returns it. `getLink` can return it exactly while the clock
shows a time before its expiry.
-/

namespace AfriPay.Payments
open Calls Discipline Text Stellar Storage

/-- What `checkLink` passes: the request names a valid account and lumens, and a
positive amount and a short reference where it names any. -/
structure LinkChecked (sdk : Sdk) (input : LinkInput) (account : String) (amount : Option String) (reference : Option JsString) : Prop where
  creator : input.creator = some (.str account)
  creatorKey : sdk.isValidEd25519PublicKey account = true
  lumens : input.asset = some (.str "XLM")
  named : input.amount = amount.map .str
  positive : ∀ a, amount = some a → ∃ n, stroops a = .ok n ∧ 0 < n
  referenced : input.reference = reference.map JsString.json
  short : ∀ m, reference = some m → m.byteLength ≤ 28

theorem linkAmountOf_ok_iff {v : Option Json} {amount : Option String} : linkAmountOf v = .ok amount ↔
    v = amount.map .str ∧ ∀ a, amount = some a → ∃ n, stroops a = .ok n ∧ 0 < n := by
  constructor
  · intro h
    rcases linkAmountOf_ok h with ⟨rfl, rfl⟩ | ⟨a, n, rfl, rfl, value⟩
    · exact ⟨rfl, nofun⟩
    · refine ⟨rfl, ?_⟩
      rintro _ ⟨⟩
      refine ⟨n, value, Nat.pos_of_ne_zero ?_⟩
      rintro rfl
      rw [linkAmountOf, stroopsOf, value] at h
      cases h
  · rintro ⟨rfl, positive⟩
    cases amount with
    | none => rfl
    | some a =>
      obtain ⟨n, value, pos⟩ := positive a rfl
      simp [linkAmountOf, stroopsOf, value, bind, Except.bind, Nat.pos_iff_ne_zero.1 pos]
      rfl

theorem referenceOf_eq_some {v : Option Json} {reference : Option JsString} : referenceOf v = some reference ↔
    v = reference.map JsString.json ∧ ∀ m, reference = some m → m.byteLength ≤ 28 := by
  constructor
  · intro h
    unfold referenceOf at h
    split at h
    · cases h
      exact ⟨rfl, nofun⟩
    · split at h
      · rename_i m given
        split at h
        · rename_i short
          cases h
          refine ⟨stringOf_eq_some.1 given, ?_⟩
          rintro _ ⟨⟩
          exact short
        · cases h
      · cases h
  · rintro ⟨rfl, short⟩
    cases reference with
    | none => rfl
    | some m =>
      rw [Option.map_some, referenceOf, stringOf_json]
      exact if_pos (short m rfl)

theorem checkLink_ok {sdk : Sdk} {input : LinkInput} {creator : String} {amount : Option String} {reference : Option JsString} :
    checkLink sdk input = .ok (creator, amount, reference) ↔ LinkChecked sdk input creator amount reference := by
  constructor
  · intro h
    unfold checkLink at h
    cases account : publicKeyOf sdk input.creator with
    | none => rw [account] at h; cases h
    | some creator' =>
    cases lumens : isString "XLM" input.asset with
    | false => simp only [account, lumens, if_true] at h; cases h
    | true =>
    cases named : linkAmountOf input.amount with
    | error e => simp only [account, lumens, named] at h; cases h
    | ok amount' =>
    cases referenced : referenceOf input.reference with
    | none => simp only [account, lumens, named, referenced] at h; cases h
    | some reference' =>
    simp only [account, lumens, named, referenced] at h
    cases h
    obtain ⟨creatorIs, creatorKey⟩ := publicKeyOf_eq_some.1 account
    obtain ⟨amountIs, positive⟩ := linkAmountOf_ok_iff.1 named
    obtain ⟨referenceIs, short⟩ := referenceOf_eq_some.1 referenced
    exact ⟨creatorIs, creatorKey, isString_iff.1 lumens, amountIs, positive, referenceIs, short⟩
  · intro h
    have account := publicKeyOf_eq_some.2 ⟨h.creator, h.creatorKey⟩
    have lumens := isString_iff.2 h.lumens
    have named := linkAmountOf_ok_iff.2 ⟨h.named, h.positive⟩
    have referenced := referenceOf_eq_some.2 ⟨h.referenced, h.short⟩
    simp only [checkLink, account, lumens, named, referenced]
    rfl

/-- What is made of the text that `toISOString` writes for a time. -/
structure ReadsDate (d : Deployment) (t : Timestamp) : Prop where
  nonempty : d.toISOString t ≠ ""
  parse : d.parseDate (.str (d.toISOString t)) = some (t : Int)
  pgTime : d.pgTime (.str (d.toISOString t)) = some t

section Saving

variable {d : Deployment} {db db' : Database} {link : PaymentLink}

/-- The column takes an amount in order, if there is one. -/
theorem columns_ok {amount : Option String} (valid : ∀ a, amount = some a → ∃ n, stroops a = .ok n ∧ 0 < n) :
    ∃ units, amount.mapM pgNumeric = .ok units ∧ (discard (units.mapM checkPositive) : Except DbError Unit) = .ok () := by
  cases amount with
  | none => exact ⟨none, rfl, rfl⟩
  | some a =>
    obtain ⟨n, value, positive⟩ := valid a rfl
    obtain ⟨column, checked⟩ := Database.checkAmount_ok value positive
    refine ⟨some (scaledValue 12 a), ?_, ?_⟩
    · rw [Option.mapM_some, column]
      rfl
    · rw [Option.mapM_some, checked]
      rfl

/-- A link in order is inserted. -/
theorem Database.insertLink_runs {v : LinkValues} {pgTime : Json → Option Timestamp} {t : Timestamp} (uuid : isUuid v.id = true)
    (plain : ∀ text ∈ v.texts, pgText text = true)
    (amount : ∀ a, v.amount = some a → ∃ n, stroops a = .ok n ∧ 0 < n) (expiry : (v.expiresAt.bind pgTime) = some t)
    (fresh : ∀ r ∈ db.links.rows, r.id ≠ v.id) : ∃ rows db', db.insertLink pgTime v = .ok (rows, db') := by
  have texts : assertTexts v.texts = .ok () := assertTexts_ok plain
  have time : pgTimestamp pgTime v.expiresAt = .ok (some t) := by
    obtain ⟨text, given, read⟩ := Option.bind_eq_some_iff.1 expiry
    simp [pgTimestamp, given, read]
  obtain ⟨units, column, positive⟩ := columns_ok amount
  obtain ⟨links, inserted⟩ := @Table.insert_of_free LinkRow LinkRow.clash db.links
    { id := v.id, creator := v.creator, amount := units, asset := v.asset,
      reference := v.reference.map JsString.toWellFormed, expiresAt := some t, createdAt := v.createdAt } fun r mem =>
        by simp [LinkRow.clash, fresh r mem]
  refine ⟨[], { db with links }, ?_⟩
  rw [Database.insertLink, assertUuid_ok.2 uuid]
  show (assertTexts v.texts >>= _) = _
  rw [texts]
  show (v.amount.mapM pgNumeric >>= _) = _
  rw [column]
  show (discard (units.mapM checkPositive) >>= _) = _
  rw [positive]
  show (pgTimestamp pgTime v.expiresAt >>= _) = _
  rw [time]
  show (Storage.unique (db.links.insert _) >>= _) = _
  rw [inserted]
  rfl

end Saving

/-! ## Every link that was returned -/

section Runs

variable {d : Deployment} {cfg : PaymentConfig} {tid : Nat} {input : LinkInput} {link : PaymentLink}

/-- What a `createLink` that returns has done. -/
def LinkReturned (d : Deployment) (input : LinkInput) (r : Returned) (s : PaymentState) : Prop :=
  ∃ link, r = .link link ∧ LinkMade d input link ∧ LinkStored d link s.world

theorem link_course (input : LinkInput) (tid : Nat) (s : PaymentState) (unstarted : s.own tid = []) :
    Course d tid (.createLink input) (fun _ _ => True) (LinkReturned d input) (fun _ _ => True) ((payments d).body (.createLink input)) s := by
  have creates : Course d tid (.createLink input) (fun _ _ => True) (fun link s' => LinkReturned d input (.link link) s') (fun _ _ => True)
      (PaymentIntentService.createLink d input) s :=
    course_createLink (discipline_onStore d) ⟨fun _ => trivial, fun _ => trivial⟩ (fun _ _ => trivial) unstarted (fun _ _ _ => trivial)
      fun link s' _ _ made stored => ⟨link, rfl, made, stored⟩
  exact course_map creates

/-- **A link that was returned is stored**, whatever has happened since. -/
theorem link_stored (run : Reachable d cfg) {r : Returned} (created : cfg.calls[tid]? = some (.createLink input, .ret r)) :
    LinkReturned d input r cfg.shared := by
  obtain ⟨s, awaited, link, made, built, stored⟩ := course_of_run (D := discipline d) payments_holds
    (fun tid s _ unstarted => link_course input tid s unstarted) run created
  exact ⟨link, made, built, awaited.later.links _ _ stored.kept, stored.plain⟩

/-- Whoever opens it reads what is stored. -/
theorem link_opened (run : Reachable d cfg) (created : cfg.calls[tid]? = some (.createLink input, .ret (.link link))) {tid' : Nat}
    {link' : PaymentLink} (opened : cfg.calls[tid']? = some (.getLink link.id, .ret (.link link'))) : link' = storedLink d link := by
  obtain ⟨_, ⟨⟩, -, stored⟩ := link_stored run created
  obtain ⟨s, later, found⟩ := returned (payments_holds run) opened
  have found : s.world.link d link.id = some link' := found
  exact Option.some.inj ((later.links _ _ found).symm.trans stored.kept)

end Runs

/-! ## Opening and creating a link at a given time -/

/-- What an operation may answer while the clock shows `now`. -/
def execAt (d : Deployment) (now : Timestamp) : (op : Op) → World → op.Answer → World → Prop
  | .stellar .dateNow, w, t, w' => t = now ∧ w' = w
  | op, w, ans, w' => exec d op w ans w'

theorem execAt_exec {d : Deployment} {now : Timestamp} {op : Op} {w w' : World} {ans : op.Answer} (h : execAt d now op w ans w') :
    exec d op w ans w' := by
  unfold execAt at h
  split at h
  · exact h.2
  · exact h

section Times

variable {d : Deployment} {w : World} {now : Timestamp}

theorem can_dateNow_iff {Q : Timestamp → World → Prop} : dateNow.Can (execAt d now) Q w ↔ Q now w := by
  constructor
  · rintro ⟨time, w', ⟨rfl, rfl⟩, rest⟩
    exact rest
  · exact fun h => ⟨now, w, ⟨rfl, rfl⟩, h⟩

theorem can_query_iff {st : Statement} {Q : List st.Row → World → Prop} {rows : List st.Row}
    (ran : ∀ time, st.run d.pgTime time w.db = .ok (rows, w.db)) : (query st).Can (execAt d now) Q w ↔ Q rows w := by
  constructor
  · rintro ⟨ans, w', ⟨db, queried, rfl⟩, rest⟩
    cases queried with
    | @ran time rows' db' ok =>
      obtain ⟨rfl, rfl⟩ := Prod.mk.inj (Except.ok.inj ((ran time).symm.trans ok))
      exact rest
    | refused failed => exact rest.elim
    | unreached => exact rest.elim
    | unanswered ok => exact rest.elim
  · exact fun h => ⟨.ok rows, w, ⟨w.db, .ran (ran now), rfl⟩, h⟩

theorem can_findLink_iff {id : String} {Q : Option PaymentLink → World → Prop} (plain : d.pool = true → pgText id = true) :
    (PaymentIntentStore.findLink d id).Can (execAt d now) Q w ↔ Q (w.link d id) w := by
  unfold PaymentIntentStore.findLink World.link
  cases pool : d.pool with
  | true =>
    have ran : ∀ time, (Statement.selectLink id).run d.pgTime time w.db = .ok ((w.db.links.find (·.id = id)).toList, w.db) := by
      intro time
      show (assertTexts [id] >>= fun _ => _) = _
      rw [Database.assertTexts_ok (by simpa using plain pool)]
      rfl
    refine Prog.can_bind.trans ((can_query_iff ran).trans ?_)
    show Q (Option.map (PaymentIntentStore.linkOf d) (w.db.links.find (·.id = id)).toList.head?) w ↔ _
    rw [Option.head?_toList]
    rfl
  | false =>
    constructor
    · rintro ⟨ans, w', ⟨memory, segment, rfl⟩, rest⟩
      cases segment with
      | threw failed => cases failed
      | ran ok =>
        obtain ⟨rfl, rfl⟩ := Prod.mk.inj (Except.ok.inj ok)
        exact rest
    · exact fun h => ⟨.ok (w.memory.findLink id), w, ⟨w.memory, .ran rfl, rfl⟩, h⟩

/-- A stored link can be returned exactly if it has not expired. -/
theorem can_getLink_iff {link : PaymentLink} (stored : LinkStored d link w) :
    (PaymentIntentService.getLink d link.id).Can (execAt d now) (fun l _ => l = storedLink d link) w ↔
      PaymentIntentService.hasExpired d (storedLink d link) now = false := by
  unfold PaymentIntentService.getLink
  rw [Prog.can_bind, can_findLink_iff stored.plain, stored.kept]
  rw [Prog.can_bind, can_dateNow_iff]
  cases PaymentIntentService.hasExpired d (storedLink d link) now with
  | true => exact ⟨False.elim, nofun⟩
  | false => exact ⟨fun _ => rfl, fun _ => rfl⟩

/-- A day after it was created a link has expired, and not before. -/
theorem hasExpired_stored {link : PaymentLink} {expiry : Timestamp} (reads : ReadsDate d expiry)
    (written : link.expiresAt = some (.str (d.toISOString expiry))) :
    PaymentIntentService.hasExpired d (storedLink d link) now = decide (expiry ≤ now) := by
  have kept : (storedLink d link).expiresAt = some (.str (d.toISOString expiry)) := by
    unfold storedLink
    cases d.pool <;> simp [written, reads.pgTime]
  simp [PaymentIntentService.hasExpired, kept, truthy, reads.nonempty, reads.parse]

theorem can_saveLink {link : PaymentLink} {t : Timestamp} (uuid : isUuid link.id = true)
    (positive : ∀ a, link.amount = some a → ∃ n, stroops a = .ok n ∧ 0 < n)
    (plain : d.pool = true → ∀ text ∈ (PaymentIntentStore.linkValues link).texts, pgText text = true)
    (expiry : link.expiresAt.bind d.pgTime = some t) (fresh : ∀ r ∈ w.db.links.rows, r.id ≠ link.id) {Q : Unit → World → Prop}
    (h : ∀ w', Q () w') : (PaymentIntentStore.saveLink d link).Can (execAt d now) Q w := by
  apply Prog.can_ite
  · intro pool
    obtain ⟨rows, db, ran⟩ := Database.insertLink_runs uuid (plain pool) positive expiry fresh
    have ran : (Statement.insertLink (PaymentIntentStore.linkValues link)).run d.pgTime now w.db = .ok (rows, db) := ran
    exact Prog.can_map ⟨.ok rows, _, ⟨db, .ran ran, rfl⟩, h _⟩
  · exact fun _ => ⟨.ok (), _, ⟨w.memory.saveLink link, .ran rfl, rfl⟩, h _⟩

/-- A link can be created for a request in order, and is good for a day. -/
theorem can_createLink (room : w.Room) {input : LinkInput} {creator : String} {amount : Option String} {reference : Option JsString}
    (checked : checkLink d.sdk input = .ok (creator, amount, reference)) (lasting : input.expiresAt = none)
    (reads : ReadsDate d (now + PaymentIntentService.dayMs))
    (plain : d.pool = true → ∀ text ∈ creator :: (reference.map JsString.toWellFormed).toList, pgText text = true) :
    (PaymentIntentService.createLink d input).Can (execAt d now)
      (fun link _ => link.expiresAt = some (.str (d.toISOString (now + PaymentIntentService.dayMs)))) w := by
  have request := checkLink_ok.1 checked
  obtain ⟨uuid, new⟩ := freshUuid_spec room
  generalize freshUuid w.names = id at uuid new
  simp only [World.names, List.mem_append, List.mem_map, not_or, not_exists, not_and] at new
  obtain ⟨unissued, -, unstored, -⟩ := new
  unfold PaymentIntentService.createLink
  refine Prog.can_bind.2 (Prog.can_ofExcept checked (Prog.can_bind.2 (can_dateNow_iff.2 ?_)))
  refine Prog.can_bind.2 (Prog.can_ofExcept (by rw [lasting]; rfl) ⟨id, { w with issued := id :: w.issued }, ⟨⟨uuid, unissued⟩, rfl⟩, ?_⟩)
  show (dateNow >>= _ : PaymentProg PaymentLink).Can _ _ _
  refine Prog.can_bind.2 (can_dateNow_iff.2 (Prog.can_bind.2 ?_))
  refine can_saveLink (t := now + PaymentIntentService.dayMs) uuid request.positive ?_ ?_ unstored fun _ => ?_
  · intro pool
    have texts := plain pool
    simp only [List.forall_mem_cons] at texts
    have lumens : pgText "XLM" = true := by decide
    simp only [PaymentIntentStore.linkValues, LinkValues.texts, List.cons_append, List.nil_append, List.forall_mem_cons]
    exact ⟨texts.1, lumens, texts.2⟩
  · rw [lasting]
    exact reads.pgTime
  · rw [lasting]
    rfl

/-- **A link can be created** in whatever state the service is, while identifiers are left. -/
theorem live_createLink {cfg : PaymentConfig} (room : cfg.shared.world.Room) {input : LinkInput} {creator : String} {amount : Option String}
    {reference : Option JsString}
    (checked : checkLink d.sdk input = .ok (creator, amount, reference)) (lasting : input.expiresAt = none)
    (reads : ReadsDate d (now + PaymentIntentService.dayMs))
    (plain : d.pool = true → ∀ text ∈ creator :: (reference.map JsString.toWellFormed).toList, pgText text = true) :
    ∃ link s, (payments d).Steps cfg ⟨s, cfg.calls ++ [(.createLink input, .ret (.link link))]⟩ ∧
      link.expiresAt = some (.str (d.toISOString (now + PaymentIntentService.dayMs))) := by
  have can := @can_createLink d cfg.shared.world now room input creator amount reference checked lasting reads plain
  obtain ⟨a, s, steps, link, rfl, made⟩ := (payments d).alone (.createLink input) (Q := fun a _ => ∃ link, a = .link link ∧
    link.expiresAt = some (.str (d.toISOString (now + PaymentIntentService.dayMs))))
    (Prog.can_map ((can.of_le fun _ _ _ _ => execAt_exec).mono fun link _ made => ⟨link, rfl, made⟩))
  exact ⟨link, s, steps, made⟩

end Times

end AfriPay.Payments
