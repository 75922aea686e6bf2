import AfriPay.Payments.Courses

/-!
# The course of a creation

`create` and `createLink` each draw an identifier and store one record under it.
What is returned is stored: of a `create` the intent under the key of the request,
of a `createLink` the new link.
-/

namespace AfriPay.Payments
open Calls Discipline Text Stellar Storage

/-! ## Records that are stored -/

/-- What a `create` that returns has done. -/
structure Created {C : Type} (d : Deployment) (input : CreateInput) (saved : PaymentIntent) (s : StoreState C) : Prop where
  stored : s.world.intent d saved.id = some saved
  accepted : ∃ payment, validatePayment d.sdk input.payment = .ok payment
  key : ∃ key, idempotencyKeyOf input.idempotencyKey = .ok key ∧ saved.idempotencyKey = keptText d.pool key
  requested : Requested input.payment saved.toNativePayment
  checked : Checked d.sdk saved.fields saved.toNativePayment

/-- The amount `findLink` returns for a link saved with this one. -/
def storedAmount (d : Deployment) (amount : Option String) : Option String :=
  if d.pool then amount.map fun a => fixedPoint 12 (scaledValue 12 a) else amount

theorem mapM_pgNumeric {amount : Option String} {units : Option Nat} (h : amount.mapM pgNumeric = .ok units) :
    units = amount.map (scaledValue 12) := by
  cases amount with
  | none => cases h; rfl
  | some a =>
    obtain ⟨n, value, same⟩ := bind_ok h
    cases same
    rw [pgNumeric_ok value]
    rfl

/-- A link as `findLink` returns it. From the database the amount is the text of its
column, the reference is what the column keeps of it, and the expiry has been read
and written again. -/
def storedLink (d : Deployment) (link : PaymentLink) : PaymentLink :=
  { link with
    amount := storedAmount d link.amount
    reference := link.reference.map (keptText d.pool)
    expiresAt := if d.pool then (link.expiresAt.bind d.pgTime).map fun t => .str (d.toISOString t) else link.expiresAt }

/-- The link is one that `createLink` makes of the request. -/
structure LinkMade (d : Deployment) (input : LinkInput) (link : PaymentLink) : Prop where
  checked : checkLink d.sdk input = .ok (link.creator, link.amount, link.reference)
  asset : link.asset = "XLM"
  expiry : ∃ now, PaymentIntentService.checkExpiry d now input.expiresAt = .ok () ∧
    link.expiresAt = some (input.expiresAt.getD (.str (d.toISOString (now + PaymentIntentService.dayMs))))
  url : link.url = PaymentIntentStore.payUrl d link.id

/-- The store holds the link. -/
structure LinkStored (d : Deployment) (link : PaymentLink) (w : World) : Prop where
  kept : w.link d link.id = some (storedLink d link)
  plain : d.pool = true → pgText link.id = true

/-- A row that is inserted is found. -/
theorem Database.insertLink_stores {d : Deployment} {db db' : Database} {link : PaymentLink} {rows : List LinkRow} (pool : d.pool = true)
    (url : link.url = PaymentIntentStore.payUrl d link.id)
    (h : db.insertLink d.pgTime (PaymentIntentStore.linkValues link) = .ok (rows, db')) :
    (db'.links.find (·.id = link.id)).map (PaymentIntentStore.linkOf d) = some (storedLink d link) ∧ pgText link.id = true := by
  obtain ⟨units, links, value, uuid, inserted, rfl⟩ := Database.insertLink_ok h
  have fresh : db.links.find (·.id = link.id) = none := by
    rw [Table.find_eq_none_iff]
    exact fun r mem => Table.insert_free inserted mem
  have found := Table.find_insert inserted (·.id) link.id
  have same : (PaymentIntentStore.linkValues link).id = link.id := rfl
  rw [fresh, Option.none_or, if_pos same] at found
  have amount : units.map (fixedPoint 12) = storedAmount d link.amount := by
    rw [mapM_pgNumeric value, storedAmount, if_pos pool, Option.map_map]
    rfl
  have reference : (link.reference.map JsString.toWellFormed).map .text = link.reference.map (keptText d.pool) := by
    rw [pool, Option.map_map]
    rfl
  refine ⟨?_, pgText_of_isUuid uuid⟩
  rw [found, Option.map_some]
  simp only [PaymentIntentStore.linkOf, PaymentIntentStore.linkValues, storedLink, reference, amount, url, pool, if_true]

/-! ## The courses -/

section Rules

variable {C α : Type} {d : Deployment} {body : C → PaymentProg α}
  {D : Discipline (⟨body, exec d⟩ : System C Op Op.Answer Exception α World)} {tid : Nat} {c : C} {s : StoreState C}
  {A : StoreState C → Op → Prop} {E : Exception → StoreState C → Prop}

theorem Drawn.awaited (on : OnStore d D) {id : String} {s₁ : StoreState C} (h : Drawn tid id s) (awaited : D.Awaited tid s s₁) :
    Drawn tid id s₁ := by
  obtain ⟨⟨u, mem, name⟩, idle⟩ := h
  exact ⟨⟨u, (on.log awaited.later).mem mem, name⟩, awaited.own ▸ idle⟩

/-- What is returned is stored under the key of the intent handed in, as the store keeps it. -/
theorem course_createIntent (on : OnStore d D) {i : PaymentIntent} {Q : PaymentIntent → StoreState C → Prop} (lenient : Lenient A E)
    (thrown : ∀ e s', E e s')
    (asserted : ∀ s₁ op, D.Awaited tid s s₁ →
      (op = .query (.insertIntent (PaymentIntentStore.values i)) ∨ op = .memory (.createIntent i)) → A s₁ op)
    (post : ∀ saved s', D.Later s s' → D.Inv s' → s'.world.intent d saved.id = some saved →
      saved.idempotencyKey = keptText d.pool i.idempotencyKey → Q saved s') :
    D.Course tid c A Q E (PaymentIntentStore.createIntent d i) s := by
  unfold PaymentIntentStore.createIntent
  apply course_ite
  · intro pool
    refine course_bind (course_query lenient (fun s₁ awaited => asserted s₁ _ awaited (.inl rfl)) ?_ fun _ _ _ _ _ _ => thrown _ _)
    intro s₁ s₂ now rows awaited ran later inv
    refine course_bind (course_ofExcept ?_ fun _ _ => thrown _ _)
    intro row first
    obtain ⟨row', mem, rfl, key⟩ := Database.insertIntent_holds ran
    obtain rfl : row' = row := Except.ok.inj first
    refine post _ s₂ (D.trans awaited.later later) inv ?_ (by rw [pool]; exact congrArg JsString.text key)
    rw [World.intent_pool pool]
    exact Database.holdings_row mem
  · intro pool
    refine course_inMemory (fun s₁ awaited => asserted s₁ _ awaited (.inr rfl)) ?_ fun _ _ _ _ _ _ => thrown _ _
    intro s₁ s₂ a awaited ran later inv
    obtain ⟨stored, key⟩ := Memory.createIntent_holds (on.keyed awaited.inv) (Except.ok.inj ran)
    refine post a s₂ (D.trans awaited.later later) inv ?_ (key.trans (by rw [Bool.eq_false_of_not_eq_true pool]; rfl))
    rw [World.intent_memory pool]
    exact stored

/-- A create draws an identifier and stores a pending intent under it. -/
theorem course_create (on : OnStore d D) {input : CreateInput} {Q : PaymentIntent → StoreState C → Prop} (lenient : Lenient A E)
    (thrown : ∀ e s', E e s') (unstarted : s.own tid = [])
    (asserted : ∀ s₁ i op, Drawn tid i.id s₁ → i.status = .pending → i.transactionHash = input.transactionHash →
      (op = .query (.insertIntent (PaymentIntentStore.values i)) ∨ op = .memory (.createIntent i)) → A s₁ op)
    (post : ∀ saved s', D.Later s s' → D.Inv s' → Created d input saved s' → Q saved s') :
    D.Course tid c A Q E (PaymentIntentService.create d input) s := by
  unfold PaymentIntentService.create
  refine course_bind (course_ofExcept (fun payment valid => ?_) fun _ _ => thrown _ _)
  refine course_bind (course_ofExcept (fun key given => ?_) fun _ _ => thrown _ _)
  refine course_bind (course_dateNow lenient fun s₁ now later₁ inv₁ own₁ => course_bind ?_)
  intro s₂ awaited
  refine ⟨lenient.quiet rfl, fun id s₃ _ log later₂ inv₂ => ?_⟩
  have own₃ := awaited.own_cons log
  have drawn : Drawn tid id s₃ := by
    refine ⟨⟨⟨tid, c, .randomUUID, id⟩, by rw [log]; exact List.mem_cons_self, rfl, rfl⟩, ?_⟩
    intro e mem
    rw [own₃, own₁, unstarted] at mem
    simp only [List.mem_cons, List.not_mem_nil, or_false] at mem
    rcases mem with rfl | rfl <;> rfl
  refine course_bind (course_createIntent on lenient thrown ?_ fun saved s₄ later₃ inv₃ stored same => ?_)
  · exact fun s₄ op awaited stores => asserted s₄ _ op (drawn.awaited on awaited) rfl rfl stores
  refine course_bind (course_ofExcept (fun _ matching => ?_) fun _ _ => thrown _ _)
  have checked := validatePayment_ok.1 valid
  have requested := (checkSameDetails_ok.1 matching).requested checked
  exact post saved s₄ (D.trans (D.trans (D.trans later₁ awaited.later) later₂) later₃) inv₃
    ⟨stored, ⟨payment, valid⟩, ⟨key, given, same⟩, requested, requested.checked checked⟩

theorem course_saveLink {link : PaymentLink} {Q : Unit → StoreState C → Prop} (lenient : Lenient A E) (thrown : ∀ e s', E e s')
    (url : link.url = PaymentIntentStore.payUrl d link.id) (asserted : ∀ s₁, D.Awaited tid s s₁ → A s₁ (.memory (.saveLink link)))
    (post : ∀ s', D.Later s s' → D.Inv s' → LinkStored d link s'.world → Q () s') :
    D.Course tid c A Q E (PaymentIntentStore.saveLink d link) s := by
  unfold PaymentIntentStore.saveLink
  apply course_ite
  · intro pool
    refine course_map (course_query lenient (fun _ _ => lenient.quiet rfl) ?_ fun _ _ _ _ _ _ => thrown _ _)
    intro s₁ s₂ now rows awaited ran later inv
    obtain ⟨kept, plain⟩ := Database.insertLink_stores pool url ran
    refine post s₂ (D.trans awaited.later later) inv ⟨?_, fun _ => plain⟩
    rw [World.link, if_pos pool]
    exact kept
  · intro pool
    refine course_inMemory asserted ?_ fun _ _ _ _ _ _ => thrown _ _
    intro s₁ s₂ _ awaited ran later inv
    have memory : s₁.world.memory.saveLink link = s₂.world.memory := congrArg Prod.snd (Except.ok.inj ran)
    have reference : link.reference.map (keptText d.pool) = link.reference := by
      rw [Bool.eq_false_of_not_eq_true pool]
      exact congrFun Option.map_id _
    have same : storedLink d link = link := by simp [storedLink, storedAmount, pool, reference]
    refine post s₂ (D.trans awaited.later later) inv ⟨?_, fun used => (pool used).elim⟩
    rw [World.link, if_neg pool, ← memory, same]
    exact OrderedMap.get_set_self ..

/-- So does a `createLink` with its link. -/
theorem course_createLink (on : OnStore d D) {input : LinkInput} {Q : PaymentLink → StoreState C → Prop} (lenient : Lenient A E)
    (thrown : ∀ e s', E e s') (unstarted : s.own tid = [])
    (asserted : ∀ s₁ link, Drawn tid link.id s₁ → A s₁ (.memory (.saveLink link)))
    (post : ∀ link s', D.Later s s' → D.Inv s' → LinkMade d input link → LinkStored d link s'.world → Q link s') :
    D.Course tid c A Q E (PaymentIntentService.createLink d input) s := by
  unfold PaymentIntentService.createLink
  refine course_bind (course_ofExcept ?_ fun _ _ => thrown _ _)
  rintro ⟨creator, amount, reference⟩ checked
  refine course_bind (course_dateNow lenient fun s₁ now later₁ inv₁ own₁ => ?_)
  refine course_bind (course_ofExcept (fun _ intime => course_bind fun s₂ awaited => ?_) fun _ _ => thrown _ _)
  refine ⟨lenient.quiet rfl, fun id s₃ _ log later₂ inv₂ => ?_⟩
  have own₃ := awaited.own_cons log
  refine course_bind (course_dateNow lenient fun s₄ createdAt later₃ inv₃ own₄ => ?_)
  have drawn : Drawn tid id s₄ := by
    refine ⟨⟨⟨tid, c, .randomUUID, id⟩, (on.log later₃).mem (by rw [log]; exact List.mem_cons_self), rfl, rfl⟩, ?_⟩
    intro e mem
    rw [own₄, own₃, own₁, unstarted] at mem
    simp only [List.mem_cons, List.not_mem_nil, or_false] at mem
    rcases mem with rfl | rfl | rfl <;> rfl
  refine course_bind (course_saveLink lenient thrown rfl ?_ fun s₅ later₄ inv₄ stored => ?_)
  · exact fun s₅ awaited => asserted s₅ _ (drawn.awaited on awaited)
  · have later := D.trans (D.trans (D.trans (D.trans later₁ awaited.later) later₂) later₃) later₄
    exact post _ s₅ later inv₄ ⟨checked, rfl, ⟨now, intime, rfl⟩, rfl⟩ stored

theorem course_getLink {id : String} {Q : PaymentLink → StoreState C → Prop} (lenient : Lenient A E) (thrown : ∀ e s', E e s')
    (post : ∀ link s₁ s', D.Later s s₁ → D.Later s₁ s' → D.Inv s' → s₁.world.link d id = some link → Q link s') :
    D.Course tid c A Q E (PaymentIntentService.getLink d id) s := by
  have opens : ∀ s₁ link, D.Later s s₁ → s₁.world.link d id = some link →
      D.Course tid c A Q E (do let now ← dateNow; if PaymentIntentService.hasExpired d link now then
        throw (.conflict "Payment link has expired") else return link) s₁ := by
    intro s₁ link later found
    refine course_bind (course_dateNow lenient fun s₂ now later₂ inv₂ _ => ?_)
    exact course_ite (fun _ => thrown _ _) fun _ => post link s₁ s₂ later later₂ inv₂ found
  unfold PaymentIntentService.getLink PaymentIntentStore.findLink
  refine course_bind (course_ite ?_ ?_)
  · intro pool
    refine course_bind (course_query lenient (fun _ _ => lenient.quiet rfl) ?_ fun _ _ _ _ _ _ => thrown _ _)
    intro s₁ s₂ now rows awaited ran later inv
    obtain ⟨_, -, ran⟩ := bind_ok ran
    obtain ⟨rfl, same⟩ := Prod.mk.inj (Except.ok.inj ran)
    have found : s₂.world.link d id = (s₂.world.db.links.find (·.id = id)).map (PaymentIntentStore.linkOf d) := if_pos pool
    rw [← same, ← @Option.head?_toList LinkRow (s₁.world.db.links.find _)] at found
    cases first : ((s₁.world.db.links.find fun r => decide (r.id = id)).toList.head?).map (PaymentIntentStore.linkOf d) with
    | none => exact first ▸ thrown _ _
    | some link => exact first ▸ opens s₂ link (D.trans awaited.later later) (found.trans first)
  · intro pool
    refine course_inMemory (fun _ _ => lenient.quiet rfl) ?_ fun _ _ _ _ _ _ => thrown _ _
    intro s₁ s₂ a awaited ran later inv
    obtain ⟨rfl, same⟩ := Prod.mk.inj (Except.ok.inj ran)
    have found : s₂.world.link d id = s₂.world.memory.links.get id := if_neg pool
    rw [← same] at found
    cases first : s₁.world.memory.findLink id with
    | none => exact thrown _ _
    | some link => exact opens s₂ link (D.trans awaited.later later) (found.trans first)

end Rules

end AfriPay.Payments
