import AfriPay.Payments.Creation

/-!
# What one operation makes of a stored intent

Of an intent that is stored, an operation makes what it claims or settles, or nothing
(`exec_amended`), whatever request the intent has come from.
-/

namespace AfriPay.Payments
open Text Stellar Storage

/-- What an operation makes of the intent stored under `id`: nothing, or what it claims or settles. -/
inductive Amended (op : Op) (id : String) (i : PaymentIntent) : PaymentIntent → Prop where
  | same : Amended op id i i
  | claimed {hash : String} {updatedAt : Timestamp} (claims : op.claims = some (id, hash))
      (free : truthy i.transactionHash = false ∨ i.transactionHash = some (.str hash)) :
      Amended op id i { i with transactionHash := some (.str hash), updatedAt }
  | settled {hash : Json} {status : PaymentStatus} {updatedAt : Timestamp} (settles : op.settles = some (id, hash, status))
      (held : i.transactionHash.any hash.same = true) (pending : i.status = .pending) :
      Amended op id i { i with status, updatedAt }

theorem Memory.claimHash_amended {m m' : Memory} {id₀ hash : String} {now : Timestamp} {a : PaymentIntent}
    (h : m.claimHash id₀ hash now = .ok (a, m')) {id : String} {i i' : PaymentIntent} (stored : m.intents.get id = some i)
    (stored' : m'.intents.get id = some i') : Amended (.memory (.claimHash id₀ hash now)) id i i' := by
  obtain ⟨i₀, found, unbound, -, rfl, rfl⟩ := claimHash_ok h
  rw [OrderedMap.get_set] at stored'
  split at stored'
  · rename_i here
    subst here
    obtain rfl : i₀ = i := Option.some.inj (found.symm.trans stored)
    obtain rfl := Option.some.inj stored'
    refine .claimed rfl ?_
    cases held : truthy i₀.transactionHash with
    | false => exact .inl rfl
    | true =>
      right
      rw [← isString_iff, ← Bool.not_eq_false]
      exact fun other => unbound ⟨held, other⟩
  · obtain rfl : i = i' := Option.some.inj (stored.symm.trans stored')
    exact .same

theorem Memory.settle_amended {m m' : Memory} {id₀ : String} {hash : Json} {status : PaymentStatus}
    {now : Timestamp} {a : PaymentIntent} (h : m.settle id₀ hash status now = .ok (a, m')) {id : String} {i i' : PaymentIntent}
    (stored : m.intents.get id = some i) (stored' : m'.intents.get id = some i') :
    Amended (.memory (.settle id₀ hash status now)) id i i' := by
  obtain ⟨i₀, found, bound, ⟨rfl, rfl⟩ | ⟨pending, rfl, rfl⟩⟩ := settle_ok h
  · obtain rfl : i = i' := Option.some.inj (stored.symm.trans stored')
    exact .same
  rw [OrderedMap.get_set] at stored'
  split at stored'
  · rename_i here
    subst here
    obtain rfl : i₀ = i := Option.some.inj (found.symm.trans stored)
    obtain rfl := Option.some.inj stored'
    exact .settled rfl bound pending
  · obtain rfl : i = i' := Option.some.inj (stored.symm.trans stored')
    exact .same

theorem Database.claimHash_amended {db db' : Database} {id₀ hash : String} {now : Timestamp} {rows : List IntentRow}
    (nonempty : hash ≠ "") (h : db.claimHash id₀ hash now = .ok (rows, db')) {id : String} {r r' : IntentRow}
    (found : db.intents.find (·.id = id) = some r) (found' : db'.intents.find (·.id = id) = some r') :
    Amended (.query (.claimHash id₀ hash)) id r.intent r'.intent := by
  obtain ⟨intents, updated, rfl, -⟩ := claimHash_ok h
  have after := Table.find_update updated (·.id) (fun _ => rfl) id
  rw [found, Option.map_some] at after
  obtain rfl := Option.some.inj (after.symm.trans found')
  unfold Table.assign
  split
  · rename_i selected
    obtain rfl : id = id₀ := (find_id found).symm.trans (claimable_id selected)
    have set : (setHash hash now r).intent =
        { r.intent with transactionHash := some (.str hash), updatedAt := throughDateText now } := by
      simp [setHash, IntentRow.intent, Option.filter, nonempty]
    rw [set]
    refine .claimed rfl ?_
    simp only [claimable, Bool.and_eq_true, Bool.or_eq_true, decide_eq_true_eq] at selected
    rcases selected.2 with none | held
    · left; rw [IntentRow.intent, none]; rfl
    · right; simp [IntentRow.intent, held, Option.filter, nonempty]
  · exact .same

theorem Database.settle_amended {db db' : Database} (sound : db.Sound) {id₀ : String} {hash : Json} {status : PaymentStatus}
    {now : Timestamp} {rows : List IntentRow} (h : db.settle id₀ hash status now = .ok (rows, db')) {id : String} {r r' : IntentRow}
    (found : db.intents.find (·.id = id) = some r) (found' : db'.intents.find (·.id = id) = some r') :
    Amended (.query (.settle id₀ hash status)) id r.intent r'.intent := by
  obtain ⟨intents, updated, rfl⟩ := settle_ok h
  have after := Table.find_update updated (·.id) (fun _ => rfl) id
  rw [found, Option.map_some] at after
  obtain rfl := Option.some.inj (after.symm.trans found')
  unfold Table.assign
  split
  · rename_i selected
    obtain rfl : id = id₀ := (find_id found).symm.trans (settleable_id selected)
    simp only [settleable, Bool.and_eq_true, decide_eq_true_eq] at selected
    obtain ⟨⟨-, bound⟩, pending⟩ := selected
    obtain ⟨text, column, same⟩ := (Option.any_eq_true _ _).1 bound
    have nonempty : text ≠ "" := by
      rintro rfl
      exact sound r (Table.mem_of_find found).1 column
    have held : r.intent.transactionHash = some (.str text) := by simp [IntentRow.intent, column, Option.filter, nonempty]
    exact .settled rfl (by rw [held]; exact same) pending
  · exact .same

/-- Whatever an operation does to the world, of a stored intent it makes what it claims or settles, or nothing. -/
theorem exec_amended {d : Deployment} {op : Op} {w w' : World} {ans : op.Answer} (sound : w.db.Sound)
    (fresh : ∀ j, op = .memory (.createIntent j) → w.memory.intents.get j.id = none)
    (nonempty : ∀ id hash, op.claims = some (id, hash) → hash ≠ "")
    (h : exec d op w ans w') {id : String} {i : PaymentIntent} (stored : w.intent d id = some i) :
    ∃ i', w'.intent d id = some i' ∧ Amended op id i i' := by
  obtain ⟨i', stored', -, same⟩ := exec_continues h fresh stored
  refine ⟨i', stored', ?_⟩
  by_cases amends : op.amends = false
  · rw [same amends]
    exact .same
  have unchanged : w'.intent d id = w.intent d id → Amended op id i i' := by
    intro same
    rw [same, stored] at stored'
    cases stored'
    exact .same
  cases op with
  | randomUUID => exact (amends rfl).elim
  | stellar request => exact (amends rfl).elim
  | memory op =>
    obtain ⟨m, segment, rfl⟩ := h
    cases segment with
    | threw failed => exact unchanged rfl
    | ran ok =>
      cases pool : d.pool with
      | true => exact unchanged (by rw [World.intent, World.intent, if_pos pool, if_pos pool])
      | false =>
        rw [World.intent, if_neg (by simp [pool])] at stored stored'
        cases op with
        | claimHash id₀ hash now => exact Memory.claimHash_amended ok stored stored'
        | settle id₀ hash status now => exact Memory.settle_amended ok stored stored'
        | _ => exact (amends rfl).elim
  | query s =>
    obtain ⟨db, queried, rfl⟩ := h
    have ran : ∀ {now rows}, s.run d.pgTime now w.db = .ok (rows, db) → Amended (.query s) id i i' := by
      intro now rows ok
      cases pool : d.pool with
      | false => exact unchanged (by rw [World.intent, World.intent, if_neg (by simp [pool]), if_neg (by simp [pool])])
      | true =>
        rw [World.intent, if_pos pool] at stored stored'
        obtain ⟨r, found, rfl⟩ := Option.map_eq_some_iff.1 stored
        obtain ⟨r', found', rfl⟩ := Option.map_eq_some_iff.1 stored'
        cases s with
        | claimHash id₀ hash => exact Database.claimHash_amended (nonempty id₀ hash rfl) ok found found'
        | settle id₀ hash status => exact Database.settle_amended sound ok found found'
        | _ => exact (amends rfl).elim
    cases queried with
    | ran ok => exact ran ok
    | unanswered ok => exact ran ok
    | refused failed => exact unchanged rfl
    | unreached => exact unchanged rfl

end AfriPay.Payments
