import AfriPay.Calls.Replay
import AfriPay.Calls.Waiting
import AfriPay.Rates.Service
import AfriPay.Text.NumberReading

/-!
# Rates served

Requests of any number of instances run against one Redis, which may fail, lose
entries and expire them. Whatever is kept there is the text of a result that the
provider was asked for, and it is read back as that result.
-/

namespace AfriPay.Rates
open Calls Text

/-- A value in Redis and when it was set. -/
structure Entry where
  value : String
  storedAt : Timestamp

/-- An answer of the provider: to what request, with which body, at what time, and
what the clock of the instance said. -/
structure Reading where
  url : String
  text : String
  clock : Timestamp
  time : Timestamp

/-- The time, the keys `rate:…` of Redis, which only this service writes, and what
the provider has answered. -/
structure World where
  now : Timestamp
  redis : String → Option Entry
  readings : List Reading

def World.initial (now : Timestamp) : World := ⟨now, fun _ => none, []⟩

/-- An entry that has not expired. -/
def Entry.Live (entry : Entry) (now : Timestamp) : Prop := now < entry.storedAt + 1000 * cacheTtlSeconds

/-- Time passes, and Redis may lose entries. -/
structure Elapsed (w w' : World) : Prop where
  now : w.now ≤ w'.now
  redis : ∀ key entry, w'.redis key = some entry → w.redis key = some entry
  readings : w'.readings = w.readings

/-- What Redis answers to `get`: the value of a live entry, or it fails. -/
inductive Got (key : String) (w : World) : Option (Option String) → Prop where
  | failed : Got key w none
  | missing : (∀ entry, w.redis key = some entry → ¬entry.Live w.now) → Got key w (some none)
  | found (entry : Entry) : w.redis key = some entry → entry.Live w.now → Got key w (some (some entry.value))

/-- What an operation answers and does. A `set` that fails may have been done all the same. -/
def exec : (op : Op) → World → op.Answer → World → Prop
  | .get key, w, ans, w' => Elapsed w w' ∧ Got key w' ans
  | .set key value, w, ans, w' => ∃ w₁, Elapsed w w₁ ∧
      (w' = { w₁ with redis := Function.update w₁.redis key (some ⟨value, w₁.now⟩) } ∨ (ans : Bool) = false ∧ w' = w₁)
  | .fetch url, w, ans, w' => ∃ w₁, Elapsed w w₁ ∧ match (ans : FetchAnswer) with
    | .body text clock => w' = { w₁ with readings := ⟨url, text, clock, w₁.now⟩ :: w₁.readings }
    | _ => w' = w₁

variable (d : Deployment)

/-- Requests of any clients, to any instances. -/
def rates : System RatesController.Query Op Op.Answer Exception Json World := ⟨RatesController.getRate d, exec⟩

abbrev RatesConfig := Config RatesController.Query Op Op.Answer Exception Json World
abbrev RatesState := Shared RatesController.Query Op Op.Answer World

/-- Reachable from an empty Redis, at any time. -/
def Reachable (cfg : RatesConfig) : Prop := ∃ now, (rates d).Steps (.initial (.initial now)) cfg

/-! ## What Redis keeps -/

/-- The result was made of what the provider answered to a request for its pair, at `time`. -/
def Quoted (w : World) (time : Timestamp) (r : RateResult) : Prop :=
  ∃ reading ∈ w.readings, reading.time = time ∧ ∃ from_ to_, reading.url = RatesService.providerUrl d from_ to_ ∧
    RatesService.rateOf d from_ to_ (.body reading.text reading.clock) = .ok r

/-- The key of a result. -/
def RateResult.key (r : RateResult) : String := "rate:" ++ r.from_ ++ ":" ++ r.to_

/-- An entry is the text of a result for its key, set after the provider gave it. -/
def Kept (w : World) (key : String) (entry : Entry) : Prop :=
  ∃ r time, Quoted d w time r ∧ time ≤ entry.storedAt ∧ r.key = key ∧ entry.value = jsonStringify r.json

def Inv (w : World) : Prop := ∀ key entry, w.redis key = some entry → Kept d w key entry

/-- What no operation undoes. -/
structure Later (w w' : World) : Prop where
  now : w.now ≤ w'.now
  readings : w.readings ⊆ w'.readings

/-- What a call knows of a text it sets. -/
def Justified (w : World) : Op → Prop
  | .set key value => ∃ r time, Quoted d w time r ∧ time ≤ w.now ∧ r.key = key ∧ value = jsonStringify r.json
  | _ => True

/-! ## A result read back -/

/-- The result as `JSON.parse` reads it: a rate that is no finite number is `null`. -/
def RateResult.reread (r : RateResult) : Json :=
  .obj [("from", .str r.from_), ("to", .str r.to_), ("rate", match r.rate with | .finite q => .num (.finite q) | _ => .null),
    ("source", .str r.source), ("timestamp", .str r.timestamp)]

theorem RateResult.reread_finite {r : RateResult} {q : ℚ} (finite : r.rate = .finite q) : r.reread = r.json := by
  rw [reread, json, finite]

/-- What is set for a result is read as it. -/
theorem RateResult.jsonParse_json {r : RateResult} (rounded : Rounded r.rate) : jsonParse (jsonStringify r.json) = some r.reread := by
  have same : jsonStringify r.json = jsonStringify r.reread := by
    unfold reread json
    cases r.rate <;> rfl
  rw [same]
  refine jsonParse_stringify ⟨by simp, trivial, trivial, ?_, trivial, trivial, trivial⟩
  cases rate : r.rate with
  | finite q => exact readable_double (rounded q rate)
  | nan => trivial
  | inf negative => trivial

/-- And so it is from the cache. -/
theorem parseCached_json {r : RateResult} (rounded : Rounded r.rate) :
    RatesService.parseCached (some (some (jsonStringify r.json))) = .ok (some r.reread) := by
  have parsed := RateResult.jsonParse_json rounded
  have nonempty : jsonStringify r.json ≠ "" := by
    intro empty
    rw [empty] at parsed
    cases parsed
  rw [RatesService.parseCached, if_neg nonempty, parsed]

section Provider

variable {numeric : JsNumber → Prop} {d}

theorem prop_wellFormed {v u : Json} {name : String} (wellFormed : v.WellFormed numeric) (found : v.prop name = some u) :
    u.WellFormed numeric := by
  cases v with
  | obj fields =>
    obtain ⟨field, here, rfl⟩ := Option.map_eq_some_iff.1 found
    exact fieldsWellFormed_iff.1 wellFormed.2 field (List.mem_of_find?_eq_some here)
  | _ => cases found

theorem element_wellFormed {v : Option Json} {u : Json} {key : String} (wellFormed : ∀ w, v = some w → w.WellFormed numeric)
    (found : element key v = some u) : u.WellFormed numeric := by
  unfold element at found
  split at found
  · exact prop_wellFormed (wellFormed _ rfl) found
  · rename_i xs
    obtain ⟨⟨x, i⟩, here, rfl⟩ := Option.map_eq_some_iff.1 found
    have mem : x ∈ xs := List.fst_mem_of_mem_zipIdx (List.mem_of_find?_eq_some here)
    exact itemsWellFormed_iff.1 (wellFormed _ rfl) x mem
  · cases found

/-- A result is for the pair that was asked for, and its rate is a number of JavaScript. -/
theorem rateOf_ok {from_ to_ text : String} {clock : Timestamp} {r : RateResult}
    (made : RatesService.rateOf d from_ to_ (.body text clock) = .ok r) :
    r.from_ = d.toUpperCase from_ ∧ r.to_ = d.toUpperCase to_ ∧ Rounded r.rate := by
  unfold RatesService.rateOf at made
  dsimp only at made
  split at made
  · cases made
  · rename_i data parsed
    have wellFormed := jsonParse_wellFormed parsed
    cases here : ratesOf data with
    | error e =>
      rw [here] at made
      cases made
    | ok v =>
      rw [here] at made
      have inside : ∀ w, v = some w → w.WellFormed Rounded := by
        rintro w rfl
        unfold ratesOf at here
        split at here
        · cases here
        · exact prop_wellFormed wellFormed (Except.ok.inj here)
      simp only [bind, Except.bind] at made
      split at made
      · rename_i rate found
        obtain rfl := Except.ok.inj made
        exact ⟨rfl, rfl, element_wellFormed inside found⟩
      · cases made

end Provider

/-! ## One operation -/

section Exec

variable {d} {op : Op} {ans : op.Answer} {w w' : World}

theorem Later.trans {w₁ w₂ w₃ : World} (h : Later w₁ w₂) (h' : Later w₂ w₃) : Later w₁ w₃ :=
  ⟨h.now.trans h'.now, List.Subset.trans h.readings h'.readings⟩

theorem Elapsed.later (h : Elapsed w w') : Later w w' := ⟨h.now, by rw [h.readings]; exact fun _ mem => mem⟩

theorem Quoted.later {time : Timestamp} {r : RateResult} (h : Quoted d w time r) (later : Later w w') : Quoted d w' time r := by
  obtain ⟨reading, mem, rest⟩ := h
  exact ⟨reading, later.readings mem, rest⟩

theorem Kept.later {key : String} {entry : Entry} (h : Kept d w key entry) (later : Later w w') : Kept d w' key entry := by
  obtain ⟨r, time, quoted, rest⟩ := h
  exact ⟨r, time, quoted.later later, rest⟩

theorem Inv.elapsed (inv : Inv d w) (h : Elapsed w w') : Inv d w' := fun key entry here => (inv key entry (h.redis key entry here)).later h.later

theorem exec_later (h : exec op w ans w') : Later w w' := by
  cases op with
  | get key => exact h.1.later
  | set key value =>
    obtain ⟨w₁, elapsed, rfl | ⟨-, rfl⟩⟩ := h
    · exact ⟨elapsed.now, elapsed.later.readings⟩
    · exact elapsed.later
  | fetch url =>
    obtain ⟨w₁, elapsed, h⟩ := h
    cases (ans : FetchAnswer) with
    | body text clock =>
      obtain rfl := h
      exact ⟨elapsed.now, fun r mem => List.mem_cons_of_mem _ (elapsed.later.readings mem)⟩
    | _ =>
      obtain rfl := h
      exact elapsed.later

theorem Inv.exec (inv : Inv d w) (justified : Justified d w op) (h : Rates.exec op w ans w') : Inv d w' := by
  have later := exec_later h
  cases op with
  | get key => exact inv.elapsed h.1
  | set key value =>
    obtain ⟨w₁, elapsed, rfl | ⟨-, rfl⟩⟩ := h
    · intro other entry here
      dsimp only at here
      by_cases own : other = key
      · subst own
        rw [Function.update_self] at here
        cases here
        obtain ⟨r, time, quoted, before, same, text⟩ := justified
        exact ⟨r, time, quoted.later later, before.trans elapsed.now, same, text⟩
      · rw [Function.update_of_ne own] at here
        exact (inv other entry (elapsed.redis other entry here)).later later
    · exact inv.elapsed elapsed
  | fetch url =>
    obtain ⟨w₁, elapsed, h⟩ := h
    have kept := inv.elapsed elapsed
    cases (ans : FetchAnswer) with
    | body text clock =>
      obtain rfl := h
      intro key entry here
      exact (inv key entry (elapsed.redis key entry here)).later later
    | _ =>
      obtain rfl := h
      exact kept

end Exec

def discipline : Discipline (rates d) where
  Inv s := Inv d s.world
  Later s s' := Later s.world s'.world ∧ s.log ⊆ s'.log
  Justified s _ _ op := Justified d s.world op
  refl _ := ⟨⟨le_rfl, fun _ mem => mem⟩, fun _ mem => mem⟩
  trans h h' := ⟨h.1.trans h'.1, List.Subset.trans h.2 h'.2⟩
  step inv justified does := by
    refine ⟨inv.exec justified does.1, exec_later does.1, ?_⟩
    rw [does.2]
    exact List.subset_cons_self _ _

/-! ## One request -/

/-- The value is what the provider has answered to the request itself. -/
def Fresh (tid : Nat) (c : RatesController.Query) (from_ to_ : String) (v : Json) (s : RatesState) : Prop :=
  ∃ answer r, ⟨tid, c, .fetch (RatesService.providerUrl d from_ to_), answer⟩ ∈ s.log ∧ RatesService.rateOf d from_ to_ answer = .ok r ∧ v = r.json

/-- The value is read from the text of a result that is in Redis for the key, and has not expired there. -/
def Cached (key : String) (v : Json) (w : World) : Prop :=
  ∃ entry r time, w.redis key = some entry ∧ entry.Live w.now ∧ Quoted d w time r ∧ time ≤ entry.storedAt ∧ r.key = key ∧
    entry.value = jsonStringify r.json ∧ v = r.reread

def Post (tid : Nat) (c : RatesController.Query) (v : Json) (s : RatesState) : Prop :=
  ∃ from_ to_, c = ⟨some from_, some to_⟩ ∧ (Fresh d tid c from_ to_ v s ∨ Cached d (RatesService.cacheKey d from_ to_) v s.world)

section Calls

variable {d} {tid : Nat} {c : RatesController.Query} {s : RatesState}

/-- What is read from the cache is a result kept there. -/
theorem keeps_readCache {key : String} (inv : Inv d s.world) :
    (discipline d).Keeps tid c (fun cached s' => ∀ v, cached = some v → Cached d key v s'.world) (RatesService.readCache key) s := by
  refine Discipline.keeps_catch inv ?_ fun e s' _ _ => nofun
  refine Discipline.keeps_op (fun _ _ => trivial) fun s₁ ans s₂ _ done _ _ inv₂ => ?_
  obtain ⟨-, got⟩ := done
  refine Discipline.keeps_ofExcept fun cached read v same => ?_
  subst same
  cases got with
  | failed => cases read
  | missing => cases read
  | found entry here live =>
    obtain ⟨r, time, quoted, before, same, text⟩ := inv₂ key entry here
    have rounded : Rounded r.rate := by
      obtain ⟨reading, -, -, from_, to_, -, made⟩ := quoted
      exact (rateOf_ok made).2.2
    rw [text, parseCached_json rounded] at read
    obtain rfl := Option.some.inj (Except.ok.inj read)
    exact ⟨entry, r, time, here, live, quoted, before, same, text, rfl⟩

theorem key_of_rateOf {from_ to_ text : String} {clock : Timestamp} {r : RateResult}
    (made : RatesService.rateOf d from_ to_ (.body text clock) = .ok r) : r.key = RatesService.cacheKey d from_ to_ := by
  obtain ⟨base, symbol, -⟩ := rateOf_ok made
  rw [RateResult.key, base, symbol]
  rfl

theorem keeps_getRate {from_ to_ : String} (inv : Inv d s.world) :
    (discipline d).Keeps tid c (fun v s' => Fresh d tid c from_ to_ v s' ∨ Cached d (RatesService.cacheKey d from_ to_) v s'.world)
      (RatesService.getRate d from_ to_) s := by
  refine Discipline.keeps_bind (Protocol.safe_mono (keeps_readCache inv) fun cached s₁ hit => ?_)
  cases cached with
  | some v => exact .inr (hit v rfl)
  | none =>
    refine Discipline.keeps_bind (Discipline.keeps_op (fun _ _ => trivial) fun s₂ answer s₃ _ asked log _ inv₃ => ?_)
    refine Discipline.keeps_ofExcept fun r made => ?_
    have event : ⟨tid, c, Op.fetch (RatesService.providerUrl d from_ to_), answer⟩ ∈ s₃.log := by
      rw [log]
      exact List.mem_cons_self
    have fresh : ∀ s₄, (discipline d).Later s₃ s₄ → Fresh d tid c from_ to_ r.json s₄ :=
      fun s₄ later => ⟨answer, r, later.2 event, made, rfl⟩
    have quoted : ∃ time ≤ s₃.world.now, Quoted d s₃.world time r ∧ r.key = RatesService.cacheKey d from_ to_ := by
      obtain ⟨w, elapsed, asked⟩ := asked
      cases (answer : FetchAnswer) with
      | body text clock =>
        rw [asked]
        exact ⟨w.now, le_rfl, ⟨_, List.mem_cons_self, rfl, from_, to_, rfl, made⟩, key_of_rateOf made⟩
      | _ => cases made
    obtain ⟨time, before, quoted, key⟩ := quoted
    refine Discipline.keeps_bind (Discipline.keeps_catch (Q := fun _ s₄ => _) inv₃ ?_ fun e s₄ later _ => .inl (fresh s₄ later))
    refine Discipline.keeps_op (fun s₄ awaited => ?_) fun s₄ ans s₅ _ _ _ later _ => ?_
    · have later := awaited.later.1
      exact ⟨r, time, quoted.later later, before.trans later.now, key, rfl⟩
    · cases (ans : Bool) with
      | true => exact .inl (fresh s₅ later)
      | false => trivial

theorem keeps_request (inv : Inv d s.world) : (discipline d).Keeps tid c (Post d tid c) (RatesController.getRate d c) s := by
  obtain ⟨from_, to_⟩ := c
  cases from_ with
  | none => trivial
  | some from_ =>
    cases to_ with
    | none => trivial
    | some to_ =>
      refine Discipline.keeps_ite (fun _ => trivial) fun _ => ?_
      exact Protocol.safe_mono (keeps_getRate inv) fun v s' served => ⟨from_, to_, rfl, served⟩

end Calls

variable {d} in
theorem holds {cfg : RatesConfig} (run : Reachable d cfg) : (discipline d).protocol.Holds (Post d) cfg := by
  obtain ⟨now, steps⟩ := run
  have empty : Inv d (.initial now) := by rintro key entry ⟨⟩
  exact Discipline.holds empty (fun tid c s inv _ => keeps_request inv) steps

/-! ## All requests together -/

section Requests

variable {d} {cfg cfg' : RatesConfig}

/-- What follows when the cache gives nothing: a request of its own, and a write. -/
def miss (d : Deployment) (from_ to_ : String) : RatesProg Json :=
  .act (.fetch (RatesService.providerUrl d from_ to_)) fun answer =>
    match RatesService.rateOf d from_ to_ answer with
    | .error e => .fail e
    | .ok r => .act (.set (RatesService.cacheKey d from_ to_) (jsonStringify r.json)) fun _ => .ret r.json

theorem miss_eq (from_ to_ : String) : (do
    let result ← RatesService.fetchFromProvider d from_ to_
    RatesService.writeCache (RatesService.cacheKey d from_ to_) (jsonStringify result.json)
    return result.json : RatesProg Json) = miss d from_ to_ := by
  unfold RatesService.fetchFromProvider miss
  simp only [Prog.await_bind, Prog.act_bind]
  refine congrArg (Prog.act _) (funext fun answer => ?_)
  cases RatesService.rateOf d from_ to_ answer with
  | error e => rfl
  | ok r =>
    refine congrArg (Prog.act _) (funext fun stored => ?_)
    cases (stored : Bool) <;> rfl

theorem getRate_eq (from_ to_ : String) :
    RatesService.getRate d from_ to_ = .act (.get (RatesService.cacheKey d from_ to_)) fun cached =>
      match RatesService.parseCached cached with
      | .ok (some v) => .ret v
      | _ => miss d from_ to_ := by
  unfold RatesService.getRate
  simp only [miss_eq]
  refine congrArg (Prog.act _) (funext fun cached => ?_)
  show Prog.bind _ (Prog.catchWith _ (Prog.ofExcept (RatesService.parseCached cached))) = _
  cases RatesService.parseCached cached with
  | error e => rfl
  | ok v => cases v <;> rfl

/-- An exception that the provider's answer to the request is the reason of. -/
def Refused (d : Deployment) (c : RatesController.Query) (e : Exception) : (op : Op) → op.Answer → Prop
  | .fetch url, answer => ∃ from_ to_, c = ⟨some from_, some to_⟩ ∧ url = RatesService.providerUrl d from_ to_ ∧
      RatesService.rateOf d from_ to_ answer = .error e
  | _, _ => False

/-- A request throws only for its provider's answer. -/
theorem each_refused (c : RatesController.Query) :
    (RatesController.getRate d c).Each fun op next => ∀ ans e, next ans = .fail e → Refused d c e op ans := by
  obtain ⟨from_, to_⟩ := c
  cases from_ with
  | none => trivial
  | some from_ =>
    cases to_ with
    | none => trivial
    | some to_ =>
      have asks : (miss d from_ to_).Each fun op next => ∀ ans e, next ans = .fail e → Refused d ⟨some from_, some to_⟩ e op ans := by
        constructor
        · intro answer e thrown
          cases made : RatesService.rateOf d from_ to_ answer with
          | error e' =>
            simp only [made, Prog.fail.injEq] at thrown
            exact ⟨from_, to_, rfl, rfl, thrown ▸ made⟩
          | ok r => simp [made] at thrown
        · intro answer
          dsimp only
          cases RatesService.rateOf d from_ to_ answer with
          | error e => trivial
          | ok r => exact ⟨nofun, fun _ => trivial⟩
      unfold RatesController.getRate
      dsimp only
      split
      · trivial
      rw [getRate_eq]
      constructor
      · intro cached e thrown
        dsimp only at thrown
        split at thrown <;> cases thrown
      · intro cached
        dsimp only
        split
        · trivial
        · exact asks

/-- Where no code has a colon, the key tells which pair a result is for. -/
theorem pair_of_key {r : RateResult} {base symbol : String} (key : r.key = "rate:" ++ base ++ ":" ++ symbol)
    (plain : ':' ∉ base.toList) (plain' : ':' ∉ symbol.toList) : r.from_ = base ∧ r.to_ = symbol := by
  have chars : r.from_.toList ++ ':' :: r.to_.toList = base.toList ++ ':' :: symbol.toList := by
    have same := congrArg String.toList key
    simpa [RateResult.key, String.toList_append] using same
  -- there is one colon on either side
  have one := congrArg (List.count ':') chars
  simp only [List.count_append, List.count_cons_self, List.count_eq_zero.2 plain, List.count_eq_zero.2 plain'] at one
  have plain₁ : ':' ∉ r.from_.toList := List.count_eq_zero.1 (by omega)
  have first : ∀ {a b : List Char}, ':' ∉ a → (a ++ ':' :: b).takeWhile (· ≠ ':') = a := by
    intro a b none
    rw [List.takeWhile_append_of_pos fun c mem => by simpa using ne_of_mem_of_not_mem mem none]
    simp
  have same : r.from_.toList = base.toList := by
    rw [← first plain₁, chars, first plain]
  rw [same] at chars
  exact ⟨String.toList_inj.1 same, String.toList_inj.1 (List.cons.inj (List.append_cancel_left chars)).2⟩

/-- **A rate is the provider's, and at most a quarter of an hour old in the cache.** In any run
of any requests of any instances, whatever Redis does, a request that returns returns what the
provider has answered to it, or what is read from a live entry for its key, which is the text of a
result that the provider gave for this key and was set less than 15 minutes ago: the very same
result if its rate is finite, and for the same pair if the codes have no colon. A request that
throws after it began does so for the provider's answer to it. -/
theorem rates_served (run : Reachable d cfg) (step : (rates d).Step cfg cfg') {tid : Nat} {c : RatesController.Query} {op : Op}
    {next : op.Answer → RatesProg Json} (waiting : cfg.calls[tid]? = some (c, .act op next)) :
    (∀ v, cfg'.calls[tid]? = some (c, .ret v) → ∃ from_ to_, c = ⟨some from_, some to_⟩ ∧
      ((∃ answer r, ⟨tid, c, .fetch (RatesService.providerUrl d from_ to_), answer⟩ ∈ cfg'.shared.log ∧
          RatesService.rateOf d from_ to_ answer = .ok r ∧ v = r.json) ∨
        ∃ entry r time, cfg'.shared.world.redis (RatesService.cacheKey d from_ to_) = some entry ∧
          cfg'.shared.world.now < entry.storedAt + 900000 ∧ Quoted d cfg'.shared.world time r ∧ time ≤ entry.storedAt ∧
          r.key = RatesService.cacheKey d from_ to_ ∧ entry.value = jsonStringify r.json ∧ v = r.reread ∧ (∀ q, r.rate = .finite q → v = r.json) ∧
          (':' ∉ (d.toUpperCase from_).toList → ':' ∉ (d.toUpperCase to_).toList →
            r.from_ = d.toUpperCase from_ ∧ r.to_ = d.toUpperCase to_))) ∧
    ∀ e, cfg'.calls[tid]? = some (c, .fail e) → ∃ from_ to_, ∃ answer : FetchAnswer, c = ⟨some from_, some to_⟩ ∧
      cfg'.shared.log = ⟨tid, c, .fetch (RatesService.providerUrl d from_ to_), answer⟩ :: cfg.shared.log ∧
      RatesService.rateOf d from_ to_ answer = .error e := by
  constructor
  · intro v returned
    obtain ⟨from_, to_, rfl, fresh | ⟨entry, r, time, here, live, quoted, before, key, text, rfl⟩⟩ := (holds run).returns step waiting returned
    · exact ⟨from_, to_, rfl, .inl fresh⟩
    · refine ⟨from_, to_, rfl, .inr ⟨entry, r, time, here, live, quoted, before, key, text, rfl, fun q => RateResult.reread_finite, ?_⟩⟩
      exact pair_of_key key
  · intro e thrown
    obtain ⟨ans, is, log⟩ := step.ends waiting thrown trivial
    obtain ⟨now, steps⟩ := run
    have refused := (System.each_waiting each_refused steps waiting).1 ans e is.symm
    cases op with
    | fetch url =>
      obtain ⟨from_, to_, rfl, rfl, made⟩ := refused
      exact ⟨from_, to_, ans, rfl, log, made⟩
    | _ => exact refused.elim

end Requests

/-! ## A chosen run -/

/-- When an operation happens, and what the provider answers. Redis works and loses nothing. -/
inductive Choice where
  | clock (now : Timestamp)
  | answer (now : Timestamp) (text : String)

def effect : Effect Op Op.Answer World Choice
  | .clock now, .get key, w =>
    if w.now ≤ now then
      some (some ((w.redis key).bind fun entry => if now < entry.storedAt + 900000 then some entry.value else none), { w with now })
    else none
  | .clock now, .set key value, w =>
    if w.now ≤ now then some (true, { w with now, redis := Function.update w.redis key (some ⟨value, now⟩) }) else none
  | .answer now text, .fetch url, w =>
    if w.now ≤ now then some (.body text now, { w with now, readings := ⟨url, text, now, now⟩ :: w.readings }) else none
  | _, _, _ => none

theorem elapsed_clock {w : World} {now : Timestamp} (le : w.now ≤ now) : Elapsed w { w with now } := ⟨le, fun _ _ here => here, rfl⟩

theorem effect_exec (x : Choice) (op : Op) (w : World) (ans : op.Answer) (w' : World) (h : effect x op w = some (ans, w')) :
    exec op w ans w' := by
  unfold effect at h
  split at h
  · rename_i now key
    split at h
    · rename_i le
      cases h
      refine ⟨elapsed_clock le, ?_⟩
      cases here : w.redis key with
      | none => exact .missing fun entry is => by rw [show w.redis key = some entry from is] at here; cases here
      | some entry =>
        rw [Option.bind_some]
        split
        · rename_i live
          exact .found entry here live
        · rename_i expired
          exact .missing fun entry' is => by rw [show w.redis key = some entry' from is] at here; cases here; exact expired
    · cases h
  · rename_i now key value
    split at h
    · rename_i le
      cases h
      exact ⟨_, elapsed_clock le, .inl rfl⟩
    · cases h
  · rename_i now text url
    split at h
    · rename_i le
      cases h
      exact ⟨_, elapsed_clock le, rfl⟩
    · cases h
  · cases h

namespace Sample

def deployment : Deployment := ⟨"app", fun s => String.ofList (s.toList.map Char.toUpper), fun _ => "1970-01-01T00:00:01.000Z"⟩

def query : RatesController.Query := ⟨some "usd", some "ngn"⟩

/-- One request asks the provider; the next is about to look into the cache. -/
def asked : List (Scheduled RatesController.Query Choice) :=
  [.start query, .act 0 (.clock 900), .act 0 (.answer 1000 "\x7b\"rates\":\x7b\"NGN\":1550.25\x7d\x7d"), .act 0 (.clock 1100), .start query]

/-- Call 1 waits for an operation. -/
def waiting (cfg : RatesConfig) : Bool :=
  match (cfg.calls[1]? : Option (RatesController.Query × RatesProg Json)) with
  | some (_, .act _ _) => true
  | _ => false

/-- Call 1 has returned, without a request of its own to the provider. -/
def returned (cfg : RatesConfig) : Bool :=
  (match (cfg.calls[1]? : Option (RatesController.Query × RatesProg Json)) with
  | some (c, .ret _) => decide (c = query)
  | _ => false) && cfg.shared.log.all fun e => match e.op with
    | .fetch _ => decide (e.tid ≠ 1)
    | _ => true

theorem waiting_eq {cfg : RatesConfig} (h : waiting cfg = true) : ∃ c op next, cfg.calls[1]? = some (c, .act op next) := by
  unfold waiting at h
  split at h
  · rename_i c op next here
    exact ⟨c, op, next, here⟩
  · cases h

theorem returned_eq {cfg : RatesConfig} (h : returned cfg = true) :
    (∃ v, cfg.calls[1]? = some (query, .ret v)) ∧ ∀ url answer,
      (⟨1, query, .fetch url, answer⟩ : Event RatesController.Query Op Op.Answer) ∉ cfg.shared.log := by
  obtain ⟨ended, quiet⟩ := Bool.and_eq_true_iff.1 h
  constructor
  · split at ended
    · rename_i c v here
      obtain rfl := of_decide_eq_true ended
      exact ⟨v, here⟩
    · cases ended
  · intro url answer mem
    have other := List.all_eq_true.1 quiet _ mem
    simp at other

end Sample

/-- The second request is answered from the cache, the moment before the entry expires. -/
theorem rates_served_sample : ∃ (cfg' : RatesConfig) (v : Json) (entry : Entry) (r : RateResult),
    cfg'.calls[1]? = some (Sample.query, .ret v) ∧ cfg'.shared.world.redis "rate:USD:NGN" = some entry ∧
      entry.value = jsonStringify r.json ∧ r.key = "rate:USD:NGN" ∧ v = r.reread := by
  have ran : (((rates Sample.deployment).replay effect Sample.asked (.initial (.initial 0))).any fun cfg => Sample.waiting cfg &&
      ((rates Sample.deployment).after effect cfg (.act 1 (.clock 900000))).any Sample.returned) = true := by decide +kernel
  obtain ⟨cfg, ran, both⟩ := (Option.any_eq_true _ _).1 ran
  obtain ⟨waits, later⟩ := Bool.and_eq_true_iff.1 both
  obtain ⟨cfg', stepped, returned⟩ := (Option.any_eq_true _ _).1 later
  obtain ⟨c, op, next, waiting⟩ := Sample.waiting_eq waits
  obtain ⟨⟨v, returned⟩, quiet⟩ := Sample.returned_eq returned
  have step := System.after_step effect_exec stepped
  obtain ⟨p, stays⟩ := System.call_stays (.single step) waiting
  obtain rfl : Sample.query = c := congrArg Prod.fst (Option.some.inj (returned.symm.trans stays))
  obtain ⟨from_, to_, query, asked | cached⟩ := (rates_served ⟨0, System.replay_steps effect_exec ran⟩ step waiting).1 v returned
  · obtain ⟨answer, r, mem, -⟩ := asked
    exact (quiet _ _ mem).elim
  · obtain ⟨rfl, rfl⟩ : "usd" = from_ ∧ "ngn" = to_ := by simpa [Sample.query] using query
    have key : RatesService.cacheKey Sample.deployment "usd" "ngn" = "rate:USD:NGN" := by decide +kernel
    obtain ⟨entry, r, time, here, -, -, -, same, text, reread, -⟩ := cached
    rw [key] at here same
    exact ⟨cfg', v, entry, r, returned, here, text, same, reread⟩

end AfriPay.Rates
