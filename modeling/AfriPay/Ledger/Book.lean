import Mathlib.Logic.Function.Basic

/-!
# Books of entries that are claimed and then settled

An entry is opened with its details, claimed at most for one token and settled
at most with one outcome. Over arbitrary keys, details, tokens and outcomes:
which moves there are, that a move only ever adds to an entry, that no two
entries come to hold one token, and where a token or an outcome came from.
-/

namespace AfriPay.Ledger

structure Entry (D T O : Type) where
  details : D
  token : Option T
  outcome : Option O

/-- Entries by key. -/
abbrev Book (κ D T O : Type) := κ → Option (Entry D T O)

/-- What one operation may do to a book. -/
inductive Move (κ D T O : Type) where
  | idle
  | opened (k : κ) (d : D)
  | claimed (k : κ) (t : T)
  | settled (k : κ) (t : T) (o : O)

variable {κ D T O : Type}

namespace Entry

/-- `e'` keeps all that `e` has. -/
structure Le (e e' : Entry D T O) : Prop where
  details : e'.details = e.details
  token : ∀ t, e.token = some t → e'.token = some t
  outcome : ∀ o, e.outcome = some o → e'.outcome = some o

theorem Le.refl (e : Entry D T O) : e.Le e := ⟨rfl, fun _ h => h, fun _ h => h⟩

theorem Le.trans {e₁ e₂ e₃ : Entry D T O} (h : e₁.Le e₂) (h' : e₂.Le e₃) : e₁.Le e₃ :=
  ⟨h'.details.trans h.details, fun t ht => h'.token t (h.token t ht), fun o ho => h'.outcome o (h.outcome o ho)⟩

end Entry

namespace Book

/-- Every entry stays and keeps what it has. -/
def Le (b b' : Book κ D T O) : Prop := ∀ k e, b k = some e → ∃ e', b' k = some e' ∧ e.Le e'

/-- No token is held by two entries. -/
def Distinct (b : Book κ D T O) : Prop :=
  ∀ i j e e' t, b i = some e → b j = some e' → e.token = some t → e'.token = some t → i = j

theorem Le.refl (b : Book κ D T O) : b.Le b := fun _ e h => ⟨e, h, .refl e⟩

theorem Le.trans {b₁ b₂ b₃ : Book κ D T O} (h : b₁.Le b₂) (h' : b₂.Le b₃) : b₁.Le b₃ := by
  intro k e he
  obtain ⟨e', he', le⟩ := h k e he
  obtain ⟨e'', he'', le'⟩ := h' k e' he'
  exact ⟨e'', he'', le.trans le'⟩

variable [DecidableEq κ]

/-- The book with a new entry, still neither claimed nor settled. -/
def opened (b : Book κ D T O) (k : κ) (d : D) : Book κ D T O := Function.update b k (some ⟨d, none, none⟩)

def claimed (b : Book κ D T O) (k : κ) (t : T) : Book κ D T O :=
  Function.update b k ((b k).map fun e => { e with token := some t })

def settled (b : Book κ D T O) (k : κ) (o : O) : Book κ D T O :=
  Function.update b k ((b k).map fun e => { e with outcome := some o })

/-- The moves: a key is opened once, a token is claimed for an entry that has
no other and is held by no other entry, and only a claimed entry is settled,
once. -/
inductive Moves (b : Book κ D T O) : Move κ D T O → Book κ D T O → Prop where
  | idle : Moves b .idle b
  | opened {k : κ} {d : D} (fresh : b k = none) : Moves b (.opened k d) (b.opened k d)
  | claimed {k : κ} {t : T} {e : Entry D T O} (here : b k = some e) (mine : ∀ t', e.token = some t' → t' = t)
      (free : ∀ j e', b j = some e' → e'.token = some t → j = k) : Moves b (.claimed k t) (b.claimed k t)
  | settled {k : κ} {t : T} {o : O} {e : Entry D T O} (here : b k = some e) (held : e.token = some t)
      (unsettled : e.outcome = none) : Moves b (.settled k t o) (b.settled k o)

/-- What an entry of the book after a move was before it. -/
theorem Moves.origin {b b' : Book κ D T O} {m : Move κ D T O} (h : b.Moves m b') {k : κ} {e' : Entry D T O}
    (after : b' k = some e') :
    b k = some e' ∨ (∃ d, m = .opened k d ∧ b k = none ∧ e' = ⟨d, none, none⟩) ∨
      (∃ t e, m = .claimed k t ∧ b k = some e ∧ e' = { e with token := some t }) ∨
      (∃ t o e, m = .settled k t o ∧ b k = some e ∧ e.token = some t ∧ e' = { e with outcome := some o }) := by
  cases h with
  | idle => exact .inl after
  | @opened j d fresh =>
    by_cases same : k = j
    · subst same
      simp only [Book.opened, Function.update_self, Option.some.injEq] at after
      exact .inr (.inl ⟨d, rfl, fresh, after.symm⟩)
    · exact .inl (by rwa [Book.opened, Function.update_of_ne same] at after)
  | @claimed j t e here mine free =>
    by_cases same : k = j
    · subst same
      simp only [Book.claimed, Function.update_self, here, Option.map_some, Option.some.injEq] at after
      exact .inr (.inr (.inl ⟨t, e, rfl, here, after.symm⟩))
    · exact .inl (by rwa [Book.claimed, Function.update_of_ne same] at after)
  | @settled j t o e here held unsettled =>
    by_cases same : k = j
    · subst same
      simp only [Book.settled, Function.update_self, here, Option.map_some, Option.some.injEq] at after
      exact .inr (.inr (.inr ⟨t, o, e, rfl, here, held, after.symm⟩))
    · exact .inl (by rwa [Book.settled, Function.update_of_ne same] at after)

/-- Updating an entry by one that keeps what it has. -/
theorem le_update {b : Book κ D T O} {k : κ} {new : Option (Entry D T O)}
    (keeps : ∀ e, b k = some e → ∃ e', new = some e' ∧ e.Le e') : b.Le (Function.update b k new) := by
  intro j e he
  by_cases same : j = k
  · subst same
    obtain ⟨e', rfl, le⟩ := keeps e he
    exact ⟨e', Function.update_self .., le⟩
  · exact ⟨e, by rw [Function.update_of_ne same, he], .refl e⟩

/-- A move adds to the book and takes nothing from it. -/
theorem Moves.le {b b' : Book κ D T O} {m : Move κ D T O} (h : b.Moves m b') : b.Le b' := by
  cases h with
  | idle => exact .refl b
  | opened fresh => exact le_update fun e he => by rw [fresh] at he; cases he
  | @claimed k t e here mine free =>
    refine le_update fun e' he' => ⟨{ e' with token := some t }, by rw [he']; rfl, rfl, ?_, fun _ h => h⟩
    intro t' ht'
    obtain rfl : e = e' := Option.some.inj (here.symm.trans he')
    rw [mine t' ht']
  | @settled k t o e here held unsettled =>
    refine le_update fun e' he' => ⟨{ e' with outcome := some o }, by rw [he']; rfl, rfl, fun _ h => h, ?_⟩
    intro o' ho'
    obtain rfl : e = e' := Option.some.inj (here.symm.trans he')
    rw [unsettled] at ho'
    cases ho'

/-- A token an entry holds after a move it held before, or the move claimed it. -/
theorem Moves.token_origin {b b' : Book κ D T O} {m : Move κ D T O} (h : b.Moves m b') {k : κ} {e' : Entry D T O}
    {t : T} (after : b' k = some e') (held : e'.token = some t) :
    (∃ e, b k = some e ∧ e.token = some t ∧ e.details = e'.details) ∨
      (∃ e, m = .claimed k t ∧ b k = some e ∧ e.details = e'.details) := by
  rcases h.origin after with before | ⟨d, -, -, rfl⟩ | ⟨t', e, rfl, before, rfl⟩ | ⟨t', o, e, -, before, -, rfl⟩
  · exact .inl ⟨e', before, held, rfl⟩
  · cases held
  · obtain rfl : t' = t := Option.some.inj held
    exact .inr ⟨e, rfl, before, rfl⟩
  · exact .inl ⟨e, before, held, rfl⟩

/-- An outcome an entry has after a move it had before, or the move settled it. -/
theorem Moves.outcome_origin {b b' : Book κ D T O} {m : Move κ D T O} (h : b.Moves m b') {k : κ} {e' : Entry D T O}
    {o : O} (after : b' k = some e') (has : e'.outcome = some o) :
    (∃ e, b k = some e ∧ e.outcome = some o) ∨ (∃ t, m = .settled k t o ∧ e'.token = some t) := by
  rcases h.origin after with before | ⟨d, -, -, rfl⟩ | ⟨t', e, rfl, before, rfl⟩ | ⟨t, o', e, rfl, before, held, rfl⟩
  · exact .inl ⟨e', before, has⟩
  · cases has
  · exact .inl ⟨e, before, has⟩
  · obtain rfl : o' = o := Option.some.inj has
    exact .inr ⟨t, rfl, held⟩

/-- No move makes two entries hold one token. -/
theorem Moves.distinct {b b' : Book κ D T O} {m : Move κ D T O} (h : b.Moves m b') (distinct : b.Distinct) :
    b'.Distinct := by
  intro i j ei ej t hi hj ti tj
  rcases h.token_origin hi ti with ⟨e, he, ht, -⟩ | ⟨e, rfl, -⟩ <;>
    rcases h.token_origin hj tj with ⟨e', he', ht', -⟩ | ⟨e', hm, -⟩
  · exact distinct i j e e' t he he' ht ht'
  · subst hm
    cases h with
    | claimed here mine free => exact free i e he ht
  · cases h with
    | claimed here mine free => exact (free j e' he' ht').symm
  · cases hm
    rfl

/-- Either nothing happened or the move did. -/
def May (m : Move κ D T O) (b b' : Book κ D T O) : Prop := b' = b ∨ b.Moves m b'

theorem May.le {b b' : Book κ D T O} {m : Move κ D T O} (h : May m b b') : b.Le b' := by
  rcases h with rfl | h
  · exact .refl b'
  · exact h.le

theorem May.distinct {b b' : Book κ D T O} {m : Move κ D T O} (h : May m b b') (distinct : b.Distinct) :
    b'.Distinct := by
  rcases h with rfl | h
  · exact distinct
  · exact h.distinct distinct

theorem May.token_origin {b b' : Book κ D T O} {m : Move κ D T O} (h : May m b b') {k : κ} {e' : Entry D T O}
    {t : T} (after : b' k = some e') (held : e'.token = some t) :
    (∃ e, b k = some e ∧ e.token = some t ∧ e.details = e'.details) ∨
      (∃ e, m = .claimed k t ∧ b k = some e ∧ e.details = e'.details) := by
  rcases h with rfl | h
  · exact .inl ⟨e', after, held, rfl⟩
  · exact h.token_origin after held

theorem May.outcome_origin {b b' : Book κ D T O} {m : Move κ D T O} (h : May m b b') {k : κ} {e' : Entry D T O}
    {o : O} (after : b' k = some e') (has : e'.outcome = some o) :
    (∃ e, b k = some e ∧ e.outcome = some o) ∨ (∃ t, m = .settled k t o ∧ e'.token = some t) := by
  rcases h with rfl | h
  · exact .inl ⟨e', after, has⟩
  · exact h.outcome_origin after has

end Book

end AfriPay.Ledger
