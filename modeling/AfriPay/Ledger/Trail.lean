import AfriPay.Ledger.Register

/-!
# Trails

Every event does something to at most one record of a register. What becomes of
a record is then told by the events about it, whatever happens to the others in
between.
-/

namespace AfriPay.Ledger

variable {ε κ ρ : Type}

/-- What the events about one key, newest first, have made of its record. -/
inductive Trail (Does : ε → Option ρ → ρ → Prop) : List ε → Option ρ → Prop where
  | nil : Trail Does [] none
  | cons {e : ε} {log : List ε} {before : Option ρ} {after : ρ} (earlier : Trail Does log before) (does : Does e before after) :
      Trail Does (e :: log) (some after)

/-- A key with an event has a record. -/
theorem Trail.some {Does : ε → Option ρ → ρ → Prop} {log : List ε} {o : Option ρ} (trail : Trail Does log o) (events : log ≠ []) :
    ∃ r, o = .some r := by
  cases trail with
  | nil => exact (events rfl).elim
  | @cons e log before after earlier does => exact ⟨after, rfl⟩

/-- The first event opens the record and no later one does. What it says of the record stays true. -/
theorem Trail.opening {Does : ε → Option ρ → ρ → Prop} {opens : ε → Bool} {Says : ε → ρ → Prop} {log : List ε} {o : Option ρ}
    (first : ∀ e r, Does e none r → opens e = true ∧ Says e r)
    (later : ∀ e r r', Does e (.some r) r' → opens e = false ∧ ∀ x, Says x r → Says x r')
    (trail : Trail Does log o) {r : ρ} (here : o = .some r) : ∃ x, log.filter opens = [x] ∧ Says x r := by
  induction trail generalizing r with
  | nil => cases here
  | @cons e log before after earlier does ih =>
    cases here
    cases before with
    | none =>
      -- a record that is opened has no events before
      cases earlier
      obtain ⟨opened, holds⟩ := first e after does
      exact ⟨e, List.filter_cons_of_pos opened, holds⟩
    | some r =>
      obtain ⟨other, kept⟩ := later e r after does
      obtain ⟨x, only, holds⟩ := ih rfl
      refine ⟨x, ?_, kept x holds⟩
      rw [List.filter_cons_of_neg (by simp [other])]
      exact only

variable [DecidableEq κ]

/-- The events about `k`. -/
def about (key : ε → Option κ) (k : κ) (log : List ε) : List ε := log.filter fun e => key e = some k

/-- One event, and the register before and after it. -/
inductive Deals (key : ε → Option κ) (Does : ε → Option ρ → ρ → Prop) (e : ε) (b : Register κ ρ) : Register κ ρ → Prop where
  | idle (other : key e = none) : Deals key Does e b b
  | does {k : κ} {r : ρ} (own : key e = some k) (does : Does e (b k) r) : Deals key Does e b (Function.update b k (some r))

variable {key : ε → Option κ} {Does : ε → Option ρ → ρ → Prop} {e : ε} {log : List ε} {b b' : Register κ ρ} {k : κ}

/-- Every record is what the events about it have made of it. -/
def Traced (key : ε → Option κ) (Does : ε → Option ρ → ρ → Prop) (log : List ε) (b : Register κ ρ) : Prop :=
  ∀ k, Trail Does (about key k log) (b k)

theorem about_own (own : key e = some k) : about key k (e :: log) = e :: about key k log := by
  simp [about, own]

theorem about_other (other : key e ≠ some k) : about key k (e :: log) = about key k log := by
  simp [about, other]

/-- The events of a sort that come with a key, among those about it. -/
theorem filter_about {sort own : ε → Bool} (key : ε → Option κ) (k : κ) (log : List ε)
    (split : ∀ e, sort e = (own e && decide (key e = some k))) : log.filter sort = (about key k log).filter own := by
  unfold about
  rw [List.filter_filter]
  exact List.filter_congr fun e _ => split e

theorem Traced.initial : Traced key Does [] (fun _ => none) := fun _ => .nil

theorem Deals.traced (h : Deals key Does e b b') (traced : Traced key Does log b) : Traced key Does (e :: log) b' := by
  intro k
  cases h with
  | idle other =>
    rw [about_other (by rw [other]; exact nofun)]
    exact traced k
  | @does j r own does =>
    by_cases same : k = j
    · subst same
      rw [about_own own, Function.update_self]
      exact .cons (traced k) does
    · have other : key e ≠ some k := by
        rw [own]
        exact fun h => same (Option.some.inj h).symm
      rw [about_other other, Function.update_of_ne same]
      exact traced k

/-- Records stay, up to what every event keeps of them. -/
theorem Deals.le {Kept : ρ → ρ → Prop} (refl : ∀ r, Kept r r) (kept : ∀ r r', Does e (some r) r' → Kept r r')
    (h : Deals key Does e b b') : Register.Le Kept b b' := by
  intro k r here
  cases h with
  | idle => exact ⟨r, here, refl r⟩
  | @does j r' own does =>
    by_cases same : k = j
    · subst same
      rw [here] at does
      exact ⟨r', Function.update_self .., kept r r' does⟩
    · exact ⟨r, by rw [Function.update_of_ne same, here], refl r⟩

/-- An event about one record leaves the others alone. -/
theorem Deals.other (h : Deals key Does e b b') (other : key e ≠ some k) : b' k = b k := by
  cases h with
  | idle => rfl
  | @does j r own does =>
    have ne : k ≠ j := by
      rintro rfl
      exact other own
    exact Function.update_of_ne ne ..

end AfriPay.Ledger
