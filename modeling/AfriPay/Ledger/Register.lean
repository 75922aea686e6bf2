import Mathlib.Logic.Function.Basic

/-!
# Registers of named records

Records stand under keys and carry names. A change opens a record under a fresh
key and a free name, or revises a record in place; what it may open and how it
may revise are parameters. Names stay unique, and records stay up to what their
revisions keep.
-/

namespace AfriPay.Ledger

/-- Records by key. -/
abbrev Register (κ ρ : Type) := κ → Option ρ

namespace Register

variable {κ ρ σ ν : Type}

/-- Every record stays, up to what `Kept` keeps of it. -/
def Le (Kept : ρ → ρ → Prop) (b b' : Register κ ρ) : Prop := ∀ k r, b k = some r → ∃ r', b' k = some r' ∧ Kept r r'

/-- No two keys have records of one name. -/
def Unique (name : ρ → ν) (b : Register κ ρ) : Prop :=
  ∀ i j r r', b i = some r → b j = some r' → name r = name r' → i = j

theorem Le.refl {Kept : ρ → ρ → Prop} (kept : ∀ r, Kept r r) (b : Register κ ρ) : Le Kept b b :=
  fun _ r here => ⟨r, here, kept r⟩

theorem Le.trans {Kept : ρ → ρ → Prop} (kept : ∀ {r₁ r₂ r₃}, Kept r₁ r₂ → Kept r₂ r₃ → Kept r₁ r₃) {b₁ b₂ b₃ : Register κ ρ}
    (h : Le Kept b₁ b₂) (h' : Le Kept b₂ b₃) : Le Kept b₁ b₃ := by
  intro k r here
  obtain ⟨r', here', le⟩ := h k r here
  obtain ⟨r'', here'', le'⟩ := h' k r' here'
  exact ⟨r'', here'', kept le le'⟩

variable [DecidableEq κ]

/-- What holds of every record and of the one that is written holds of every record afterwards. -/
theorem forall_update {P : κ → ρ → Prop} {b : Register κ ρ} {k : κ} {r : ρ} (all : ∀ j r', b j = some r' → P j r') (new : P k r) :
    ∀ j r', Function.update b k (some r) j = some r' → P j r' := by
  intro j r' after
  by_cases same : j = k
  · subst same
    rw [Function.update_self] at after
    cases after
    exact new
  · rw [Function.update_of_ne same] at after
    exact all j r' after

/-- One change: `Opens k r` and `Revises k r r'` say what may be opened and revised. -/
inductive Change (name : ρ → ν) (Opens : κ → ρ → Prop) (Revises : κ → ρ → ρ → Prop) (b : Register κ ρ) : Register κ ρ → Prop where
  | same : Change name Opens Revises b b
  | opened {k : κ} {r : ρ} (fresh : b k = none) (free : ∀ j r', b j = some r' → name r' ≠ name r) (opens : Opens k r) :
      Change name Opens Revises b (Function.update b k (some r))
  | revised {k : κ} {r r' : ρ} (here : b k = some r) (revises : Revises k r r') :
      Change name Opens Revises b (Function.update b k (some r'))

namespace Change

variable {name : ρ → ν} {Opens : κ → ρ → Prop} {Revises : κ → ρ → ρ → Prop} {b b' : Register κ ρ}

/-- Where a record after a change came from. -/
theorem origin (h : Change name Opens Revises b b') {k : κ} {r' : ρ} (after : b' k = some r') :
    b k = some r' ∨ (b k = none ∧ Opens k r') ∨ ∃ r, b k = some r ∧ Revises k r r' := by
  cases h with
  | same => exact .inl after
  | @opened j r fresh free opens =>
    by_cases same : k = j
    · subst same
      rw [Function.update_self] at after
      cases after
      exact .inr (.inl ⟨fresh, opens⟩)
    · exact .inl (by rwa [Function.update_of_ne same] at after)
  | @revised j r r₁ here revises =>
    by_cases same : k = j
    · subst same
      rw [Function.update_self] at after
      cases after
      exact .inr (.inr ⟨r, here, revises⟩)
    · exact .inl (by rwa [Function.update_of_ne same] at after)

/-- A change that revises only as `Kept` allows takes no record away. -/
theorem le {Kept : ρ → ρ → Prop} (refl : ∀ r, Kept r r) (kept : ∀ k r r', b k = some r → Revises k r r' → Kept r r')
    (h : Change name Opens Revises b b') : Le Kept b b' := by
  intro k r here
  cases h with
  | same => exact ⟨r, here, refl r⟩
  | @opened j r₁ fresh free opens =>
    have other : k ≠ j := by
      rintro rfl
      rw [fresh] at here
      cases here
    exact ⟨r, by rw [Function.update_of_ne other, here], refl r⟩
  | @revised j r₀ r₁ here₀ revises =>
    by_cases same : k = j
    · subst same
      obtain rfl : r = r₀ := Option.some.inj (here.symm.trans here₀)
      exact ⟨r₁, Function.update_self .., kept k r r₁ here revises⟩
    · exact ⟨r, by rw [Function.update_of_ne same, here], refl r⟩

/-- Names stay unique when revisions keep them. -/
theorem unique (kept : ∀ k r r', b k = some r → Revises k r r' → name r' = name r) (h : Change name Opens Revises b b')
    (unique : b.Unique name) : b'.Unique name := by
  -- every record after the change has the name of one that was there, or the new, free name
  cases h with
  | same => exact unique
  | @opened l r₀ fresh free opens =>
    intro i j r r' hi hj same
    rw [Function.update_apply] at hi hj
    split at hi <;> split at hj
    · rename_i hi' hj'; rw [hi', hj']
    · cases hi; exact (free j r' hj same.symm).elim
    · cases hj; exact (free i r hi same).elim
    · exact unique i j r r' hi hj same
  | @revised l r₀ r₁ here revises =>
    intro i j r r' hi hj same
    have named := kept l r₀ r₁ here revises
    rw [Function.update_apply] at hi hj
    split at hi <;> split at hj
    · rename_i hi' hj'; rw [hi', hj']
    · rename_i hi' _; cases hi
      rw [hi']
      exact unique l j r₀ r' here hj (named.symm.trans same)
    · rename_i _ hj'; cases hj
      rw [hj']
      exact unique i l r r₀ hi here (same.trans named)
    · exact unique i j r r' hi hj same

/-- A change of a finer register, seen through `f`. -/
theorem map {name' : σ → ν} {Opens' : κ → σ → Prop} {Revises' : κ → σ → σ → Prop} (f : ρ → σ)
    (named : ∀ r, name' (f r) = name r) (opens : ∀ k r, Opens k r → Opens' k (f r))
    (revises : ∀ k r r', Revises k r r' → Revises' k (f r) (f r')) (h : Change name Opens Revises b b') :
    Change name' Opens' Revises' (fun k => (b k).map f) (fun k => (b' k).map f) := by
  have update : ∀ k r, (fun j => (Function.update b k (some r) j).map f) = Function.update (fun j => (b j).map f) k (some (f r)) := by
    intro k r
    funext j
    by_cases same : j = k
    · subst same; simp
    · simp [Function.update_of_ne same]
  cases h with
  | same => exact .same
  | @opened k r fresh free open' =>
    rw [update]
    refine .opened (by simp [fresh]) ?_ (opens k r open')
    intro j r' here same
    obtain ⟨r₀, here₀, rfl⟩ := Option.map_eq_some_iff.1 here
    exact free j r₀ here₀ (by rw [← named, same, named])
  | @revised k r r' here revise =>
    rw [update]
    exact .revised (r := f r) (by simp [here]) (revises k r r' revise)

end Change

end Register

end AfriPay.Ledger
