import Mathlib.Data.List.Basic
import Mathlib.Data.List.Pairwise

/-!
# SQL tables with unique indexes

A table is a list of rows no two of which clash, where `clash` says that two
rows agree on a unique index. `insert` and `update` are single statements: they
succeed as a whole, or a unique violation leaves the table as it was. That the
indexes are enforced is part of the type.
-/

namespace AfriPay.Storage

structure Table (ρ : Type) (clash : ρ → ρ → Bool) where
  rows : List ρ
  distinct : rows.Pairwise fun a b => clash a b = false

namespace Table

variable {ρ : Type} {clash : ρ → ρ → Bool}

def empty : Table ρ clash := ⟨[], List.Pairwise.nil⟩

/-- The first row a `WHERE` clause selects. -/
def find (t : Table ρ clash) (cond : ρ → Bool) : Option ρ := t.rows.find? cond

/-- `INSERT`: `none` on a unique violation. -/
def insert (t : Table ρ clash) (r : ρ) : Option (Table ρ clash) :=
  if free : ∀ a ∈ t.rows, clash a r = false then
    some ⟨t.rows ++ [r], List.pairwise_append.2 ⟨t.distinct, List.pairwise_singleton _ _,
      fun a ha b hb => by rw [List.mem_singleton.1 hb]; exact free a ha⟩⟩
  else none

/-- The row `r` after `SET` if `WHERE` selects it. -/
def assign (cond : ρ → Bool) (set : ρ → ρ) (r : ρ) : ρ := if cond r then set r else r

/-- `UPDATE ... SET ... WHERE ...`: `none` on a unique violation. -/
def update (t : Table ρ clash) (cond : ρ → Bool) (set : ρ → ρ) : Option (Table ρ clash) :=
  if free : (t.rows.map (assign cond set)).Pairwise fun a b => clash a b = false then some ⟨_, free⟩ else none

theorem mem_insert {t t' : Table ρ clash} {r : ρ} (h : t.insert r = some t') {a : ρ} :
    a ∈ t'.rows ↔ a ∈ t.rows ∨ a = r := by
  unfold insert at h
  split at h
  · cases h; simp
  · cases h

/-- An inserted row clashes with no row that was there. -/
theorem insert_free {t t' : Table ρ clash} {r : ρ} (h : t.insert r = some t') {a : ρ} (ha : a ∈ t.rows) :
    clash a r = false := by
  unfold insert at h
  split at h
  · rename_i free; exact free a ha
  · cases h

theorem insert_rows {t t' : Table ρ clash} {r : ρ} (h : t.insert r = some t') : t'.rows = t.rows ++ [r] := by
  unfold insert at h
  split at h
  · cases h; rfl
  · cases h

theorem update_rows {t t' : Table ρ clash} {cond : ρ → Bool} {set : ρ → ρ} (h : t.update cond set = some t') :
    t'.rows = t.rows.map (assign cond set) := by
  unfold update at h
  split at h
  · cases h; rfl
  · cases h

/-- Two rows that agree on a unique index are the same row. -/
theorem unique (t : Table ρ clash) (symm : ∀ a b, clash a b = clash b a) {a b : ρ} (ha : a ∈ t.rows)
    (hb : b ∈ t.rows) (same : clash a b = true) : a = b := by
  by_contra ne
  have : Std.Symm fun a b => clash a b = false := ⟨fun a b h => (symm b a).trans h⟩
  simp [t.distinct.forall ha hb ne] at same

theorem mem_of_find {t : Table ρ clash} {cond : ρ → Bool} {r : ρ} (h : t.find cond = some r) :
    r ∈ t.rows ∧ cond r = true :=
  ⟨List.mem_of_find?_eq_some h, List.find?_some h⟩

theorem find_eq_none_iff {t : Table ρ clash} {cond : ρ → Bool} :
    t.find cond = none ↔ ∀ r ∈ t.rows, cond r = false := by
  simp [find]

/-- A selected row, when the clause selects by a unique index. -/
theorem find_eq_some {t : Table ρ clash} {cond : ρ → Bool} {r : ρ} (mem : r ∈ t.rows) (sel : cond r = true)
    (only : ∀ a ∈ t.rows, cond a = true → a = r) : t.find cond = some r := by
  cases h : t.find cond with
  | none => exact absurd sel (by simp [find_eq_none_iff.1 h r mem])
  | some a => rw [only a (mem_of_find h).1 (mem_of_find h).2]

/-- Selecting by a column that an update leaves alone. -/
theorem find_update {κ : Type} [DecidableEq κ] {t t' : Table ρ clash} {cond : ρ → Bool} {set : ρ → ρ}
    (h : t.update cond set = some t') (key : ρ → κ) (kept : ∀ r, key (set r) = key r) (k : κ) :
    t'.find (fun r => key r = k) = (t.find fun r => key r = k).map (assign cond set) := by
  have same : ∀ r, key (assign cond set r) = key r := by
    intro r
    unfold assign
    split
    · exact kept r
    · rfl
  rw [find, update_rows h, List.find?_map, find]
  congr 2
  funext r
  simp [same r]

theorem find_insert {κ : Type} [DecidableEq κ] {t t' : Table ρ clash} {r : ρ} (h : t.insert r = some t')
    (key : ρ → κ) (k : κ) :
    t'.find (fun a => key a = k) = (t.find fun a => key a = k).or (if key r = k then some r else none) := by
  rw [find, insert_rows h, List.find?_append, find]
  by_cases same : key r = k <;> simp [same]

/-- An update succeeds if it makes no two rows clash. -/
theorem update_of_free {t : Table ρ clash} {cond : ρ → Bool} {set : ρ → ρ}
    (free : ∀ a ∈ t.rows, ∀ b ∈ t.rows, clash a b = false → clash (assign cond set a) (assign cond set b) = false) :
    ∃ t', t.update cond set = some t' := by
  have distinct : (t.rows.map (assign cond set)).Pairwise fun a b => clash a b = false := by
    rw [List.pairwise_map]
    exact t.distinct.imp_of_mem fun ha hb apart => free _ ha _ hb apart
  exact ⟨_, dif_pos distinct⟩

/-- An insertion succeeds if the row clashes with none. -/
theorem insert_of_free {t : Table ρ clash} {r : ρ} (free : ∀ a ∈ t.rows, clash a r = false) : ∃ t', t.insert r = some t' :=
  ⟨_, dif_pos free⟩

/-- A clause that selects one row returns it once. -/
theorem filter_eq_singleton {t : Table ρ clash} {cond : ρ → Bool} {r : ρ} (self : clash r r = true) (mem : r ∈ t.rows)
    (sel : cond r = true) (only : ∀ a ∈ t.rows, cond a = true → a = r) : t.rows.filter cond = [r] := by
  obtain ⟨before, after, rows⟩ := List.append_of_mem mem
  have distinct := t.distinct
  rw [rows, List.pairwise_append, List.pairwise_cons] at distinct
  obtain ⟨-, ⟨tail, -⟩, head⟩ := distinct
  have none : ∀ a ∈ before ++ after, cond a = false := by
    intro a ha
    by_contra selected
    rw [Bool.not_eq_false] at selected
    rcases List.mem_append.1 ha with ha | ha
    · have apart := head a ha r List.mem_cons_self
      rw [only a (by rw [rows]; exact List.mem_append_left _ ha) selected, self] at apart
      cases apart
    · have apart := tail a ha
      rw [only a (by rw [rows]; exact List.mem_append_right _ (List.mem_cons_of_mem _ ha)) selected, self] at apart
      cases apart
  have beforeNone : before.filter cond = [] := List.filter_eq_nil_iff.2 fun a ha => by simp [none a (List.mem_append_left _ ha)]
  have afterNone : after.filter cond = [] := List.filter_eq_nil_iff.2 fun a ha => by simp [none a (List.mem_append_right _ ha)]
  rw [rows, List.filter_append, List.filter_cons_of_pos sel, beforeNone, afterNone, List.nil_append]

/-- An update that selects no row leaves the table as it is. -/
theorem update_none {t : Table ρ clash} {cond : ρ → Bool} {set : ρ → ρ} (none : ∀ r ∈ t.rows, cond r = false) :
    t.update cond set = some t := by
  have same : t.rows.map (assign cond set) = t.rows := by
    refine (List.map_congr_left fun r mem => ?_).trans (List.map_id _)
    exact if_neg (by simp [none r mem])
  have distinct : (t.rows.map (assign cond set)).Pairwise fun a b => clash a b = false := by
    rw [same]
    exact t.distinct
  rw [update, dif_pos distinct]
  congr

end Table

end AfriPay.Storage
