import Mathlib.Data.List.Nodup
import Mathlib.Data.List.Lookmap

/-!
# Maps in insertion order

JavaScript's `Map`: keys are distinct, `set` on a present key replaces its value
in place, `set` on a new key appends, and `values` lists the values in that
order. Distinctness of the keys is part of the type.
-/

namespace AfriPay.Storage

structure OrderedMap (κ β : Type) where
  entries : List (κ × β)
  nodup : (entries.map Prod.fst).Nodup

namespace OrderedMap

variable {κ β : Type} [DecidableEq κ]

def empty : OrderedMap κ β := ⟨[], List.nodup_nil⟩

def get (m : OrderedMap κ β) (k : κ) : Option β :=
  (m.entries.find? fun e => e.1 = k).map Prod.snd

def values (m : OrderedMap κ β) : List β := m.entries.map Prod.snd

/-- The entry `e` with its value replaced if its key is `k`. -/
def replace (k : κ) (v : β) (e : κ × β) : κ × β := if e.1 = k then (k, v) else e

theorem replace_fst (k : κ) (v : β) (e : κ × β) : (replace k v e).1 = e.1 := by
  unfold replace
  split
  · rename_i same; exact same.symm
  · rfl

theorem map_replace_keys (k : κ) (v : β) (es : List (κ × β)) :
    (es.map (replace k v)).map Prod.fst = es.map Prod.fst := by
  simp [replace_fst, Function.comp_def]

def set (m : OrderedMap κ β) (k : κ) (v : β) : OrderedMap κ β :=
  if present : k ∈ m.entries.map Prod.fst then
    ⟨m.entries.map (replace k v), by rw [map_replace_keys]; exact m.nodup⟩
  else
    ⟨m.entries ++ [(k, v)], by
      rw [List.map_append, List.nodup_append]
      refine ⟨m.nodup, List.nodup_singleton _, fun a ha b hb same => present ?_⟩
      obtain rfl : b = k := List.mem_singleton.1 hb
      exact same ▸ ha⟩

theorem find_replace (k j : κ) (v : β) (es : List (κ × β)) (present : k ∈ es.map Prod.fst) :
    ((es.map (replace k v)).find? fun e => e.1 = j).map Prod.snd =
      if j = k then some v else (es.find? fun e => e.1 = j).map Prod.snd := by
  induction es with
  | nil => cases present
  | cons e es ih =>
    by_cases here : e.1 = k
    · by_cases hj : j = k
      · simp [replace, here, hj]
      · have hjk : ¬ k = j := fun h => hj h.symm
        by_cases later : k ∈ es.map Prod.fst
        · simpa [replace, here, hj, hjk] using ih later
        · have rest : es.map (replace k v) = es := by
            refine (List.map_congr_left fun e' mem => ?_).trans (List.map_id es)
            refine if_neg fun h : e'.1 = k => later ?_
            exact h ▸ List.mem_map_of_mem mem
          simp [replace, here, hj, hjk, rest]
    · have later : k ∈ es.map Prod.fst := by
        rcases List.mem_cons.1 present with h | h
        · exact (here h.symm).elim
        · exact h
      by_cases hj : e.1 = j
      · have : ¬ j = k := fun h => here (hj.trans h)
        simp [replace, hj, this]
      · simpa [replace, here, hj] using ih later

theorem get_set (m : OrderedMap κ β) (k j : κ) (v : β) :
    (m.set k v).get j = if j = k then some v else m.get j := by
  unfold set
  split
  · rename_i present
    exact find_replace k j v m.entries present
  · rename_i absent
    simp only [get, List.find?_append, Option.map_or]
    by_cases hj : j = k
    · have : m.entries.find? (fun e => decide (e.1 = k)) = none := by
        refine List.find?_eq_none.2 fun e mem => ?_
        simpa using fun h : e.1 = k => absent (h ▸ List.mem_map_of_mem mem)
      simp [hj, this]
    · simp [hj, Ne.symm hj]

@[simp] theorem get_set_self (m : OrderedMap κ β) (k : κ) (v : β) : (m.set k v).get k = some v := by
  rw [get_set, if_pos rfl]

theorem get_set_ne (m : OrderedMap κ β) {k j : κ} (v : β) (ne : j ≠ k) : (m.set k v).get j = m.get j := by
  rw [get_set, if_neg ne]

theorem find_of_mem {es : List (κ × β)} (nodup : (es.map Prod.fst).Nodup) {e : κ × β} (mem : e ∈ es) :
    es.find? (fun e' => e'.1 = e.1) = some e := by
  induction es with
  | nil => cases mem
  | cons e' es ih =>
    rw [List.map_cons, List.nodup_cons] at nodup
    rcases List.mem_cons.1 mem with rfl | mem
    · simp
    · have : ¬ e'.1 = e.1 := fun h => nodup.1 (h ▸ List.mem_map_of_mem mem)
      simpa [this] using ih nodup.2 mem

theorem mem_entries_iff (m : OrderedMap κ β) {k : κ} {v : β} : (k, v) ∈ m.entries ↔ m.get k = some v := by
  constructor
  · intro mem
    simp [get, find_of_mem m.nodup mem]
  · intro h
    obtain ⟨⟨k', v'⟩, found, rfl⟩ := Option.map_eq_some_iff.1 h
    obtain rfl : k' = k := by simpa using List.find?_some found
    exact List.mem_of_find?_eq_some found

theorem mem_values_iff (m : OrderedMap κ β) {v : β} : v ∈ m.values ↔ ∃ k, m.get k = some v := by
  constructor
  · intro mem
    obtain ⟨⟨k, v'⟩, entry, rfl⟩ := List.mem_map.1 mem
    exact ⟨k, (mem_entries_iff m).1 entry⟩
  · rintro ⟨k, h⟩
    exact List.mem_map.2 ⟨(k, v), (mem_entries_iff m).2 h, rfl⟩

/-! ## Size, and entries that are dropped -/

/-- `m.size` -/
def size (m : OrderedMap κ β) : Nat := m.entries.length

/-- `for (const [key, value] of m) if (!keep(value)) m.delete(key)` -/
def keepWhere (m : OrderedMap κ β) (keep : β → Bool) : OrderedMap κ β :=
  ⟨m.entries.filter fun e => keep e.2, m.nodup.sublist (List.filter_sublist.map Prod.fst)⟩

omit [DecidableEq κ] in
theorem size_keepWhere_le (m : OrderedMap κ β) (keep : β → Bool) : (m.keepWhere keep).size ≤ m.size := List.length_filter_le ..

theorem get_keepWhere (m : OrderedMap κ β) (keep : β → Bool) (k : κ) : (m.keepWhere keep).get k = (m.get k).filter keep := by
  cases here : m.get k with
  | none =>
    rw [Option.filter_none]
    cases kept : (m.keepWhere keep).get k with
    | none => rfl
    | some v =>
      have mem := ((mem_entries_iff _).2 kept : (k, v) ∈ m.entries.filter fun e => keep e.2)
      rw [(mem_entries_iff m).1 (List.mem_filter.1 mem).1] at here
      cases here
  | some v =>
    have mem := (mem_entries_iff m).2 here
    by_cases kept : keep v = true
    · rw [Option.filter_some_pos kept]
      exact (mem_entries_iff _).1 (List.mem_filter.2 ⟨mem, kept⟩)
    · rw [Option.filter_some_neg (Bool.not_eq_true _ ▸ kept)]
      cases other : (m.keepWhere keep).get k with
      | none => rfl
      | some v' =>
        have mem' := ((mem_entries_iff _).2 other : (k, v') ∈ m.entries.filter fun e => keep e.2)
        obtain rfl : v = v' := Option.some.inj (here.symm.trans ((mem_entries_iff m).1 (List.mem_filter.1 mem').1))
        exact (kept (List.mem_filter.1 mem').2).elim

/-- `m.delete(k)` -/
def delete (m : OrderedMap κ β) (k : κ) : OrderedMap κ β :=
  ⟨m.entries.filter fun e => e.1 ≠ k, m.nodup.sublist (List.filter_sublist.map Prod.fst)⟩

@[simp] theorem get_delete_self (m : OrderedMap κ β) (k : κ) : (m.delete k).get k = none := by
  cases here : (m.delete k).get k with
  | none => rfl
  | some v =>
    have mem := ((mem_entries_iff _).2 here : (k, v) ∈ m.entries.filter fun e => e.1 ≠ k)
    exact absurd rfl (of_decide_eq_true (List.mem_filter.1 mem).2)

theorem get_delete_ne (m : OrderedMap κ β) {k j : κ} (ne : j ≠ k) : (m.delete k).get j = m.get j := by
  have found : (m.entries.filter fun e => e.1 ≠ k).find? (fun e => e.1 = j) = m.entries.find? fun e => e.1 = j := by
    rw [List.find?_filter]
    congr 1
    funext e
    by_cases here : e.1 = j
    · simp [here, ne]
    · simp [here]
  exact congrArg (Option.map Prod.snd) found

theorem mem_keys_of_get {m : OrderedMap κ β} {k : κ} {v : β} (here : m.get k = some v) : k ∈ m.entries.map Prod.fst :=
  List.mem_map.2 ⟨(k, v), (mem_entries_iff m).2 here, rfl⟩

theorem size_set_present {m : OrderedMap κ β} {k : κ} {v : β} (here : m.get k = some v) (w : β) : (m.set k w).size = m.size := by
  unfold set size
  rw [dif_pos (mem_keys_of_get here), List.length_map]

theorem size_set_le (m : OrderedMap κ β) (k : κ) (v : β) : (m.set k v).size ≤ m.size + 1 := by
  unfold set size
  split
  · rw [List.length_map]
    exact Nat.le_succ _
  · exact Nat.le_of_eq (List.length_append ..)

end OrderedMap

end AfriPay.Storage
