import Mathlib.Data.List.Count
import Mathlib.Order.Basic

/-!
# Counting in fixed windows

Events are counted in windows of one length, a window being named by the time at
which it closes. If each admits so many, an interval of that length, which meets
two windows at most, has twice as many.
-/

namespace AfriPay.Ledger

variable {ε : Type}

/-- When an event happens, the window it is counted in, and whether it is admitted. -/
structure Counting (ε : Type) where
  time : ε → Nat
  window : ε → Option Nat
  admitted : ε → Bool

namespace Counting

variable (v : Counting ε)

/-- How many events are admitted from `s` on, for so long. -/
def admittedIn (s length : Nat) (log : List ε) : Nat :=
  log.countP fun e => v.admitted e && decide (s ≤ v.time e) && decide (v.time e < s + length)

/-- How many events are admitted in a window. -/
def admittedTo (w : Nat) (log : List ε) : Nat := log.countP fun e => v.admitted e && decide (v.window e = some w)

/-- Windows of this length that do not overlap, each with so many admitted events. -/
structure Fixed (length limit : Nat) (log : List ε) : Prop where
  admits : ∀ e ∈ log, v.admitted e = true → v.window e ≠ none
  inside : ∀ e ∈ log, ∀ w, v.window e = some w → v.time e < w ∧ w ≤ v.time e + length
  apart : ∀ e ∈ log, ∀ e' ∈ log, ∀ w w', v.window e = some w → v.window e' = some w' → w = w' ∨ w + length ≤ w' ∨ w' + length ≤ w
  limited : ∀ w, v.admittedTo w log ≤ limit

section Fixed

variable {v} {length limit : Nat} {log : List ε} {e : ε}

theorem Fixed.empty : v.Fixed length limit [] :=
  ⟨fun _ mem => absurd mem List.not_mem_nil, fun _ mem => absurd mem List.not_mem_nil, fun _ mem => absurd mem List.not_mem_nil,
    fun _ => Nat.zero_le limit⟩

theorem admittedTo_cons (w : Nat) :
    v.admittedTo w (e :: log) = v.admittedTo w log + if v.admitted e = true ∧ v.window e = some w then 1 else 0 := by
  simp [admittedTo, List.countP_cons]

/-- Admitted events of one window are within its limit. -/
theorem Fixed.one_window (fixed : v.Fixed length limit log) {p : ε → Bool} (admitted : ∀ e ∈ log, p e = true → v.admitted e = true)
    (one : ∀ e ∈ log, ∀ e' ∈ log, p e = true → p e' = true → v.window e = v.window e') : log.countP p ≤ limit := by
  by_cases any : ∃ e ∈ log, p e = true
  · obtain ⟨e, mem, here⟩ := any
    obtain ⟨w, window⟩ := Option.ne_none_iff_exists'.1 (fixed.admits e mem (admitted e mem here))
    refine Nat.le_trans (List.countP_mono_left fun e' mem' here' => ?_) (fixed.limited w)
    rw [Bool.and_eq_true, decide_eq_true_eq, ← window]
    exact ⟨admitted e' mem' here', one e' mem' e mem here' here⟩
  · have none : log.countP p = 0 := List.countP_eq_zero.2 fun e mem here => any ⟨e, mem, here⟩
    omega

/-- **Twice the limit**, over any interval of a window's length. -/
theorem Fixed.sliding (fixed : v.Fixed length limit log) (s : Nat) : v.admittedIn s length log ≤ 2 * limit := by
  -- the windows that close up to `s + length`, and those that close later
  let early (e : ε) : Bool := (v.window e).any fun w => decide (w ≤ s + length)
  have split : v.admittedIn s length log =
      log.countP (fun e => (v.admitted e && decide (s ≤ v.time e) && decide (v.time e < s + length)) && early e) +
      log.countP fun e => (v.admitted e && decide (s ≤ v.time e) && decide (v.time e < s + length)) && !early e := by
    unfold admittedIn
    rw [List.countP_eq_length_filter, List.length_eq_countP_add_countP early, List.countP_filter, List.countP_filter]
    simp only [Bool.and_comm, Bool.not_eq_true, Bool.decide_eq_false]
  have facts : ∀ e ∈ log, (v.admitted e && decide (s ≤ v.time e) && decide (v.time e < s + length)) = true →
      v.admitted e = true ∧ ∃ w, v.window e = some w ∧ s < w ∧ w < s + length + length := by
    intro e mem here
    simp only [Bool.and_eq_true, decide_eq_true_eq] at here
    obtain ⟨w, window⟩ := Option.ne_none_iff_exists'.1 (fixed.admits e mem here.1.1)
    obtain ⟨opened, closes⟩ := fixed.inside e mem w window
    exact ⟨here.1.1, w, window, by omega, by omega⟩
  have first : log.countP (fun e => (v.admitted e && decide (s ≤ v.time e) && decide (v.time e < s + length)) && early e) ≤ limit := by
    refine fixed.one_window (fun e mem here => ?_) fun e mem e' mem' here here' => ?_
    · exact (facts e mem (Bool.and_eq_true_iff.1 here).1).1
    · obtain ⟨-, w, window, low, -⟩ := facts e mem (Bool.and_eq_true_iff.1 here).1
      obtain ⟨-, w', window', low', -⟩ := facts e' mem' (Bool.and_eq_true_iff.1 here').1
      have top : w ≤ s + length := by simpa [early, window] using (Bool.and_eq_true_iff.1 here).2
      have top' : w' ≤ s + length := by simpa [early, window'] using (Bool.and_eq_true_iff.1 here').2
      have apart := fixed.apart e mem e' mem' w w' window window'
      rw [window, window', show w = w' by omega]
  have second : log.countP (fun e => (v.admitted e && decide (s ≤ v.time e) && decide (v.time e < s + length)) && !early e) ≤ limit := by
    refine fixed.one_window (fun e mem here => ?_) fun e mem e' mem' here here' => ?_
    · exact (facts e mem (Bool.and_eq_true_iff.1 here).1).1
    · obtain ⟨-, w, window, -, high⟩ := facts e mem (Bool.and_eq_true_iff.1 here).1
      obtain ⟨-, w', window', -, high'⟩ := facts e' mem' (Bool.and_eq_true_iff.1 here').1
      have bottom : s + length < w := by simpa [early, window] using (Bool.and_eq_true_iff.1 here).2
      have bottom' : s + length < w' := by simpa [early, window'] using (Bool.and_eq_true_iff.1 here').2
      have apart := fixed.apart e mem e' mem' w w' window window'
      rw [window, window', show w = w' by omega]
  omega

/-- From the event that opened a window on, for as long as it lasts, the limit holds. -/
theorem Fixed.from_opening (fixed : v.Fixed length limit log) (mem : e ∈ log) (opened : v.window e = some (v.time e + length)) :
    v.admittedIn (v.time e) length log ≤ limit := by
  have same : ∀ x ∈ log, (v.admitted x && decide (v.time e ≤ v.time x) && decide (v.time x < v.time e + length)) = true →
      v.admitted x = true ∧ v.window x = v.window e := by
    intro x memx here
    simp only [Bool.and_eq_true, decide_eq_true_eq] at here
    obtain ⟨w, window⟩ := Option.ne_none_iff_exists'.1 (fixed.admits x memx here.1.1)
    obtain ⟨before, closes⟩ := fixed.inside x memx w window
    have apart := fixed.apart x memx e mem w _ window opened
    rw [window, opened, show w = v.time e + length by omega]
    exact ⟨here.1.1, rfl⟩
  exact fixed.one_window (fun x memx here => (same x memx here).1) fun x memx x' memx' here here' =>
    (same x memx here).2.trans (same x' memx' here').2.symm

/-- An event that is counted nowhere. -/
theorem Fixed.idle (fixed : v.Fixed length limit log) (refused : v.admitted e = false) (nowhere : v.window e = none) :
    v.Fixed length limit (e :: log) := by
  have old : ∀ x ∈ e :: log, ∀ w, v.window x = some w → x ∈ log := by
    intro x mem w window
    rcases List.mem_cons.1 mem with rfl | mem
    · rw [nowhere] at window
      cases window
    · exact mem
  constructor
  · intro x mem admitted
    rcases List.mem_cons.1 mem with rfl | mem
    · rw [refused] at admitted
      cases admitted
    · exact fixed.admits x mem admitted
  · intro x mem w window
    exact fixed.inside x (old x mem w window) w window
  · intro x mem x' mem' w w' window window'
    exact fixed.apart x (old x mem w window) x' (old x' mem' w' window') w w' window window'
  · intro w
    rw [admittedTo_cons, if_neg (by rw [refused]; exact fun h => Bool.false_ne_true h.1)]
    exact fixed.limited w

/-- An event that is counted in the latest window. -/
theorem Fixed.counted {w : Nat} (fixed : v.Fixed length limit log) (window : v.window e = some w)
    (inside : v.time e < w ∧ w ≤ v.time e + length) (latest : ∀ x ∈ log, ∀ w', v.window x = some w' → w' = w ∨ w' + length ≤ w)
    (room : v.admitted e = true → v.admittedTo w log < limit) : v.Fixed length limit (e :: log) := by
  constructor
  · intro x mem admitted
    rcases List.mem_cons.1 mem with rfl | mem
    · rw [window]
      exact nofun
    · exact fixed.admits x mem admitted
  · intro x mem w' window'
    rcases List.mem_cons.1 mem with rfl | mem
    · obtain rfl := Option.some.inj (window.symm.trans window')
      exact inside
    · exact fixed.inside x mem w' window'
  · intro x mem x' mem' w₁ w₂ window₁ window₂
    rcases List.mem_cons.1 mem with new | old
    · obtain rfl : w = w₁ := Option.some.inj (window.symm.trans (new ▸ window₁))
      rcases List.mem_cons.1 mem' with new' | old'
      · exact .inl (Option.some.inj (window.symm.trans (new' ▸ window₂)))
      · rcases latest x' old' w₂ window₂ with same | earlier
        · exact .inl same.symm
        · exact .inr (.inr earlier)
    · rcases List.mem_cons.1 mem' with new' | old'
      · obtain rfl : w = w₂ := Option.some.inj (window.symm.trans (new' ▸ window₂))
        rcases latest x old w₁ window₁ with same | earlier
        · exact .inl same
        · exact .inr (.inl earlier)
      · exact fixed.apart x old x' old' w₁ w₂ window₁ window₂
  · intro w'
    rw [admittedTo_cons]
    split
    · rename_i here
      obtain rfl := Option.some.inj (window.symm.trans here.2)
      exact room here.1
    · exact fixed.limited w'

end Fixed

end Counting

end AfriPay.Ledger
