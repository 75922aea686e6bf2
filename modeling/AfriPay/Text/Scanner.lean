import Mathlib.Data.List.Basic

/-!
# Scanners

A reader that goes through its input symbol by symbol, in one pass, and may refuse
one. What it has read so far is in its state, so a text written piece by piece is read
back piece by piece (`feed_flatMap`), and what a step keeps holds of whatever has
been read (`feed_invariant`).
-/

namespace AfriPay.Text

structure Scanner (σ α ρ : Type) where
  step : σ → α → Option σ
  finish : σ → Option ρ

namespace Scanner

variable {σ α β ρ : Type} (T : Scanner σ α ρ)

/-- The state after some symbols. -/
def feed (s : σ) (xs : List α) : Option σ := xs.foldlM T.step s

/-- What a whole input reads as. -/
def read (s : σ) (xs : List α) : Option ρ := (T.feed s xs).bind T.finish

@[simp] theorem feed_nil (s : σ) : T.feed s [] = some s := rfl

@[simp] theorem feed_cons (s : σ) (x : α) (xs : List α) : T.feed s (x :: xs) = (T.step s x).bind fun t => T.feed t xs := rfl

theorem feed_append (s : σ) (xs ys : List α) : T.feed s (xs ++ ys) = (T.feed s xs).bind fun t => T.feed t ys :=
  List.foldlM_append

/-- Reading on after a part that has been read. -/
theorem feed_append_of {s t : σ} {xs : List α} (reads : T.feed s xs = some t) (ys : List α) : T.feed s (xs ++ ys) = T.feed t ys := by
  rw [feed_append, reads, Option.bind_some]

/-- If one item is read back wherever an item may stand, so is a list of them. -/
theorem feed_flatMap {write : β → List α} {after : List β → σ} {items : List β}
    (one : ∀ done, ∀ b ∈ items, T.feed (after done) (write b) = some (after (done ++ [b]))) (done : List β) :
    T.feed (after done) (items.flatMap write) = some (after (done ++ items)) := by
  induction items generalizing done with
  | nil => simp
  | cons b bs ih =>
    have rest := ih (fun done b mem => one done b (List.mem_cons_of_mem _ mem)) (done ++ [b])
    rw [List.flatMap_cons, T.feed_append_of (one done b List.mem_cons_self), rest, List.append_assoc]
    rfl

/-- What every step keeps holds after any input that is not refused. -/
theorem feed_invariant {Inv : σ → Prop} {ok : α → Prop} (keeps : ∀ {s x t}, ok x → Inv s → T.step s x = some t → Inv t) {xs : List α} {s t : σ}
    (all : ∀ x ∈ xs, ok x) (before : Inv s) (reads : T.feed s xs = some t) : Inv t := by
  induction xs generalizing s with
  | nil => exact Option.some.inj reads ▸ before
  | cons x xs ih =>
    obtain ⟨u, stepped, reads⟩ := Option.bind_eq_some_iff.1 reads
    exact ih (fun y mem => all y (List.mem_cons_of_mem _ mem)) (keeps (all x List.mem_cons_self) before stepped) reads

end Scanner

end AfriPay.Text
