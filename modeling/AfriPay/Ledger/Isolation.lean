import Mathlib.Data.List.Basic

/-!
# Parties that do not notice each other

A machine answers requests one after another. A party has a view of its state
and a part of the requests that concern it. Where what concerns it is answered,
and changes the view, according to the view alone, and nothing else changes the
view, the party gets the answers it would get if nobody else were there.
-/

namespace AfriPay.Ledger

variable {σ I O V : Type}

/-- The answers to a list of requests, each with its request, and the state they lead to. -/
def answersTo (next : I → σ → O × σ) : List I → σ → List (I × O) × σ
  | [], s => ([], s)
  | i :: rest, s =>
    let (o, s') := next i s
    let (answers, last) := answersTo next rest s'
    ((i, o) :: answers, last)

/-- What a party sees of the states of `next` that satisfy `Inv`. -/
structure View (next : I → σ → O × σ) (Inv : σ → Prop) (V : Type) where
  see : σ → V
  concerns : I → Bool
  inv : ∀ {i s}, Inv s → Inv (next i s).2
  own : ∀ {i s s'}, Inv s → Inv s' → concerns i = true → see s = see s' →
    (next i s).1 = (next i s').1 ∧ see (next i s).2 = see (next i s').2
  others : ∀ {i s}, Inv s → concerns i = false → see (next i s).2 = see s

namespace View

variable {next : I → σ → O × σ} {Inv : σ → Prop} (v : View next Inv V)

/-- What the party is answered. -/
def answers (requests : List I) (s : σ) : List (I × O) := (answersTo next requests s).1.filter fun a => v.concerns a.1


/-- **The others may as well not be there.** -/
theorem alone (requests : List I) {s s' : σ} (inv : Inv s) (inv' : Inv s') (same : v.see s = v.see s') :
    v.answers requests s = (answersTo next (requests.filter v.concerns) s').1 ∧
      v.see (answersTo next requests s).2 = v.see (answersTo next (requests.filter v.concerns) s').2 := by
  induction requests generalizing s s' with
  | nil => exact ⟨rfl, same⟩
  | cons i rest ih =>
    cases own : v.concerns i with
    | true =>
      obtain ⟨answer, seen⟩ := v.own inv inv' own same
      obtain ⟨answers, last⟩ := ih (v.inv inv) (v.inv inv') seen
      rw [List.filter_cons_of_pos own]
      refine ⟨?_, last⟩
      show List.filter _ ((i, (next i s).1) :: _) = (i, (next i s').1) :: _
      rw [List.filter_cons_of_pos (p := fun a : I × O => v.concerns a.1) own, answer]
      exact congrArg _ answers
    | false =>
      have seen := (v.others inv own).trans same
      obtain ⟨answers, last⟩ := ih (v.inv inv) inv' seen
      rw [List.filter_cons_of_neg (by simp [own])]
      refine ⟨?_, last⟩
      show List.filter _ ((i, (next i s).1) :: _) = _
      rw [List.filter_cons_of_neg (p := fun a : I × O => v.concerns a.1) (by simp [own])]
      exact answers

/-- Two courses of events with the same requests of the party are the same to it. -/
theorem alike {requests requests' : List I} {s : σ} (inv : Inv s) (same : requests.filter v.concerns = requests'.filter v.concerns) :
    v.answers requests s = v.answers requests' s ∧ v.see (answersTo next requests s).2 = v.see (answersTo next requests' s).2 := by
  obtain ⟨answers, last⟩ := v.alone requests inv inv rfl
  obtain ⟨answers', last'⟩ := v.alone requests' inv inv rfl
  rw [answers, last, answers', last', same]
  exact ⟨rfl, rfl⟩

end View

end AfriPay.Ledger
