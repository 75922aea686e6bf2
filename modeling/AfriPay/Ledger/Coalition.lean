import AfriPay.Ledger.Ballot

/-!
# What a coalition of members can have executed

Of a vote's members only those of a coalition still sign. The approvals a ballot
may then come to have do not change (`Step.support`), so it is never executed if
they are too few.
-/

namespace AfriPay.Ledger

variable {ε κ δ α : Type} [DecidableEq α]

/-- How many of the members belong to the coalition. -/
def strength (members : List α) (coalition : α → Bool) : Nat := members.countP coalition

/-- How many approvals the ballot has when all of the coalition have given theirs. -/
def Ballot.support (members : List α) (coalition : α → Bool) (r : Ballot δ α) : Nat :=
  r.approvals.length + members.countP fun a => coalition a && !decide (a ∈ r.approvals)

/-- One of the counted is no longer counted. -/
theorem countP_without {members : List α} (distinct : members.Nodup) {a : α} (member : a ∈ members) {q : α → Bool} (counted : q a = true) :
    members.countP (fun x => q x && !decide (x = a)) + 1 = members.countP q := by
  induction members with
  | nil => cases member
  | cons b rest ih =>
    obtain ⟨fresh, distinct⟩ := List.nodup_cons.1 distinct
    by_cases same : b = a
    · subst same
      have others : rest.countP (fun x => q x && !decide (x = b)) = rest.countP q := by
        apply List.countP_congr
        intro x mem
        have ne : x ≠ b := by
          rintro rfl
          exact fresh mem
        simp [ne]
      simp only [List.countP_cons, counted, decide_true, Bool.not_true, Bool.and_false, others]
      simp
    · have rest' : a ∈ rest := by
        rcases List.mem_cons.1 member with here | there
        · exact (same here.symm).elim
        · exact there
      have smaller := ih distinct rest'
      simp only [List.countP_cons, same, decide_false, Bool.not_false, Bool.and_true]
      omega

namespace Ballot

variable {members : List α} {coalition : α → Bool} {r : Ballot δ α}

theorem length_le_support : r.approvals.length ≤ r.support members coalition := Nat.le_add_right ..

/-- An approval from the coalition was counted on. -/
theorem support_approved (distinct : members.Nodup) {a : α} (member : a ∈ members) (ally : coalition a = true) (first : a ∉ r.approvals) :
    ({ r with approvals := r.approvals ++ [a] } : Ballot δ α).support members coalition = r.support members coalition := by
  have counted : (coalition a && !decide (a ∈ r.approvals)) = true := by simp [ally, first]
  have fewer := countP_without distinct member (q := fun x => coalition x && !decide (x ∈ r.approvals)) counted
  have same : (members.countP fun x => coalition x && !decide (x ∈ r.approvals ++ [a])) =
      members.countP fun x => (coalition x && !decide (x ∈ r.approvals)) && !decide (x = a) := by
    apply List.countP_congr
    intro x _
    simp [and_assoc]
  simp only [support, List.length_append, List.length_singleton]
  rw [same]
  omega

/-- Who opens a ballot approves it. -/
theorem support_opened (distinct : members.Nodup) {a : α} (member : a ∈ members) (ally : coalition a = true) (d : δ) :
    (⟨d, [a], false⟩ : Ballot δ α).support members coalition = strength members coalition := by
  have fewer := countP_without distinct member ally
  have same : (members.countP fun x => coalition x && !decide (x ∈ [a])) = members.countP fun x => coalition x && !decide (x = a) := by
    apply List.countP_congr
    intro x _
    simp
  simp only [support, strength, List.length_singleton]
  rw [same]
  omega

/-- The approvals the coalition has yet to give complete the support. -/
theorem support_eq_length : (r.approvals ++ members.filter fun a => coalition a && !decide (a ∈ r.approvals)).length =
    r.support members coalition := by
  rw [List.length_append, support, List.countP_eq_length_filter]

end Ballot

namespace Voting

variable [DecidableEq κ] {v : Voting ε κ δ α} {members : List α} {coalition : α → Bool} {e : ε} {b b' : Register κ (Ballot δ α)}
  {k : κ} {r' : Ballot δ α}

/-- Of the members, only those of the coalition have signed the event. -/
def SignedWithin (v : Voting ε κ δ α) (coalition : α → Bool) (e : ε) : Prop := ∀ a, v.Member a → v.Signed e a → coalition a = true

/-- What an event of the coalition may have made of a ballot. -/
inductive Supported (v : Voting ε κ δ α) (members : List α) (coalition : α → Bool) (before : Option (Ballot δ α)) (r' : Ballot δ α) : Prop where
  | kept {r : Ballot δ α} (here : before = some r) (details : r'.details = r.details)
      (same : r'.support members coalition = r.support members coalition) (frozen : r.executed = true → r'.executed = true)
      (executed : r'.executed = true → r.executed = true ∨ v.threshold ≤ r.support members coalition)
  | opened (fresh : before = none) (strong : r'.support members coalition = strength members coalition)
      (executed : r'.executed = true → v.threshold ≤ strength members coalition)

omit [DecidableEq κ] in
theorem Supported.refl {before : Option (Ballot δ α)} (here : before = some r') : v.Supported members coalition before r' :=
  .kept here rfl rfl id .inl

/-- **What one event of the coalition makes of the ballots.** -/
theorem Step.support (step : v.Step e b b') (distinct : members.Nodup) (known : ∀ a, v.Member a ↔ a ∈ members)
    (within : v.SignedWithin coalition e) (here : b' k = some r') : v.Supported members coalition (b k) r' := by
  have old : b k = some r' → v.Supported members coalition (b k) r' := .refl
  cases step with
  | same => exact old here
  | @opened j d a deed signed member fresh =>
    by_cases same : k = j
    · subst same
      rw [Function.update_self] at here
      cases here
      refine .opened fresh ?_ (by rintro ⟨⟩)
      exact Ballot.support_opened distinct ((known a).1 member) (within a member signed) d
    · rw [Function.update_of_ne same] at here
      exact old here
  | @approved j r a deed signed member there pending first =>
    by_cases same : k = j
    · subst same
      rw [Function.update_self] at here
      cases here
      refine .kept there rfl ?_ id .inl
      exact Ballot.support_approved distinct ((known a).1 member) (within a member signed) first
    · rw [Function.update_of_ne same] at here
      exact old here
  | @executed j r deed there pending enough =>
    by_cases same : k = j
    · subst same
      rw [Function.update_self] at here
      cases here
      exact .kept there rfl rfl (fun _ => rfl) fun _ => .inr (Nat.le_trans enough Ballot.length_le_support)
    · rw [Function.update_of_ne same] at here
      exact old here

omit [DecidableEq κ] in
/-- The events of the coalition, one after another. -/
theorem Supported.trans {before : Option (Ballot δ α)} {mid : Option (Ballot δ α)}
    (h : ∀ r, mid = some r → v.Supported members coalition before r) (gone : mid = none → before = none)
    (h' : v.Supported members coalition mid r') : v.Supported members coalition before r' := by
  cases h' with
  | @kept r here details same frozen executed =>
    cases h r here with
    | kept here₀ details₀ same₀ frozen₀ executed₀ =>
      refine .kept here₀ (details.trans details₀) (same.trans same₀) (frozen ∘ frozen₀) fun done => ?_
      rcases executed done with before | enough
      · exact executed₀ before
      · exact .inr (same₀ ▸ enough)
    | opened fresh strong executed₀ =>
      refine .opened fresh (same.trans strong) fun done => ?_
      rcases executed done with before | enough
      · exact executed₀ before
      · exact strong ▸ enough
  | opened fresh strong executed => exact .opened (gone fresh) strong executed

end Voting

end AfriPay.Ledger
