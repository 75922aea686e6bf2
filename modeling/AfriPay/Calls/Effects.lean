import Mathlib.Data.List.Basic
import Mathlib.Data.List.Induction

/-!
# Effects that wait for answers

An effect runs again whenever its key changes. A run asks for something, and what
is answered counts as long as the run has not been cleaned up, which the next one
does first. So the answers count as if each run had been answered before the next
one began: the view is a fold over the session, the runs since the key was last missing
(`Since.leave`, `Since.renew`, `Since.answer`), and what it shows has come with an
answer to one of them (`ViewEffect.answered`).
-/

namespace AfriPay.Calls

variable {View Key Answer : Type}

/-- A run of an effect with the answers it has taken, in order. -/
structure EffectRun (Key Answer : Type) where
  key : Key
  active : Bool
  taken : List Answer

def EffectRun.cleanup (run : EffectRun Key Answer) : EffectRun Key Answer := { run with active := false }

/-- What an effect makes of a view: without a key, when it begins to wait, and with an answer. -/
structure ViewEffect (View Answer : Type) where
  empty : View
  asking : View → View
  take : View → Answer → View

/-- A view and the runs of its effect, oldest first. -/
structure Watched (View Key Answer : Type) where
  shown : View
  runs : List (EffectRun Key Answer)
  /-- How many runs there had been when the key was last missing. -/
  left : Nat

/-- The runs since the key was last missing. -/
def Watched.session (w : Watched View Key Answer) : List (EffectRun Key Answer) := w.runs.drop w.left

namespace ViewEffect

variable (E : ViewEffect View Answer)

def renew (w : Watched View Key Answer) : Option Key → Watched View Key Answer
  | none => ⟨E.empty, w.runs.map .cleanup, w.runs.length⟩
  | some key => ⟨E.asking w.shown, w.runs.map .cleanup ++ [⟨key, true, []⟩], w.left⟩

/-- The `k`-th run is answered. -/
def answer (w : Watched View Key Answer) (k : Nat) (a : Answer) : Watched View Key Answer :=
  match w.runs[k]? with
  | none => w
  | some run => if run.active then ⟨E.take w.shown a, w.runs.set k { run with taken := run.taken ++ [a] }, w.left⟩ else w

/-- The view after one run more. -/
def after (v : View) (run : EffectRun Key Answer) : View := run.taken.foldl E.take (E.asking v)

/-- The view after some runs, each answered before the next begins. -/
def shownBy (session : List (EffectRun Key Answer)) : View := session.foldl E.after E.empty

end ViewEffect

/-- The view is that of the session, of which the last run alone is active and has the key. -/
structure Since (E : ViewEffect View Answer) (w : Watched View Key Answer) (key : Option Key) : Prop where
  left : w.left ≤ w.runs.length
  earlier : ∀ run ∈ w.runs.take w.left, run.active = false
  shown : w.shown = E.shownBy w.session
  current : w.session = [] ∧ key = none ∨
    ∃ before run, w.session = before ++ [run] ∧ (∀ run ∈ before, run.active = false) ∧ run.active = true ∧ key = some run.key

/-- The runs were all for one key. -/
def ForKey (key : Option Key) (session : List (EffectRun Key Answer)) : Prop := ∀ run ∈ session, key = some run.key

namespace ViewEffect

variable {E : ViewEffect View Answer} {w : Watched View Key Answer} {key : Option Key} {session : List (EffectRun Key Answer)}

theorem shownBy_snoc (before : List (EffectRun Key Answer)) (run : EffectRun Key Answer) :
    E.shownBy (before ++ [run]) = E.after (E.shownBy before) run := by simp [shownBy]

/-- Whether a run is active does not matter to the view any more. -/
theorem shownBy_cleanup (session : List (EffectRun Key Answer)) : E.shownBy (session.map .cleanup) = E.shownBy session := by
  rw [shownBy, List.foldl_map]
  rfl

theorem answer_stale {k : Nat} {run : EffectRun Key Answer} (found : w.runs[k]? = some run) (stale : run.active = false) (a : Answer) :
    E.answer w k a = w := by simp [answer, found, stale]

theorem answer_active {k : Nat} {run : EffectRun Key Answer} (found : w.runs[k]? = some run) (active : run.active = true) (a : Answer) :
    E.answer w k a = ⟨E.take w.shown a, w.runs.set k { run with taken := run.taken ++ [a] }, w.left⟩ := by simp [answer, found, active]

theorem cleanup_inactive {runs : List (EffectRun Key Answer)} : ∀ run ∈ runs.map EffectRun.cleanup, run.active = false := by
  simp [EffectRun.cleanup]

/-- What holds of the view at last has come with an answer, if nothing else can bring it about. -/
theorem answered {Q : View → Prop} {brings : Answer → Prop} (empty : ¬Q E.empty) (asking : ∀ v, Q (E.asking v) → Q v)
    (take : ∀ v a, Q (E.take v a) → Q v ∨ brings a) (holds : Q (E.shownBy session)) : ∃ run ∈ session, ∃ a ∈ run.taken, brings a := by
  have taken : ∀ (answers : List Answer) (v : View), Q (answers.foldl E.take v) → Q v ∨ ∃ a ∈ answers, brings a := by
    intro answers
    induction answers with
    | nil => exact fun v h => .inl h
    | cons a answers ih =>
      intro v h
      rcases ih _ h with h | ⟨b, mem, brings⟩
      · rcases take v a h with h | brings
        · exact .inl h
        · exact .inr ⟨a, List.mem_cons_self, brings⟩
      · exact .inr ⟨b, List.mem_cons_of_mem a mem, brings⟩
  induction session using List.reverseRecOn with
  | nil => exact absurd holds empty
  | append_singleton before run ih =>
    rw [shownBy_snoc] at holds
    rcases taken _ _ holds with h | ⟨a, mem, brings⟩
    · obtain ⟨old, there, answer⟩ := ih (asking _ h)
      exact ⟨old, List.mem_append_left _ there, answer⟩
    · exact ⟨run, by simp, a, mem, brings⟩

end ViewEffect

namespace Since

variable {E : ViewEffect View Answer} {w : Watched View Key Answer} {key : Option Key}

theorem initial : Since E (⟨E.empty, [], 0⟩ : Watched View Key Answer) none :=
  ⟨Nat.le_refl 0, fun _ mem => (by cases mem), rfl, .inl ⟨rfl, rfl⟩⟩

/-- Without a key a new session is about to begin. -/
theorem session_leave (w : Watched View Key Answer) : (E.renew w none).session = [] := by
  simp [ViewEffect.renew, Watched.session]

theorem leave (w : Watched View Key Answer) : Since E (E.renew w none) none where
  left := by simp [ViewEffect.renew]
  earlier := fun run mem => ViewEffect.cleanup_inactive run (List.mem_of_mem_take mem)
  shown := by
    rw [session_leave]
    rfl
  current := .inl ⟨session_leave w, rfl⟩

/-- The effect runs for a key: the session goes on. -/
theorem session_renew (since : Since E w key) (next : Key) :
    (E.renew w (some next)).session = w.session.map .cleanup ++ [⟨next, true, []⟩] := by
  have within : w.left ≤ (w.runs.map EffectRun.cleanup).length := by simpa using since.left
  change (w.runs.map EffectRun.cleanup ++ [(⟨next, true, []⟩ : EffectRun Key Answer)]).drop w.left = _
  rw [List.drop_append_of_le_length within, Watched.session, List.map_drop]

theorem renew (since : Since E w key) (next : Key) : Since E (E.renew w (some next)) (some next) where
  left := by
    have within := since.left
    simp [ViewEffect.renew]
    omega
  earlier := fun run mem => by
    have within : w.left ≤ (w.runs.map EffectRun.cleanup).length := by simpa using since.left
    change run ∈ (w.runs.map EffectRun.cleanup ++ [(⟨next, true, []⟩ : EffectRun Key Answer)]).take w.left at mem
    rw [List.take_append_of_le_length within] at mem
    exact ViewEffect.cleanup_inactive run (List.mem_of_mem_take mem)
  shown := by
    rw [since.session_renew, ViewEffect.shownBy_snoc, ViewEffect.shownBy_cleanup, ← since.shown]
    rfl
  current := .inr ⟨_, _, since.session_renew next, ViewEffect.cleanup_inactive, rfl, rfl⟩

/-- An active run is the last one, and of the session. -/
theorem active_last (since : Since E w key) {k : Nat} {run : EffectRun Key Answer} (found : w.runs[k]? = some run)
    (active : run.active = true) : ∃ before, w.session = before ++ [run] ∧ (∀ other ∈ before, other.active = false) ∧
      key = some run.key ∧ k = w.left + before.length := by
  have whole : w.runs.take w.left ++ w.session = w.runs := List.take_append_drop ..
  have front : (w.runs.take w.left).length = w.left := List.length_take_of_le since.left
  have late : w.left ≤ k := by
    by_contra early
    have mem : run ∈ w.runs.take w.left := by
      refine List.mem_of_getElem? (i := k) ?_
      rwa [List.getElem?_take_of_lt (by omega)]
    rw [since.earlier run mem] at active
    cases active
  rw [← whole, List.getElem?_append_right (by omega), front] at found
  rcases since.current with ⟨empty, -⟩ | ⟨before, last, session, stopped, -, is⟩
  · rw [empty] at found
    cases found
  · rw [session] at found
    by_cases inner : k - w.left < before.length
    · rw [List.getElem?_append_left inner] at found
      rw [stopped run (List.mem_of_getElem? found)] at active
      cases active
    · obtain ⟨at_, same⟩ := List.getElem?_eq_some_iff.1 found
      have place : k - w.left = before.length := by
        simp at at_
        omega
      rw [List.getElem_append_right (by omega)] at same
      obtain rfl : last = run := by simpa using same
      exact ⟨before, session, stopped, is, by omega⟩

/-- Of all runs only the last one takes an answer. -/
theorem answer (since : Since E w key) (k : Nat) (a : Answer) :
    Since E (E.answer w k a) key ∧ (E.answer w k a).session.map EffectRun.key = w.session.map EffectRun.key := by
  cases found : w.runs[k]? with
  | none =>
    have same : E.answer w k a = w := by simp [ViewEffect.answer, found]
    rw [same]
    exact ⟨since, rfl⟩
  | some run =>
    cases active : run.active with
    | false =>
      rw [ViewEffect.answer_stale found active]
      exact ⟨since, rfl⟩
    | true =>
      obtain ⟨before, session, stopped, is, place⟩ := since.active_last found active
      rw [ViewEffect.answer_active found active]
      have answered : (w.runs.set k { run with taken := run.taken ++ [a] }).drop w.left =
          before ++ [{ run with taken := run.taken ++ [a] }] := by
        have here : w.runs.drop w.left = before ++ [run] := session
        rw [List.drop_set, if_neg (by omega), here, place, Nat.add_sub_cancel_left, List.set_append_right _ _ (Nat.le_refl _)]
        simp
      refine ⟨⟨?_, ?_, ?_, .inr ⟨_, _, answered, stopped, active, is⟩⟩, ?_⟩
      · simpa using since.left
      · intro other mem
        have kept : (w.runs.set k { run with taken := run.taken ++ [a] }).take w.left = w.runs.take w.left := List.take_set_of_le (by omega)
        rw [kept] at mem
        exact since.earlier other mem
      · change E.take w.shown a = E.shownBy ((w.runs.set k _).drop w.left)
        rw [answered, ViewEffect.shownBy_snoc, since.shown, session, ViewEffect.shownBy_snoc]
        simp [ViewEffect.after]
      · change ((w.runs.set k _).drop w.left).map EffectRun.key = _
        rw [answered, session]
        simp

end Since

theorem ForKey.nil (key : Option Key) : ForKey key ([] : List (EffectRun Key Answer)) := fun _ mem => by cases mem

/-- Only the keys matter. -/
theorem ForKey.of_keys {key : Option Key} {session session' : List (EffectRun Key Answer)} (h : ForKey key session)
    (same : session'.map EffectRun.key = session.map EffectRun.key) : ForKey key session' := fun run mem => by
  have : run.key ∈ session.map EffectRun.key := same ▸ List.mem_map_of_mem mem
  obtain ⟨other, there, eq⟩ := List.mem_map.1 this
  rw [← eq]
  exact h other there

/-- The next run is for the same key. -/
theorem ForKey.renew {next : Key} {session : List (EffectRun Key Answer)} (h : ForKey (some next) session) :
    ForKey (some next) (session.map .cleanup ++ [⟨next, true, []⟩]) := fun run mem => by
  rcases List.mem_append.1 mem with old | new
  · obtain ⟨was, there, rfl⟩ := List.mem_map.1 old
    exact h was there
  · obtain rfl := List.mem_singleton.1 new
    rfl

end AfriPay.Calls
