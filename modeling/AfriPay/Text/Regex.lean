import Mathlib.Data.List.Basic

/-!
# Regular expressions

As much of ECMAScript's regular expressions as the code uses. A matcher tries
its alternatives in a fixed order and takes the first that leads to a match, so
the meaning of an expression at a place is the list of the places where a match
may end, in the order in which they are tried. Greedy and lazy repetitions differ
in this order only.
-/

namespace AfriPay.Text

/-- A place in a text: what lies before it, backwards, what lies ahead, and what the last group has captured. -/
structure Place where
  before : List Char
  ahead : List Char
  group : List Char

namespace Place

/-- The place after the next character. -/
def next (p : Place) (c : Char) (cs : List Char) : Place := ⟨c :: p.before, cs, p.group⟩

/-- The text from one place to a later one. -/
def upTo (p e : Place) : List Char := (e.before.take (e.before.length - p.before.length)).reverse

end Place

inductive Regex where
  | empty
  /-- A character of a class. -/
  | one (accepts : Char → Bool)
  | seq (a b : Regex)
  | alt (a b : Regex)
  /-- `a*`, or `a*?` where it is not greedy. -/
  | star (greedy : Bool) (a : Regex)
  /-- `(a)` -/
  | group (a : Regex)
  /-- `(?=a)`, or `(?!a)` where it is not positive. -/
  | lookahead (positive : Bool) (a : Regex)
  /-- `^` -/
  | start
  /-- `$` -/
  | stop
  /-- `\B`, for the characters that `\w` stands for. -/
  | noBoundary (isWord : Char → Bool)

namespace Regex

def char (c : Char) : Regex := .one (· = c)

/-- `a+` -/
def plus (a : Regex) : Regex := .seq a (.star true a)

/-- `a?` -/
def opt (a : Regex) : Regex := .alt a .empty

/-- `a{n}` -/
def times : Nat → Regex → Regex
  | 0, _ => .empty
  | n + 1, a => .seq a (times n a)

/-- `a{0,n}` -/
def upTo : Nat → Regex → Regex
  | 0, _ => .empty
  | n + 1, a => .opt (.seq a (upTo n a))

/-- At most `n` repetitions. One that consumes nothing is not tried. -/
def repeats (greedy : Bool) (step : Place → List Place) : Nat → Place → List Place
  | 0, p => [p]
  | n + 1, p =>
    let further := ((step p).filter fun e => e.ahead.length < p.ahead.length).flatMap (repeats greedy step n)
    if greedy then further ++ [p] else p :: further

/-- Where a match from here may end, in the order in which the matcher gets there. -/
def ends : Regex → Place → List Place
  | .empty, p => [p]
  | .one accepts, p => match p.ahead with
    | [] => []
    | c :: cs => if accepts c then [p.next c cs] else []
  | .seq a b, p => (a.ends p).flatMap b.ends
  | .alt a b, p => a.ends p ++ b.ends p
  | .star greedy a, p => repeats greedy a.ends p.ahead.length p
  | .group a, p => (a.ends p).map fun e => { e with group := p.upTo e }
  | .lookahead positive a, p => if (a.ends p).isEmpty = positive then [] else [p]
  | .start, p => if p.before.isEmpty then [p] else []
  | .stop, p => if p.ahead.isEmpty then [p] else []
  | .noBoundary isWord, p => if p.before.head?.any isWord = p.ahead.head?.any isWord then [p] else []

/-- Where the match from here ends. -/
def first (r : Regex) (p : Place) : Option Place := (r.ends p).head?

def testFrom (r : Regex) (before : List Char) : List Char → Bool
  | [] => (r.first ⟨before, [], []⟩).isSome
  | c :: cs => (r.first ⟨before, c :: cs, []⟩).isSome || r.testFrom (c :: before) cs

/-- `r.test(cs)` -/
def test (r : Regex) (cs : List Char) : Bool := r.testFrom [] cs

/-- From this place on, with the first match replaced. -/
def replaceFrom (r : Regex) (f : Place → List Char) (before : List Char) : List Char → List Char
  | [] => match r.first ⟨before, [], []⟩ with
    | some e => f e ++ e.ahead
    | none => []
  | c :: cs => match r.first ⟨before, c :: cs, []⟩ with
    | some e => f e ++ e.ahead
    | none => c :: r.replaceFrom f (c :: before) cs

/-- `cs.replace(r, f)` without the flag `g`; `f` is what stands for the match that ends at a place. -/
def replace (r : Regex) (f : Place → List Char) (cs : List Char) : List Char := r.replaceFrom f [] cs

/-- From this place on, with every match replaced. After an empty match one character is copied. -/
def replaceAllFrom (r : Regex) (f : Place → List Char) : Nat → Place → List Char
  | 0, p => match r.first p with
    | some e => f e
    | none => []
  | n + 1, p =>
    let copied := match p.ahead with
      | [] => []
      | c :: cs => c :: r.replaceAllFrom f n (p.next c cs)
    match r.first p with
    | some e => f e ++ if e.ahead.length < p.ahead.length then r.replaceAllFrom f n e else copied
    | none => copied

/-- `cs.replace(r, f)` with the flag `g` -/
def replaceAll (r : Regex) (f : Place → List Char) (cs : List Char) : List Char := r.replaceAllFrom f cs.length ⟨[], cs, []⟩

/-! ## The order of matches -/

section Rules

variable {a b r : Regex} {p : Place} {greedy : Bool} {accepts : Char → Bool}

/-- No more repetitions are possible than there are characters ahead. -/
theorem repeats_of_le {step : Place → List Place} {n : Nat} (le : p.ahead.length ≤ n) :
    repeats greedy step n p = repeats greedy step p.ahead.length p := by
  induction n using Nat.strongRecOn generalizing p with
  | _ n ih =>
    rcases Nat.lt_or_eq_of_le le with less | same
    · obtain ⟨n, rfl⟩ : ∃ m, n = m + 1 := ⟨n - 1, by omega⟩
      cases length : p.ahead.length with
      | zero =>
        have none : (step p).filter (fun e => e.ahead.length < p.ahead.length) = [] :=
          List.filter_eq_nil_iff.2 fun e _ => by simp [length]
        simp only [repeats, none]
        cases greedy <;> rfl
      | succ m =>
        have same : ∀ e ∈ (step p).filter fun e => e.ahead.length < p.ahead.length,
            repeats greedy step n e = repeats greedy step m e := by
          intro e mem
          have shorter : e.ahead.length < p.ahead.length := by simpa using (List.mem_filter.1 mem).2
          rw [ih n (by omega) (by omega), ih m (by omega) (by omega)]
        simp only [repeats, List.flatMap_congr same]
    · rw [same]

/-- One repetition after the other. -/
theorem ends_star : (Regex.star greedy a).ends p =
    if greedy then ((a.ends p).filter fun e => e.ahead.length < p.ahead.length).flatMap (Regex.star greedy a).ends ++ [p]
    else p :: ((a.ends p).filter fun e => e.ahead.length < p.ahead.length).flatMap (Regex.star greedy a).ends := by
  cases length : p.ahead.length with
  | zero =>
    have none : (a.ends p).filter (fun e => e.ahead.length < 0) = [] := List.filter_eq_nil_iff.2 fun e _ => by simp
    simp only [none, ends, length, repeats]
    cases greedy <;> rfl
  | succ n =>
    have same : ∀ e ∈ (a.ends p).filter fun e => e.ahead.length < n + 1,
        repeats greedy a.ends n e = (Regex.star greedy a).ends e := by
      intro e mem
      have shorter : e.ahead.length < n + 1 := by simpa using (List.mem_filter.1 mem).2
      exact repeats_of_le (by omega)
    rw [← List.flatMap_congr same]
    simp only [ends, length, repeats]

theorem ends_seq : (Regex.seq a b).ends p = (a.ends p).flatMap b.ends := rfl

/-- The first end of `a` from which `b` matches leads to the match. -/
theorem first_seq : (Regex.seq a b).first p = (a.ends p).findSome? b.first := by
  rw [first, ends_seq, List.head?_flatMap]
  rfl

theorem first_seq_assoc : (Regex.seq (.seq a b) r).first p = (Regex.seq a (.seq b r)).first p := by
  rw [first, ends_seq, ends_seq, List.flatMap_assoc]
  rfl

theorem ends_one_cons {before group cs : List Char} {c : Char} :
    (Regex.one accepts).ends ⟨before, c :: cs, group⟩ = if accepts c then [⟨c :: before, cs, group⟩] else [] := rfl

theorem first_start_seq : (Regex.seq .start r).first p = if p.before.isEmpty then r.first p else none := by
  rw [first_seq, ends]
  split <;> simp

theorem first_one_nil {before group : List Char} : (Regex.seq (.one accepts) r).first ⟨before, [], group⟩ = none := by
  simp [first_seq, ends]

theorem first_one_cons {before group cs : List Char} {c : Char} :
    (Regex.seq (.one accepts) r).first ⟨before, c :: cs, group⟩ = if accepts c then r.first ⟨c :: before, cs, group⟩ else none := by
  rw [first_seq, ends_one_cons]
  split <;> simp

theorem first_stop : Regex.stop.first p = if p.ahead.isEmpty then some p else none := by
  rw [first, ends]
  split <;> rfl

theorem first_lookahead {positive : Bool} : (Regex.lookahead positive a).first p = if (a.first p).isSome = positive then some p else none := by
  rw [first, ends, first]
  cases a.ends p <;> cases positive <;> rfl

theorem first_group_seq : (Regex.seq (.group a) b).first p = (a.ends p).findSome? fun e => b.first { e with group := p.upTo e } := by
  rw [first_seq, ends, List.findSome?_map]
  rfl

theorem upTo_append {before ahead group ahead' group' : List Char} (xs : List Char) :
    Place.upTo ⟨before, ahead, group⟩ ⟨xs.reverse ++ before, ahead', group'⟩ = xs := by
  simp [Place.upTo]

/-! ## Repetitions of a character -/

theorem ends_star_one_nil {before group : List Char} : (Regex.star greedy (.one accepts)).ends ⟨before, [], group⟩ = [⟨before, [], group⟩] := rfl

/-- A greedy repetition tries another character before it goes on, a lazy one goes on first. -/
theorem ends_star_one_cons {before group cs : List Char} {c : Char} :
    (Regex.star greedy (.one accepts)).ends ⟨before, c :: cs, group⟩ =
      let further := if accepts c then (Regex.star greedy (.one accepts)).ends ⟨c :: before, cs, group⟩ else []
      if greedy then further ++ [⟨before, c :: cs, group⟩] else ⟨before, c :: cs, group⟩ :: further := by
  rw [ends_star, ends_one_cons]
  by_cases accepted : accepts c = true <;> simp [accepted]

theorem first_star_one_nil {before group : List Char} :
    (Regex.seq (.star greedy (.one accepts)) r).first ⟨before, [], group⟩ = r.first ⟨before, [], group⟩ := by
  rw [first_seq, ends_star_one_nil]
  simp

theorem first_greedy_cons {before group cs : List Char} {c : Char} :
    (Regex.seq (.star true (.one accepts)) r).first ⟨before, c :: cs, group⟩ =
      if accepts c then ((Regex.seq (.star true (.one accepts)) r).first ⟨c :: before, cs, group⟩).or (r.first ⟨before, c :: cs, group⟩)
      else r.first ⟨before, c :: cs, group⟩ := by
  rw [first_seq, ends_star_one_cons, first_seq]
  by_cases accepted : accepts c = true <;> simp [accepted, List.findSome?_append, Option.or]

/-- A run of such characters up to the end of the text. -/
theorem first_run_stop {before cs group : List Char} : (Regex.seq (.star true (.one accepts)) .stop).first ⟨before, cs, group⟩ =
    if cs.all accepts then some ⟨cs.reverse ++ before, [], group⟩ else none := by
  induction cs generalizing before with
  | nil => exact first_star_one_nil.trans first_stop
  | cons c cs ih =>
    rw [first_greedy_cons, first_stop, ih]
    by_cases accepted : accepts c = true
    · simp [accepted]
    · simp [accepted]

/-! ## Replacing -/

theorem replaceFrom_start_seq {f : Place → List Char} {c : Char} {before cs : List Char} :
    (Regex.seq .start r).replaceFrom f (c :: before) cs = cs := by
  induction cs generalizing c before with
  | nil => rw [replaceFrom, first_start_seq]; rfl
  | cons d ds ih => rw [replaceFrom, first_start_seq]; exact congrArg (d :: ·) ih

/-- An anchored expression matches at the start or nowhere. -/
theorem replace_start_seq {f : Place → List Char} {cs : List Char} :
    (Regex.seq .start r).replace f cs = match r.first ⟨[], cs, []⟩ with
      | some e => f e ++ e.ahead
      | none => cs := by
  cases cs with
  | nil => rw [replace, replaceFrom, first_start_seq]; rfl
  | cons c cs => rw [replace, replaceFrom, first_start_seq, replaceFrom_start_seq]; rfl

/-- Characters no match starts with are copied. -/
theorem replaceFrom_append {f : Place → List Char} {before xs rest : List Char}
    (unmatched : ∀ x ∈ xs, ∀ before cs, r.first ⟨before, x :: cs, []⟩ = none) :
    r.replaceFrom f before (xs ++ rest) = xs ++ r.replaceFrom f (xs.reverse ++ before) rest := by
  induction xs generalizing before with
  | nil => rfl
  | cons x xs ih =>
    rw [List.cons_append, replaceFrom, unmatched x List.mem_cons_self, ih fun y mem => unmatched y (List.mem_cons_of_mem _ mem)]
    simp

theorem replaceFrom_eq_self {f : Place → List Char} {before xs : List Char}
    (unmatched : ∀ x ∈ xs, ∀ before cs, r.first ⟨before, x :: cs, []⟩ = none) (unmatched' : ∀ before, r.first ⟨before, [], []⟩ = none) :
    r.replaceFrom f before xs = xs := by
  have copied := @replaceFrom_append r f before xs [] unmatched
  rwa [replaceFrom, unmatched', List.append_nil] at copied

/-! ## Whether there is a match -/

theorem first_isSome : (r.first p).isSome = true ↔ ∃ e, e ∈ r.ends p := by
  rw [first, List.isSome_head?]
  exact ⟨List.exists_mem_of_ne_nil _, fun ⟨e, mem⟩ => List.ne_nil_of_mem mem⟩

theorem mem_ends_seq {e : Place} : e ∈ (Regex.seq a b).ends p ↔ ∃ m ∈ a.ends p, e ∈ b.ends m := List.mem_flatMap

theorem mem_ends_one {before group cs : List Char} {e : Place} : e ∈ (Regex.one accepts).ends ⟨before, cs, group⟩ ↔
    ∃ c rest, cs = c :: rest ∧ accepts c = true ∧ e = ⟨c :: before, rest, group⟩ := by
  cases cs with
  | nil => simp [ends]
  | cons c cs =>
    rw [ends_one_cons]
    by_cases accepted : accepts c = true <;> simp [accepted]

theorem mem_ends_stop {e : Place} : e ∈ Regex.stop.ends p ↔ p.ahead = [] ∧ e = p := by
  rw [ends]
  cases p.ahead <;> simp

/-- What a text ahead begins with, and the place after it. -/
def Reads (P : List Char → Prop) (p e : Place) : Prop :=
  ∃ xs rest, p.ahead = xs ++ rest ∧ P xs ∧ e = ⟨xs.reverse ++ p.before, rest, p.group⟩

theorem reads_congr {P Q : List Char → Prop} (same : ∀ xs, P xs ↔ Q xs) {e : Place} : Reads P p e ↔ Reads Q p e := by
  rw [funext fun xs => propext (same xs)]

/-- Reading nothing stays where it is. -/
theorem reads_or_self {P : List Char → Prop} {e : Place} : Reads P p e ∨ e = p ↔ Reads (fun xs => P xs ∨ xs = []) p e := by
  constructor
  · rintro (⟨xs, rest, ahead, holds, rfl⟩ | rfl)
    · exact ⟨xs, rest, ahead, .inl holds, rfl⟩
    · exact ⟨[], e.ahead, rfl, .inr rfl, rfl⟩
  · rintro ⟨xs, rest, ahead, holds | rfl, rfl⟩
    · exact .inl ⟨xs, rest, ahead, holds, rfl⟩
    · obtain ⟨before, cs, group⟩ := p
      obtain rfl : cs = rest := ahead
      exact .inr rfl

/-- A character of a class, and then what `r` reads. -/
theorem mem_ends_one_seq {P : List Char → Prop} (mem : ∀ {q e : Place}, e ∈ r.ends q ↔ Reads P q e) {e : Place} :
    e ∈ (Regex.seq (.one accepts) r).ends p ↔ Reads (fun xs => ∃ c ys, xs = c :: ys ∧ accepts c = true ∧ P ys) p e := by
  obtain ⟨before, cs, group⟩ := p
  rw [mem_ends_seq]
  constructor
  · rintro ⟨m, first, rest⟩
    obtain ⟨c, cs, rfl, accepted, rfl⟩ := mem_ends_one.1 first
    obtain ⟨ys, behind, ahead, holds, rfl⟩ := mem.1 rest
    exact ⟨c :: ys, behind, congrArg (c :: ·) ahead, ⟨c, ys, rfl, accepted, holds⟩, by simp⟩
  · rintro ⟨xs, behind, ahead, ⟨c, ys, rfl, accepted, holds⟩, rfl⟩
    obtain rfl : cs = c :: ys ++ behind := ahead
    exact ⟨_, mem_ends_one.2 ⟨c, ys ++ behind, rfl, accepted, rfl⟩, mem.2 ⟨ys, behind, rfl, holds, by simp⟩⟩

theorem mem_ends_upTo {n : Nat} {e : Place} : e ∈ (Regex.upTo n (.one accepts)).ends p ↔
    Reads (fun xs => xs.length ≤ n ∧ xs.all accepts = true) p e := by
  induction n generalizing p e with
  | zero =>
    have stays : Reads (fun _ => False) p e ∨ e = p ↔ e = p := or_iff_right fun ⟨_, _, _, absurd, _⟩ => absurd
    rw [Regex.upTo, ends, List.mem_singleton, ← stays, reads_or_self]
    refine reads_congr fun xs => ?_
    cases xs <;> simp
  | succ n ih =>
    show e ∈ (Regex.seq (.one accepts) (Regex.upTo n (.one accepts))).ends p ++ [p] ↔ _
    rw [List.mem_append, List.mem_singleton, mem_ends_one_seq ih, reads_or_self]
    refine reads_congr fun xs => ?_
    cases xs with
    | nil => simp
    | cons c cs => simp [and_left_comm]

theorem mem_ends_star {e : Place} : e ∈ (Regex.star greedy (.one accepts)).ends p ↔ Reads (fun xs => xs.all accepts = true) p e := by
  obtain ⟨before, cs, group⟩ := p
  induction cs generalizing before with
  | nil =>
    rw [ends_star_one_nil, List.mem_singleton]
    constructor
    · rintro rfl
      exact ⟨[], [], rfl, rfl, rfl⟩
    · rintro ⟨xs, rest, ahead, -, rfl⟩
      obtain ⟨rfl, rfl⟩ := List.append_eq_nil_iff.1 ahead.symm
      rfl
  | cons c cs ih =>
    have further : e ∈ (if accepts c then (Regex.star greedy (.one accepts)).ends ⟨c :: before, cs, group⟩ else []) ∨
        e = ⟨before, c :: cs, group⟩ ↔ Reads (fun xs => xs.all accepts = true) ⟨before, c :: cs, group⟩ e := by
      constructor
      · rintro (mem | rfl)
        · split at mem
          · rename_i accepted
            obtain ⟨xs, rest, ahead, all, rfl⟩ := (ih _).1 mem
            have all' : (c :: xs).all accepts = true := by
              rw [List.all_cons, accepted]
              exact all
            exact ⟨c :: xs, rest, congrArg (c :: ·) ahead, all', by simp⟩
          · cases mem
        · exact ⟨[], c :: cs, rfl, rfl, rfl⟩
      · rintro ⟨xs, rest, ahead, all, rfl⟩
        cases xs with
        | nil =>
          obtain rfl : c :: cs = rest := ahead
          exact .inr rfl
        | cons x xs =>
          obtain ⟨rfl, rfl⟩ := List.cons.inj ahead
          have all : (c :: xs).all accepts = true := all
          rw [List.all_cons, Bool.and_eq_true] at all
          rw [if_pos all.1]
          exact .inl ((ih _).2 ⟨xs, rest, rfl, all.2, by simp⟩)
    rw [ends_star_one_cons, ← further]
    cases greedy <;> simp [or_comm]

theorem testFrom_start_seq {c : Char} {before cs : List Char} : (Regex.seq .start r).testFrom (c :: before) cs = false := by
  induction cs generalizing c before with
  | nil => rw [testFrom, first_start_seq]; rfl
  | cons d ds ih => rw [testFrom, first_start_seq, ih]; rfl

theorem test_start_seq {cs : List Char} : (Regex.seq .start r).test cs = (r.first ⟨[], cs, []⟩).isSome := by
  cases cs with
  | nil => rw [test, testFrom, first_start_seq]; rfl
  | cons c cs => rw [test, testFrom, first_start_seq, testFrom_start_seq, Bool.or_false]; rfl

end Rules

end Regex

end AfriPay.Text
