import AfriPay.Text.Grouping
import AfriPay.Text.Regex

/-!
# What the patterns for amounts come to

The patterns the code tests and replaces, as expressions, and beside each the
function on digit strings this development uses for it.
-/

namespace AfriPay.Text
open Regex

def digit : Regex := .one Char.isDigit

/-- `\d{1,n}` -/
def digitsUpTo (n : Nat) : Regex := .seq digit (.upTo (n - 1) digit)

/-- `^\d{1,m}(\.\d{1,n})?$` -/
def decimalPattern (m n : Nat) : Regex :=
  .seq .start (.seq (digitsUpTo m) (.seq (.opt (.group (.seq (.char '.') (digitsUpTo n)))) .stop))

/-- `^-?\d+(\.\d+)?$` -/
def numeralPattern : Regex :=
  .seq .start (.seq (.opt (.char '-')) (.seq (.plus digit) (.seq (.opt (.group (.seq (.char '.') (.plus digit)))) .stop)))

/-- `^0+(?=\d)` -/
def leadingZeros : Regex := .seq .start (.seq (.plus (.char '0')) (.lookahead true digit))

/-- `0+$` -/
def trailingZeros : Regex := .seq (.plus (.char '0')) .stop

/-- `(\d{3})` -/
def triple : Regex := .group (.times 3 digit)

/-- `\B(?=(\d{3})+(?!\d))` -/
def thousands : Regex :=
  .seq (.noBoundary isWord) (.lookahead true (.seq (.plus triple) (.lookahead false digit)))

/-- `(\.\d*?)0+$` -/
def fractionZeros : Regex := .seq (.group (.seq (.char '.') (.star false digit))) trailingZeros

/-- `\.$` -/
def lastPoint : Regex := .seq (.char '.') .stop

/-! ## Zeros at the front and at the end -/

theorem first_digit_ahead (positive : Bool) (before cs group : List Char) : (Regex.lookahead positive digit).first ⟨before, cs, group⟩ =
    if cs.head?.any Char.isDigit = positive then some ⟨before, cs, group⟩ else none := by
  rw [first_lookahead, first, digit]
  cases cs with
  | nil => simp [ends]
  | cons c cs =>
    rw [ends_one_cons]
    by_cases is : c.isDigit = true <;> simp [is]

theorem stripZeros_zero (cs : List Char) :
    stripZeros ('0' :: cs) = if cs.head?.any Char.isDigit then stripZeros cs else '0' :: cs := by
  cases cs with
  | nil => rfl
  | cons c cs => rw [stripZeros]; rfl

theorem stripZeros_other {c : Char} (other : c ≠ '0') (cs : List Char) : stripZeros (c :: cs) = c :: cs := by
  unfold stripZeros
  split
  · rename_i same
    exact (other (List.cons.inj same).1).elim
  · rfl

/-- Zeros are passed as long as a digit is left. -/
theorem first_zeros_digit (before cs group : List Char) :
    ((Regex.seq (.star true (.char '0')) (.lookahead true digit)).first ⟨before, cs, group⟩).map (·.ahead) =
      if cs.head?.any Char.isDigit then some (stripZeros cs) else none := by
  rw [char]
  induction cs generalizing before with
  | nil => rw [first_star_one_nil, first_digit_ahead]; rfl
  | cons c cs ih =>
    rw [first_greedy_cons, first_digit_ahead]
    by_cases zero : c = '0'
    · subst zero
      have further := ih ('0' :: before)
      rw [if_pos (by decide), stripZeros_zero, List.head?_cons, Option.any_some, if_pos (by decide), if_pos (by decide)]
      by_cases follows : cs.head?.any Char.isDigit = true
      · rw [if_pos follows] at further ⊢
        obtain ⟨e, found, ahead⟩ := Option.map_eq_some_iff.1 further
        rw [found]
        exact congrArg some ahead
      · rw [if_neg follows] at further ⊢
        rw [Option.map_eq_none_iff.1 further]
        rfl
    · rw [if_neg (by simpa using zero), stripZeros_other zero]
      split <;> rfl

/-- `cs.replace(/^0+(?=\d)/, '')` -/
theorem replace_leadingZeros (cs : List Char) : leadingZeros.replace (fun _ => []) cs = stripZeros cs := by
  rw [leadingZeros, replace_start_seq, plus, first_seq_assoc, char]
  cases cs with
  | nil => rw [first_one_nil]; rfl
  | cons c cs =>
    rw [first_one_cons, ← char]
    by_cases zero : c = '0'
    · subst zero
      have further := first_zeros_digit ['0'] cs []
      rw [if_pos (by decide), stripZeros_zero]
      by_cases follows : cs.head?.any Char.isDigit = true
      · rw [if_pos follows] at further ⊢
        obtain ⟨e, found, ahead⟩ := Option.map_eq_some_iff.1 further
        rw [found]
        exact ahead
      · rw [if_neg follows] at further ⊢
        rw [Option.map_eq_none_iff.1 further]
    · rw [if_neg (by simpa using zero), stripZeros_other zero]

/-! ## Zeros at the end -/

theorem first_trailingZeros (before cs group : List Char) : trailingZeros.first ⟨before, cs, group⟩ =
    if cs ≠ [] ∧ cs.all (· = '0') = true then some ⟨cs.reverse ++ before, [], group⟩ else none := by
  rw [trailingZeros, plus, first_seq_assoc, char]
  cases cs with
  | nil => rw [first_one_nil]; rfl
  | cons c cs =>
    rw [first_one_cons, first_run_stop, List.all_cons]
    by_cases zero : c = '0' <;> simp [zero]

theorem rdropWhile_cons {α : Type} (p : α → Bool) (x : α) (xs : List α) :
    (x :: xs).rdropWhile p = if (x :: xs).all p then [] else x :: xs.rdropWhile p := by
  by_cases all : xs.all p = true
  · have none : xs.rdropWhile p = [] := List.rdropWhile_eq_nil_iff.2 (List.all_eq_true.1 all)
    have none' : xs.reverse.dropWhile p = [] := List.reverse_eq_nil_iff.1 none
    by_cases px : p x = true <;> simp [List.rdropWhile, List.dropWhile_append, all, none', px]
  · have some' : (xs.reverse.dropWhile p).isEmpty = false := by
      rw [List.isEmpty_eq_false_iff]
      intro none
      exact all (List.all_eq_true.2 (List.rdropWhile_eq_nil_iff.1 (List.reverse_eq_nil_iff.2 none)))
    simp [List.rdropWhile, List.dropWhile_append, all, some']

/-- `cs.replace(/0+$/, '')` -/
theorem replace_trailingZeros (cs : List Char) : trailingZeros.replace (fun _ => []) cs = cs.rdropWhile (· = '0') := by
  have from' : ∀ before, trailingZeros.replaceFrom (fun _ => []) before cs = cs.rdropWhile (· = '0') := by
    induction cs with
    | nil => intro before; rw [replaceFrom, first_trailingZeros]; rfl
    | cons c cs ih =>
      intro before
      rw [replaceFrom, first_trailingZeros, rdropWhile_cons, ih]
      by_cases zeros : (c :: cs).all (· = '0') = true
      · rw [if_pos zeros, if_pos ⟨List.cons_ne_nil _ _, zeros⟩]
        rfl
      · rw [if_neg zeros, if_neg fun both => zeros both.2]
  exact from' []

/-! ## Groups of three digits -/

/-- How many digits there are before the next other character. -/
def run (cs : List Char) : Nat := (cs.takeWhile Char.isDigit).length

theorem run_of_digit {c : Char} (is : c.isDigit = true) (cs : List Char) : run (c :: cs) = run cs + 1 := by
  rw [run, List.takeWhile_cons, if_pos is, List.length_cons, run]

theorem run_of_other {c : Char} (other : ¬c.isDigit = true) (cs : List Char) : run (c :: cs) = 0 := by
  rw [run, List.takeWhile_cons, if_neg other, List.length_nil]

theorem run_eq_zero {cs : List Char} : run cs = 0 ↔ cs.head?.any Char.isDigit = false := by
  cases cs with
  | nil => exact ⟨fun _ => rfl, fun _ => rfl⟩
  | cons c cs =>
    by_cases is : c.isDigit = true
    · simp [run_of_digit is, is]
    · simp [run_of_other is, is]

/-- The next three characters are digits. -/
def ThreeAhead (cs : List Char) : Prop :=
  ∃ a b c rest, cs = a :: b :: c :: rest ∧ a.isDigit = true ∧ b.isDigit = true ∧ c.isDigit = true

theorem run_lt_three {cs : List Char} (few : ¬ThreeAhead cs) : run cs < 3 := by
  rcases cs with - | ⟨a, cs⟩
  · decide
  by_cases ha : a.isDigit = true
  case neg => rw [run_of_other ha]; decide
  rcases cs with - | ⟨b, cs⟩
  · rw [run_of_digit ha]; decide
  by_cases hb : b.isDigit = true
  case neg => rw [run_of_digit ha, run_of_other hb]; decide
  rcases cs with - | ⟨c, rest⟩
  · rw [run_of_digit ha, run_of_digit hb]; decide
  by_cases hc : c.isDigit = true
  case neg => rw [run_of_digit ha, run_of_digit hb, run_of_other hc]; decide
  exact (few ⟨a, b, c, rest, rfl, ha, hb, hc⟩).elim

theorem ends_triple {a b c : Char} (ha : a.isDigit = true) (hb : b.isDigit = true) (hc : c.isDigit = true) (before rest group : List Char) :
    triple.ends ⟨before, a :: b :: c :: rest, group⟩ = [⟨c :: b :: a :: before, rest, [a, b, c]⟩] := by
  have upTo : Place.upTo ⟨before, a :: b :: c :: rest, group⟩ ⟨c :: b :: a :: before, rest, group⟩ = [a, b, c] := upTo_append [a, b, c]
  simp [triple, ends, times, digit, Place.next, ha, hb, hc, upTo]

theorem ends_triple_nil {cs : List Char} (few : ¬ThreeAhead cs) (before group : List Char) : triple.ends ⟨before, cs, group⟩ = [] := by
  refine List.eq_nil_iff_forall_not_mem.2 fun e mem => few ?_
  obtain ⟨e, mem, -⟩ := List.mem_map.1 mem
  simp only [times, digit, mem_ends_seq] at mem
  obtain ⟨m, first, m', second, m'', third, -⟩ := mem
  obtain ⟨a, cs, rfl, ha, rfl⟩ := mem_ends_one.1 first
  obtain ⟨b, cs, rfl, hb, rfl⟩ := mem_ends_one.1 second
  obtain ⟨c, rest, rfl, hc, rfl⟩ := mem_ends_one.1 third
  exact ⟨a, b, c, rest, rfl, ha, hb, hc⟩

/-- The digits ahead are groups of three. -/
theorem first_triples (before cs group : List Char) :
    ((Regex.seq (.star true triple) (.lookahead false digit)).first ⟨before, cs, group⟩).isSome = decide (run cs % 3 = 0) := by
  induction h : cs.length using Nat.strongRecOn generalizing before cs group with
  | _ n ih =>
    rw [first_seq, ends_star, if_pos rfl, List.findSome?_append, List.findSome?_singleton, first_digit_ahead]
    by_cases three : ThreeAhead cs
    · obtain ⟨a, b, c, rest, rfl, ha, hb, hc⟩ := three
      have shorter : rest.length < (a :: b :: c :: rest).length := by simp only [List.length_cons]; omega
      have further := ih rest.length (h ▸ shorter) (c :: b :: a :: before) rest [a, b, c] rfl
      rw [first_seq] at further
      have kept : [(⟨c :: b :: a :: before, rest, [a, b, c]⟩ : Place)].filter (fun e => e.ahead.length < (a :: b :: c :: rest).length) =
          [⟨c :: b :: a :: before, rest, [a, b, c]⟩] := List.filter_cons_of_pos (decide_eq_true shorter)
      rw [ends_triple ha hb hc, kept, List.flatMap_cons, List.flatMap_nil, List.append_nil, List.head?_cons, Option.any_some, ha,
        if_neg (by decide), Option.or_none, further, run_of_digit ha, run_of_digit hb, run_of_digit hc, Nat.add_assoc, Nat.add_assoc,
        Nat.add_mod_right]
    · have few := run_lt_three three
      rw [ends_triple_nil three, List.filter_nil, List.flatMap_nil, List.findSome?_nil, Option.none_or]
      by_cases none : run cs = 0
      · rw [if_pos (run_eq_zero.1 none), none]
        rfl
      · rw [if_neg fun other => none (run_eq_zero.2 other)]
        exact (decide_eq_false (by omega)).symm

theorem first_thousands (before cs group : List Char) : thousands.first ⟨before, cs, group⟩ =
    if before.head?.any isWord = cs.head?.any isWord ∧ aheadOfTriples cs = true then some ⟨before, cs, group⟩ else none := by
  have ahead : ((Regex.seq (.plus triple) (.lookahead false digit)).first ⟨before, cs, group⟩).isSome = aheadOfTriples cs := by
    rw [plus, first_seq_assoc, first_seq]
    show _ = (decide (3 ≤ run cs) && decide (run cs % 3 = 0))
    by_cases three : ThreeAhead cs
    · obtain ⟨a, b, c, rest, rfl, ha, hb, hc⟩ := three
      rw [ends_triple ha hb hc, List.findSome?_singleton, first_triples, run_of_digit ha, run_of_digit hb, run_of_digit hc]
      simp
      omega
    · rw [ends_triple_nil three, List.findSome?_nil, decide_eq_false (by have := run_lt_three three; omega)]
      rfl
  rw [thousands, first_seq, ends]
  by_cases inside : before.head?.any isWord = cs.head?.any isWord
  · simp [inside, first_lookahead, ahead]
  · simp [inside]

/-- `cs.replace(/\B(?=(\d{3})+(?!\d))/g, ',')` -/
theorem replaceAll_thousands (cs : List Char) : thousands.replaceAll (fun _ => [',']) cs = insertCommas none cs := by
  have from' : ∀ before group, thousands.replaceAllFrom (fun _ => [',']) cs.length ⟨before, cs, group⟩ = insertCommas before.head? cs := by
    induction cs with
    | nil =>
      intro before group
      rw [List.length_nil, replaceAllFrom, first_thousands, if_neg fun both => absurd both.2 (by decide)]
      rfl
    | cons c cs ih =>
      intro before group
      have copied := ih (c :: before) group
      rw [List.length_cons, replaceAllFrom, first_thousands, insertCommas]
      by_cases comma : before.head?.any isWord = (c :: cs).head?.any isWord ∧ aheadOfTriples (c :: cs) = true
      · have comma' : (insideWord before.head? c && aheadOfTriples (c :: cs)) = true := by
          rw [Bool.and_eq_true, insideWord, beq_iff_eq]
          exact comma
        rw [if_pos comma, if_pos comma']
        simp [Place.next, copied]
      · have comma' : ¬(insideWord before.head? c && aheadOfTriples (c :: cs)) = true := by
          rw [Bool.and_eq_true, insideWord, beq_iff_eq]
          exact comma
        rw [if_neg comma, if_neg comma']
        simp [Place.next, copied]
  exact from' [] []

/-! ## The fraction and its point -/

/-- From the point on, the lazy repetition keeps the digits up to the last zeros, and the zeros are what is left to match. -/
theorem lazy_digits {fraction : List Char} (digits : ∀ c ∈ fraction, c.isDigit = true) (before ahead group xs : List Char) :
    (((Regex.star false digit).ends ⟨xs.reverse ++ '.' :: before, fraction, group⟩).findSome? fun e =>
        trailingZeros.first { e with group := Place.upTo ⟨before, ahead, group⟩ e }).map (fun e => (e.group, e.ahead)) =
      if fraction.rdropWhile (· = '0') = fraction then none else some ('.' :: xs ++ fraction.rdropWhile (· = '0'), []) := by
  induction fraction generalizing xs with
  | nil => rw [digit, ends_star_one_nil, List.findSome?_singleton, first_trailingZeros]; rfl
  | cons c cs ih =>
    have further := ih (fun d mem => digits d (List.mem_cons_of_mem _ mem)) (xs ++ [c])
    rw [digit] at further ⊢
    rw [List.reverse_append, List.reverse_singleton, List.singleton_append, List.cons_append] at further
    have upTo := @upTo_append before ahead group (c :: cs) group ('.' :: xs)
    rw [List.reverse_cons, List.append_assoc, List.singleton_append] at upTo
    rw [ends_star_one_cons, if_neg (by decide), if_pos (digits c List.mem_cons_self), List.findSome?_cons, first_trailingZeros, upTo, rdropWhile_cons]
    by_cases zeros : (c :: cs).all (· = '0') = true
    · rw [if_pos ⟨List.cons_ne_nil _ _, zeros⟩, if_pos zeros, if_neg (List.cons_ne_nil _ _).symm, List.append_nil]
      rfl
    · rw [if_neg fun both => zeros both.2, if_neg zeros]
      simp only [List.cons.injEq, true_and]
      rw [further]
      split
      · rfl
      · simp

theorem first_fractionZeros {fraction : List Char} (digits : ∀ c ∈ fraction, c.isDigit = true) (before : List Char) :
    (fractionZeros.first ⟨before, '.' :: fraction, []⟩).map (fun e => (e.group, e.ahead)) =
      if fraction.rdropWhile (· = '0') = fraction then none else some ('.' :: fraction.rdropWhile (· = '0'), []) := by
  rw [fractionZeros, first_group_seq, ends_seq, char, ends_one_cons, if_pos (by decide), List.flatMap_singleton]
  exact lazy_digits digits before ('.' :: fraction) [] []

theorem first_fractionZeros_other {c : Char} (other : c ≠ '.') (before cs : List Char) : fractionZeros.first ⟨before, c :: cs, []⟩ = none := by
  rw [fractionZeros, first_group_seq, ends_seq, char, ends_one_cons, if_neg (by simpa using other)]
  rfl

theorem first_lastPoint_other {c : Char} (other : c ≠ '.') (before cs : List Char) : lastPoint.first ⟨before, c :: cs, []⟩ = none := by
  rw [lastPoint, char, first_one_cons, if_neg (by simpa using other)]

theorem ne_point {cs : List Char} (digits : ∀ c ∈ cs, c.isDigit = true) : ∀ c ∈ cs, c ≠ '.' :=
  fun c mem => of_decide_eq_true (digits_ne_point digits c mem)

/-- `cs.replace(/(\.\d*?)0+$/, '$1')` of a numeral with a point -/
theorem replace_fractionZeros {whole fraction : List Char} (digits : ∀ c ∈ whole, c.isDigit = true) (digits' : ∀ c ∈ fraction, c.isDigit = true) :
    fractionZeros.replace (·.group) (whole ++ '.' :: fraction) = whole ++ '.' :: fraction.rdropWhile (· = '0') := by
  rw [replace, replaceFrom_append fun c mem before cs => first_fractionZeros_other (ne_point digits c mem) before cs, replaceFrom, List.append_nil]
  congr 1
  have here := first_fractionZeros digits' whole.reverse
  split at here
  · rename_i kept
    rw [Option.map_eq_none_iff.1 here, kept]
    refine congrArg ('.' :: ·) (replaceFrom_eq_self (fun c mem before cs => ?_) fun _ => rfl)
    exact first_fractionZeros_other (ne_point digits' c mem) before cs
  · obtain ⟨e, found, same⟩ := Option.map_eq_some_iff.1 here
    obtain ⟨captured, ahead⟩ := Prod.mk.inj same
    rw [found]
    show e.group ++ e.ahead = _
    rw [captured, ahead, List.append_nil]

/-- `cs.replace(/\.$/, '')` -/
theorem replace_lastPoint {whole fraction : List Char} (digits : ∀ c ∈ whole, c.isDigit = true) (digits' : ∀ c ∈ fraction, c.isDigit = true) :
    lastPoint.replace (fun _ => []) (whole ++ '.' :: fraction) = if fraction = [] then whole else whole ++ '.' :: fraction := by
  have here : lastPoint.first ⟨whole.reverse ++ [], '.' :: fraction, []⟩ =
      if fraction.isEmpty then some ⟨'.' :: (whole.reverse ++ []), fraction, []⟩ else none := by
    rw [lastPoint, char, first_one_cons, if_pos (by decide), first_stop]
  rw [replace, replaceFrom_append fun c mem before cs => first_lastPoint_other (ne_point digits c mem) before cs, replaceFrom, here]
  cases fraction with
  | nil => rw [if_pos rfl]; exact List.append_nil _
  | cons c cs =>
    rw [if_neg (by simp), if_neg (by simp)]
    refine congrArg (whole ++ '.' :: ·) (replaceFrom_eq_self (fun d mem before cs => ?_) fun _ => rfl)
    exact first_lastPoint_other (ne_point digits' d mem) before cs

/-! ## Tests -/

theorem mem_ends_digitsUpTo {n : Nat} (pos : 0 < n) {p e : Place} : e ∈ (digitsUpTo n).ends p ↔ Reads (fun xs => digitRun n xs = true) p e := by
  rw [digitsUpTo, digit, mem_ends_one_seq mem_ends_upTo]
  refine reads_congr fun xs => ?_
  cases xs with
  | nil => simp [digitRun]
  | cons c cs =>
    have length : cs.length ≤ n - 1 ↔ cs.length + 1 ≤ n := by omega
    simp [digitRun, length, and_comm, and_left_comm]

theorem mem_ends_plus_digit {p e : Place} : e ∈ (Regex.plus digit).ends p ↔ Reads (fun xs => xs ≠ [] ∧ xs.all Char.isDigit = true) p e := by
  rw [plus, digit, mem_ends_one_seq mem_ends_star]
  refine reads_congr fun xs => ?_
  cases xs with
  | nil => simp
  | cons c cs => simp

/-- Digits, and perhaps a point and more digits, up to the end of the text. -/
theorem isSome_numeral {a b : Regex} {P Q : List Char → Prop} (mem : ∀ {p e}, e ∈ a.ends p ↔ Reads P p e)
    (mem' : ∀ {p e}, e ∈ b.ends p ↔ Reads Q p e) (before cs group : List Char) :
    ((Regex.seq a (.seq (.opt (.group (.seq (.char '.') b))) .stop)).first ⟨before, cs, group⟩).isSome = true ↔
      ∃ whole, P whole ∧ (cs = whole ∨ ∃ fraction, Q fraction ∧ cs = whole ++ '.' :: fraction) := by
  rw [first_isSome]
  constructor
  · rintro ⟨e, found⟩
    obtain ⟨m, first, rest⟩ := mem_ends_seq.1 found
    obtain ⟨m', second, third⟩ := mem_ends_seq.1 rest
    obtain ⟨stops, -⟩ := mem_ends_stop.1 third
    obtain ⟨whole, behind, ahead, digits, rfl⟩ := mem.1 first
    obtain rfl : cs = whole ++ behind := ahead
    refine ⟨whole, digits, ?_⟩
    rcases List.mem_append.1 second with grouped | none
    · obtain ⟨e', inside, rfl⟩ := List.mem_map.1 grouped
      obtain ⟨m'', point, more⟩ := mem_ends_seq.1 inside
      obtain ⟨c, after, rfl, is, rfl⟩ := mem_ends_one.1 point
      obtain rfl : c = '.' := of_decide_eq_true is
      obtain ⟨fraction, behind, ahead, digits', rfl⟩ := mem'.1 more
      obtain rfl : behind = [] := stops
      obtain rfl : after = fraction ++ [] := ahead
      rw [List.append_nil]
      exact .inr ⟨fraction, digits', rfl⟩
    · obtain rfl := List.mem_singleton.1 none
      obtain rfl : behind = [] := stops
      exact .inl (List.append_nil _)
  · rintro ⟨whole, digits, same | ⟨fraction, digits', rfl⟩⟩
    · subst same
      refine ⟨⟨cs.reverse ++ before, [], group⟩, mem_ends_seq.2 ⟨_, mem.2 ⟨cs, [], (List.append_nil _).symm, digits, rfl⟩, ?_⟩⟩
      exact mem_ends_seq.2 ⟨_, List.mem_append_right _ (List.mem_singleton_self _), mem_ends_stop.2 ⟨rfl, rfl⟩⟩
    · have point : (⟨'.' :: (whole.reverse ++ before), fraction, group⟩ : Place) ∈ (Regex.char '.').ends
        ⟨whole.reverse ++ before, '.' :: fraction, group⟩ :=
        mem_ends_one.2 ⟨'.', fraction, rfl, by decide, rfl⟩
      have inside := mem_ends_seq.2 ⟨_, point, mem'.2 ⟨fraction, [], (List.append_nil _).symm, digits', rfl⟩⟩
      have grouped : ∃ g, (⟨fraction.reverse ++ '.' :: (whole.reverse ++ before), [], g⟩ : Place) ∈
          (Regex.opt (.group (.seq (.char '.') b))).ends ⟨whole.reverse ++ before, '.' :: fraction, group⟩ :=
        ⟨_, List.mem_append_left _ (List.mem_map_of_mem inside)⟩
      obtain ⟨g, grouped⟩ := grouped
      exact ⟨_, mem_ends_seq.2 ⟨_, mem.2 ⟨whole, '.' :: fraction, rfl, digits, rfl⟩, mem_ends_seq.2 ⟨_, grouped, mem_ends_stop.2 ⟨rfl, rfl⟩⟩⟩⟩

theorem digits_of_digitRun {n : Nat} {cs : List Char} (h : digitRun n cs = true) : ∀ c ∈ cs, c.isDigit = true := by
  simp only [digitRun, Bool.and_eq_true, List.all_eq_true] at h
  exact h.1.1

/-- A numeral within bounds, by its parts. -/
theorem matchesDecimal_iff {m n : Nat} {s : String} : matchesDecimal m n s = true ↔
    ∃ whole, digitRun m whole = true ∧ (s.toList = whole ∨ ∃ fraction, digitRun n fraction = true ∧ s.toList = whole ++ '.' :: fraction) := by
  constructor
  · intro fits
    obtain ⟨whole, fraction, -, digits, -, hw, -, chars⟩ := numeral_chars fits
    rw [matchesDecimal, Bool.and_eq_true] at fits
    rcases chars with ⟨chars, -⟩ | chars
    · rw [chars, splitPoint_digits digits] at fits
      exact ⟨whole, fits.1, .inl chars⟩
    · rw [chars, splitPoint_append digits] at fits
      exact ⟨whole, fits.1, .inr ⟨fraction, fits.2, chars⟩⟩
  · rintro ⟨whole, digits, chars | ⟨fraction, digits', chars⟩⟩
    · rw [matchesDecimal, chars, splitPoint_digits (digits_of_digitRun digits), digits]
      rfl
    · rw [matchesDecimal, chars, splitPoint_append (digits_of_digitRun digits), digits, Option.all_some, digits']
      rfl

theorem isNumeral_iff {s : String} : isNumeral s = true ↔ ∃ whole, (whole ≠ [] ∧ whole.all Char.isDigit = true) ∧
    (s.toList = whole ∨ ∃ fraction, (fraction ≠ [] ∧ fraction.all Char.isDigit = true) ∧ s.toList = whole ++ '.' :: fraction) := by
  have run : ∀ {cs : List Char}, digitRun s.toList.length cs = true → cs ≠ [] ∧ cs.all Char.isDigit = true := by
    intro cs digits
    simp only [digitRun, Bool.and_eq_true, decide_eq_true_eq] at digits
    exact ⟨List.length_pos_iff.1 digits.1.2, digits.1.1⟩
  have run' : ∀ {cs : List Char}, cs ≠ [] ∧ cs.all Char.isDigit = true → cs.length ≤ s.toList.length → digitRun s.toList.length cs = true := by
    rintro cs ⟨some', all⟩ le
    simp only [digitRun, all, Bool.true_and, Bool.and_eq_true, decide_eq_true_eq]
    exact ⟨List.length_pos_iff.2 some', le⟩
  rw [isNumeral, matchesDecimal_iff]
  constructor
  · rintro ⟨whole, digits, chars | ⟨fraction, digits', chars⟩⟩
    · exact ⟨whole, run digits, .inl chars⟩
    · exact ⟨whole, run digits, .inr ⟨fraction, run digits', chars⟩⟩
  · rintro ⟨whole, digits, chars | ⟨fraction, digits', chars⟩⟩
    · exact ⟨whole, run' digits (by rw [chars]), .inl chars⟩
    · have length : s.toList.length = whole.length + (fraction.length + 1) := by rw [chars, List.length_append, List.length_cons]
      exact ⟨whole, run' digits (by omega), .inr ⟨fraction, run' digits' (by omega), chars⟩⟩

/-- `/^\d{1,m}(\.\d{1,n})?$/.test(s)` -/
theorem test_decimalPattern {m n : Nat} (pos : 0 < m) (pos' : 0 < n) (s : String) : (decimalPattern m n).test s.toList = matchesDecimal m n s := by
  rw [Bool.eq_iff_iff, decimalPattern, test_start_seq, isSome_numeral (mem_ends_digitsUpTo pos) (mem_ends_digitsUpTo pos'), matchesDecimal_iff]

/-- `/^-?\d+(\.\d+)?$/.test(s)` -/
theorem test_numeralPattern (s : String) : numeralPattern.test s.toList = true ↔
    isNumeral s = true ∨ ∃ rest, s.toList = '-' :: rest ∧ isNumeral (String.ofList rest) = true := by
  have numeral : ∀ cs before group, ((Regex.seq (.plus digit) (.seq (.opt (.group (.seq (.char '.') (.plus digit)))) .stop)).first
      ⟨before, cs, group⟩).isSome = isNumeral (String.ofList cs) := by
    intro cs before group
    rw [Bool.eq_iff_iff, isSome_numeral mem_ends_plus_digit mem_ends_plus_digit, isNumeral_iff, String.toList_ofList]
  have split : ∀ cs, ((Regex.opt (.char '-')).ends ⟨[], cs, []⟩) = (Regex.char '-').ends ⟨[], cs, []⟩ ++ [⟨[], cs, []⟩] := fun _ => rfl
  rw [numeralPattern, test_start_seq, first_seq, split, List.findSome?_append, List.findSome?_singleton, Option.isSome_or, Bool.or_eq_true,
    numeral, String.ofList_toList, or_comm]
  refine or_congr Iff.rfl ?_
  cases s.toList with
  | nil => simp [char, ends]
  | cons c cs =>
    have front : (Regex.char '-').ends ⟨[], c :: cs, []⟩ = if c = '-' then [⟨[c], cs, []⟩] else [] := by rw [char, ends_one_cons]; simp
    rw [front]
    by_cases sign : c = '-'
    · subst sign
      rw [if_pos rfl, List.findSome?_singleton, numeral]
      simp
    · rw [if_neg sign]
      simp [sign]

/-- `/^\d+$/.test(cs)` -/
theorem test_digits (cs : List Char) : (Regex.seq .start (.seq (.plus digit) .stop)).test cs = digitRun cs.length cs := by
  rw [test_start_seq, plus, first_seq_assoc, digit]
  cases cs with
  | nil => rfl
  | cons c cs =>
    rw [first_one_cons, first_run_stop]
    by_cases is : c.isDigit = true <;> by_cases all : cs.all Char.isDigit = true <;> simp [digitRun, is, all]

end AfriPay.Text
