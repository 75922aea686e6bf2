import AfriPay.Text.Grouping

/-!
# Canonical numerals

A number has one writing without a zero that could go, and one way of setting
commas: two canonical texts of one number are the same (`Canonical.unique`).
-/

namespace AfriPay.Text

/-- The digits before the point, without a zero in front that could go. -/
structure LeastWhole (cs : List Char) : Prop where
  digits : ∀ c ∈ cs, c.isDigit = true
  nonempty : cs ≠ []
  least : cs.length = 1 ∨ cs.head? ≠ some '0'

/-- At least `k` digits behind the point, and beyond these no zero that could go. -/
structure LeastFraction (k : Nat) (cs : List Char) : Prop where
  digits : ∀ c ∈ cs, c.isDigit = true
  enough : k ≤ cs.length
  least : cs.length = k ∨ cs.getLast? ≠ some '0'

/-- Up to three digits, and then groups of three with a comma before each. -/
def Grouped (cs : List Char) : Prop :=
  ∃ (first : List Char) (groups : List (List Char)), cs = first ++ groups.flatMap (',' :: ·) ∧ 1 ≤ first.length ∧ first.length ≤ 3 ∧
    (∀ c ∈ first, c.isDigit = true) ∧ ∀ g ∈ groups, g.length = 3 ∧ ∀ c ∈ g, c.isDigit = true

/-! ## Digits and their value -/

/-- Digit strings of one length and one value are the same. -/
theorem eq_of_digitsValue {cs ls : List Char} (length : cs.length = ls.length) (digits : ∀ c ∈ cs, c.isDigit = true)
    (digits' : ∀ c ∈ ls, c.isDigit = true) (value : digitsValue cs = digitsValue ls) : cs = ls := by
  induction cs generalizing ls with
  | nil => exact (List.length_eq_zero_iff.1 length.symm).symm
  | cons c cs ih =>
    cases ls with
    | nil => cases length
    | cons l ls =>
      have same : cs.length = ls.length := Nat.succ.inj length
      have low : digitsValue cs < 10 ^ ls.length := same ▸ digitsValue_lt fun c mem => digits c (List.mem_cons_of_mem _ mem)
      have low' : digitsValue ls < 10 ^ ls.length := digitsValue_lt fun c mem => digits' c (List.mem_cons_of_mem _ mem)
      have first := isDigit_iff.1 (digits c List.mem_cons_self)
      have first' := isDigit_iff.1 (digits' l List.mem_cons_self)
      rw [digitsValue_cons, digitsValue_cons, same] at value
      have high : c.toNat - 48 = l.toNat - 48 := by
        have div := congrArg (· / 10 ^ ls.length) value
        have pos : 0 < 10 ^ ls.length := Nat.pow_pos (by decide)
        simp only [Nat.mul_comm _ (10 ^ ls.length), Nat.mul_add_div pos, Nat.div_eq_of_lt low, Nat.div_eq_of_lt low',
          Nat.add_zero] at div
        exact div
      have equal : c = l := Char.toNat_inj.1 (by omega)
      rw [high, Nat.add_left_cancel_iff] at value
      rw [equal, ih same (fun c mem => digits c (List.mem_cons_of_mem _ mem)) (fun c mem => digits' c (List.mem_cons_of_mem _ mem)) value]

/-- Digits of a fixed number, from their value. -/
theorem padStart_digitsValue {cs : List Char} (digits : ∀ c ∈ cs, c.isDigit = true) (nonempty : cs ≠ []) :
    padStart cs.length (Nat.toDigits 10 (digitsValue cs)) = cs := by
  have short := (Nat.length_toDigits_le_iff (by decide : 1 < 10) (List.length_pos_iff.2 nonempty)).2 (digitsValue_lt digits)
  refine eq_of_digitsValue ?_ (padStart_isDigit _ _) digits ?_
  · rw [padStart, List.length_append, List.length_replicate]
    omega
  · rw [digitsValue_padStart, digitsValue_toDigits]

theorem LeastWhole.toDigits {cs : List Char} (h : LeastWhole cs) : Nat.toDigits 10 (digitsValue cs) = cs := by
  have padded := padStart_digitsValue h.digits h.nonempty
  have some' : 0 < (Nat.toDigits 10 (digitsValue cs)).length := Nat.length_toDigits_pos
  rw [padStart] at padded
  cases short : cs.length - (Nat.toDigits 10 (digitsValue cs)).length with
  | zero =>
    rw [short] at padded
    exact padded
  | succ n =>
    rw [short, List.replicate_succ, List.cons_append] at padded
    rcases h.least with one | other
    · omega
    · rw [← padded] at other
      exact (other rfl).elim

theorem leastWhole_toDigits (n : Nat) : LeastWhole (Nat.toDigits 10 n) := by
  refine ⟨toDigits_isDigit n, Nat.toDigits_ne_nil, ?_⟩
  by_contra both
  rw [not_or, not_not] at both
  obtain ⟨long, zero⟩ := both
  cases written : Nat.toDigits 10 n with
  | nil => exact Nat.toDigits_ne_nil written
  | cons c cs =>
    rw [written] at long zero
    obtain rfl : c = '0' := Option.some.inj zero
    have digits : ∀ c ∈ cs, c.isDigit = true := fun c mem => toDigits_isDigit n c (written ▸ List.mem_cons_of_mem _ mem)
    have value : n = digitsValue cs := by
      have whole := digitsValue_toDigits n
      rw [written, digitsValue_cons] at whole
      simpa using whole.symm
    have some' : 0 < cs.length := by
      rw [List.length_cons] at long
      omega
    have short := (Nat.length_toDigits_le_iff (by decide : 1 < 10) some').2 (value ▸ digitsValue_lt digits)
    rw [written, List.length_cons] at short
    omega

/-- Taking the zeros in front away leaves the digits of the value. -/
theorem leastWhole_stripZeros {cs : List Char} (digits : ∀ c ∈ cs, c.isDigit = true) (nonempty : cs ≠ []) : LeastWhole (stripZeros cs) := by
  refine ⟨fun c mem => digits c ((stripZeros_suffix cs).subset mem), stripZeros_ne_nil nonempty, ?_⟩
  fun_induction stripZeros cs with
  | case1 c cs is ih => exact ih (fun d mem => digits d (List.mem_cons_of_mem _ mem)) (List.cons_ne_nil _ _)
  | case2 c cs other => exact (other (digits c (by simp))).elim
  | case3 cs other =>
    cases cs with
    | nil => exact (nonempty rfl).elim
    | cons c cs =>
      cases cs with
      | nil => exact .inl rfl
      | cons d ds => exact .inr fun zero => other d ds (by rw [Option.some.inj zero])

theorem getLast?_dropZeros (cs : List Char) : (cs.rdropWhile (· = '0')).getLast? ≠ some '0' := by
  by_cases none : cs.rdropWhile (· = '0') = []
  · rw [none]
    rintro ⟨⟩
  · have last := List.rdropWhile_last_not _ cs none
    rw [List.getLast?_eq_some_getLast none]
    intro zero
    exact last (by rw [Option.some.inj zero]; decide)

theorem leastFraction_padEnd {k : Nat} {cs : List Char} (digits : ∀ c ∈ cs, c.isDigit = true) :
    LeastFraction k (padEnd k (cs.rdropWhile (· = '0'))) := by
  have length := length_padEnd k (cs.rdropWhile (· = '0'))
  refine ⟨isDigit_padEnd fun c mem => digits c ((List.rdropWhile_prefix _ _).subset mem), by omega, ?_⟩
  by_cases short : (cs.rdropWhile (· = '0')).length ≤ k
  · exact .inl (by omega)
  · right
    rw [padEnd, Nat.sub_eq_zero_of_le (by omega), List.replicate_zero, List.append_nil]
    exact getLast?_dropZeros cs

/-! ## Setting commas -/

theorem run_digits {cs : List Char} (digits : ∀ c ∈ cs, c.isDigit = true) : (cs.takeWhile Char.isDigit).length = cs.length := by
  rw [List.takeWhile_eq_self_iff.2 digits]

theorem isWord_digit {c : Char} (is : c.isDigit = true) : isWord c = true := by
  simp [isWord, Char.isAlphanum, is]

/-- Before the first digit there is no comma, before another if the number of digits from there on is a multiple of three. -/
theorem insertCommas_cons {prev : Option Char} {c : Char} {cs : List Char} (before : ∀ p ∈ prev, p.isDigit = true)
    (digits : ∀ d ∈ c :: cs, d.isDigit = true) :
    insertCommas prev (c :: cs) = (if prev.isSome ∧ (cs.length + 1) % 3 = 0 then [','] else []) ++ c :: insertCommas (some c) cs := by
  have word : isWord c = true := isWord_digit (digits c List.mem_cons_self)
  have inside : insideWord prev c = prev.isSome := by
    cases prev with
    | none => rw [insideWord, word]; rfl
    | some p => rw [insideWord, word, Option.any_some, isWord_digit (before p rfl)]; rfl
  have ahead : aheadOfTriples (c :: cs) = decide ((cs.length + 1) % 3 = 0) := by
    rw [aheadOfTriples, run_digits digits, List.length_cons]
    by_cases multiple : (cs.length + 1) % 3 = 0
    · simp only [multiple, decide_true, Bool.and_true, decide_eq_true_eq]
      omega
    · simp [multiple]
  rw [insertCommas, inside, ahead]
  by_cases comma : prev.isSome = true ∧ (cs.length + 1) % 3 = 0
  · simp [comma.1, comma.2]
  · rw [if_neg comma, if_neg (by simpa using comma)]
    rfl

/-- After a digit, and with as many digits ahead, there are groups only. -/
theorem insertCommas_groups {p : Char} {cs : List Char} (digit : p.isDigit = true) (digits : ∀ c ∈ cs, c.isDigit = true)
    (multiple : cs.length % 3 = 0) :
    ∃ groups : List (List Char), insertCommas (some p) cs = groups.flatMap (',' :: ·) ∧ ∀ g ∈ groups, g.length = 3 ∧ ∀ c ∈ g, c.isDigit = true := by
  induction h : cs.length using Nat.strongRecOn generalizing p cs with
  | _ n ih =>
    rcases cs with - | ⟨a, - | ⟨b, - | ⟨c, rest⟩⟩⟩
    · exact ⟨[], rfl, by simp⟩
    · cases multiple
    · cases multiple
    · simp only [List.length_cons] at multiple h
      simp only [List.mem_cons, forall_eq_or_imp] at digits
      obtain ⟨ha, hb, hc, digits⟩ := digits
      obtain ⟨groups, rest', threes⟩ := ih rest.length (by omega) hc digits (by omega) rfl
      refine ⟨[a, b, c] :: groups, ?_, ?_⟩
      · rw [insertCommas_cons (by simpa using digit) (by simpa using ⟨ha, hb, hc, digits⟩), insertCommas_cons (by simpa using ha)
          (by simpa using ⟨hb, hc, digits⟩),
          insertCommas_cons (by simpa using hb) (by simpa using ⟨hc, digits⟩), rest', if_pos, if_neg, if_neg]
        · rfl
        all_goals simp only [Option.isSome_some, true_and, List.length_cons]; omega
      · intro g mem
        rcases List.mem_cons.1 mem with rfl | mem
        · exact ⟨rfl, by simp [ha, hb, hc]⟩
        · exact threes g mem

/-- There is a comma before every group of three. -/
theorem grouped_insertCommas {cs : List Char} (digits : ∀ c ∈ cs, c.isDigit = true) (nonempty : cs ≠ []) : Grouped (insertCommas none cs) := by
  obtain ⟨a, cs, rfl⟩ := List.exists_cons_of_ne_nil nonempty
  rw [insertCommas_cons (by simp) digits, if_neg (by simp), List.nil_append]
  simp only [List.mem_cons, forall_eq_or_imp] at digits
  obtain ⟨ha, digits⟩ := digits
  have left : cs.length % 3 = 0 ∨ cs.length % 3 = 1 ∨ cs.length % 3 = 2 := by omega
  rcases left with zero | one | two
  · obtain ⟨groups, rest, threes⟩ := insertCommas_groups ha digits zero
    exact ⟨[a], groups, by rw [rest]; rfl, by simp, by simp, by simpa using ha, threes⟩
  · obtain ⟨b, cs, rfl⟩ := List.exists_cons_of_length_pos (by omega : 0 < cs.length)
    rw [insertCommas_cons (by simpa using ha) digits, if_neg (by rw [List.length_cons] at one; omega)]
    simp only [List.mem_cons, forall_eq_or_imp] at digits
    obtain ⟨hb, digits⟩ := digits
    obtain ⟨groups, rest, threes⟩ := insertCommas_groups hb digits (by rw [List.length_cons] at one; omega)
    exact ⟨[a, b], groups, by rw [rest]; rfl, by simp, by simp, by simp [ha, hb], threes⟩
  · obtain ⟨b, cs, rfl⟩ := List.exists_cons_of_length_pos (by omega : 0 < cs.length)
    rw [List.length_cons] at two
    rw [insertCommas_cons (by simpa using ha) digits, if_neg (by omega)]
    simp only [List.mem_cons, forall_eq_or_imp] at digits
    obtain ⟨hb, digits⟩ := digits
    obtain ⟨c, cs, rfl⟩ := List.exists_cons_of_length_pos (by omega : 0 < cs.length)
    rw [List.length_cons] at two
    rw [insertCommas_cons (by simpa using hb) digits, if_neg (by omega)]
    simp only [List.mem_cons, forall_eq_or_imp] at digits
    obtain ⟨hc, digits⟩ := digits
    obtain ⟨groups, rest, threes⟩ := insertCommas_groups hc digits (by omega)
    exact ⟨[a, b, c], groups, by rw [rest]; rfl, by simp, by simp, by simp [ha, hb, hc], threes⟩

/-! ## One text for each number -/

/-- What is left of grouped digits without the commas. -/
theorem grouped_filter {first : List Char} {groups : List (List Char)} (digits : ∀ c ∈ first, c.isDigit = true)
    (threes : ∀ g ∈ groups, g.length = 3 ∧ ∀ c ∈ g, c.isDigit = true) :
    (first ++ groups.flatMap (',' :: ·)).filter (· ≠ ',') = first ++ groups.flatten := by
  rw [List.filter_append, digits_ne_comma digits, List.filter_flatMap]
  congr 1
  rw [← List.flatMap_id]
  refine List.flatMap_congr fun g mem => ?_
  rw [List.filter_cons_of_neg (by decide)]
  exact digits_ne_comma (threes g mem).2

theorem flatten_inj_of_length {groups groups' : List (List Char)} {k : Nat} (pos : 0 < k) (length : ∀ g ∈ groups, g.length = k)
    (length' : ∀ g ∈ groups', g.length = k) (same : groups.flatten = groups'.flatten) : groups = groups' := by
  induction groups generalizing groups' with
  | nil =>
    cases groups' with
    | nil => rfl
    | cons g gs =>
      have none : g = [] := (List.append_eq_nil_iff.1 same.symm).1
      have three := length' g List.mem_cons_self
      rw [none, List.length_nil] at three
      omega
  | cons g gs ih =>
    cases groups' with
    | nil =>
      have none : g = [] := (List.append_eq_nil_iff.1 same).1
      have three := length g List.mem_cons_self
      rw [none, List.length_nil] at three
      omega
    | cons g' gs' =>
      rw [List.flatten_cons, List.flatten_cons] at same
      obtain ⟨rfl, rest⟩ := List.append_inj same ((length g List.mem_cons_self).trans (length' g' List.mem_cons_self).symm)
      rw [ih (fun h mem => length h (List.mem_cons_of_mem _ mem)) (fun h mem => length' h (List.mem_cons_of_mem _ mem)) rest]

/-- Digits are grouped in one way. -/
theorem Grouped.unique {cs cs' : List Char} (h : Grouped cs) (h' : Grouped cs') (same : cs.filter (· ≠ ',') = cs'.filter (· ≠ ',')) : cs = cs' := by
  obtain ⟨first, groups, rfl, some', few, digits, threes⟩ := h
  obtain ⟨first', groups', rfl, some'', few', digits', threes'⟩ := h'
  rw [grouped_filter digits threes, grouped_filter digits' threes'] at same
  have multiple : ∀ {groups : List (List Char)}, (∀ g ∈ groups, g.length = 3 ∧ ∀ c ∈ g, c.isDigit = true) → ∃ n, groups.flatten.length = 3 * n := by
    intro groups threes
    induction groups with
    | nil => exact ⟨0, rfl⟩
    | cons g gs ih =>
      obtain ⟨n, rest⟩ := ih fun h mem => threes h (List.mem_cons_of_mem _ mem)
      refine ⟨n + 1, ?_⟩
      rw [List.flatten_cons, List.length_append, (threes g List.mem_cons_self).1, rest]
      omega
  obtain ⟨n, length⟩ := multiple threes
  obtain ⟨n', length'⟩ := multiple threes'
  have total := congrArg List.length same
  rw [List.length_append, List.length_append, length, length'] at total
  obtain ⟨rfl, rest⟩ := List.append_inj same (by omega)
  rw [flatten_inj_of_length (by decide : 0 < 3) (fun g mem => (threes g mem).1) (fun g mem => (threes' g mem).1) rest]

theorem padEnd_length_le {k : Nat} {f g : List Char} (h : LeastFraction k f) (h' : LeastFraction k g) {n : Nat} (le : g.length ≤ n)
    (same : padEnd n f = padEnd n g) : g.length ≤ f.length := by
  by_contra longer
  rcases h'.least with least | last
  · have := h.enough
    omega
  · have prefix' : g = (f ++ List.replicate (n - f.length) '0').take g.length := by
      have taken := congrArg (List.take g.length) same
      rw [padEnd, padEnd, List.take_left' rfl] at taken
      exact taken.symm
    rw [List.take_append, List.take_of_length_le (by omega), List.take_replicate] at prefix'
    apply last
    rw [prefix', List.getLast?_append, List.getLast?_replicate, if_neg (by omega)]
    rfl

/-- Fractions without a zero that could go are the same if they are with zeros. -/
theorem LeastFraction.unique {k : Nat} {f g : List Char} (h : LeastFraction k f) (h' : LeastFraction k g) {n : Nat} (le : f.length ≤ n)
    (le' : g.length ≤ n) (same : padEnd n f = padEnd n g) : f = g := by
  have shorter := padEnd_length_le h h' le' same
  have longer := padEnd_length_le h' h le same.symm
  exact (List.append_inj same (by omega)).1

/-- A text shows a number canonically: grouped digits, a point and at least two
decimals, without a zero that could go. -/
structure Canonical (shown : String) (x : ℚ) : Prop where
  denotes : Denotes shown x
  form : ∃ grouped fraction : List Char, shown.toList = grouped ++ '.' :: fraction ∧ Grouped grouped ∧
    LeastWhole (grouped.filter (· ≠ ',')) ∧ LeastFraction 2 fraction

/-- **There is one canonical text of a number.** -/
theorem Canonical.unique {s s' : String} {x : ℚ} (h : Canonical s x) (h' : Canonical s' x) : s = s' := by
  obtain ⟨grouped, fraction, chars, groups, least, least'⟩ := h.form
  obtain ⟨grouped', fraction', chars', groups', leastW, leastF⟩ := h'.form
  have parts : ∀ {t : String} {g f : List Char}, t.toList = g ++ '.' :: f → LeastWhole (g.filter (· ≠ ',')) → LeastFraction 2 f →
      wholePart (withoutCommas t) = g.filter (· ≠ ',') ∧ fractionPart (withoutCommas t) = f := by
    intro t g f chars whole fraction
    have split := @splitPoint_append (g.filter (· ≠ ',')) f whole.digits
    rw [wholePart, fractionPart, withoutCommas, String.toList_ofList, chars, List.filter_append, List.filter_cons_of_pos (by decide),
      digits_ne_comma fraction.digits, split]
    exact ⟨rfl, rfl⟩
  obtain ⟨hw, hf⟩ := parts chars least least'
  obtain ⟨hw', hf'⟩ := parts chars' leastW leastF
  -- as many units of the least decimal of either
  have long : fraction.length ≤ max fraction.length fraction'.length := le_max_left ..
  have long' : fraction'.length ≤ max fraction.length fraction'.length := le_max_right ..
  generalize max fraction.length fraction'.length = n at long long'
  have units : scaledValue n (withoutCommas s) = scaledValue n (withoutCommas s') := by
    have value := scaledValue_eq (k := n) (s := withoutCommas s) (by rw [hf]; exact long)
    have value' := scaledValue_eq (k := n) (s := withoutCommas s') (by rw [hf']; exact long')
    rw [h.denotes.2] at value
    rw [h'.denotes.2, ← value] at value'
    exact_mod_cast value'.symm
  have length : ∀ {f : List Char}, f.length ≤ n → (padEnd n f).length = n := fun le => (length_padEnd n _).trans (max_eq_left le)
  have low : digitsValue (padEnd n fraction) < 10 ^ n := (digitsValue_lt (isDigit_padEnd least'.digits)).trans_eq (by rw [length long])
  have low' : digitsValue (padEnd n fraction') < 10 ^ n := (digitsValue_lt (isDigit_padEnd leastF.digits)).trans_eq (by rw [length long'])
  rw [scaledValue, scaledValue, hw, hw', hf, hf', Nat.mul_comm, Nat.mul_comm (digitsValue (grouped'.filter _))] at units
  have wholes : digitsValue (grouped.filter (· ≠ ',')) = digitsValue (grouped'.filter (· ≠ ',')) := by
    have div := congrArg (· / 10 ^ n) units
    have pos : 0 < 10 ^ n := Nat.pow_pos (by decide)
    simpa only [Nat.mul_add_div pos, Nat.div_eq_of_lt low, Nat.div_eq_of_lt low', Nat.add_zero] using div
  have fractions : padEnd n fraction = padEnd n fraction' := by
    rw [wholes, Nat.add_left_cancel_iff] at units
    exact eq_of_digitsValue ((length long).trans (length long').symm) (isDigit_padEnd least'.digits) (isDigit_padEnd leastF.digits) units
  have sameWhole : grouped = grouped' := groups.unique groups' (by rw [← least.toDigits, ← leastW.toDigits, wholes])
  have sameFraction : fraction = fraction' := least'.unique leastF long long' fractions
  rw [← String.ofList_toList (s := s), ← String.ofList_toList (s := s'), chars, chars', sameWhole, sameFraction]

end AfriPay.Text
