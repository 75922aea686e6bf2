import AfriPay.Text.Canonical
import AfriPay.Text.Doubles
import AfriPay.Text.JsonText

/-!
# JSON read back

What `JSON.stringify` writes `JSON.parse` reads as the same value
(`jsonParse_stringify`): the tokens of a value are parsed as it, whatever it is part
of, and tokens that can be parsed never put two values side by side, so each is
found again among the characters.
-/

namespace AfriPay.Text

mutual

/-- Objects name a property once, and numbers are as `numeric` says. -/
def Json.WellFormed (numeric : JsNumber → Prop) : Json → Prop
  | .num x => numeric x
  | .arr xs => ItemsWellFormed numeric xs
  | .obj fields => (fields.map Prod.fst).Nodup ∧ FieldsWellFormed numeric fields
  | _ => True

def ItemsWellFormed (numeric : JsNumber → Prop) : List Json → Prop
  | [] => True
  | x :: xs => x.WellFormed numeric ∧ ItemsWellFormed numeric xs

def FieldsWellFormed (numeric : JsNumber → Prop) : List (JsString × Json) → Prop
  | [] => True
  | (_, v) :: fields => v.WellFormed numeric ∧ FieldsWellFormed numeric fields

end

variable {numeric : JsNumber → Prop}

/-! ## Tokens parsed -/

/-- A new name comes last. -/
theorem putField_new {fields : List (JsString × Json)} {key : JsString} (new : key ∉ fields.map Prod.fst) (v : Json) :
    putField fields key v = fields ++ [(key, v)] := by
  rw [putField, if_neg]
  intro has
  obtain ⟨f, mem, same⟩ := List.any_eq_true.1 has
  exact new (List.mem_map.2 ⟨f, mem, of_decide_eq_true same⟩)

/-- A value's first token begins it after `[` too. -/
theorem feed_first (v : Json) (stack : List Frame) (rest : List Token) :
    parser.feed (.first stack) (v.tokens ++ rest) = parser.feed (.value (.array [] :: stack)) (v.tokens ++ rest) := by
  cases v with
  | arr xs => cases xs <;> rfl
  | obj fields => cases fields <;> rfl
  | _ => rfl

/-- A name, with what must follow it. -/
theorem feed_name (fields : List (JsString × Json)) (begun : Bool) (key : JsString) (stack : List Frame) (rest : List Token) :
    parser.feed (.name fields begun stack) (.value key.json :: .mark .colon :: rest) =
      parser.feed (.value (.object fields key :: stack)) rest := by
  cases key <;> rfl

mutual

/-- The tokens of a value are parsed as it. -/
theorem parser_tokens (v : Json) (wellFormed : v.WellFormed numeric) (stack : List Frame) (rest : List Token) :
    parser.feed (.value stack) (v.tokens ++ rest) = parser.feed (.after v stack) rest := by
  match v with
  | .null | .bool _ | .num _ | .str _ | .lone _ => rfl
  | .arr [] => rfl
  | .obj [] => rfl
  | .arr (x :: xs) =>
    obtain ⟨wx, wxs⟩ := wellFormed
    have first := parser_tokens x wx (.array [] :: stack) (itemTokens xs ++ rest)
    have others := parser_itemTokens xs wxs [] x stack rest
    rw [← feed_first] at first
    rw [Json.tokens, List.cons_append, List.append_assoc]
    exact first.trans others
  | .obj ((key, v) :: fields) =>
    obtain ⟨distinct, wv, wfields⟩ := wellFormed
    have first := parser_tokens v wv (.object [] key :: stack) (fieldTokens fields ++ rest)
    have others := parser_fieldTokens fields wfields [] key v stack rest distinct
    rw [Json.tokens, List.cons_append, List.cons_append, List.cons_append, List.append_assoc]
    exact (feed_name [] true key stack _).trans (first.trans others)

theorem parser_itemTokens (xs : List Json) (wellFormed : ItemsWellFormed numeric xs) (done : List Json) (x : Json) (stack : List Frame)
    (rest : List Token) : parser.feed (.after x (.array done :: stack)) (itemTokens xs ++ rest) =
      parser.feed (.after (.arr (done ++ x :: xs)) stack) rest := by
  match xs with
  | [] => rfl
  | y :: ys =>
    obtain ⟨wy, wys⟩ := wellFormed
    have next := parser_tokens y wy (.array (done ++ [x]) :: stack) (itemTokens ys ++ rest)
    have others := parser_itemTokens ys wys (done ++ [x]) y stack rest
    rw [itemTokens, List.cons_append, List.append_assoc]
    rw [List.append_assoc] at others
    exact next.trans others

theorem parser_fieldTokens (fields : List (JsString × Json)) (wellFormed : FieldsWellFormed numeric fields) (done : List (JsString × Json))
    (key : JsString)
    (v : Json) (stack : List Frame) (rest : List Token) (distinct : (done.map Prod.fst ++ key :: fields.map Prod.fst).Nodup) :
    parser.feed (.after v (.object done key :: stack)) (fieldTokens fields ++ rest) =
      parser.feed (.after (.obj (done ++ (key, v) :: fields)) stack) rest := by
  have new : putField done key v = done ++ [(key, v)] :=
    putField_new (fun old => (List.nodup_append.1 distinct).2.2 _ old _ List.mem_cons_self rfl) v
  match fields with
  | [] =>
    change parser.feed (.after (.obj (putField done key v)) stack) rest = _
    rw [new]
  | (key', v') :: fields =>
    obtain ⟨wv, wfields⟩ := wellFormed
    have next := parser_tokens v' wv (.object (done ++ [(key, v)]) key' :: stack) (fieldTokens fields ++ rest)
    have others := parser_fieldTokens fields wfields (done ++ [(key, v)]) key' v' stack rest
      (by simpa [List.map_append, List.append_assoc] using distinct)
    rw [fieldTokens, List.cons_append, List.cons_append, List.cons_append, List.append_assoc]
    change parser.feed (.name (putField done key v) false stack) _ = _
    rw [List.append_assoc] at others
    rw [feed_name, new]
    exact next.trans others

end

/-! ## Tokens side by side -/

/-- No value directly after another. -/
def Apart : List Token → Prop
  | .value _ :: .value _ :: _ => False
  | _ :: ts => Apart ts
  | [] => True

theorem step_value_value {p q : Reading} {v : Json} (stepped : p.step (.value v) = some q) (w : Json) : q.step (.value w) = none := by
  cases p with
  | value stack | first stack =>
    obtain rfl := Option.some.inj stepped
    cases stack with
    | nil => rfl
    | cons f _ => cases f <;> rfl
  | name fields begun stack =>
    cases v with
    | str key | lone key =>
      obtain rfl := Option.some.inj stepped
      rfl
    | _ => cases begun <;> cases stepped
  | colon => cases stepped
  | after u stack =>
    cases stack with
    | nil => cases stepped
    | cons f _ => cases f <;> cases stepped

/-- What can be parsed keeps values apart. -/
theorem apart_of_feed {ts : List Token} {p q : Reading} (whole : parser.feed p ts = some q) : Apart ts := by
  induction ts generalizing p with
  | nil => trivial
  | cons t ts ih =>
    obtain ⟨r, stepped, reads⟩ := Option.bind_eq_some_iff.1 whole
    have rest := ih reads
    cases t with
    | mark m => exact rest
    | value v =>
      cases ts with
      | nil => trivial
      | cons u us =>
        cases u with
        | mark m => exact rest
        | value w =>
          obtain ⟨_, next, -⟩ := Option.bind_eq_some_iff.1 reads
          cases (step_value_value stepped w).symm.trans next

/-! ## Characters made into tokens -/

theorem radixDigit_hexDigit : ∀ n < 16, radixDigit 16 (hexDigit n) = some n := by decide

/-- A character of a string is read back, whatever stands before it. -/
theorem lexer_quotedChar (ts : List Token) (us : List CodeUnit) (c : Char) :
    lexer.feed ⟨ts, .quoted us⟩ (quotedChar c) = some ⟨ts, .quoted (us ++ charUnits c)⟩ := by
  rw [quotedChar]
  split
  case h_8 quote backslash _ _ _ _ _ =>
    split
    case isTrue control =>
      have high := radixDigit_hexDigit (c.toNat / 16) (by omega)
      have low := radixDigit_hexDigit (c.toNat % 16) (by omega)
      have code : 16 * (c.toNat / 16) + c.toNat % 16 = c.toNat := by omega
      change ((radixDigit 16 (hexDigit (c.toNat / 16))).map fun d => (⟨ts, .coded us (16 * 0 + d) 1⟩ : LexState)).bind _ = _
      rw [high]
      change ((radixDigit 16 (hexDigit (c.toNat % 16))).map fun d =>
        (⟨ts, .quoted (us ++ [.ofNat (16 * (16 * 0 + c.toNat / 16) + d)])⟩ : LexState)).bind _ = _
      rw [low, Nat.mul_zero, Nat.zero_add]
      change some (⟨ts, .quoted (us ++ [.ofNat (16 * (c.toNat / 16) + c.toNat % 16)])⟩ : LexState) = _
      rw [code, charUnits, if_pos (by omega)]
    case isFalse other =>
      have plain : c ≠ '"' ∧ c ≠ '\\' := ⟨fun same => quote (same ▸ rfl), fun same => backslash (same ▸ rfl)⟩
      rw [Scanner.feed_cons]
      change ((LexState.mk ts (.quoted us)).step c).bind _ = _
      simp only [LexState.step, if_neg plain.1, if_neg plain.2, if_neg other]
      rfl
  all_goals
    rename_i code
    rw [charUnits, code]
    rfl

/-- So is half of a surrogate pair, from its four digits. -/
theorem lexer_quotedHalf (ts : List Token) (us : List CodeUnit) (u : CodeUnit) :
    lexer.feed ⟨ts, .quoted us⟩ (quotedPoint (.half u)) = some ⟨ts, .quoted (us ++ [u])⟩ := by
  have bound := u.toNat_lt
  have digit := fun n => radixDigit_hexDigit n
  change ((radixDigit 16 (hexDigit (u.toNat / 0x1000))).map fun d => (⟨ts, .coded us (16 * 0 + d) 3⟩ : LexState)).bind _ = _
  rw [digit _ (by omega)]
  change ((radixDigit 16 (hexDigit (u.toNat / 0x100 % 16))).map fun d =>
    (⟨ts, .coded us (16 * (16 * 0 + u.toNat / 0x1000) + d) 2⟩ : LexState)).bind _ = _
  rw [digit _ (by omega), Nat.mul_zero, Nat.zero_add]
  change ((radixDigit 16 (hexDigit (u.toNat / 0x10 % 16))).map fun d =>
    (⟨ts, .coded us (16 * (16 * (u.toNat / 0x1000) + u.toNat / 0x100 % 16) + d) 1⟩ : LexState)).bind _ = _
  rw [digit _ (by omega)]
  change ((radixDigit 16 (hexDigit (u.toNat % 16))).map fun d => (⟨ts, .quoted (us ++
    [.ofNat (16 * (16 * (16 * (u.toNat / 0x1000) + u.toNat / 0x100 % 16) + u.toNat / 0x10 % 16) + d)])⟩ : LexState)).bind _ = _
  rw [digit _ (by omega)]
  have code : 16 * (16 * (16 * (u.toNat / 0x1000) + u.toNat / 0x100 % 16) + u.toNat / 0x10 % 16) + u.toNat % 16 = u.toNat := by omega
  change some (⟨ts, .quoted (us ++
    [.ofNat (16 * (16 * (16 * (u.toNat / 0x1000) + u.toNat / 0x100 % 16) + u.toNat / 0x10 % 16) + u.toNat % 16)])⟩ : LexState) = _
  rw [code, UInt16.ofNat_toNat]

theorem lexer_quotedPoint (ts : List Token) (us : List CodeUnit) (p : CodePoint) :
    lexer.feed ⟨ts, .quoted us⟩ (quotedPoint p) = some ⟨ts, .quoted (us ++ p.units)⟩ := by
  cases p with
  | char c => exact lexer_quotedChar ts us c
  | half u => exact lexer_quotedHalf ts us u

theorem lexer_quoted (ts : List Token) (s : JsString) :
    lexer.feed ⟨ts, .between⟩ (quoted s) = some ⟨ts ++ [.value s.json], .between⟩ := by
  have one : ∀ done : List CodePoint, ∀ p ∈ s.codePoints,
      lexer.feed ⟨ts, .quoted (done.flatMap CodePoint.units)⟩ (quotedPoint p) =
        some ⟨ts, .quoted ((done ++ [p]).flatMap CodePoint.units)⟩ := by
    intro done p _
    rw [List.flatMap_append, List.flatMap_singleton]
    exact lexer_quotedPoint ts _ p
  have ending : lexer.feed ⟨ts, .quoted (s.codePoints.flatMap CodePoint.units)⟩ ['"'] =
      some ⟨ts ++ [.value (JsString.ofUnits (s.codePoints.flatMap CodePoint.units)).json], .between⟩ := rfl
  rw [JsString.codePoints, units_codePoints, JsString.ofUnits_units] at ending
  have points := lexer.feed_flatMap one []
  rw [List.nil_append, JsString.codePoints, units_codePoints] at points
  exact (lexer.feed_append_of points ['"']).trans ending

/-- A character of a literal. -/
def isBare (c : Char) : Bool := (markOf c).isNone && !isJsonSpace c && c ≠ '"'

theorem stepOutside_bare {s : LexState} {c : Char} (bare : isBare c = true) :
    s.stepOutside c = some ⟨s.tokens, .bare (s.pending ++ [c])⟩ := by
  simp only [isBare, Bool.and_eq_true, Bool.not_eq_true', decide_eq_true_eq, Option.isNone_iff_eq_none] at bare
  obtain ⟨⟨mark, space⟩, quote⟩ := bare
  simp only [LexState.stepOutside, mark, space, if_neg quote]
  rfl

theorem lexer_bare {ts : List Token} {cs : List Char} (bare : ∀ c ∈ cs, isBare c = true) (nonempty : cs ≠ []) :
    lexer.feed ⟨ts, .between⟩ cs = some ⟨ts, .bare cs⟩ := by
  cases cs with
  | nil => exact (nonempty rfl).elim
  | cons c cs =>
    have one : ∀ done : List Char, ∀ d ∈ cs, lexer.feed ⟨ts, .bare (c :: done)⟩ [d] = some ⟨ts, .bare (c :: (done ++ [d]))⟩ := by
      intro done d mem
      exact congrArg (·.bind some) (stepOutside_bare (s := ⟨ts, .bare (c :: done)⟩) (bare d (List.mem_cons_of_mem _ mem)))
    have others := lexer.feed_flatMap one []
    rw [List.flatMap_singleton'] at others
    have first : lexer.feed ⟨ts, .between⟩ [c] = some ⟨ts, .bare [c]⟩ :=
      congrArg (·.bind some) (stepOutside_bare (s := ⟨ts, .between⟩) (bare c List.mem_cons_self))
    exact (lexer.feed_append_of first cs).trans others

/-! ## Literals -/

/-- Digits without a zero in front that could go are a JSON number. -/
theorem test_jsonNumeral {cs : List Char} (least : LeastWhole cs) : jsonNumeral.test cs = true := by
  have skip : ∀ (a : Regex) (p : Place), p ∈ (Regex.opt a).ends p := fun _ _ => List.mem_append_right _ (List.mem_singleton.2 rfl)
  have digits : ⟨cs.reverse, [], []⟩ ∈
      (Regex.alt (.char '0') (.seq (.one fun c => '1' ≤ c ∧ c ≤ '9') (.star true digit))).ends ⟨[], cs, []⟩ := by
    obtain ⟨c, cs, rfl⟩ := List.exists_cons_of_ne_nil least.nonempty
    have isDigit := least.digits c List.mem_cons_self
    by_cases zero : c = '0'
    · have alone : cs = [] := by
        rcases least.least with one | other
        · exact List.length_eq_zero_iff.1 (Nat.succ.inj one)
        · exact (other (congrArg some zero)).elim
      subst alone zero
      exact List.mem_append_left _ (Regex.mem_ends_one.2 ⟨'0', [], rfl, rfl, rfl⟩)
    · have first : decide ('1' ≤ c ∧ c ≤ '9') = true := by
        have range := isDigit_iff.1 isDigit
        have other : c.toNat ≠ 48 := fun same => zero (Char.toNat_inj.1 same)
        exact decide_eq_true ⟨show 49 ≤ c.toNat by omega, range.2⟩
      have rest : cs.all Char.isDigit = true := List.all_eq_true.2 fun d mem => least.digits d (List.mem_cons_of_mem _ mem)
      refine List.mem_append_right _ (Regex.mem_ends_seq.2 ⟨_, Regex.mem_ends_one.2 ⟨c, cs, rfl, first, rfl⟩, ?_⟩)
      exact Regex.mem_ends_star.2 ⟨cs, [], (List.append_nil cs).symm, rest, by simp⟩
  rw [jsonNumeral, Regex.test_start_seq, Regex.first_isSome]
  exact ⟨_, Regex.mem_ends_seq.2 ⟨_, skip _ _, Regex.mem_ends_seq.2 ⟨_, digits, Regex.mem_ends_seq.2 ⟨_, skip _ _,
    Regex.mem_ends_seq.2 ⟨_, skip _ _, Regex.mem_ends_stop.2 ⟨rfl, rfl⟩⟩⟩⟩⟩⟩

theorem isBare_digit {c : Char} (is : c.isDigit = true) : isBare c = true := by
  have range := isDigit_iff.1 is
  have all : ∀ k < 58, 48 ≤ k → isBare (Char.ofNat k) = true := by decide
  rw [← Char.ofNat_toNat c]
  exact all c.toNat (by omega) range.1

/-- A number that is read back from its text. -/
structure Readable (x : JsNumber) : Prop where
  bare : ∀ c ∈ (numberText x).toList, isBare c = true
  value : bareValue (numberText x).toList = some (.num x)

theorem Readable.finite {x : JsNumber} (readable : Readable x) : ∃ q, x = .finite q := by
  have value := readable.value
  cases x with
  | nan => cases value.symm.trans (show bareValue "NaN".toList = none from rfl)
  | inf negative => cases negative <;> cases value.symm.trans (show _ = none from rfl)
  | finite q => exact ⟨q, rfl⟩

/-- Whole numbers of at most fifteen digits are. -/
theorem readable_natCast {n : Nat} (small : n < 10 ^ 15) : Readable (.finite n) := by
  have word : ∀ w : String, w.toList.any (fun c => !c.isDigit) = true → Nat.toDigits 10 n ≠ w.toList := by
    intro w letters same
    obtain ⟨c, mem, letter⟩ := List.any_eq_true.1 letters
    rw [toDigits_isDigit n c (same ▸ mem)] at letter
    cases letter
  constructor <;> rw [numberText_natCast small, String.toList_ofList]
  · exact fun c mem => isBare_digit (toDigits_isDigit n c mem)
  · rw [bareValue, if_neg (word "null" (by decide)), if_neg (word "true" (by decide)), if_neg (word "false" (by decide)),
      test_jsonNumeral (leastWhole_toDigits n), if_pos rfl, stringToNumber_natCast small]

/-! ## A text read back -/

/-- A token of a well-formed value. -/
def Token.WellFormed (numeric : JsNumber → Prop) : Token → Prop
  | .mark _ => True
  | .value (.arr _) | .value (.obj _) => False
  | .value v => v.WellFormed numeric

theorem wellFormed_name (key : JsString) : Token.WellFormed numeric (.value key.json) := by
  cases key <;> trivial

mutual

theorem tokens_wellFormed (v : Json) (wellFormed : v.WellFormed numeric) : ∀ t ∈ v.tokens, t.WellFormed numeric := by
  match v with
  | .null | .bool _ | .str _ | .lone _ => exact List.forall_mem_singleton.2 trivial
  | .num x => exact List.forall_mem_singleton.2 wellFormed
  | .arr [] | .obj [] => exact List.forall_mem_cons.2 ⟨trivial, List.forall_mem_singleton.2 trivial⟩
  | .arr (x :: xs) =>
    exact List.forall_mem_cons.2 ⟨trivial, List.forall_mem_append.2 ⟨tokens_wellFormed x wellFormed.1, itemTokens_wellFormed xs wellFormed.2⟩⟩
  | .obj ((key, v) :: fields) =>
    exact List.forall_mem_cons.2 ⟨trivial, List.forall_mem_cons.2 ⟨wellFormed_name key, List.forall_mem_cons.2 ⟨trivial,
      List.forall_mem_append.2 ⟨tokens_wellFormed v wellFormed.2.1, fieldTokens_wellFormed fields wellFormed.2.2⟩⟩⟩⟩

theorem itemTokens_wellFormed (xs : List Json) (wellFormed : ItemsWellFormed numeric xs) : ∀ t ∈ itemTokens xs, t.WellFormed numeric := by
  match xs with
  | [] => exact List.forall_mem_singleton.2 trivial
  | x :: xs =>
    exact List.forall_mem_cons.2 ⟨trivial, List.forall_mem_append.2 ⟨tokens_wellFormed x wellFormed.1, itemTokens_wellFormed xs wellFormed.2⟩⟩

theorem fieldTokens_wellFormed (fields : List (JsString × Json)) (wellFormed : FieldsWellFormed numeric fields) :
    ∀ t ∈ fieldTokens fields, t.WellFormed numeric := by
  match fields with
  | [] => exact List.forall_mem_singleton.2 trivial
  | (key, v) :: fields =>
    exact List.forall_mem_cons.2 ⟨trivial, List.forall_mem_cons.2 ⟨wellFormed_name key, List.forall_mem_cons.2 ⟨trivial,
      List.forall_mem_append.2 ⟨tokens_wellFormed v wellFormed.1, fieldTokens_wellFormed fields wellFormed.2⟩⟩⟩⟩

end

/-- A literal is in the state until something else comes. -/
theorem lexer_literal {v : Json} {cs : List Char} (ts : List Token) (bare : ∀ c ∈ cs, isBare c = true) (value : bareValue cs = some v) :
    ∃ s, lexer.feed ⟨ts, .between⟩ cs = some s ∧ s.settle = some (ts ++ [.value v]) := by
  have nonempty : cs ≠ [] := by
    rintro rfl
    cases value
  exact ⟨_, lexer_bare bare nonempty, congrArg (Option.map fun v => ts ++ [Token.value v]) value⟩

theorem lexer_value {v : Json} (wellFormed : Token.WellFormed Readable (.value v)) (ts : List Token) :
    ∃ s, lexer.feed ⟨ts, .between⟩ (Token.text (.value v)) = some s ∧ s.settle = some (ts ++ [.value v]) := by
  cases v with
  | null => exact lexer_literal ts (List.all_eq_true.1 (by decide)) rfl
  | bool b => cases b <;> exact lexer_literal ts (List.all_eq_true.1 (by decide)) rfl
  | num x =>
    obtain ⟨q, rfl⟩ := Readable.finite wellFormed
    exact lexer_literal ts (Readable.bare wellFormed) (Readable.value wellFormed)
  | str s => exact ⟨_, lexer_quoted ts s, rfl⟩
  | lone t => exact ⟨_, lexer_quoted ts (.lone t), rfl⟩
  | arr | obj => exact wellFormed.elim

theorem step_mark {s : LexState} {ts : List Token} (settled : s.settle = some ts) (m : Mark) :
    s.step m.char = some ⟨ts ++ [.mark m], .between⟩ := by
  have mark : markOf m.char = some m := by cases m <;> rfl
  have outside : s.step m.char = s.stepOutside m.char := by
    obtain ⟨tokens, mode⟩ := s
    cases mode with
    | between | bare => rfl
    | quoted | escaped | coded => cases settled
  rw [outside, LexState.stepOutside, mark]
  exact congrArg (Option.map _) settled

/-- Tokens that keep values apart are found again in their text. -/
theorem lexer_tokens {ts : List Token} (apart : Apart ts) (wellFormed : ∀ t ∈ ts, t.WellFormed Readable) {s : LexState} {done : List Token}
    (settled : s.settle = some done) (clear : ∀ v us, ts = .value v :: us → s = ⟨done, .between⟩) :
    ∃ t, lexer.feed s (ts.flatMap Token.text) = some t ∧ t.settle = some (done ++ ts) := by
  induction ts generalizing s done with
  | nil => exact ⟨s, rfl, by rw [settled, List.append_nil]⟩
  | cons t ts ih =>
    have others := fun u mem => wellFormed u (List.mem_cons_of_mem _ mem)
    have rest : Apart ts := by
      cases t with
      | mark => exact apart
      | value =>
        cases ts with
        | nil => trivial
        | cons u us =>
          cases u with
          | mark => exact apart
          | value => exact apart.elim
    rw [List.flatMap_cons]
    cases t with
    | mark m =>
      obtain ⟨u, reads, final⟩ := ih rest others (s := ⟨done ++ [.mark m], .between⟩) rfl (fun _ _ _ => rfl)
      have mark : lexer.feed s (Token.mark m).text = some ⟨done ++ [.mark m], .between⟩ := congrArg (·.bind some) (step_mark settled m)
      exact ⟨u, by rw [lexer.feed_append_of mark, reads], by rw [final, List.append_assoc]; rfl⟩
    | value v =>
      obtain rfl := clear v ts rfl
      obtain ⟨u, reads, settled⟩ := lexer_value (wellFormed _ List.mem_cons_self) done
      obtain ⟨w, reads', final⟩ := ih rest others settled fun v us same => by
        rw [same] at apart
        exact apart.elim
      exact ⟨w, by rw [lexer.feed_append_of reads, reads'], by rw [final, List.append_assoc]; rfl⟩

/-- What `JSON.stringify` writes `JSON.parse` reads as the same value. -/
theorem jsonParse_stringify {v : Json} (wellFormed : v.WellFormed Readable) : jsonParse (jsonStringify v) = some v := by
  have parsed : parser.feed (.value []) v.tokens = some (.after v []) := by
    have := parser_tokens v wellFormed [] []
    rwa [List.append_nil] at this
  obtain ⟨s, reads, settled⟩ := lexer_tokens (apart_of_feed parsed) (tokens_wellFormed v wellFormed) (s := ⟨[], .between⟩) rfl (fun _ _ _ => rfl)
  rw [jsonParse, jsonStringify, String.toList_ofList, Scanner.read, reads]
  change (s.settle).bind _ = _
  rw [settled, List.nil_append, Option.bind_some, Scanner.read, parsed]
  rfl

/-! ## What is accepted -/

theorem itemsWellFormed_iff {xs : List Json} : ItemsWellFormed numeric xs ↔ ∀ x ∈ xs, x.WellFormed numeric := by
  induction xs with
  | nil => simp [ItemsWellFormed]
  | cons x xs ih => rw [ItemsWellFormed, ih, List.forall_mem_cons]

theorem fieldsWellFormed_iff {fields : List (JsString × Json)} : FieldsWellFormed numeric fields ↔ ∀ f ∈ fields, f.2.WellFormed numeric := by
  induction fields with
  | nil => simp [FieldsWellFormed]
  | cons f fields ih => rw [FieldsWellFormed, ih, List.forall_mem_cons]

/-- The part of an object read so far. -/
def Fields (numeric : JsNumber → Prop) (fields : List (JsString × Json)) : Prop :=
  (fields.map Prod.fst).Nodup ∧ FieldsWellFormed numeric fields

theorem Fields.put {fields : List (JsString × Json)} (h : Fields numeric fields) (key : JsString) {v : Json} (wellFormed : v.WellFormed numeric) :
    Fields numeric (putField fields key v) := by
  obtain ⟨distinct, values⟩ := h
  rw [fieldsWellFormed_iff] at values
  by_cases old : fields.any (·.1 = key) = true
  · have names : (fields.map fun f => if f.1 = key then (key, v) else f).map Prod.fst = fields.map Prod.fst := by
      rw [List.map_map]
      refine List.map_congr_left fun f _ => ?_
      simp only [Function.comp_apply]
      split
      · rename_i same
        exact same.symm
      · rfl
    rw [putField, if_pos old]
    refine ⟨names ▸ distinct, fieldsWellFormed_iff.2 fun f mem => ?_⟩
    obtain ⟨g, old, rfl⟩ := List.mem_map.1 mem
    split
    · exact wellFormed
    · exact values g old
  · have new : key ∉ fields.map Prod.fst := by
      intro mem
      obtain ⟨f, mem, same⟩ := List.mem_map.1 mem
      exact old (List.any_eq_true.2 ⟨f, mem, decide_eq_true same⟩)
    rw [putField_new new]
    refine ⟨?_, fieldsWellFormed_iff.2 fun f mem => ?_⟩
    · rw [List.map_append]
      refine List.nodup_append.2 ⟨distinct, List.nodup_singleton _, fun a mem b only same => ?_⟩
      rw [same, List.mem_singleton.1 only] at mem
      exact new mem
    · rcases List.mem_append.1 mem with mem | mem
      · exact values f mem
      · rw [List.mem_singleton.1 mem]
        exact wellFormed

def Frame.WellFormed (numeric : JsNumber → Prop) : Frame → Prop
  | .array items => ItemsWellFormed numeric items
  | .object fields _ => Fields numeric fields

def Reading.WellFormed (numeric : JsNumber → Prop) : Reading → Prop
  | .value stack | .first stack => ∀ f ∈ stack, f.WellFormed numeric
  | .name fields _ stack | .colon fields _ stack => Fields numeric fields ∧ ∀ f ∈ stack, f.WellFormed numeric
  | .after v stack => v.WellFormed numeric ∧ ∀ f ∈ stack, f.WellFormed numeric

theorem Token.WellFormed.value {v : Json} (token : Token.WellFormed numeric (.value v)) : v.WellFormed numeric := by
  cases v with
  | arr | obj => exact token.elim
  | _ => exact token

theorem Reading.WellFormed.start {stack : List Frame} {q : Reading} {t : Token} (token : t.WellFormed numeric)
    (inside : ∀ f ∈ stack, f.WellFormed numeric) (started : Reading.start stack t = some q) : q.WellFormed numeric := by
  cases t with
  | value v =>
    obtain rfl := Option.some.inj started
    exact ⟨token.value, inside⟩
  | mark m =>
    cases m with
    | openArray =>
      obtain rfl := Option.some.inj started
      exact inside
    | openObject =>
      obtain rfl := Option.some.inj started
      exact ⟨⟨List.nodup_nil, trivial⟩, inside⟩
    | _ => cases started

/-- A well-formed token after a well-formed part leads to one. -/
theorem Reading.WellFormed.step {r q : Reading} {t : Token} (token : t.WellFormed numeric) (before : r.WellFormed numeric)
    (stepped : r.step t = some q) : q.WellFormed numeric := by
  have item : ∀ {items : List Json} {v : Json} {stack : List Frame}, (Reading.after v (.array items :: stack)).WellFormed numeric →
      ItemsWellFormed numeric (items ++ [v]) ∧ ∀ f ∈ stack, f.WellFormed numeric := by
    intro items v stack ⟨last, inside⟩
    rw [List.forall_mem_cons] at inside
    exact ⟨itemsWellFormed_iff.2 (List.forall_mem_append.2 ⟨itemsWellFormed_iff.1 inside.1, List.forall_mem_singleton.2 last⟩), inside.2⟩
  have field : ∀ {fields : List (JsString × Json)} {key : JsString} {v : Json} {stack : List Frame},
      (Reading.after v (.object fields key :: stack)).WellFormed numeric →
      Fields numeric (putField fields key v) ∧ ∀ f ∈ stack, f.WellFormed numeric := by
    intro fields key v stack ⟨last, inside⟩
    rw [List.forall_mem_cons] at inside
    exact ⟨Fields.put inside.1 key last, inside.2⟩
  unfold Reading.step at stepped
  split at stepped
  case h_1 => exact .start token before stepped
  case h_2 =>
    obtain rfl := Option.some.inj stepped
    exact ⟨trivial, before⟩
  case h_3 => exact .start token (List.forall_mem_cons.2 ⟨show Frame.WellFormed numeric (.array []) from trivial, before⟩) stepped
  case h_4 | h_5 =>
    obtain rfl := Option.some.inj stepped
    exact before
  case h_6 =>
    obtain rfl := Option.some.inj stepped
    exact ⟨⟨List.nodup_nil, trivial⟩, before.2⟩
  case h_7 =>
    obtain rfl := Option.some.inj stepped
    exact List.forall_mem_cons.2 before
  case h_8 =>
    obtain rfl := Option.some.inj stepped
    exact List.forall_mem_cons.2 (item before)
  case h_9 =>
    obtain rfl := Option.some.inj stepped
    exact item before
  case h_10 | h_11 =>
    obtain rfl := Option.some.inj stepped
    exact field before
  case h_12 => cases stepped

/-- Marks, and values that are neither arrays nor objects, with JavaScript's numbers. -/
def Literals (ts : List Token) : Prop := ∀ t ∈ ts, t.WellFormed Rounded

theorem Literals.append {ts : List Token} {t : Token} (before : Literals ts) (token : t.WellFormed Rounded) : Literals (ts ++ [t]) :=
  List.forall_mem_append.2 ⟨before, List.forall_mem_singleton.2 token⟩

theorem bareValue_literal {cs : List Char} {v : Json} (value : bareValue cs = some v) : Token.WellFormed Rounded (.value v) := by
  rw [bareValue] at value
  split_ifs at value <;> obtain rfl := Option.some.inj value
  · trivial
  · trivial
  · trivial
  · exact rounded_stringToNumber _

theorem settle_literals {s : LexState} {ts : List Token} (before : Literals s.tokens) (settled : s.settle = some ts) : Literals ts := by
  obtain ⟨tokens, mode⟩ := s
  cases mode with
  | between =>
    obtain rfl := Option.some.inj settled
    exact before
  | bare cs =>
    obtain ⟨v, value, rfl⟩ := Option.map_eq_some_iff.1 settled
    exact before.append (bareValue_literal value)
  | quoted | escaped | coded => cases settled

theorem stepOutside_literals {s q : LexState} {c : Char} (before : Literals s.tokens) (stepped : s.stepOutside c = some q) : Literals q.tokens := by
  rw [LexState.stepOutside] at stepped
  split at stepped
  case h_1 m _ =>
    obtain ⟨ts, settled, rfl⟩ := Option.map_eq_some_iff.1 stepped
    exact (settle_literals before settled).append trivial
  case h_2 =>
    split at stepped
    case isTrue =>
      obtain ⟨ts, settled, rfl⟩ := Option.map_eq_some_iff.1 stepped
      exact settle_literals before settled
    case isFalse =>
      split at stepped
      case isTrue =>
        obtain ⟨ts, settled, rfl⟩ := Option.map_eq_some_iff.1 stepped
        exact settle_literals before settled
      case isFalse =>
        obtain rfl := Option.some.inj stepped
        exact before

/-- A character adds at most a mark or a literal. -/
theorem step_literals {s q : LexState} {c : Char} (before : Literals s.tokens) (stepped : s.step c = some q) : Literals q.tokens := by
  rw [LexState.step] at stepped
  split at stepped
  case h_1 | h_2 => exact stepOutside_literals before stepped
  case h_3 =>
    split_ifs at stepped <;> obtain rfl := Option.some.inj stepped
    · exact before.append (wellFormed_name _)
    · exact before
    · exact before
  case h_4 =>
    split at stepped
    case isTrue =>
      obtain rfl := Option.some.inj stepped
      exact before
    case isFalse =>
      obtain ⟨_, -, rfl⟩ := Option.map_eq_some_iff.1 stepped
      exact before
  case h_5 =>
    obtain ⟨d, -, rfl⟩ := Option.map_eq_some_iff.1 stepped
    split <;> exact before

/-- In a value that is read an object names a property once, and numbers are JavaScript's. -/
theorem jsonParse_wellFormed {s : String} {v : Json} (parsed : jsonParse s = some v) : v.WellFormed Rounded := by
  obtain ⟨ts, scanned, parsed⟩ := Option.bind_eq_some_iff.1 parsed
  obtain ⟨l, fed, settled⟩ := Option.bind_eq_some_iff.1 scanned
  obtain ⟨r, fed', finished⟩ := Option.bind_eq_some_iff.1 parsed
  have scan : ∀ {s : LexState} {c : Char} {q : LexState}, True → Literals s.tokens → lexer.step s c = some q → Literals q.tokens :=
    fun _ => step_literals
  have read : ∀ {r : Reading} {t : Token} {q : Reading}, t.WellFormed Rounded → r.WellFormed Rounded → parser.step r t = some q →
      q.WellFormed Rounded := Reading.WellFormed.step
  have none : Literals (LexState.tokens ⟨[], .between⟩) := List.forall_mem_nil _
  have outermost : Reading.WellFormed Rounded (.value []) := List.forall_mem_nil _
  have literals : Literals ts := settle_literals (lexer.feed_invariant scan (fun _ _ => trivial) none fed) settled
  have whole := parser.feed_invariant read literals outermost fed'
  cases r with
  | after u stack =>
    cases stack with
    | nil =>
      obtain rfl := Option.some.inj finished
      exact whole.1
    | cons => cases finished
  | _ => cases finished

end AfriPay.Text
