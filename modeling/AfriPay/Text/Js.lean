import AfriPay.Text.Number
import AfriPay.Text.Utf16

/-!
# JSON values and JavaScript's coercions

Request bodies, webhook payloads and provider answers are JSON values until a
check has looked at them. `Json` keeps the cases apart, a string in which half of a
surrogate pair stands alone being one of its own; `truthy`, `toNumber` and the
string functions are the coercions the code applies to them.
-/

namespace AfriPay.Text

inductive Json where
  | null
  | bool (b : Bool)
  | num (x : JsNumber)
  /-- A string of whole characters. -/
  | str (s : String)
  /-- Any other string. -/
  | lone (t : LoneText)
  | arr (xs : List Json)
  | obj (fields : List (JsString × Json))

def JsString.json : JsString → Json
  | .text s => .str s
  | .lone t => .lone t

theorem JsString.json_injective : Function.Injective JsString.json := by
  intro s t same
  cases s <;> cases t <;> cases same <;> rfl

/-- A JSON object: its own properties by name. -/
abbrev JsonObject := JsString → Option Json

/-- `v.name`, where reading a property does not throw. -/
def Json.prop (name : JsString) : Json → Option Json
  | .obj fields => (fields.find? (·.1 = name)).map Prod.snd
  | _ => none

/-- `body?.name` of a request's body. -/
def bodyProp (body : Option Json) (name : String) : Option Json := body.bind (·.prop name)

/-- A query parameter, which a repeated name makes an array. -/
inductive QueryValue where
  | one (value : String)
  | many (values : List String)

/-- Milliseconds since the epoch, which the code writes as ISO 8601 text. -/
abbrev Timestamp := Nat

/-- `Boolean(v)`, an absent property being `undefined`. -/
def truthy : Option Json → Bool
  | none | some .null => false
  | some (.bool b) => b
  | some (.num x) => x ≠ .nan ∧ x ≠ .finite 0
  | some (.str s) => s ≠ ""
  | some (.lone _) | some (.arr _) | some (.obj _) => true

/-- The value, if it is a string. -/
def stringOf : Option Json → Option JsString
  | some (.str s) => some (.text s)
  | some (.lone t) => some (.lone t)
  | _ => none

theorem stringOf_eq_some {s : JsString} {v : Option Json} : stringOf v = some s ↔ v = some s.json := by
  cases s with
  | text s => cases v with
    | none => simp [stringOf]
    | some j => cases j <;> simp [stringOf, JsString.json]
  | lone t => cases v with
    | none => simp [stringOf]
    | some j => cases j <;> simp [stringOf, JsString.json]

@[simp] theorem stringOf_json (s : JsString) : stringOf (some s.json) = some s := stringOf_eq_some.2 rfl

/-- `v === s` for a string `s`. -/
def isString (s : JsString) (v : Option Json) : Bool := decide (stringOf v = some s)

theorem isString_json_iff {s : JsString} {v : Option Json} : isString s v = true ↔ v = some s.json := by
  rw [isString, decide_eq_true_eq, stringOf_eq_some]

@[simp] theorem isString_iff {s : String} {v : Option Json} : isString s v = true ↔ v = some (.str s) := isString_json_iff

mutual

/-- `a === b`. Arrays and objects are compared by content: the code compares
them only with the very value it stored. -/
def Json.same : Json → Json → Bool
  | .null, .null => true
  | .bool a, .bool b => a = b
  | .num a, .num b => a.same b
  | .str a, .str b => a = b
  | .lone a, .lone b => a = b
  | .arr xs, .arr ys => sameItems xs ys
  | .obj fs, .obj gs => sameFields fs gs
  | _, _ => false

def sameItems : List Json → List Json → Bool
  | [], [] => true
  | x :: xs, y :: ys => x.same y && sameItems xs ys
  | _, _ => false

def sameFields : List (JsString × Json) → List (JsString × Json) → Bool
  | [], [] => true
  | (a, x) :: fs, (b, y) :: gs => decide (a = b) && x.same y && sameFields fs gs
  | _, _ => false

end

@[simp] theorem Json.same_str (a b : String) : Json.same (.str a) (.str b) = decide (a = b) := by
  simp [Json.same]

/-- Only a string is the same as a string. -/
theorem Json.eq_of_same_str {v : Json} {s : String} (h : v.same (.str s) = true) : v = .str s := by
  cases v with
  | str t => rw [Json.same_str, decide_eq_true_eq] at h; rw [h]
  | _ => simp [Json.same] at h

theorem Json.eq_of_str_same {v : Json} {s : String} (h : (Json.str s).same v = true) : v = .str s := by
  cases v with
  | str t => rw [Json.same_str, decide_eq_true_eq] at h; rw [h]
  | _ => simp [Json.same] at h

/-! ## Strings -/

/-- White space and line terminators, as `trim` removes them. -/
def isJsSpace (c : Char) : Bool :=
  decide (c.toNat ∈ [0x9, 0xA, 0xB, 0xC, 0xD, 0x20, 0xA0, 0x1680, 0x2028, 0x2029, 0x202F, 0x205F, 0x3000, 0xFEFF])
    || decide (0x2000 ≤ c.toNat ∧ c.toNat ≤ 0x200A)

def trimChars (cs : List Char) : List Char :=
  ((cs.dropWhile isJsSpace).reverse.dropWhile isJsSpace).reverse

/-- `s.trim()` of whole characters. -/
def trim (s : String) : String := String.ofList (trimChars s.toList)

/-- White space is in the basic plane. -/
def isSpaceUnit (u : CodeUnit) : Bool := isJsSpace (Char.ofNat u.toNat)

def trimUnits (us : List CodeUnit) : List CodeUnit := ((us.dropWhile isSpaceUnit).reverse.dropWhile isSpaceUnit).reverse

/-- `s.trim()` -/
def JsString.trim : JsString → JsString
  | .text s => .text (Text.trim s)
  | .lone t => .ofUnits (trimUnits t.units)

/-- `s.length` -/
def utf16Length (s : JsString) : Nat := s.units.length

/-- A trimmed text begins with no space. -/
theorem trimChars_head {cs : List Char} {c : Char} (first : (trimChars cs).head? = some c) : isJsSpace c = false := by
  have begins : trimChars cs <+: cs.dropWhile isJsSpace := List.rdropWhile_prefix _ _
  obtain ⟨rest, whole⟩ := begins
  have head : (cs.dropWhile isJsSpace).head? = some c := by rw [← whole, List.head?_append, first, Option.some_or]
  have stop := List.head?_dropWhile_not isJsSpace cs
  rwa [head] at stop

/-- Trimming once is enough. -/
theorem trim_trim (s : String) : trim (trim s) = trim s := by
  have front : (trimChars s.toList).dropWhile isJsSpace = trimChars s.toList := by
    cases chars : trimChars s.toList with
    | nil => rfl
    | cons c cs => rw [List.dropWhile_cons_of_neg (by rw [trimChars_head (c := c) (by rw [chars]; rfl)]; exact Bool.false_ne_true)]
  rw [trim, trim, String.toList_ofList]
  refine congrArg String.ofList ?_
  rw [trimChars, front]
  exact List.rdropWhile_idempotent _ _

theorem space_alone {u : CodeUnit} (space : isSpaceUnit u = true) : isHigh u = false ∧ isLow u = false := by
  have valid : u.toNat.isValidChar := by
    by_contra invalid
    rw [isSpaceUnit, Char.ofNat, dif_neg invalid] at space
    exact absurd space (by decide)
  have bound := u.toNat_lt
  simp only [Nat.isValidChar] at valid
  simp only [isHigh, isLow, decide_eq_false_iff_not]
  omega

theorem codePoints_dropWhile (us : List CodeUnit) : codePoints (us.dropWhile isSpaceUnit) <:+ codePoints us := by
  induction us with
  | nil => exact List.suffix_refl _
  | cons u us ih =>
    by_cases space : isSpaceUnit u = true
    · rw [List.dropWhile_cons_of_pos space, codePoints_cons (space_alone space).1]
      exact ih.trans (List.suffix_cons _ _)
    · rw [List.dropWhile_cons_of_neg space]

theorem codePoints_rdropWhile (us : List CodeUnit) : codePoints (us.rdropWhile isSpaceUnit) <+: codePoints us := by
  induction us using List.reverseRecOn with
  | nil => exact List.prefix_refl _
  | append_singleton us u ih =>
    by_cases space : isSpaceUnit u = true
    · rw [List.rdropWhile_concat_pos _ _ _ space, codePoints_concat _ (space_alone space).2]
      exact ih.trans (List.prefix_append _ _)
    · rw [List.rdropWhile_concat_neg _ _ _ space]

theorem codePoints_trim (s : JsString) : s.trim.codePoints <:+: s.codePoints := by
  cases s with
  | text s =>
    rw [JsString.trim, JsString.codePoints_text, JsString.codePoints_text, trim, String.toList_ofList]
    exact ((List.rdropWhile_prefix isJsSpace _).isInfix.trans (List.dropWhile_suffix _).isInfix).map _
  | lone t =>
    rw [JsString.trim, JsString.codePoints, JsString.units_ofUnits]
    exact (codePoints_rdropWhile _).isInfix.trans (codePoints_dropWhile t.units).isInfix

/-- Trimming makes no text longer. -/
theorem byteLength_trim (s : JsString) : s.trim.byteLength ≤ s.byteLength := by
  obtain ⟨front, back, whole⟩ := (codePoints_trim s).map CodePoint.shown
  have text : s.toWellFormed = String.ofList front ++ s.trim.toWellFormed ++ String.ofList back := by
    rw [s.toWellFormed_eq, s.trim.toWellFormed_eq, ← String.ofList_append, ← String.ofList_append, whole]
  rw [JsString.byteLength, JsString.byteLength, text, String.utf8ByteSize_append, String.utf8ByteSize_append]
  omega
/-! ## Numbers -/

/-- The digits of a literal in radix 16, 8 or 2. -/
def radixDigit (radix : Nat) (c : Char) : Option Nat :=
  let d := if c.isDigit then c.toNat - '0'.toNat
    else if 'a' ≤ c ∧ c ≤ 'f' then c.toNat - 'a'.toNat + 10
    else if 'A' ≤ c ∧ c ≤ 'F' then c.toNat - 'A'.toNat + 10 else radix
  if d < radix then some d else none

def radixLiteral (radix : Nat) (cs : List Char) : Option ℚ :=
  if cs = [] then none
  else (cs.mapM (radixDigit radix)).map fun ds => ((ds.foldl (fun n d => radix * n + d) 0 : Nat) : ℚ)

/-- What may follow the digits of a decimal literal: nothing or an exponent. -/
def exponentPart : List Char → Option ℤ
  | [] => some 0
  | c :: cs =>
    if c ≠ 'e' ∧ c ≠ 'E' then none
    else
      let (negative, ds) := match cs with
        | '+' :: ds => (false, ds)
        | '-' :: ds => (true, ds)
        | ds => (false, ds)
      if ds ≠ [] ∧ ds.all Char.isDigit then some (if negative then -digitsValue ds else digitsValue ds) else none

def decimalLiteral (cs : List Char) : Option ℚ :=
  let whole := cs.takeWhile Char.isDigit
  let (fraction, rest) := match cs.dropWhile Char.isDigit with
    | '.' :: r => (r.takeWhile Char.isDigit, r.dropWhile Char.isDigit)
    | r => ([], r)
  if whole = [] ∧ fraction = [] then none
  else (exponentPart rest).map fun e => (digitsValue whole + digitsValue fraction / 10 ^ fraction.length) * 10 ^ e

/-- `Number(s)` for a string. -/
def stringToNumber (s : String) : JsNumber :=
  let signed (negative : Bool) (cs : List Char) : JsNumber :=
    if cs = "Infinity".toList then .inf negative
    else match decimalLiteral cs with
      | some q => toDouble (if negative then -q else q)
      | none => .nan
  let radix (r : Nat) (cs : List Char) : JsNumber := ((radixLiteral r cs).map toDouble).getD .nan
  match trimChars s.toList with
  | [] => .finite 0
  | '+' :: cs => signed false cs
  | '-' :: cs => signed true cs
  | '0' :: 'x' :: cs | '0' :: 'X' :: cs => radix 16 cs
  | '0' :: 'o' :: cs | '0' :: 'O' :: cs => radix 8 cs
  | '0' :: 'b' :: cs | '0' :: 'B' :: cs => radix 2 cs
  | cs => signed false cs

/-- `Number(v)`, where it does not throw. An array is first written as text, so an
array of one element counts as that element and `null` in it as the empty string. -/
def jsonToNumber : Json → JsNumber
  | .null => .finite 0
  | .bool b => .finite (if b then 1 else 0)
  | .num x => x
  | .str s => stringToNumber s
  | .lone _ => .nan
  | .arr [] => .finite 0
  | .arr [.bool _] => .nan
  | .arr [v] => jsonToNumber v
  | .arr (_ :: _ :: _) => .nan
  | .obj _ => .nan

mutual

/-- Whether `Number(v)` and `String(v)` do not throw: no object in `v` has a
property `toString` of its own, which could be no function. -/
def Json.isPrimitive : Json → Bool
  | .arr xs => arePrimitive xs
  | .obj fields => !fields.any (·.1 = .text "toString")
  | _ => true

def arePrimitive : List Json → Bool
  | [] => true
  | x :: xs => x.isPrimitive && arePrimitive xs

end

/-- `Number(v)`, an absent property being `undefined`. -/
def toNumber : Option Json → JsNumber
  | none => .nan
  | some v => jsonToNumber v

theorem isDigit_not_space {c : Char} (h : c.isDigit = true) : isJsSpace c = false := by
  have := isDigit_iff.1 h
  simp only [isJsSpace, List.mem_cons, List.not_mem_nil, or_false, Bool.or_eq_false_iff, decide_eq_false_iff_not]
  omega

theorem dropWhile_digit {p : Char → Bool} {cs : List Char} (h : ∀ c ∈ cs, p c = false) : cs.dropWhile p = cs := by
  cases cs with
  | nil => rfl
  | cons c cs => simp [h c]

/-- A numeral has nothing to trim. -/
theorem trimChars_numeral {cs : List Char} (h : ∀ c ∈ cs, isJsSpace c = false) : trimChars cs = cs := by
  have rev : ∀ c ∈ cs.reverse, isJsSpace c = false := fun c mem => h c (List.mem_reverse.1 mem)
  rw [trimChars, dropWhile_digit h, dropWhile_digit rev, List.reverse_reverse]

theorem decimalLiteral_numeral {m n : Nat} {s : String} (h : matchesDecimal m n s = true) :
    decimalLiteral s.toList = some (decimalValue s) := by
  obtain ⟨whole, fraction, nonempty, digits, digits', hw, hf, chars⟩ := numeral_chars h
  have runs : s.toList.takeWhile Char.isDigit = whole ∧
      (s.toList.dropWhile Char.isDigit = [] ∧ fraction = [] ∨ s.toList.dropWhile Char.isDigit = '.' :: fraction) := by
    rcases chars with ⟨chars, none⟩ | chars
    · rw [chars]
      exact ⟨List.takeWhile_eq_self_iff.2 digits, .inl ⟨List.dropWhile_eq_nil_iff.2 digits, none⟩⟩
    · rw [chars, List.takeWhile_append_of_pos digits, List.dropWhile_append_of_pos digits]
      exact ⟨by simp, .inr (by simp)⟩
  obtain ⟨first, rest⟩ := runs
  rw [decimalValue, hw, hf, decimalLiteral, first]
  rcases rest with ⟨rest, rfl⟩ | rest
  · simp [rest, nonempty, exponentPart, digitsValue]
  · have all := List.takeWhile_eq_self_iff.2 digits'
    have nothing := List.dropWhile_eq_nil_iff.2 digits'
    simp [rest, nonempty, all, nothing, exponentPart]

/-- `Number(s)` of a numeral is the nearest double. -/
theorem stringToNumber_numeral {m n : Nat} {s : String} (h : matchesDecimal m n s = true) :
    stringToNumber s = toDouble (decimalValue s) := by
  obtain ⟨whole, fraction, nonempty, digits, digits', -, -, chars⟩ := numeral_chars h
  have numeral : ∀ c ∈ s.toList, c.isDigit = true ∨ c = '.' := by
    intro c mem
    rcases chars with ⟨chars, -⟩ | chars
    · rw [chars] at mem
      exact .inl (digits c mem)
    · rw [chars] at mem
      rcases List.mem_append.1 mem with mem | mem
      · exact .inl (digits c mem)
      · rcases List.mem_cons.1 mem with rfl | mem
        · exact .inr rfl
        · exact .inl (digits' c mem)
  have trimmed : trimChars s.toList = s.toList := by
    refine trimChars_numeral fun c mem => ?_
    rcases numeral c mem with digit | rfl
    · exact isDigit_not_space digit
    · decide
  have head : s.toList ≠ [] := by
    intro empty
    rcases chars with ⟨chars, -⟩ | chars <;> rw [empty] at chars
    · exact nonempty chars.symm
    · simp at chars
  have literal := decimalLiteral_numeral h
  unfold stringToNumber
  rw [trimmed]
  -- no other reading applies: a numeral has no sign, letter or `Infinity` in it
  have strange : ∀ c ∈ s.toList, c ∉ ['+', '-', 'x', 'X', 'o', 'O', 'b', 'B', 'I'] := by
    intro c mem bad
    rcases numeral c mem with digit | rfl
    · simp only [List.mem_cons, List.not_mem_nil, or_false] at bad
      rcases bad with rfl | rfl | rfl | rfl | rfl | rfl | rfl | rfl | rfl <;> exact absurd digit (by decide)
    · exact absurd bad (by decide)
  have finite : s.toList ≠ "Infinity".toList := by
    intro same
    exact strange 'I' (by rw [same]; decide) (by decide)
  split
  case h_10 => simp only [if_neg finite, literal]; rfl
  case h_1 empty => exact (head empty).elim
  all_goals
    rename_i same
    exact absurd strange (by rw [same]; simp)

theorem stringToNumber_fixedPoint {k : Nat} (pos : 0 < k) (n : Nat) :
    stringToNumber (fixedPoint k n) = toDouble ((n : ℚ) / 10 ^ k) := by
  rw [stringToNumber_numeral (matchesDecimal_fixedPoint_length pos n), decimalValue_fixedPoint pos]

/-! ## Hexadecimal digits -/

theorem digitChar_inj : ∀ a b : Fin 16, Nat.digitChar a = Nat.digitChar b → a = b := by decide

theorem digitChar_isHex : ∀ n : Fin 16, ((Nat.digitChar n).isDigit || (decide ('a' ≤ Nat.digitChar n) &&
    decide (Nat.digitChar n ≤ 'f'))) = true := by decide

end AfriPay.Text
