import Mathlib.Data.List.Basic
import Mathlib.Data.UInt

/-!
# UTF-16

A string of JavaScript is a sequence of code units. Two halves of a surrogate
pair in a row are one character; a half by itself is none. It stays in the string
as it is, and U+FFFD stands for it where the string is encoded. `JsString` keeps
the strings of whole characters apart, which are Lean's; together they are the
sequences of code units (`ofUnits_units`, `units_ofUnits`).
-/

namespace AfriPay.Text

abbrev CodeUnit := UInt16

/-- The first half of a surrogate pair. -/
def isHigh (u : CodeUnit) : Bool := decide (0xD800 ≤ u.toNat ∧ u.toNat ≤ 0xDBFF)

/-- The second half. -/
def isLow (u : CodeUnit) : Bool := decide (0xDC00 ≤ u.toNat ∧ u.toNat ≤ 0xDFFF)

/-- A character, or half of a surrogate pair by itself. -/
inductive CodePoint where
  | char (c : Char)
  | half (u : CodeUnit)
  deriving DecidableEq

/-- A code unit that is not part of a pair. -/
def alone (u : CodeUnit) : CodePoint := if isHigh u || isLow u then .half u else .char (Char.ofNat u.toNat)

/-- The character of a pair. -/
def paired (high low : CodeUnit) : Char := Char.ofNat (0x10000 + (high.toNat - 0xD800) * 0x400 + (low.toNat - 0xDC00))

/-- The code points of a string, as `for ... of` goes through them. -/
def codePoints : List CodeUnit → List CodePoint
  | high :: low :: rest =>
    if isHigh high && isLow low then .char (paired high low) :: codePoints rest
    else alone high :: codePoints (low :: rest)
  | [u] => [alone u]
  | [] => []

def charUnits (c : Char) : List CodeUnit :=
  if c.toNat < 0x10000 then [.ofNat c.toNat]
  else [.ofNat (0xD800 + (c.toNat - 0x10000) / 0x400), .ofNat (0xDC00 + (c.toNat - 0x10000) % 0x400)]

def CodePoint.units : CodePoint → List CodeUnit
  | .char c => charUnits c
  | .half u => [u]

/-! ## Units and points -/

theorem toNat_ofNat_unit {n : Nat} (lt : n < 0x10000) : (UInt16.ofNat n).toNat = n := UInt16.toNat_ofNat_of_lt' lt

/-- A character of the basic plane is its own unit, and half of no pair. -/
theorem alone_char {c : Char} (basic : c.toNat < 0x10000) :
    isHigh (.ofNat c.toNat) = false ∧ alone (.ofNat c.toNat) = .char c := by
  have valid : c.toNat < 0xD800 ∨ 0xDFFF < c.toNat ∧ c.toNat < 0x110000 := c.valid
  have high : isHigh (.ofNat c.toNat) = false := by
    rw [isHigh, toNat_ofNat_unit basic, decide_eq_false_iff_not]
    omega
  have low : isLow (.ofNat c.toNat) = false := by
    rw [isLow, toNat_ofNat_unit basic, decide_eq_false_iff_not]
    omega
  rw [alone, high, low, toNat_ofNat_unit basic, Char.ofNat_toNat]
  exact ⟨rfl, rfl⟩

/-- A character is read back from its units, whatever follows. -/
theorem codePoints_charUnits (c : Char) (rest : List CodeUnit) : codePoints (charUnits c ++ rest) = .char c :: codePoints rest := by
  have valid : c.toNat < 0x110000 := by
    rcases c.valid with low | ⟨-, high⟩
    · exact low.trans (by decide)
    · exact high
  rw [charUnits]
  split
  case isTrue basic =>
    obtain ⟨high, point⟩ := alone_char basic
    cases rest with
    | nil => rw [List.append_nil, codePoints, point, codePoints]
    | cons u us => rw [List.singleton_append, codePoints, high, Bool.false_and, if_neg Bool.false_ne_true, point]
  case isFalse other =>
    have high := toNat_ofNat_unit (show 0xD800 + (c.toNat - 0x10000) / 0x400 < 0x10000 by omega)
    have low := toNat_ofNat_unit (show 0xDC00 + (c.toNat - 0x10000) % 0x400 < 0x10000 by omega)
    have pair : (isHigh (.ofNat (0xD800 + (c.toNat - 0x10000) / 0x400)) && isLow (.ofNat (0xDC00 + (c.toNat - 0x10000) % 0x400))) = true := by
      rw [isHigh, isLow, high, low, Bool.and_eq_true, decide_eq_true_eq, decide_eq_true_eq]
      omega
    have point : 0x10000 + (0xD800 + (c.toNat - 0x10000) / 0x400 - 0xD800) * 0x400 + (0xDC00 + (c.toNat - 0x10000) % 0x400 - 0xDC00) =
        c.toNat := by
      omega
    rw [List.cons_append, List.singleton_append, codePoints, if_pos pair, paired, high, low, point, Char.ofNat_toNat]

/-- The units of whole characters are read as these characters. -/
theorem codePoints_chars (cs : List Char) : codePoints (cs.flatMap charUnits) = cs.map .char := by
  induction cs with
  | nil => rfl
  | cons c cs ih => rw [List.flatMap_cons, codePoints_charUnits, ih, List.map_cons]

theorem units_alone (u : CodeUnit) : (alone u).units = [u] := by
  rw [alone]
  split
  · rfl
  · rename_i other
    simp only [isHigh, isLow, Bool.or_eq_true, decide_eq_true_eq] at other
    have bound := u.toNat_lt
    have valid : u.toNat.isValidChar := by
      simp only [Nat.isValidChar]
      omega
    have number : (Char.ofNat u.toNat).toNat = u.toNat := by
      rw [Char.ofNat, dif_pos valid]
      rfl
    rw [CodePoint.units, charUnits, number, if_pos bound, UInt16.ofNat_toNat]

theorem units_paired {high low : CodeUnit} (pair : (isHigh high && isLow low) = true) : charUnits (paired high low) = [high, low] := by
  simp only [isHigh, isLow, Bool.and_eq_true, decide_eq_true_eq] at pair
  have valid : (0x10000 + (high.toNat - 0xD800) * 0x400 + (low.toNat - 0xDC00)).isValidChar := by
    simp only [Nat.isValidChar]
    omega
  have number : (paired high low).toNat = 0x10000 + (high.toNat - 0xD800) * 0x400 + (low.toNat - 0xDC00) := by
    rw [paired, Char.ofNat, dif_pos valid]
    rfl
  have first : 0xD800 + (0x10000 + (high.toNat - 0xD800) * 0x400 + (low.toNat - 0xDC00) - 0x10000) / 0x400 = high.toNat := by omega
  have second : 0xDC00 + (0x10000 + (high.toNat - 0xD800) * 0x400 + (low.toNat - 0xDC00) - 0x10000) % 0x400 = low.toNat := by omega
  rw [charUnits, number, if_neg (by omega), first, second, UInt16.ofNat_toNat, UInt16.ofNat_toNat]

/-- Nothing is lost in the code points. -/
theorem units_codePoints (us : List CodeUnit) : (codePoints us).flatMap CodePoint.units = us := by
  induction us using codePoints.induct with
  | case1 high low rest pair ih =>
    rw [codePoints, if_pos pair, List.flatMap_cons, ih, CodePoint.units, units_paired pair]
    rfl
  | case2 high low rest apart ih =>
    rw [codePoints, if_neg apart, List.flatMap_cons, ih, units_alone]
    rfl
  | case3 u => rw [codePoints, List.flatMap_singleton, units_alone]
  | case4 => rfl

/-- A unit that begins no pair is read by itself. -/
theorem codePoints_cons {u : CodeUnit} (high : isHigh u = false) (us : List CodeUnit) : codePoints (u :: us) = alone u :: codePoints us := by
  cases us with
  | nil => rfl
  | cons v vs => rw [codePoints, high, Bool.false_and, if_neg Bool.false_ne_true]

/-- And one that ends no pair. -/
theorem codePoints_concat (us : List CodeUnit) {u : CodeUnit} (low : isLow u = false) : codePoints (us ++ [u]) = codePoints us ++ [alone u] := by
  induction us using codePoints.induct with
  | case1 high low rest pair ih => rw [List.cons_append, List.cons_append, codePoints, if_pos pair, ih, codePoints, if_pos pair, List.cons_append]
  | case2 high low rest apart ih =>
    rw [List.cons_append, List.cons_append, codePoints, if_neg apart, ← List.cons_append, ih, codePoints, if_neg apart, List.cons_append]
  | case3 v => rw [List.singleton_append, codePoints, low, Bool.and_false, if_neg Bool.false_ne_true]; rfl
  | case4 => rfl

/-! ## Strings -/

def CodePoint.isHalf : CodePoint → Bool
  | .char _ => false
  | .half _ => true

/-- U+FFFD, which stands for what cannot be read. -/
def replacement : Char := Char.ofNat 0xFFFD

/-- The character that is written for a code point. -/
def CodePoint.shown : CodePoint → Char
  | .char c => c
  | .half _ => replacement

/-- Code units among which half of a surrogate pair stands alone. -/
structure LoneText where
  units : List CodeUnit
  lone : (codePoints units).any CodePoint.isHalf = true
  deriving DecidableEq

inductive JsString where
  | text (s : String)
  | lone (t : LoneText)
  deriving DecidableEq

instance : Coe String JsString := ⟨.text⟩

namespace JsString

def units : JsString → List CodeUnit
  | .text s => s.toList.flatMap charUnits
  | .lone t => t.units

def ofUnits (us : List CodeUnit) : JsString :=
  if lone : (codePoints us).any CodePoint.isHalf = true then .lone ⟨us, lone⟩
  else .text (String.ofList ((codePoints us).map CodePoint.shown))

def codePoints (s : JsString) : List CodePoint := Text.codePoints s.units

/-- `s.toWellFormed()`: also what is encoded, wherever `s` is written as UTF-8. -/
def toWellFormed : JsString → String
  | .text s => s
  | .lone t => String.ofList ((Text.codePoints t.units).map CodePoint.shown)

/-- `Buffer.byteLength(s)` -/
def byteLength (s : JsString) : Nat := s.toWellFormed.utf8ByteSize

/-- `s.isWellFormed()` -/
def isWellFormed : JsString → Bool
  | .text _ => true
  | .lone _ => false

@[simp] theorem toWellFormed_text (s : String) : (text s).toWellFormed = s := rfl

theorem codePoints_text (s : String) : (text s).codePoints = s.toList.map .char := codePoints_chars s.toList

/-- Without halves, what is shown is what was written. -/
theorem chars_of_whole {ps : List CodePoint} (whole : ps.any CodePoint.isHalf = false) : (ps.map CodePoint.shown).map .char = ps := by
  induction ps with
  | nil => rfl
  | cons p ps ih =>
    rw [List.any_cons, Bool.or_eq_false_iff] at whole
    cases p with
    | char c => rw [List.map_cons, List.map_cons, ih whole.2]; rfl
    | half u => cases whole.1

theorem ofUnits_units (s : JsString) : ofUnits s.units = s := by
  cases s with
  | text s =>
    have whole : (Text.codePoints (s.toList.flatMap charUnits)).any CodePoint.isHalf = false := by
      rw [codePoints_chars, List.any_map]
      exact List.any_eq_false.2 fun _ _ => Bool.false_ne_true
    rw [units, ofUnits, dif_neg (Bool.not_eq_true _ ▸ whole), codePoints_chars, List.map_map]
    exact congrArg text ((congrArg String.ofList (List.map_id _)).trans String.ofList_toList)
  | lone t => exact dif_pos t.lone

theorem units_ofUnits (us : List CodeUnit) : (ofUnits us).units = us := by
  unfold ofUnits
  split
  · rfl
  · rename_i whole
    rw [Bool.not_eq_true] at whole
    have points : ((Text.codePoints us).map CodePoint.shown).flatMap charUnits = (Text.codePoints us).flatMap CodePoint.units := by
      conv_rhs => rw [← chars_of_whole whole, List.flatMap_map]
      rfl
    rw [units, String.toList_ofList, points, units_codePoints]

theorem toWellFormed_eq (s : JsString) : s.toWellFormed = String.ofList (s.codePoints.map CodePoint.shown) := by
  cases s with
  | text s =>
    rw [codePoints_text, List.map_map]
    exact ((congrArg String.ofList (List.map_id _)).trans String.ofList_toList).symm
  | lone t => rfl

/-- Nothing is encoded of the empty string alone. -/
theorem toWellFormed_eq_empty {s : JsString} : s.toWellFormed = "" ↔ s = .text "" := by
  cases s with
  | text s => exact ⟨congrArg text, text.inj⟩
  | lone t =>
    refine iff_of_false (fun empty => ?_) nofun
    have points := congrArg String.toList empty
    rw [toWellFormed, String.toList_ofList, String.toList_empty, List.map_eq_nil_iff] at points
    have lone := t.lone
    rw [points] at lone
    cases lone

theorem isWellFormed_iff {s : JsString} : s.isWellFormed = true ↔ s = .text s.toWellFormed := by
  cases s with
  | text s => exact iff_of_true rfl rfl
  | lone t => exact iff_of_false Bool.false_ne_true (by rintro ⟨⟩)

end JsString

end AfriPay.Text
