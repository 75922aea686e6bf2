import AfriPay.Text.Scanner
import AfriPay.Text.Utf16

/-!
# UTF-8

`TextEncoder` and `TextDecoder` as the Encoding Standard defines them, and a `Buffer`
read as text. The decoders never fail: what is not UTF-8 comes out as U+FFFD. A
byte order mark at the front is left out by `TextDecoder` alone. The encoder writes
U+FFFD for what is no character.
-/

namespace AfriPay.Text

/-- `new TextEncoder().encode(s)` -/
def utf8Encode (s : JsString) : List UInt8 := s.toWellFormed.toList.flatMap String.utf8EncodeChar

/-- Within a character: its bits so far, how many bytes are to come, and between which bounds the next one lies. -/
structure Utf8State where
  text : List Char
  point : Nat
  left : Nat
  lower : Nat
  upper : Nat

/-- Between two characters. -/
def Utf8State.between (text : List Char) : Utf8State := ⟨text, 0, 0, 0x80, 0xBF⟩

/-- The first byte of a character. -/
def Utf8State.lead (text : List Char) (b : Nat) : Utf8State :=
  if b ≤ 0x7F then .between (text ++ [Char.ofNat b])
  else if 0xC2 ≤ b ∧ b ≤ 0xDF then ⟨text, b % 0x20, 1, 0x80, 0xBF⟩
  else if 0xE0 ≤ b ∧ b ≤ 0xEF then ⟨text, b % 0x10, 2, if b = 0xE0 then 0xA0 else 0x80, if b = 0xED then 0x9F else 0xBF⟩
  else if 0xF0 ≤ b ∧ b ≤ 0xF4 then ⟨text, b % 0x08, 3, if b = 0xF0 then 0x90 else 0x80, if b = 0xF4 then 0x8F else 0xBF⟩
  else .between (text ++ [replacement])

def Utf8State.step (s : Utf8State) (byte : UInt8) : Utf8State :=
  let b := byte.toNat
  if s.left = 0 then .lead s.text b
  -- a byte that cannot continue the character starts the next one
  else if b < s.lower ∨ s.upper < b then .lead (s.text ++ [replacement]) b
  else
    let point := s.point * 0x40 + b % 0x40
    if s.left = 1 then .between (s.text ++ [Char.ofNat point]) else ⟨s.text, point, s.left - 1, 0x80, 0xBF⟩

def utf8Decoder : Scanner Utf8State UInt8 (List Char) where
  step s b := some (s.step b)
  finish s := some (if s.left = 0 then s.text else s.text ++ [replacement])

/-- `buffer.toString('utf8')` -/
def utf8Text (bytes : List UInt8) : String := String.ofList ((utf8Decoder.read (.between []) bytes).getD [])

/-- Without a byte order mark at the front. -/
def withoutMark : List Char → List Char
  | '\uFEFF' :: cs => cs
  | cs => cs

/-- `new TextDecoder().decode(bytes)` -/
def utf8Decode (bytes : List UInt8) : String := String.ofList (withoutMark (utf8Text bytes).toList)

/-- No byte string is refused. -/
theorem utf8Decoder_feed (s : Utf8State) (bytes : List UInt8) : utf8Decoder.feed s bytes = some (bytes.foldl Utf8State.step s) := by
  induction bytes generalizing s with
  | nil => rfl
  | cons b bs ih => exact ih (s.step b)

/-! ## Reading back what was written -/

/-- A byte within a character, of `k`'s last six bits. -/
theorem toNat_tail (k : Nat) : (UInt8.ofNat (k % 0x40 + 0x80)).toNat = k % 0x40 + 0x80 :=
  UInt8.toNat_ofNat_of_lt' (show k % 0x40 + 0x80 < 0x100 by omega)

theorem step_more {text : List Char} {point lower upper k : Nat} (left : Nat) (low : lower ≤ k % 0x40 + 0x80) (high : k % 0x40 + 0x80 ≤ upper) :
    Utf8State.step ⟨text, point, left + 2, lower, upper⟩ (UInt8.ofNat (k % 0x40 + 0x80)) =
      ⟨text, point * 0x40 + k % 0x40, left + 1, 0x80, 0xBF⟩ := by
  have inside : ¬(k % 0x40 + 0x80 < lower ∨ upper < k % 0x40 + 0x80) := by omega
  have bits : (k % 0x40 + 0x80) % 0x40 = k % 0x40 := by omega
  simp only [Utf8State.step, toNat_tail, if_neg (by omega : ¬left + 2 = 0), if_neg inside, if_neg (by omega : ¬left + 2 = 1), bits]
  rfl

theorem step_last {text : List Char} {point lower upper k : Nat} (low : lower ≤ k % 0x40 + 0x80) (high : k % 0x40 + 0x80 ≤ upper) :
    Utf8State.step ⟨text, point, 1, lower, upper⟩ (UInt8.ofNat (k % 0x40 + 0x80)) =
      .between (text ++ [Char.ofNat (point * 0x40 + k % 0x40)]) := by
  have inside : ¬(k % 0x40 + 0x80 < lower ∨ upper < k % 0x40 + 0x80) := by omega
  have bits : (k % 0x40 + 0x80) % 0x40 = k % 0x40 := by omega
  simp only [Utf8State.step, toNat_tail, if_neg Nat.one_ne_zero, if_neg inside, bits, if_true]

theorem step_between (text : List Char) (byte : UInt8) : (Utf8State.between text).step byte = .lead text byte.toNat := rfl

/-- The bytes of a character, by its number. -/
theorem utf8EncodeChar_eq (c : Char) : String.utf8EncodeChar c =
    if c.toNat ≤ 0x7F then [UInt8.ofNat c.toNat]
    else if c.toNat ≤ 0x7FF then [UInt8.ofNat (c.toNat / 0x40 % 0x20 + 0xC0), UInt8.ofNat (c.toNat % 0x40 + 0x80)]
    else if c.toNat ≤ 0xFFFF then
      [UInt8.ofNat (c.toNat / 0x1000 % 0x10 + 0xE0), UInt8.ofNat (c.toNat / 0x40 % 0x40 + 0x80), UInt8.ofNat (c.toNat % 0x40 + 0x80)]
    else
      [UInt8.ofNat (c.toNat / 0x40000 % 0x08 + 0xF0), UInt8.ofNat (c.toNat / 0x1000 % 0x40 + 0x80),
        UInt8.ofNat (c.toNat / 0x40 % 0x40 + 0x80), UInt8.ofNat (c.toNat % 0x40 + 0x80)] := rfl

/-- The first of two bytes. -/
theorem lead_two (text : List Char) {n : Nat} (more : 0x7F < n) (le : n ≤ 0x7FF) :
    Utf8State.lead text (n / 0x40 % 0x20 + 0xC0) = ⟨text, n / 0x40, 1, 0x80, 0xBF⟩ := by
  have range : 0xC2 ≤ n / 0x40 % 0x20 + 0xC0 ∧ n / 0x40 % 0x20 + 0xC0 ≤ 0xDF := by omega
  have bits : (n / 0x40 % 0x20 + 0xC0) % 0x20 = n / 0x40 := by omega
  rw [Utf8State.lead, if_neg (by omega), if_pos range, bits]

/-- The first of three. The bounds keep overlong forms and surrogates out. -/
theorem lead_three (text : List Char) {n : Nat} (more : 0x7FF < n) (le : n ≤ 0xFFFF) (valid : n < 0xD800 ∨ 0xDFFF < n) :
    ∃ lower upper, Utf8State.lead text (n / 0x1000 % 0x10 + 0xE0) = ⟨text, n / 0x1000, 2, lower, upper⟩ ∧
      lower ≤ n / 0x40 % 0x40 + 0x80 ∧ n / 0x40 % 0x40 + 0x80 ≤ upper := by
  have range : 0xE0 ≤ n / 0x1000 % 0x10 + 0xE0 ∧ n / 0x1000 % 0x10 + 0xE0 ≤ 0xEF := by omega
  have bits : (n / 0x1000 % 0x10 + 0xE0) % 0x10 = n / 0x1000 := by omega
  refine ⟨_, _, by rw [Utf8State.lead, if_neg (by omega), if_neg (by omega), if_pos range, bits], ?_, ?_⟩ <;> split <;> omega

/-- The first of four. -/
theorem lead_four (text : List Char) {n : Nat} (more : 0xFFFF < n) (valid : n < 0x110000) :
    ∃ lower upper, Utf8State.lead text (n / 0x40000 % 0x08 + 0xF0) = ⟨text, n / 0x40000, 3, lower, upper⟩ ∧
      lower ≤ n / 0x1000 % 0x40 + 0x80 ∧ n / 0x1000 % 0x40 + 0x80 ≤ upper := by
  have range : 0xF0 ≤ n / 0x40000 % 0x08 + 0xF0 ∧ n / 0x40000 % 0x08 + 0xF0 ≤ 0xF4 := by omega
  have bits : (n / 0x40000 % 0x08 + 0xF0) % 0x08 = n / 0x40000 := by omega
  refine ⟨_, _, by rw [Utf8State.lead, if_neg (by omega), if_neg (by omega), if_neg (by omega), if_pos range, bits], ?_, ?_⟩ <;> split <;> omega

/-- A character is read back from its bytes, whatever stands before it. -/
theorem utf8Decoder_char (text : List Char) (c : Char) :
    utf8Decoder.feed (.between text) (String.utf8EncodeChar c) = some (.between (text ++ [c])) := by
  have valid : c.toNat < 0xD800 ∨ 0xDFFF < c.toNat ∧ c.toNat < 0x110000 := c.valid
  have byte : ∀ {n : Nat}, n < 0x100 → (UInt8.ofNat n).toNat = n := UInt8.toNat_ofNat_of_lt'
  rw [utf8Decoder_feed, utf8EncodeChar_eq, Option.some_inj]
  split
  case isTrue one =>
    rw [List.foldl_cons, List.foldl_nil, step_between, byte (by omega), Utf8State.lead, if_pos one, Char.ofNat_toNat]
  split
  case isTrue more two =>
    rw [List.foldl_cons, List.foldl_cons, List.foldl_nil, step_between, byte (by omega), lead_two text (by omega) two,
      step_last (by omega) (by omega)]
    have point : c.toNat / 0x40 * 0x40 + c.toNat % 0x40 = c.toNat := by omega
    rw [point, Char.ofNat_toNat]
  split
  case isTrue more three =>
    obtain ⟨lower, upper, lead, low, high⟩ := lead_three text (by omega) three (by omega)
    rw [List.foldl_cons, List.foldl_cons, List.foldl_cons, List.foldl_nil, step_between, byte (by omega), lead,
      step_more 0 low high, step_last (by omega) (by omega)]
    have point : (c.toNat / 0x1000 * 0x40 + c.toNat / 0x40 % 0x40) * 0x40 + c.toNat % 0x40 = c.toNat := by omega
    rw [point, Char.ofNat_toNat]
  case isFalse four =>
    obtain ⟨lower, upper, lead, low, high⟩ := lead_four text (n := c.toNat) (by omega) (by omega)
    rw [List.foldl_cons, List.foldl_cons, List.foldl_cons, List.foldl_cons, List.foldl_nil, step_between, byte (by omega), lead,
      step_more 1 low high, step_more 0 (by omega) (by omega), step_last (by omega) (by omega)]
    have point : ((c.toNat / 0x40000 * 0x40 + c.toNat / 0x1000 % 0x40) * 0x40 + c.toNat / 0x40 % 0x40) * 0x40 + c.toNat % 0x40 = c.toNat := by
      omega
    rw [point, Char.ofNat_toNat]

/-- Text is read back from its bytes. -/
theorem utf8Text_encode (s : JsString) : utf8Text (utf8Encode s) = s.toWellFormed := by
  have chars : utf8Decoder.feed (.between []) (s.toWellFormed.toList.flatMap String.utf8EncodeChar) =
      some (.between ([] ++ s.toWellFormed.toList)) :=
    utf8Decoder.feed_flatMap (fun done c _ => utf8Decoder_char done c) []
  have read : utf8Decoder.read (.between []) (utf8Encode s) = some s.toWellFormed.toList := by
    rw [Scanner.read, utf8Encode, chars]
    rfl
  rw [utf8Text, read, Option.getD_some, String.ofList_toList]

/-- `TextDecoder` reads it back but for a byte order mark at its front. -/
theorem utf8Decode_encode {s : JsString} (unmarked : s.toWellFormed.toList.head? ≠ some '\uFEFF') :
    utf8Decode (utf8Encode s) = s.toWellFormed := by
  have front : withoutMark s.toWellFormed.toList = s.toWellFormed.toList := by
    rw [withoutMark.eq_2]
    intro cs marked
    exact unmarked (by rw [marked]; rfl)
  rw [utf8Decode, utf8Text_encode, front, String.ofList_toList]

end AfriPay.Text
