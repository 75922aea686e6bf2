import AfriPay.Text.NumberText
import AfriPay.Text.Patterns
import AfriPay.Text.Scanner

/-!
# JSON as text

`JSON.parse` reads a text in one pass: a scanner makes tokens of the characters, and
another makes a value of the tokens, with the arrays and objects it is inside of on a
stack. `JSON.stringify` writes the tokens of a value. Half of a surrogate pair gets into a
string by an escape, and is written as one when it stands alone.
-/

namespace AfriPay.Text

inductive Mark where
  | openArray | closeArray | openObject | closeObject | comma | colon
  deriving DecidableEq

def Mark.char : Mark → Char
  | .openArray => '['
  | .closeArray => ']'
  | .openObject => '\x7b'
  | .closeObject => '\x7d'
  | .comma => ','
  | .colon => ':'

def markOf (c : Char) : Option Mark :=
  [Mark.openArray, .closeArray, .openObject, .closeObject, .comma, .colon].find? fun m => m.char = c

/-- A mark, or a value that is neither an array nor an object. -/
inductive Token where
  | mark (m : Mark)
  | value (v : Json)

/-! ## Strings -/

/-- What the letter after a backslash stands for. -/
def escapedUnit (c : Char) : Option CodeUnit :=
  [('"', 0x22), ('\\', 0x5C), ('/', 0x2F), ('b', 0x8), ('f', 0xC), ('n', 0xA), ('r', 0xD), ('t', 0x9)].lookup c

def hexDigit (n : Nat) : Char := "0123456789abcdef".toList.getD n '0'

/-- A character of a string as `JSON.stringify` writes it. -/
def quotedChar (c : Char) : List Char :=
  match c.toNat with
  | 0x22 => ['\\', '"']
  | 0x5C => ['\\', '\\']
  | 0x8 => ['\\', 'b']
  | 0xC => ['\\', 'f']
  | 0xA => ['\\', 'n']
  | 0xD => ['\\', 'r']
  | 0x9 => ['\\', 't']
  | n => if n < 0x20 then ['\\', 'u', '0', '0', hexDigit (n / 16), hexDigit (n % 16)] else [c]

/-- Half of a surrogate pair is written as an escape. -/
def quotedPoint : CodePoint → List Char
  | .char c => quotedChar c
  | .half u =>
    ['\\', 'u', hexDigit (u.toNat / 0x1000), hexDigit (u.toNat / 0x100 % 16), hexDigit (u.toNat / 0x10 % 16), hexDigit (u.toNat % 16)]

/-! ## Literals -/

/-- `/^-?(0|[1-9]\d*)(\.\d+)?([eE][+-]?\d+)?$/` -/
def jsonNumeral : Regex :=
  .seq .start (.seq (.opt (.char '-')) (.seq (.alt (.char '0') (.seq (.one fun c => '1' ≤ c ∧ c ≤ '9') (.star true digit)))
    (.seq (.opt (.seq (.char '.') (.plus digit)))
      (.seq (.opt (.seq (.one fun c => c = 'e' ∨ c = 'E') (.seq (.opt (.one fun c => c = '+' ∨ c = '-')) (.plus digit)))) .stop))))

/-- What stands without quotes. -/
def bareValue (cs : List Char) : Option Json :=
  if cs = "null".toList then some .null
  else if cs = "true".toList then some (.bool true)
  else if cs = "false".toList then some (.bool false)
  else if jsonNumeral.test cs then some (.num (stringToNumber (String.ofList cs)))
  else none

/-! ## From characters to tokens -/

inductive LexMode where
  | between
  | bare (cs : List Char)
  | quoted (units : List CodeUnit)
  | escaped (units : List CodeUnit)
  /-- After `\u`, with so many digits to come. -/
  | coded (units : List CodeUnit) (code left : Nat)

structure LexState where
  tokens : List Token
  mode : LexMode

/-- The tokens if nothing is to follow. -/
def LexState.settle : LexState → Option (List Token)
  | ⟨ts, .between⟩ => some ts
  | ⟨ts, .bare cs⟩ => (bareValue cs).map fun v => ts ++ [.value v]
  | _ => none

/-- What has been read of a literal. -/
def LexState.pending (s : LexState) : List Char :=
  match s.mode with
  | .bare cs => cs
  | _ => []

/-- TAB, LF, CR and SPACE -/
def isJsonSpace (c : Char) : Bool := decide (c.toNat ∈ [0x9, 0xA, 0xD, 0x20])

/-- A character outside strings. -/
def LexState.stepOutside (s : LexState) (c : Char) : Option LexState :=
  match markOf c with
  | some m => s.settle.map fun ts => ⟨ts ++ [.mark m], .between⟩
  | none =>
    if isJsonSpace c then s.settle.map fun ts => ⟨ts, .between⟩
    else if c = '"' then s.settle.map fun ts => ⟨ts, .quoted []⟩
    else some ⟨s.tokens, .bare (s.pending ++ [c])⟩

def LexState.step (s : LexState) (c : Char) : Option LexState :=
  match s.mode with
  | .between | .bare _ => s.stepOutside c
  | .quoted us =>
    if c = '"' then some ⟨s.tokens ++ [.value (JsString.ofUnits us).json], .between⟩
    else if c = '\\' then some ⟨s.tokens, .escaped us⟩
    else if c.toNat < 0x20 then none
    else some ⟨s.tokens, .quoted (us ++ charUnits c)⟩
  | .escaped us =>
    if c = 'u' then some ⟨s.tokens, .coded us 0 4⟩ else (escapedUnit c).map fun u => ⟨s.tokens, .quoted (us ++ [u])⟩
  | .coded us code left =>
    (radixDigit 16 c).map fun d =>
      if left = 1 then ⟨s.tokens, .quoted (us ++ [.ofNat (16 * code + d)])⟩ else ⟨s.tokens, .coded us (16 * code + d) (left - 1)⟩

def lexer : Scanner LexState Char (List Token) where
  step := LexState.step
  finish := LexState.settle

/-! ## From tokens to a value -/

/-- What a value is part of: an array after some items, or an object after some properties and this name. -/
inductive Frame where
  | array (items : List Json)
  | object (fields : List (JsString × Json)) (key : JsString)

inductive Reading where
  /-- Before a value. -/
  | value (stack : List Frame)
  /-- After `[`. -/
  | first (stack : List Frame)
  /-- Before a name; the object may also end here if it has just begun. -/
  | name (fields : List (JsString × Json)) (begun : Bool) (stack : List Frame)
  /-- After a name. -/
  | colon (fields : List (JsString × Json)) (key : JsString) (stack : List Frame)
  /-- After a value. -/
  | after (v : Json) (stack : List Frame)

/-- `fields[key] = v`: a name keeps its place and has its last value. -/
def putField (fields : List (JsString × Json)) (key : JsString) (v : Json) : List (JsString × Json) :=
  if fields.any (·.1 = key) then fields.map fun f => if f.1 = key then (key, v) else f else fields ++ [(key, v)]

/-- A token where a value may stand. -/
def Reading.start (stack : List Frame) : Token → Option Reading
  | .value v => some (.after v stack)
  | .mark .openArray => some (.first stack)
  | .mark .openObject => some (.name [] true stack)
  | .mark _ => none

def Reading.step : Reading → Token → Option Reading
  | .value stack, t => Reading.start stack t
  | .first stack, .mark .closeArray => some (.after (.arr []) stack)
  | .first stack, t => Reading.start (.array [] :: stack) t
  | .name fields _ stack, .value (.str key) => some (.colon fields key stack)
  | .name fields _ stack, .value (.lone key) => some (.colon fields (.lone key) stack)
  | .name _ true stack, .mark .closeObject => some (.after (.obj []) stack)
  | .colon fields key stack, .mark .colon => some (.value (.object fields key :: stack))
  | .after v (.array items :: stack), .mark .comma => some (.value (.array (items ++ [v]) :: stack))
  | .after v (.array items :: stack), .mark .closeArray => some (.after (.arr (items ++ [v])) stack)
  | .after v (.object fields key :: stack), .mark .comma => some (.name (putField fields key v) false stack)
  | .after v (.object fields key :: stack), .mark .closeObject => some (.after (.obj (putField fields key v)) stack)
  | _, _ => none

def parser : Scanner Reading Token Json where
  step := Reading.step
  finish
    | .after v [] => some v
    | _ => none

/-- `JSON.parse(s)`, `none` where it throws. -/
def jsonParse (s : String) : Option Json :=
  (lexer.read ⟨[], .between⟩ s.toList).bind (parser.read (.value []))

/-! ## From a value to characters -/

mutual

def Json.tokens : Json → List Token
  | .arr [] => [.mark .openArray, .mark .closeArray]
  | .arr (x :: xs) => .mark .openArray :: (x.tokens ++ itemTokens xs)
  | .obj [] => [.mark .openObject, .mark .closeObject]
  | .obj ((key, v) :: fields) => .mark .openObject :: .value key.json :: .mark .colon :: (v.tokens ++ fieldTokens fields)
  | v => [.value v]

/-- The items after the first. -/
def itemTokens : List Json → List Token
  | [] => [.mark .closeArray]
  | x :: xs => .mark .comma :: (x.tokens ++ itemTokens xs)

/-- The properties after the first. -/
def fieldTokens : List (JsString × Json) → List Token
  | [] => [.mark .closeObject]
  | (key, v) :: fields => .mark .comma :: .value key.json :: .mark .colon :: (v.tokens ++ fieldTokens fields)

end

def quoted (s : JsString) : List Char := '"' :: s.codePoints.flatMap quotedPoint ++ ['"']

def Token.text : Token → List Char
  | .mark m => [m.char]
  | .value .null | .value (.num .nan) | .value (.num (.inf _)) => "null".toList
  | .value (.bool b) => if b then "true".toList else "false".toList
  | .value (.num x) => (numberText x).toList
  | .value (.str s) => quoted s
  | .value (.lone t) => quoted (.lone t)
  | .value (.arr _) | .value (.obj _) => []

/-- `JSON.stringify(v)` -/
def jsonStringify (v : Json) : String := String.ofList (v.tokens.flatMap Token.text)

/-! ## Values as text -/

/-- `texts.join(',')` -/
def joinTexts (texts : List JsString) : JsString := .ofUnits (List.intercalate (charUnits ',') (texts.map JsString.units))

mutual

/-- `String(v)`, `none` where it throws: an object with a property `toString` of its own cannot be written. -/
def Json.text : Json → Option JsString
  | .null => some "null"
  | .bool b => some (if b then "true" else "false")
  | .num x => some (numberText x)
  | .str s => some s
  | .lone t => some (.lone t)
  | .arr xs => (itemTexts xs).map joinTexts
  | .obj fields => if fields.any (·.1 = .text "toString") then none else some "[object Object]"

/-- The items as `join` writes them. -/
def itemTexts : List Json → Option (List JsString)
  | [] => some []
  | .null :: xs => (itemTexts xs).map (.text "" :: ·)
  | x :: xs => do return (← x.text) :: (← itemTexts xs)

end

/-- `String(v)`, an absent property being `undefined`. -/
def toText : Option Json → Option JsString
  | none => some "undefined"
  | some v => v.text

end AfriPay.Text
