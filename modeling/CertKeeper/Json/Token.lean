import CertKeeper.Json

/-!
# Tokens of JSON

The marks, texts, numbers and words that a JSON text is made of. The scanner takes one character at
a time and keeps what it is inside of.
-/

namespace CertKeeper.Json

inductive Token where
  | openArray
  | closeArray
  | openObject
  | closeObject
  | comma
  | colon
  /-- A text, or none if it holds half a character. -/
  | text (content : Option String)
  /-- A number or a word. -/
  | value (j : Json)

namespace Token

/-- What is expected inside a text: a character, the one behind a backslash, or the rest of the four
digits of a code unit. -/
inductive Mode where
  | plain
  | escape
  | unit (digits value : Nat)

structure Quotation where
  /-- The characters, the last one first. -/
  read : List Char
  /-- Whether all characters are whole so far. -/
  isWhole : Bool
  /-- The first half of a character, of which the second is expected. -/
  half : Option Nat
  mode : Mode

namespace Quotation

def start : Quotation := ⟨[], true, none, .plain⟩

/-- Appends a character. The half before it stays alone. -/
def push (q : Quotation) (c : Char) : Quotation :=
  ⟨c :: q.read, q.isWhole && q.half.isNone, none, .plain⟩

/-- Leaves a part of a character out. -/
def spoil (q : Quotation) : Quotation := { q with isWhole := false, half := none, mode := .plain }

/-- Appends a unit of sixteen bits: a character or a half of one. -/
def pushUnit (q : Quotation) (u : Nat) : Quotation :=
  match q.half with
  | some h =>
    if 0xDC00 ≤ u ∧ u < 0xE000 then
      let c := Char.ofNat (0x10000 + (h - 0xD800) * 0x400 + (u - 0xDC00))
      { q with read := c :: q.read, half := none, mode := .plain }
    else q.spoil
  | none =>
    if u < 0xD800 ∨ 0xE000 ≤ u then q.push (Char.ofNat u)
    else if u < 0xDC00 then { q with half := some u, mode := .plain }
    else q.spoil

def text (q : Quotation) : Token :=
  .text (if q.isWhole && q.half.isNone then some (String.ofList q.read.reverse) else none)

end Quotation

def unescape? : Char → Option Char
  | '"' => some '"'
  | '\\' => some '\\'
  | '/' => some '/'
  | 'b' => some '\x08'
  | 'f' => some '\x0c'
  | 'n' => some '\n'
  | 'r' => some '\r'
  | 't' => some '\t'
  | _ => none

def hexValue? (c : Char) : Option Nat :=
  if c.isDigit then some (c.toNat - 48)
  else if 'a' ≤ c ∧ c ≤ 'f' then some (c.toNat - 87)
  else if 'A' ≤ c ∧ c ≤ 'F' then some (c.toNat - 55)
  else none

/-- What the scanner is inside of, with the characters read so far, the last one first. -/
inductive Scan where
  | between
  | word (read : List Char)
  | number (read : List Char)
  | quotation (q : Quotation)

def ofWord? (cs : List Char) : Option Token :=
  match String.ofList cs with
  | "null" => some (value null)
  | "true" => some (value (bool true))
  | "false" => some (value (bool false))
  | _ => none

def ofNumber? (cs : List Char) : Option Token :=
  (Numeral.ofChars? cs).map fun n =>
    match n.value with
    | .integer i => value (integer i)
    | .real x => value (real x)
    | .outOfRange => value unreadable

namespace Scan

def isBlank (c : Char) : Bool := c = ' ' || c = '\t' || c = '\n' || c = '\r'

def isNumberPart (c : Char) : Bool :=
  c.isDigit || c = '+' || c = '-' || c = '.' || c = 'e' || c = 'E'

def first? (c : Char) : Option (List Token × Scan) :=
  if isBlank c then some ([], between)
  else
    match c with
    | '[' => some ([openArray], between)
    | ']' => some ([closeArray], between)
    | '\x7b' => some ([openObject], between)
    | '\x7d' => some ([closeObject], between)
    | ',' => some ([comma], between)
    | ':' => some ([colon], between)
    | '"' => some ([], quotation .start)
    | c =>
      if c.isDigit || c = '-' then some ([], number [c])
      else if c.isLower then some ([], word [c])
      else none

def inside? (q : Quotation) (c : Char) : Option (List Token × Scan) :=
  match q.mode with
  | .plain =>
    if c = '"' then some ([q.text], between)
    else if c = '\\' then some ([], quotation { q with mode := .escape })
    else if c.toNat < 0x20 then none
    else some ([], quotation (q.push c))
  | .escape =>
    if c = 'u' then some ([], quotation { q with mode := .unit 0 0 })
    else (unescape? c).map fun e => ([], quotation (q.push e))
  | .unit digits v =>
    (hexValue? c).map fun x =>
      let v := v * 16 + x
      ([], quotation (if digits = 3 then q.pushUnit v else { q with mode := .unit (digits + 1) v }))

/-- The token that ends here, if the scanner is inside one that needs no closing mark. -/
def finish? : Scan → Option (List Token)
  | between => some []
  | word read => (ofWord? read.reverse).map fun t => [t]
  | number read => (ofNumber? read.reverse).map fun t => [t]
  | quotation _ => none

/-- One character: the tokens that it completes and what the scanner is inside of after it. -/
def step? (s : Scan) (c : Char) : Option (List Token × Scan) :=
  match s with
  | quotation q => inside? q c
  | word read =>
    if c.isLower then some ([], word (c :: read)) else next?
  | number read =>
    if isNumberPart c then some ([], number (c :: read)) else next?
  | between => first? c
where
  /-- A character behind a token. -/
  next? : Option (List Token × Scan) := do
    let done ← s.finish?
    let (tokens, after) ← first? c
    some (done ++ tokens, after)

end Scan

/-- The tokens of a text from a point inside of it, where `read` are those before it, the last one
first. -/
def scan? (read : List Token) (s : Scan) : List Char → Option (List Token)
  | [] => s.finish?.map fun last => (last ++ read).reverse
  | c :: rest => do
    let (tokens, s) ← s.step? c
    scan? (tokens.reverse ++ read) s rest

def ofText? (text : String) : Option (List Token) := scan? [] .between text.toList

end Token
end CertKeeper.Json
