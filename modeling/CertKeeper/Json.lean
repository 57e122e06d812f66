import CertKeeper.Json.Numeral
import CertKeeper.Text.Base64
import Std.Data.ExtTreeMap

/-!
# JSON values

Objects of the cluster are exchanged as JSON. A value is read field by field: each reader names the
fields it models, and `Fields.except` keeps the others so that they can be written back. A value as
it was sent may hold parts that nobody can read; in a settled one there are none, and the fields of
each object stand in the order of their names.
-/

namespace CertKeeper

/-- Finite maps from text, in the order of their keys. -/
abbrev Dict (β : Type) := Std.ExtTreeMap String β

inductive Json where
  | null
  | bool (value : Bool)
  | integer (n : Int)
  | real (x : Number.Double)
  /-- A number that is out of range, or text with half a character. It may be passed over. -/
  | unreadable
  | string (value : String)
  | array (items : List Json)
  | object (fields : List (String × Json))
  deriving Inhabited, BEq, Repr

namespace Json

abbrev Fields := List (String × Json)

def ofInt (n : Int) : Json := integer n

def ofNat (n : Nat) : Json := integer n

/-- A field that is left out when there is no value. -/
def optionalField (key : String) (value : Option Json) : Fields :=
  match value with
  | none => []
  | some v => [(key, v)]

def ofOption (f : α → Json) : Option α → Json
  | none => null
  | some a => f a

def isNull : Json → Bool
  | null => true
  | _ => false

def text? : Json → Option String
  | string s => some s
  | _ => none

def array? : Json → Option (List Json)
  | array items => some items
  | _ => none

def fields? : Json → Option Fields
  | object fields => some fields
  | _ => none

def int? : Json → Option Int
  | integer n => some n
  | _ => none

/-- Bytes are written in base64. -/
def bytes? : Json → Option Bytes
  | string s => Text.Base64.ofText? s
  | _ => none

def ofBytes (b : Bytes) : Json := string (Text.Base64.encode b)

def dict? (f : Json → Option β) : Json → Option (Dict β)
  | object fields =>
    fields.foldlM (fun d kv => (f kv.2).map (d.insert kv.1 ·)) ∅
  | _ => none

def ofDict (f : β → Json) (d : Dict β) : Json := object (d.toList.map fun kv => (kv.1, f kv.2))

def ofDictWith (f : String → β → Json) (d : Dict β) : Json :=
  object (d.toList.map fun kv => (kv.1, f kv.1 kv.2))

def list? (f : Json → Option α) : Json → Option (List α)
  | array items => items.mapM f
  | _ => none

namespace Fields

def get? (fields : Fields) (key : String) : Option Json := fields.lookup key

/-- A field that may be left out; `null` stands for leaving it out. -/
def optional (fields : Fields) (key : String) (f : Json → Option α) : Option (Option α) :=
  match fields.get? key with
  | none | some null => some none
  | some v => (f v).map some

/-- The value of a field that is there once. -/
def only? (fields : Fields) (key : String) : Option Json :=
  match fields.filter fun kv => kv.1 = key with
  | [kv] => some kv.2
  | _ => none

def repeats (fields : Fields) (names : List String) : Bool :=
  names.any fun name => 1 < (fields.filter fun kv => kv.1 = name).length

def except (fields : Fields) (known : List String) : Fields :=
  fields.filter fun kv => !known.contains kv.1

def others (fields : Fields) (known : List String) : Dict Json :=
  (fields.except known).foldl (fun d kv => d.insert kv.1 kv.2) ∅

end Fields

def escape (c : Char) : List Char :=
  match c with
  | '"' => ['\\', '"']
  | '\\' => ['\\', '\\']
  | '\n' => ['\\', 'n']
  | '\r' => ['\\', 'r']
  | '\t' => ['\\', 't']
  | '\x08' => ['\\', 'b']
  | '\x0c' => ['\\', 'f']
  | c =>
    if c.toNat < 0x20 then ['\\', 'u', '0', '0'] ++ Bytes.hexByte (UInt8.ofNat c.toNat)
    else [c]

def quote (s : String) : String := String.ofList (['"'] ++ s.toList.flatMap escape ++ ['"'])

mutual

/-- The text of a value, without blanks. What cannot be read is written as `null`. -/
def compact : Json → String
  | null => "null"
  | bool b => if b then "true" else "false"
  | integer n => toString n
  | real x => Numeral.realText x
  | unreadable => "null"
  | string s => quote s
  | array items => "[" ++ ",".intercalate (compactItems items) ++ "]"
  | object fields => "\x7b" ++ ",".intercalate (compactFields fields) ++ "\x7d"

def compactItems : List Json → List String
  | [] => []
  | v :: rest => compact v :: compactItems rest

def compactFields : Fields → List String
  | [] => []
  | (k, v) :: rest => (quote k ++ ":" ++ compact v) :: compactFields rest

end

/-- The fields in the order of their names, the later of two with one name. -/
def sorted (fields : Fields) : Json :=
  object (fields.foldl (fun (d : Dict Json) kv => d.insert kv.1 kv.2) ∅).toList

/-- How deep arrays and objects may be nested in what is read. -/
def maxDepth : Nat := 127

def settled? (depth : Nat) : Json → Option Json
  | unreadable => none
  | array items =>
    match depth with
    | 0 => none
    | d + 1 => (items.mapM (settled? d)).map array
  | object fields =>
    match depth with
    | 0 => none
    | d + 1 => (fields.mapM fun kv => (settled? d kv.2).map fun v => (kv.1, v)).map sorted
  | j => some j

end Json
end CertKeeper
