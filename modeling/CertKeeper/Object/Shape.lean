import CertKeeper.Json
import CertKeeper.Time.Timestamp

/-!
# Shapes of values

A shape says what a part of an object may be. `settle?` reads a value of a shape: it drops the
fields that the shape does not have, unread, and writes the others as they are always written.
-/

namespace CertKeeper

/-- What may stand in the place of a schema. -/
inductive SchemaAlternative where
  | never
  | bool
  | schemas
  | texts
  deriving DecidableEq, Repr

inductive Shape where
  | text
  /-- One text only. -/
  | exactly (value : String)
  | bool
  /-- An integer of so many bits, with a sign. -/
  | int (bits : Nat)
  | real
  /-- Bytes in base64. -/
  | bytes
  | time
  | anything
  | list (item : Shape)
  /-- Values under any names. -/
  | dict (value : Shape)
  /-- Values under certain names, with what stands for a value that is absent, if it may not be. -/
  | record (fields : List (String × Shape × Option Json))
  /-- The description of a value, which is itself made of such descriptions. -/
  | schema (alternative : SchemaAlternative)

namespace Shape

/-- The fields of a record: their names, shapes and values where they are absent. -/
abbrev Fields := List (String × Shape × Option Json)

def optional (name : String) (shape : Shape) : Fields := [(name, shape, none)]

def optionals (shape : Shape) (names : List String) : Fields :=
  names.map fun name => (name, shape, none)

/-- A field that is written also where it was left out. -/
def required (name : String) (shape : Shape) (absent : Json) : Fields :=
  [(name, shape, some absent)]

def requiredTexts (names : List String) : Fields :=
  names.map fun name => (name, .text, some (.string ""))

def texts : Shape := .list .text

def labels : Shape := .dict .text

def ruleFields : Fields :=
  optionals .text ["fieldPath", "message", "messageExpression", "reason"]
    ++ optional "optionalOldSelf" .bool ++ requiredTexts ["rule"]

def schemaFields : Fields :=
  optionals .text ["$ref", "$schema", "description", "format", "id", "pattern", "title", "type",
      "x-kubernetes-list-type", "x-kubernetes-map-type"]
    ++ optionals .bool ["exclusiveMaximum", "exclusiveMinimum", "nullable", "uniqueItems",
      "x-kubernetes-embedded-resource", "x-kubernetes-int-or-string",
      "x-kubernetes-preserve-unknown-fields"]
    ++ optionals (.int 64) ["maxItems", "maxLength", "maxProperties", "minItems", "minLength",
      "minProperties"]
    ++ optionals .real ["maximum", "minimum", "multipleOf"]
    ++ optionals .anything ["default", "example"]
    ++ optional "enum" (.list .anything)
    ++ optionals texts ["required", "x-kubernetes-list-map-keys"]
    ++ optional "externalDocs" (.record (optionals .text ["description", "url"]))
    ++ optional "x-kubernetes-validations" (.list (.record ruleFields))
    ++ optional "not" (.schema .never)
    ++ optionals (.list (.schema .never)) ["allOf", "anyOf", "oneOf"]
    ++ optionals (.dict (.schema .never)) ["definitions", "patternProperties", "properties"]
    ++ optionals (.schema .bool) ["additionalItems", "additionalProperties"]
    ++ optional "items" (.schema .schemas)
    ++ optional "dependencies" (.dict (.schema .texts))

def item? : Shape → Option Shape
  | list item => some item
  | schema .schemas => some (schema .never)
  | schema .texts => some text
  | _ => none

def fields? : Shape → Option Fields
  | record fields => some fields
  | schema _ => some schemaFields
  | _ => none

/-- Whether `null` stands for a field of this shape that was left out. -/
def admitsNull : Shape → Bool
  | exactly _ => false
  | _ => true

/-- A value that holds no others. -/
def settleScalar? : Shape → Json → Option Json
  | text, .string s => some (.string s)
  | exactly value, .string s => if s = value then some (.string s) else none
  | bool, .bool b => some (.bool b)
  | schema .bool, .bool b => some (.bool b)
  | int bits, .integer n =>
    let limit : Int := Nat.pow 2 (bits - 1)
    if -limit ≤ n ∧ n < limit then some (.integer n) else none
  | real, .integer n => (Number.Double.ofInt? n).map .real
  | real, .real x => some (.real x)
  | bytes, .null => some (Json.ofBytes [])
  | bytes, j => j.bytes?.map Json.ofBytes
  | time, j => (j.text? >>= Time.Timestamp.parse?).map fun t => .string t.render
  | _, _ => none

/-- The fields of a record from those that were read, of which the last one with a name counts. -/
def arrange (fields : Fields) (read : List (String × Option Json)) : Json :=
  Json.sorted (fields.filterMap fun f =>
    match read.reverse.lookup f.1 with
    | some (some v) => some (f.1, v)
    | _ => f.2.2.map fun v => (f.1, v))

/-- Reads a value of a shape that is nested at most `depth` deep. -/
def settle? (depth : Nat) (shape : Shape) (j : Json) : Option Json :=
  match shape, j with
  | anything, j => j.settled? depth
  | dict value, .object entries =>
    match depth with
    | 0 => none
    | d + 1 => (entries.mapM fun e => (settle? d value e.2).map fun v => (e.1, v)).map Json.sorted
  | shape, .object entries =>
    match depth, shape.fields? with
    | d + 1, some fields => do
      let read ← entries.mapM fun e =>
        match fields.lookup e.1 with
        | none => some none
        | some (shape, _) =>
          if shape.admitsNull && e.2.isNull then some (some (e.1, none))
          else (settle? d shape e.2).map fun v => some (e.1, some v)
      some (arrange fields (read.filterMap id))
    | _, _ => none
  | shape, .array items =>
    match depth, shape.item? with
    | d + 1, some item => (items.mapM (settle? d item)).map .array
    | _, _ => none
  | shape, j => settleScalar? shape j

end Shape
end CertKeeper
