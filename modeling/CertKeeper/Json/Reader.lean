import CertKeeper.Json.Token

/-!
# Reading JSON

A value is read from its tokens. The reader takes one token at a time and keeps the arrays and the
objects that are open, the innermost first.
-/

namespace CertKeeper.Json

/-- An array or an object that is open, with what it holds so far, the last first. -/
inductive Frame where
  | items (read : List Json)
  /-- The fields whose names can be read, whether these are all, and the name of the next one. -/
  | fields (read : Fields) (isWhole : Bool) (name : Option String)

namespace Frame

/-- Adds a value, to an object under the name that was read before it. -/
def add (j : Json) : Frame → Frame
  | items read => items (j :: read)
  | fields read isWhole (some name) => fields ((name, j) :: read) isWhole none
  | fields read _ none => fields read false none

def value : Frame → Json
  | items read => array read.reverse
  | fields read isWhole _ => if isWhole then object read.reverse else unreadable

end Frame

inductive Reader where
  /-- A value, or also the end of the innermost frame. -/
  | value (orEnd : Bool) (frames : List Frame)
  /-- The name of a field of the innermost frame, or also its end. -/
  | name (orEnd : Bool) (frames : List Frame)
  /-- The colon behind the name of a field. -/
  | colon (frames : List Frame)
  /-- What follows a value in the innermost frame. -/
  | next (frames : List Frame)
  | done (j : Json)

namespace Reader

def put (j : Json) : List Frame → Reader
  | [] => done j
  | frame :: outer => next (frame.add j :: outer)

def close : List Frame → Option Reader
  | [] => none
  | frame :: outer => some (put frame.value outer)

def step? : Reader → Token → Option Reader
  | value orEnd frames, t =>
    match t with
    | .openArray => some (value true (.items [] :: frames))
    | .openObject => some (name true (.fields [] true none :: frames))
    | .text (some s) => some (put (string s) frames)
    | .text none => some (put unreadable frames)
    | .value j => some (put j frames)
    | .closeArray => if orEnd then close frames else none
    | _ => none
  | name orEnd frames, t =>
    match t, frames with
    | .text s, .fields read isWhole _ :: outer => some (colon (.fields read isWhole s :: outer))
    | .closeObject, frames => if orEnd then close frames else none
    | _, _ => none
  | colon frames, t =>
    match t with
    | .colon => some (value false frames)
    | _ => none
  | next frames, t =>
    match t, frames with
    | .comma, .items _ :: _ => some (value false frames)
    | .comma, .fields .. :: _ => some (name false frames)
    | .closeArray, .items _ :: _ => close frames
    | .closeObject, .fields .. :: _ => close frames
    | _, _ => none
  | done _, _ => none

end Reader

def ofText? (text : String) : Option Json := do
  match ← (← Token.ofText? text).foldlM Reader.step? (.value false []) with
  | .done j => some j
  | _ => none

def settledOfText? (text : String) : Option Json := ofText? text >>= settled? maxDepth

end CertKeeper.Json
