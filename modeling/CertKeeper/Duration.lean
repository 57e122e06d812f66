import CertKeeper.Number.Magnitude
import CertKeeper.Text.Blank
import CertKeeper.Text.Quoted

/-!
# Durations

Durations are written as numbers with units, one after the other: `1h30m`, `1.5s`. They are counted
in nanoseconds. The terms are added in double precision and the sum is rounded to a whole number, at
most `Duration.top`.
-/

namespace CertKeeper

namespace Duration

/-- The greatest duration that can be written, in nanoseconds. -/
def top : Nat := UInt64.size - 1

/-- The longest span of time that may have a sign, in nanoseconds: as many milliseconds as a signed
number of 64 bits counts. -/
def longestSpan : Nat := (UInt64.size / 2 - 1) * 1000000

def second : Nat := 1000000000

inductive Scale where
  | nano | micro | milli | second | minute | hour
  deriving DecidableEq, Repr

namespace Scale

def nanos : Scale → Nat
  | nano => 1
  | micro => 1000
  | milli => 1000000
  | second => 1000000000
  | minute => 60000000000
  | hour => 3600000000000

/-- The spellings of the units, each before those that start it. -/
def spellings : List (List Char × Scale) :=
  [(['n', 's'], nano), (['u', 's'], micro), (['µ', 's'], micro), (['μ', 's'], micro),
    (['m', 's'], milli), (['s'], second), (['m'], minute), (['h'], hour)]

def read? (cs : List Char) : Option (Scale × List Char) :=
  spellings.findSome? fun s =>
    if s.1.isPrefixOf cs then some (s.2, cs.drop s.1.length) else none

end Scale

/-- A number with its unit: the digits before and after the point. -/
structure Component where
  whole : List Char
  fraction : List Char
  scale : Scale
  deriving DecidableEq, Repr

namespace Component

/-- The digits at the start of a text, of any script, a point and the digits after it, and the rest.
There is a digit before the point, or after it. -/
def readNumber? (cs : List Char) : Option (List Char × List Char × List Char) :=
  let whole := cs.takeWhile Text.isDecimal
  match cs.dropWhile Text.isDecimal with
  | '.' :: rest =>
    let fraction := rest.takeWhile Text.isDecimal
    if whole.isEmpty ∧ fraction.isEmpty then none
    else some (whole, fraction, rest.dropWhile Text.isDecimal)
  | rest => if whole.isEmpty then none else some (whole, [], rest)

def read? (cs : List Char) : Option (Component × List Char) := do
  let (whole, fraction, rest) ← readNumber? cs
  let (scale, rest) ← Scale.read? rest
  some (⟨whole, fraction, scale⟩, rest)

/-- Whether all digits are those of ASCII. Only they have a value. -/
def isReadable (c : Component) : Bool := c.whole.all Char.isDigit && c.fraction.all Char.isDigit

def digitsValue (ds : List Char) : Nat := ds.foldl (fun n d => n * 10 + (d.toNat - 48)) 0

def value (c : Component) : Number.Magnitude :=
  (Number.Magnitude.ofDecimal (digitsValue (c.whole ++ c.fraction)) c.fraction.length).scale
    c.scale.nanos

end Component

inductive ParseError where
  | empty
  | malformed (raw : String)
  | unreadableNumber (raw : String)
  | outOfRange (raw : String)
  deriving DecidableEq, Repr

def ParseError.message : ParseError → String
  | empty => "duration cannot be empty"
  | malformed raw => "invalid duration " ++ Text.Quoted.quote raw
  | unreadableNumber raw =>
    "invalid number in duration " ++ Text.Quoted.quote raw ++ ": invalid float literal"
  | outOfRange raw =>
    "duration " ++ Text.Quoted.quote raw
      ++ " out of range: Source duration value is out of range for the target type"

theorem Scale.read?_length {cs rest : List Char} {u : Scale} (h : Scale.read? cs = some (u, rest)) :
    rest.length < cs.length := by
  simp only [Scale.read?, List.findSome?_eq_some_iff] at h
  obtain ⟨before, s, after, hs, hread, -⟩ := h
  split at hread
  · next hp =>
    have hmem : s ∈ spellings := by rw [hs]; simp
    have hpos : 0 < s.1.length := by
      simp only [spellings, List.mem_cons, List.not_mem_nil, or_false] at hmem
      rcases hmem with rfl | rfl | rfl | rfl | rfl | rfl | rfl | rfl <;> decide
    have hle : s.1.length ≤ cs.length := (List.isPrefixOf_iff_prefix.mp hp).length_le
    simp only [Option.some.injEq, Prod.mk.injEq] at hread
    rw [← hread.2, List.length_drop]
    omega
  · simp at hread

theorem Component.readNumber?_length {cs w f rest : List Char}
    (h : Component.readNumber? cs = some (w, f, rest)) : rest.length ≤ cs.length := by
  have hd := (List.dropWhile_suffix (l := cs) Text.isDecimal).length_le
  simp only [Component.readNumber?] at h
  split at h
  · next tail heq =>
    have ht := (List.dropWhile_suffix (l := tail) Text.isDecimal).length_le
    rw [heq] at hd
    simp only [List.length_cons] at hd
    split at h
    · simp at h
    · simp only [Option.some.injEq, Prod.mk.injEq] at h
      rw [← h.2.2]
      omega
  · split at h
    · simp at h
    · simp only [Option.some.injEq, Prod.mk.injEq] at h
      rw [← h.2.2]
      exact hd

theorem Component.read?_length {cs rest : List Char} {c : Component}
    (h : Component.read? cs = some (c, rest)) : rest.length < cs.length := by
  simp only [Component.read?, Option.bind_eq_bind, Option.bind_eq_some_iff, Option.some.injEq,
    Prod.mk.injEq] at h
  obtain ⟨⟨w, f, r⟩, hn, ⟨u, r'⟩, hu, -, rfl⟩ := h
  exact Nat.lt_of_lt_of_le (Scale.read?_length hu) (Component.readNumber?_length hn)

def sumComponents (raw : String) (sum : Number.Magnitude) (cs : List Char) :
    Except ParseError Number.Magnitude :=
  match _h : Component.read? cs with
  | none => if cs.isEmpty then .ok sum else .error (.malformed raw)
  | some (c, rest) =>
    if c.isReadable then sumComponents raw (sum.add c.value) rest
    else .error (.unreadableNumber raw)
termination_by cs.length
decreasing_by exact Component.read?_length _h

/-- Reads an unsigned duration, blanks at its ends apart. -/
def parse (raw : String) : Except ParseError Nat :=
  let text := Text.trim raw.toList
  if text.isEmpty then .error .empty
  else if text = ['0'] then .ok 0
  else (sumComponents raw (.finite 0) text).map (Number.Magnitude.toNatBelow top)

def splitSign : List Char → Bool × List Char
  | '-' :: rest => (true, rest)
  | '+' :: rest => (false, rest)
  | text => (false, text)

/-- A duration as a span of time that may have a sign, unless it is too long. -/
def toSpan? (nanos : Nat) : Option Int := if nanos ≤ longestSpan then some nanos else none

def parseSigned (raw : String) : Except ParseError Int := do
  let (isNegative, magnitude) := splitSign (Text.trim raw.toList)
  let nanos ← parse (String.ofList magnitude)
  match toSpan? nanos with
  | some span => .ok (if isNegative then -span else span)
  | none => .error (.outOfRange raw)

end Duration
end CertKeeper
