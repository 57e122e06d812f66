import CertKeeper.Bytes

/-!
# Reading any bytes as text

`lossy` reads a byte string as UTF-8 and puts the replacement character in the place of every
maximal piece that no well-formed sequence continues. The reader is a machine that takes one byte at
a time and keeps what it still expects.
-/

namespace CertKeeper.Text.Utf8

/-- Between characters, or inside one: the bits read so far, how many bytes are still expected, and
the bounds of the next one. -/
inductive State where
  | start
  | inside (bits : Nat) (missing : Nat) (lo hi : Nat)
  deriving DecidableEq, Repr

def replacement : Char := Char.ofNat 0xFFFD

/-- A byte that starts a character: the characters it completes and the state after it. -/
def first (b : Nat) : List Char × State :=
  if b < 0x80 then ([Char.ofNat b], .start)
  else if 0xC2 ≤ b ∧ b ≤ 0xDF then ([], .inside (b - 0xC0) 1 0x80 0xBF)
  else if b = 0xE0 then ([], .inside 0 2 0xA0 0xBF)
  else if b = 0xED then ([], .inside 0xD 2 0x80 0x9F)
  else if 0xE1 ≤ b ∧ b ≤ 0xEF then ([], .inside (b - 0xE0) 2 0x80 0xBF)
  else if b = 0xF0 then ([], .inside 0 3 0x90 0xBF)
  else if 0xF1 ≤ b ∧ b ≤ 0xF3 then ([], .inside (b - 0xF0) 3 0x80 0xBF)
  else if b = 0xF4 then ([], .inside 4 3 0x80 0x8F)
  else ([replacement], .start)

/-- One byte in any state. A byte that does not continue a sequence ends it and starts anew. -/
def step : State → Nat → List Char × State
  | .start, b => first b
  | .inside bits missing lo hi, b =>
    if lo ≤ b ∧ b ≤ hi then
      if missing = 1 then ([Char.ofNat (bits * 64 + (b - 0x80))], .start)
      else ([], .inside (bits * 64 + (b - 0x80)) (missing - 1) 0x80 0xBF)
    else
      let (out, next) := first b
      (replacement :: out, next)

def lossyChars : State → Bytes → List Char
  | .start, [] => []
  | .inside .., [] => [replacement]
  | s, b :: rest =>
    let (out, next) := step s b.toNat
    out ++ lossyChars next rest

def lossy (b : Bytes) : String := String.ofList (lossyChars .start b)

end CertKeeper.Text.Utf8
