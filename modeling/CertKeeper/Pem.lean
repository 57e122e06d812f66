import CertKeeper.Text.Base64
import CertKeeper.Text.Blank

/-!
# PEM bundles

A bundle is read line by line. A block stands between a line that begins `-----BEGIN ` and one that
begins `-----END `; what is not part of a block, and a block that cannot be decoded, is passed over.
-/

namespace CertKeeper

structure Pem where
  label : String
  contents : Bytes
  deriving DecidableEq, Repr

namespace Pem

/-- The lines of a byte string, each without the line feed that ends it. -/
def lines : Bytes → List Bytes
  | [] => []
  | b :: rest =>
    if b = 10 then [] :: lines rest
    else
      match lines rest with
      | [] => [[b]]
      | line :: others => (b :: line) :: others

def beginMark : List Char := "-----BEGIN ".toList

def endMark : List Char := "-----END ".toList

def dashes : List Char := "-----".toList

def hasDashes : List Char → Bool
  | [] => false
  | c :: rest => dashes.isPrefixOf (c :: rest) || hasDashes rest

/-- The label of a line that opens a block. Five dashes have to follow it somewhere on the line. -/
def label? (line : List Char) : Option (List Char) :=
  let rest := line.drop beginMark.length
  if hasDashes rest then some (rest.takeWhile (· ≠ '-')) else none

def block? (label : List Char) (body : List (List Char)) : Option Pem :=
  (Text.Base64.decodePieces? (Bytes.ofString (String.ofList body.flatten))).map
    fun contents => ⟨String.ofList label, contents⟩

mutual

/-- The blocks among lines that are read outside a block. A line that is not text is `none`. -/
def outside : List (Option (List Char)) → List Pem
  | [] => []
  | none :: rest => outside rest
  | some line :: rest =>
    if beginMark.isPrefixOf line then
      match label? line with
      | some label => inside label [] rest
      | none => outside rest
    else outside rest

/-- The blocks among lines that are read inside the block `label`, of which `body` are the lines
before, the last one first. A line that is not text ends the block without a result. -/
def inside (label : List Char) (body : List (List Char)) : List (Option (List Char)) → List Pem
  | [] => []
  | none :: rest => outside rest
  | some line :: rest =>
    if endMark.isPrefixOf line then (block? label body.reverse).toList ++ outside rest
    else inside label (Text.trimEnd line :: body) rest

end

def blocks (data : Bytes) : List Pem :=
  outside ((lines data).map fun line => (Bytes.text? line).map String.toList)

end Pem
end CertKeeper
