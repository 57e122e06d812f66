import CertKeeper.Asn1.Element

/-!
# Elements of the basic encoding

The basic encoding also knows elements without a length: their content are elements, up to one that
marks the end.
-/

namespace CertKeeper.Asn1

/-- How far the content of an element reaches. -/
inductive Extent where
  | definite (length : Nat)
  | untilEnd
  deriving DecidableEq, Repr

namespace Extent

def read? (b : Bytes) : Option (Extent × Bytes) :=
  if b.head? = some 0x80 then some (untilEnd, b.drop 1)
  else (Header.readLength? b).map fun l => (definite l.1, l.2)

end Extent

/-- What follows the mark that ends the content at the start of `b`. Contents without a length are
nested in each other at most `depth` deep. -/
def afterContent? (depth : Nat) (b : Bytes) : Option Bytes :=
  match depth with
  | 0 => none
  | d + 1 => do
    let (id, rest) ← Identifier.read? b
    match ← Extent.read? rest with
    | (.definite n, rest) =>
      if id.tag = Tag.endOfContents ∧ n = 0 then some rest
      else
        let (_, rest) ← Bytes.splitAt? n rest
        if rest.length < b.length then afterContent? (d + 1) rest else none
    | (.untilEnd, rest) =>
      if !id.constructed then none
      else
        let rest ← afterContent? d rest
        if rest.length < b.length then afterContent? (d + 1) rest else none
termination_by (depth, b.length)

namespace Element

def maxDepth : Nat := 7

/-- The element at the start, whose content may end by a mark. -/
def readBasic? (b : Bytes) : Option (Element × Bytes) := do
  let (id, rest) ← Identifier.read? b
  match ← Extent.read? rest with
  | (.definite n, rest) =>
    let (content, rest) ← Bytes.splitAt? n rest
    some (⟨⟨id, n⟩, content⟩, rest)
  | (.untilEnd, rest) =>
    if !id.constructed then none
    else
      let after ← afterContent? maxDepth rest
      let content := rest.take (rest.length - after.length - 2)
      some (⟨⟨id, content.length⟩, content⟩, after)

def readBasicTagged? (tag : Nat) (b : Bytes) : Option (Element × Bytes) := do
  let (e, rest) ← readBasic? b
  if e.tag = tag then some (e, rest) else none

end Element
end CertKeeper.Asn1
