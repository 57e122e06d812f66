/-!
# References to secrets

A secret is named by its namespace and its name, written with a slash between them.
-/

namespace CertKeeper

/-- The identity of a secret. -/
structure Reference where
  ns : String
  name : String
  deriving DecidableEq, Repr

namespace Reference

/-- The text before the first slash and the text after it. -/
def splitSlash? (s : List Char) : Option (List Char × List Char) :=
  match s.dropWhile (· ≠ '/') with
  | _ :: rest => some (s.takeWhile (· ≠ '/'), rest)
  | [] => none

/-- Reads `namespace/name`. Neither part is empty and there is no second slash. -/
def parseQualified? (s : String) : Option Reference := do
  let (ns, name) ← splitSlash? s.toList
  if ns.isEmpty ∨ name.isEmpty ∨ '/' ∈ name then none
  else some ⟨String.ofList ns, String.ofList name⟩

def display (r : Reference) : String := r.ns ++ "/" ++ r.name

end Reference
end CertKeeper
