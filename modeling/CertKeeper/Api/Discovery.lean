import CertKeeper.Api.Client

/-!
# Discovery of the route API

Routes are served if the preferred version of their group is the one that is known and has them.
-/

namespace CertKeeper.Api

/-- A version of a group, as the server names it. -/
structure GroupVersion where
  groupVersion : String
  version : String

structure Group where
  name : String
  versions : List GroupVersion
  preferred : Option GroupVersion

structure ServedResource where
  kind : String
  version : String

open Shape

/-- A list that may name its kind, but no other one. -/
def listLayout (kind : String) (fields : Shape.Fields) : Shape := .record
  (optional "apiVersion" (.exactly "v1") ++ optional "kind" (.exactly kind) ++ fields)

def versionLayout : Shape := .record (requiredTexts ["groupVersion", "version"])

def groupLayout : Shape := listLayout "APIGroup"
  (requiredTexts ["name"] ++ optional "preferredVersion" versionLayout
    ++ optional "serverAddressByClientCIDRs"
      (.list (.record (requiredTexts ["clientCIDR", "serverAddress"])))
    ++ required "versions" (.list versionLayout) Layout.noItems)

def groupsLayout : Shape :=
  listLayout "APIGroupList" (required "groups" (.list groupLayout) Layout.noItems)

def resourceLayout : Shape := .record
  (optionals texts ["categories", "shortNames"]
    ++ optionals .text ["group", "storageVersionHash", "version"]
    ++ requiredTexts ["kind", "name", "singularName"]
    ++ required "namespaced" .bool (.bool false)
    ++ required "verbs" texts Layout.noItems)

def resourcesLayout : Shape := listLayout "APIResourceList"
  (requiredTexts ["groupVersion"] ++ required "resources" (.list resourceLayout) Layout.noItems)

def fieldsOf? (shape : Shape) (j : Json) : Option Json.Fields :=
  shape.settle? Json.maxDepth j >>= Json.fields?

def textOf? (fields : Json.Fields) (key : String) : Option String := fields.get? key >>= Json.text?

def itemsUnder? (fields : Json.Fields) (key : String) (f : Json → Option α) : Option (List α) :=
  fields.get? key >>= Json.list? f

def GroupVersion.ofJson? (j : Json) : Option GroupVersion := do
  let fields ← j.fields?
  some ⟨← textOf? fields "groupVersion", ← textOf? fields "version"⟩

def Group.ofJson? (j : Json) : Option Group := do
  let fields ← j.fields?
  some {
    name := ← textOf? fields "name"
    versions := ← itemsUnder? fields "versions" GroupVersion.ofJson?
    preferred := ← fields.optional "preferredVersion" GroupVersion.ofJson? }

def groupsOf? (j : Json) : Option (List Group) := do
  itemsUnder? (← fieldsOf? groupsLayout j) "groups" Group.ofJson?

def versionOf (groupVersion : String) : String :=
  match groupVersion.toList.dropWhile (· ≠ '/') with
  | _ :: version => String.ofList version
  | [] => groupVersion

/-- Reads a resource, unless it is a part of another one. -/
def resourceOf? (version : String) (j : Json) : Option (Option ServedResource) := do
  let fields ← j.fields?
  let name ← textOf? fields "name"
  let kind ← textOf? fields "kind"
  let own ← fields.optional "version" Json.text?
  some (if '/' ∈ name.toList then none else some ⟨kind, own.getD version⟩)

def resourcesOf? (j : Json) : Option (List ServedResource) := do
  let fields ← fieldsOf? resourcesLayout j
  let version := versionOf (← textOf? fields "groupVersion")
  some ((← itemsUnder? fields "resources" (resourceOf? version)).filterMap id)

def resourcesOfVersions (server : Server) :
    List GroupVersion → Call (List (String × List ServedResource))
  | [] => ⟨.ok [], []⟩
  | v :: rest =>
    ((send server "GET" ("/apis/" ++ v.groupVersion) none).read resourcesOf?).andThen
      fun resources =>
        (resourcesOfVersions server rest).andThen fun others =>
          ⟨.ok ((v.version, resources) :: others), []⟩

/-- How mature a version is: the stable ones before the preliminary ones, and of both the later
before the earlier. -/
inductive Maturity where
  | other
  | preliminary (stage major : Nat) (minor : Option Nat)
  | stable (major : Nat)
  deriving DecidableEq, Repr

namespace Maturity

/-- A number below `2 ^ 32`. -/
def number? (cs : List Char) : Option Nat :=
  if cs.isEmpty || !cs.all Char.isDigit then none
  else
    let n := cs.foldl (fun acc c => acc * 10 + (c.toNat - 48)) 0
    if n < UInt32.size then some n else none

/-- The number of a preliminary version, which may be left out and may have a plus sign. -/
def minor? : List Char → Option (Option Nat)
  | [] => some none
  | '+' :: digits => (number? digits).map some
  | digits => (number? digits).map some

/-- Reads `v1`, `v1beta2` or `v1alpha3`. -/
def ofVersion? (version : String) : Option Maturity :=
  match version.toList with
  | 'v' :: rest => do
    let major ← number? (rest.takeWhile Char.isDigit)
    match rest.dropWhile Char.isDigit with
    | [] => some (stable major)
    | 'b' :: 'e' :: 't' :: 'a' :: rest => (minor? rest).map (preliminary 1 major)
    | 'a' :: 'l' :: 'p' :: 'h' :: 'a' :: rest => (minor? rest).map (preliminary 0 major)
    | _ => none
  | _ => none

def ofVersion (version : String) : Maturity := (ofVersion? version).getD other

/-- A measure of maturity, in which the first place counts most. -/
def rank : Maturity → List Nat
  | other => [0]
  | preliminary stage major minor => [1, stage, major, (minor.map (· + 1)).getD 0]
  | stable major => [2, major]

/-- Whether a version is more mature than another one. Those of no known form are in the order of
their texts. -/
def precedes (a b : String) : Bool :=
  let x := ofVersion a
  let y := ofVersion b
  y.rank < x.rank || (x = other && y = other && a < b)

end Maturity

/-- The most mature of some versions, the first of equals. -/
def mostMature (versions : List String) : Option String :=
  versions.foldl (fun best v =>
    match best with
    | none => some v
    | some b => if Maturity.precedes v b then some v else some b) none

def recommended (server : Server) (g : Group) : Call (List ServedResource) :=
  if g.versions.isEmpty then .fail .unreadable
  else
    (resourcesOfVersions server g.versions).andThen fun versions =>
      let preferred := (g.preferred.map (·.version)) <|> mostMature (versions.map (·.1))
      ⟨.ok ((preferred.bind fun v => versions.lookup v).getD []), []⟩

def recommendedOfGroups (server : Server) : List Group → Call (List (List ServedResource))
  | [] => ⟨.ok [], []⟩
  | g :: rest =>
    (recommended server g).andThen fun resources =>
      (recommendedOfGroups server rest).andThen fun others => ⟨.ok (resources :: others), []⟩

/-- Whether the server serves routes. Of several groups with one name the last one counts. -/
def routeApiAvailable (server : Server) : Call Bool :=
  ((send server "GET" "/apis" none).read groupsOf?).andThen fun groups =>
    let own := groups.filter fun g => g.name = Kind.route.group
    (recommendedOfGroups server own).andThen fun served =>
      let isServed := (served.getLast?.getD []).any fun r =>
        r.kind = Kind.route.name && r.version = Kind.route.version
      ⟨.ok isServed, []⟩

end CertKeeper.Api
