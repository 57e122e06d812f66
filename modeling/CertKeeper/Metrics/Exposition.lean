import CertKeeper.Metrics.Basic

/-!
# Exposition of metrics

Metrics are shown as text, one line a value. The families are in the order of their names, and the
values of a family in the order of their labels. A family without values is left out.
-/

namespace CertKeeper.Metrics

inductive FamilyType where
  | counter
  | gauge

def FamilyType.name : FamilyType → String
  | counter => "counter"
  | gauge => "gauge"

/-- A value with its labels. -/
structure Sample where
  labels : List (String × String)
  value : Int

/-- The values of one name. -/
structure Family where
  name : String
  help : String
  type : FamilyType
  samples : List Sample

def escape : Char → List Char
  | '\\' => ['\\', '\\']
  | '\n' => ['\\', 'n']
  | '"' => ['\\', '"']
  | c => [c]

def labelText (label : String × String) : String :=
  label.1 ++ "=\"" ++ String.ofList (label.2.toList.flatMap escape) ++ "\""

def Sample.line (family : String) (s : Sample) : String :=
  family ++ "\x7b" ++ ",".intercalate (s.labels.map labelText) ++ "\x7d " ++ toString s.value

def Family.lines (f : Family) : List String :=
  if f.samples.isEmpty then []
  else
    ["# HELP " ++ f.name ++ " " ++ f.help, "# TYPE " ++ f.name ++ " " ++ f.type.name]
      ++ f.samples.map (Sample.line f.name)

def counterFamily (name help : String) (c : Counter) : Family where
  name := name
  help := help
  type := .counter
  samples := c.toList.map fun e => ⟨[("controller", e.1)], e.2⟩

def gaugeFamily (name help : String) (g : Gauge) : Family where
  name := name
  help := help
  type := .gauge
  samples := g.sorted.map fun e => ⟨[("name", e.1.name), ("namespace", e.1.ns)], e.2⟩

def families (m : Metrics) : List Family := [
  gaugeFamily "certutils_certificate_expiry_time"
    "Earliest NotAfter of the certificates in a TLS secret, as unix time" m.expiryTime,
  gaugeFamily "certutils_certificate_issue_time"
    "Latest NotBefore of the certificates in a TLS secret, as unix time" m.issueTime,
  counterFamily "certutils_reconciliation_errors_total"
    "Total number of reconciliation errors" m.errors,
  counterFamily "certutils_reconciliations_total" "Total number of reconciliations"
    m.reconciliations,
  counterFamily "certutils_target_writes_total" "Total number of target objects updated" m.writes]

def lines (m : Metrics) : List String := m.families.flatMap Family.lines

def sampleLines (m : Metrics) : List String :=
  m.families.flatMap fun f => f.samples.map (Sample.line f.name)

def text (m : Metrics) : String := String.join (m.lines.map (· ++ "\n"))

end CertKeeper.Metrics
