import CertKeeper.Digest.Fnv1a
import CertKeeper.Json

/-!
# Metrics

Counters of what each controller has done, and gauges for the validity of the certificates of each
secret. A gauge finds its values by a hash of their labels, which are written one after the other
with nothing between them.
-/

namespace CertKeeper

structure GaugeLabels where
  name : String
  ns : String
  deriving DecidableEq, Repr

namespace GaugeLabels

instance : Ord GaugeLabels :=
  ⟨compareLex (compareOn GaugeLabels.name) (compareOn GaugeLabels.ns)⟩

def key (l : GaugeLabels) : UInt64 :=
  Digest.Fnv1a.hash (Bytes.ofString l.name ++ Bytes.ofString l.ns)

end GaugeLabels

/-- Counts by the name of the controller. The hashes of these names are all different. -/
abbrev Counter := Dict Nat

/-- Values with their labels, by the key of the labels. -/
abbrev Gauge := Std.ExtTreeMap UInt64 (GaugeLabels × Int)

namespace Gauge

/-- Sets the value of some labels. A value that is there already keeps the labels it has. -/
def set (g : Gauge) (labels : GaugeLabels) (value : Int) : Gauge :=
  let shown := match g[labels.key]? with
    | some (known, _) => known
    | none => labels
  g.insert labels.key (shown, value)

def remove (g : Gauge) (labels : GaugeLabels) : Gauge := g.erase labels.key

def sorted (g : Gauge) : List (GaugeLabels × Int) :=
  (g.toList.map (·.2)).mergeSort fun a b => (compare a.1 b.1).isLE

end Gauge

structure Metrics where
  reconciliations : Counter
  errors : Counter
  writes : Counter
  /-- When the last of the certificates of a secret was issued. -/
  issueTime : Gauge
  /-- When the first of the certificates of a secret expires. -/
  expiryTime : Gauge

namespace Metrics

def empty : Metrics := ⟨∅, ∅, ∅, ∅, ∅⟩

def bump (c : Counter) (controller : String) : Counter :=
  c.insert controller (c.getD controller 0 + 1)

def reconciled (m : Metrics) (controller : String) : Metrics :=
  { m with reconciliations := bump m.reconciliations controller }

def failed (m : Metrics) (controller : String) : Metrics :=
  { m with errors := bump m.errors controller }

def wrote (m : Metrics) (controller : String) : Metrics :=
  { m with writes := bump m.writes controller }

def observe (m : Metrics) (labels : GaugeLabels) (issued expires : Int) : Metrics :=
  { m with
    issueTime := m.issueTime.set labels issued
    expiryTime := m.expiryTime.set labels expires }

def forget (m : Metrics) (labels : GaugeLabels) : Metrics :=
  { m with issueTime := m.issueTime.remove labels, expiryTime := m.expiryTime.remove labels }

end Metrics
end CertKeeper
