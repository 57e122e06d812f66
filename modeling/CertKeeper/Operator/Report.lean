import CertKeeper.Object.View
import CertKeeper.Operator.Basic

/-!
# Reports on an operator

After each step the operator reports what it has written, the warnings, and how the metrics differ
from those of the last report.
-/

namespace CertKeeper.Operator

def viewOf {k : Kind} (o : Object k) : Json := (o.withResourceVersion none).view

def dump (o : Operator) : List Json := o.cluster.store.toList.map fun x => viewOf x.object

def keyBefore (a b : Kind × Reference) : Bool :=
  (compare a.1.name b.1.name).then (compare a.2 b.2) |>.isLE

structure Report where
  /-- One entry for each write. -/
  writes : List (Kind × Reference)
  /-- The objects that were written, as they are now, or nothing for those that are gone. -/
  objects : List (Option Json)
  warnings : List Warning
  newLines : List String
  goneLines : List String

/-- The report on all that has happened since the lines `shown` were those of the metrics. -/
def report (o : Operator) (shown : List String) : Report :=
  let writes := o.written.mergeSort keyBefore
  let lines := o.metrics.sampleLines
  { writes
    objects := writes.eraseDups.map fun e => (o.cluster.store.find? e.1 e.2).map viewOf
    warnings := o.warnings
    newLines := (lines.filter fun l => !shown.contains l).mergeSort
    goneLines := (shown.filter fun l => !lines.contains l).mergeSort }

def reported (o : Operator) : Operator := { o with written := [], warnings := [] }

end CertKeeper.Operator
