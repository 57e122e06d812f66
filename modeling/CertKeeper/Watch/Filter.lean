import CertKeeper.Watch.Event

/-!
# Filters of changes

A filter tells which changes of an object call for work. Deletions never do.
-/

namespace CertKeeper.Watch

structure EventFilter (k : Kind) where
  onCreate : Object k → Bool
  onUpdate : (old new : Object k) → Bool

namespace EventFilter

variable {k : Kind}

def accepts (f : EventFilter k) : ObjectEvent (Object k) → Bool
  | .created o => f.onCreate o
  | .updated old new => f.onUpdate old new
  | .deleted _ => false

/-- The changes of a filter that also satisfy `p` afterwards. -/
def restrict (p : Object k → Bool) (f : EventFilter k) : EventFilter k where
  onCreate o := p o && f.onCreate o
  onUpdate old new := p new && f.onUpdate old new

/-- Objects that carry one of the annotations `keys`, and changes of one of them. -/
def annotatedTarget (keys : List String) : EventFilter k where
  onCreate o := keys.any fun key => o.annotations.contains key
  onUpdate old new := keys.any fun key => old.annotations[key]? != new.annotations[key]?

/-- Annotated routes that need a certificate. -/
def secureRoute (keys : List String) : EventFilter .route :=
  (annotatedTarget keys).restrict fun r => r.content.isSecure

/-- Annotated secrets that hold a certificate. -/
def annotatedTlsTarget (keys : List String) : EventFilter .secret :=
  (annotatedTarget keys).restrict fun s => s.content.isTls

def fieldsDiffer (fields : List String) (old new : Secret) : Bool :=
  fields.any fun key => old.content.field key != new.content.field key

/-- Secrets that hold a certificate, and changes of one of their fields. -/
def tlsSourceChanged (fields : List String) : EventFilter .secret where
  onCreate s := s.content.isTls
  onUpdate old new := new.content.isTls && fieldsDiffer fields old new

/-- Secrets that hold a certificate and have opted in under `key`; the opting in or out, and changes
of one of the fields. -/
def annotatedTlsSecret (key : String) (fields : List String) : EventFilter .secret where
  onCreate s := s.content.isTls && s.annotations.isEnabled key
  onUpdate old new :=
    let was := old.annotations.isEnabled key
    let is := new.annotations.isEnabled key
    new.content.isTls && (was != is || (is && fieldsDiffer fields old new))

def truststoreSource (m : ConfigMap) : Option String := m.content.field m.annotations.sourceCaKey

/-- Config maps that have opted in under `key`; the opting in or out, and changes of the text from
which the truststore is made. -/
def truststoreConfigMap (key : String) : EventFilter .configMap where
  onCreate m := m.annotations.isEnabled key
  onUpdate old new :=
    let was := old.annotations.isEnabled key
    let is := new.annotations.isEnabled key
    was != is || (is && truststoreSource old != truststoreSource new)

end EventFilter
end CertKeeper.Watch
