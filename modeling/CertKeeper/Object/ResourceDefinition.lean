import CertKeeper.Object.Webhook

/-!
# Definitions of custom resources

A definition may name a webhook that converts between versions of the resource.
-/

namespace CertKeeper.ResourceDefinition

structure ConversionWebhook where
  clientConfig : Option ClientConfig
  extra : Dict Json

namespace ConversionWebhook

def ofJson? (j : Json) : Option ConversionWebhook := do
  let fields ← j.fields?
  some {
    clientConfig := ← fields.optional "clientConfig" ClientConfig.ofJson?
    extra := fields.others ["clientConfig"] }

def toJson (w : ConversionWebhook) : Json :=
  Json.sorted (Json.optionalField "clientConfig" (w.clientConfig.map ClientConfig.toJson)
    ++ w.extra.toList)

end ConversionWebhook

structure Conversion where
  webhook : Option ConversionWebhook
  extra : Dict Json

namespace Conversion

def ofJson? (j : Json) : Option Conversion := do
  let fields ← j.fields?
  some {
    webhook := ← fields.optional "webhook" ConversionWebhook.ofJson?
    extra := fields.others ["webhook"] }

def toJson (c : Conversion) : Json :=
  Json.sorted (Json.optionalField "webhook" (c.webhook.map ConversionWebhook.toJson)
    ++ c.extra.toList)

end Conversion

structure Spec where
  conversion : Option Conversion
  extra : Dict Json

namespace Spec

def empty : Spec := ⟨none, ∅⟩

def ofJson? (j : Json) : Option Spec := do
  let fields ← j.fields?
  some {
    conversion := ← fields.optional "conversion" Conversion.ofJson?
    extra := fields.others ["conversion"] }

def toJson (s : Spec) : Json :=
  Json.sorted (Json.optionalField "conversion" (s.conversion.map Conversion.toJson)
    ++ s.extra.toList)

end Spec

structure Content where
  spec : Spec
  extra : Dict Json

namespace Content

def webhook (c : Content) : Option ConversionWebhook := c.spec.conversion.bind (·.webhook)

def mapWebhook (c : Content) (f : ConversionWebhook → ConversionWebhook) : Content :=
  let conversion := c.spec.conversion.map fun v => { v with webhook := v.webhook.map f }
  { c with spec := { c.spec with conversion } }

def ofFields? (fields : Json.Fields) : Option Content := do
  some {
    spec := (← fields.optional "spec" Spec.ofJson?).getD .empty
    extra := fields.others ["spec"] }

def toFields (c : Content) : Json.Fields := ("spec", c.spec.toJson) :: c.extra.toList

end Content
end CertKeeper.ResourceDefinition
