import CertKeeper.Json

/-!
# Webhooks

How the API server reaches a webhook, and the configurations that list webhooks.
-/

namespace CertKeeper

structure ClientConfig where
  caBundle : Option Bytes
  extra : Dict Json

namespace ClientConfig

def empty : ClientConfig := ⟨none, ∅⟩

def ofJson? (j : Json) : Option ClientConfig := do
  let fields ← j.fields?
  some {
    caBundle := ← fields.optional "caBundle" Json.bytes?
    extra := fields.others ["caBundle"] }

def toJson (c : ClientConfig) : Json :=
  Json.sorted (Json.optionalField "caBundle" (c.caBundle.map Json.ofBytes) ++ c.extra.toList)

end ClientConfig

structure Webhook where
  clientConfig : ClientConfig
  extra : Dict Json

namespace Webhook

def ofJson? (j : Json) : Option Webhook := do
  let fields ← j.fields?
  some {
    clientConfig := (← fields.optional "clientConfig" ClientConfig.ofJson?).getD .empty
    extra := fields.others ["clientConfig"] }

def toJson (w : Webhook) : Json :=
  Json.sorted (("clientConfig", w.clientConfig.toJson) :: w.extra.toList)

end Webhook

namespace WebhookConfiguration

structure Content where
  webhooks : Option (List Webhook)
  extra : Dict Json

namespace Content

def ofFields? (fields : Json.Fields) : Option Content := do
  some {
    webhooks := ← fields.optional "webhooks" (Json.list? Webhook.ofJson?)
    extra := fields.others ["webhooks"] }

def toFields (c : Content) : Json.Fields :=
  Json.optionalField "webhooks" (c.webhooks.map fun ws => .array (ws.map Webhook.toJson))
    ++ c.extra.toList

end Content
end WebhookConfiguration
end CertKeeper
