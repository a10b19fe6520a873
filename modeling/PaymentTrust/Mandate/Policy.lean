import PaymentTrust.Mandate.Basic

/-! What a deployment accepts of mandates. -/
namespace PaymentTrust

structure SlotPurposes where
  intent : String
  cart : String
  payment : String
  deriving DecidableEq, Repr

namespace SlotPurposes

def default : SlotPurposes :=
  ⟨"intent-authorization", "cart-authorization", "payment-authorization"⟩

def ofKind (p : SlotPurposes) : MandateKind → String
  | .intent => p.intent
  | .cart => p.cart
  | .payment => p.payment

def record : Json.Record SlotPurposes :=
  mk <$> .withDefault "intent" .text default.intent <*> .withDefault "cart" .text default.cart <*>
    .withDefault "payment" .text default.payment

def toJson (p : SlotPurposes) : Json :=
  .object [("intent", .string p.intent), ("cart", .string p.cart), ("payment", .string p.payment)]

end SlotPurposes

structure MandatePolicy where
  domains : List String
  agentPresence : List String
  modalities : List String
  purposes : SlotPurposes
  deriving DecidableEq, Repr

namespace MandatePolicy

/-- Accepts no domain. -/
def default : MandatePolicy :=
  ⟨[], ["present"], ["human_present", "human_not_present"], .default⟩

def withDomains (domains : List String) : MandatePolicy := { default with domains }

def record : Json.Record MandatePolicy :=
  mk <$> .withDefault "allowed_domains" (.list .text) default.domains <*>
    .withDefault "allowed_agent_presence" (.list .text) default.agentPresence <*>
    .withDefault "allowed_modalities" (.list .text) default.modalities <*>
    .withDefault "purposes" SlotPurposes.record.lenient default.purposes

def toJson (p : MandatePolicy) : Json :=
  .object [("allowed_domains", .array (p.domains.map .string)),
    ("allowed_agent_presence", .array (p.agentPresence.map .string)),
    ("allowed_modalities", .array (p.modalities.map .string)), ("purposes", p.purposes.toJson)]

end MandatePolicy

end PaymentTrust
