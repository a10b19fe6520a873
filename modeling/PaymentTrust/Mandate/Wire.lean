import PaymentTrust.Json.Render
import PaymentTrust.Mandate.Basic

/-! Mandates as JSON. Reading is strict: no object may have a member that its form does not name. -/
namespace PaymentTrust

inductive MandateFault where
  | notJson
  | bundleNotObject
  | bundleUnknown (field : String)
  | bundleMissing (slot : MandateKind)
  | notObject (slot : MandateKind)
  | unknownField (slot : MandateKind) (field : String)
  | unreadable (slot : MandateKind) (fault : Json.Fault)
  deriving DecidableEq, Repr

def MandateFault.message : MandateFault → String
  | notJson => "not a JSON text"
  | bundleNotObject => "bundle must be an object"
  | bundleUnknown field => s!"bundle has unknown field `{field}`"
  | bundleMissing slot => s!"bundle is missing `{slot.name}`"
  | notObject slot => s!"`{slot.name}` must be an object"
  | unknownField slot field => s!"`{slot.name}` has unknown field `{field}`"
  | unreadable slot fault => s!"{slot.name}: {fault.message}"

private def amountJson (n : UInt64) : Json := .nat n.toNat

def MandateKind.decode : Json.Decoder MandateKind :=
  .oneOf [("intent", .intent), ("cart", .cart), ("payment", .payment)]

namespace Proof

def record : Json.Record Proof :=
  mk <$> .required "verification_method" .text <*> .required "created" Timestamp.decode <*>
    .required "proof_purpose" .text <*> .required "proof_value" .text

def toJson (p : Proof) : Json :=
  .object [("verification_method", .string p.verificationMethod), ("created", p.created.toJson),
    ("proof_purpose", .string p.purpose), ("proof_value", .string p.value)]

end Proof

namespace MandateHeader

def record : Json.Record MandateHeader :=
  mk <$> .required "mandate_id" .text <*> .required "mandate_type" MandateKind.decode <*>
    .required "issuer" .text <*> .required "subject" .text <*>
    .required "expires_at" Timestamp.decode <*> .required "nonce" .text <*>
    .required "proof" Proof.record.strict <*> .required "domain" .text <*>
    .required "purpose" .text

def members (h : MandateHeader) : List (String × Json) :=
  [("mandate_id", .string h.id), ("mandate_type", .string h.kind.name),
    ("issuer", .string h.issuer), ("subject", .string h.subject),
    ("expires_at", h.expires.toJson), ("nonce", .string h.nonce), ("proof", h.proof.toJson),
    ("domain", .string h.domain), ("purpose", .string h.purpose)]

end MandateHeader

/-- Reads an object whose members are those of a header and of `own`. What is wrong with `own` is
reported before what is wrong with the header. -/
def readMandate (slot : MandateKind) (own : Json.Record (MandateHeader → α)) (v : Json) :
    Except MandateFault α :=
  match v with
  | .object members =>
    let known (key : String) : Bool :=
      (MandateHeader.record.fields ++ own.fields).any (·.name == key)
    match members.find? fun (key, _) => !known key with
    | some (key, _) => .error (.unknownField slot key)
    | none =>
      let members := Json.Draft.ofMembers members
      let result : Except Json.Fault α := do
        let make ← own.decodeMembers false members
        let header ← MandateHeader.record.decodeMembers false members
        return make header
      result.mapError (.unreadable slot)
  | _ => .error (.notObject slot)

namespace IntentMandate

def record : Json.Record (MandateHeader → IntentMandate) :=
  (fun scope amount header => ⟨header, scope, amount⟩) <$>
    .required "scope" (.list .text) <*> .optional "requested_amount" .amount

def ofJson (v : Json) : Except MandateFault IntentMandate := readMandate .intent record v

def toJson (m : IntentMandate) : Json :=
  .object <| m.header.members ++ [("scope", .array (m.scope.map .string))] ++
    Json.member? "requested_amount" (m.requestedAmount.map amountJson)

end IntentMandate

namespace LineItem

def record : Json.Record LineItem :=
  mk <$> .requiredAs "id" ["sku"] .text <*> .withDefault "name" .text "" <*>
    .required "quantity" .word32 <*> .required "price_minor" .amount

def toJson (i : LineItem) : Json :=
  .object [("id", .string i.id), ("name", .string i.name), ("quantity", .nat i.quantity.toNat),
    ("price_minor", amountJson i.price)]

end LineItem

namespace CartMandate

def record : Json.Record (MandateHeader → CartMandate) :=
  (fun items merchant currency subtotal taxes header =>
      ⟨header, items, merchant, currency, subtotal, taxes⟩) <$>
    .required "line_items" (.list LineItem.record.strict) <*> .required "merchant_domain" .text <*>
    .required "currency" .text <*> .required "subtotal_minor" .amount <*>
    .required "taxes_minor" .amount

def ofJson (v : Json) : Except MandateFault CartMandate := readMandate .cart record v

def toJson (m : CartMandate) : Json :=
  .object <| m.header.members ++
    [("line_items", .array (m.items.map LineItem.toJson)),
      ("merchant_domain", .string m.merchantDomain), ("currency", .string m.currency),
      ("subtotal_minor", amountJson m.subtotal), ("taxes_minor", amountJson m.taxes)]

end CartMandate

namespace PaymentMandate

def record : Json.Record (MandateHeader → PaymentMandate) :=
  (fun chain token amount destination hash merchant presence modality header =>
      ⟨header, chain, token, amount, destination, hash, merchant, presence, modality⟩) <$>
    .required "chain" .text <*> .required "token" .text <*> .required "amount_minor" .amount <*>
    .required "destination" .text <*> .required "audit_hash" .text <*>
    .optional "merchant_domain" .text <*> .optional "agent_presence" .text <*>
    .optional "transaction_modality" .text

def ofJson (v : Json) : Except MandateFault PaymentMandate := readMandate .payment record v

def members (m : PaymentMandate) : List (String × Json) :=
  m.header.members ++
    [("chain", .string m.chain), ("token", .string m.token), ("amount_minor", amountJson m.amount),
      ("destination", .string m.destination), ("audit_hash", .string m.auditHash)] ++
    Json.member? "merchant_domain" (m.merchantDomain.map .string) ++
    Json.member? "agent_presence" (m.agentPresence.map .string) ++
    Json.member? "transaction_modality" (m.modality.map .string)

def toJson (m : PaymentMandate) : Json := .object m.members

/-- The payment without what a retry under a new identifier changes. -/
def content (m : PaymentMandate) : Json :=
  .object <| Json.sortMembers <| m.members.filter fun (key, _) =>
    key ∉ ["mandate_id", "nonce", "expires_at", "proof"]

end PaymentMandate

namespace Mandate

def ofJson (kind : MandateKind) (v : Json) : Except MandateFault Mandate :=
  match kind with
  | .intent => (IntentMandate.ofJson v).map intent
  | .cart => (CartMandate.ofJson v).map cart
  | .payment => (PaymentMandate.ofJson v).map payment

def toJson : Mandate → Json
  | intent m => m.toJson
  | cart m => m.toJson
  | payment m => m.toJson

end Mandate

namespace MandateBundle

/-- All three slots must be there before any is read. -/
def ofJson (v : Json) : Except MandateFault MandateBundle :=
  match v with
  | .object members => do
    match members.find? fun (key, _) => key ∉ ["intent", "cart", "payment"] with
    | some (key, _) => throw (.bundleUnknown key)
    | none => pure ()
    let slot (kind : MandateKind) : Except MandateFault Json :=
      match members.lookup kind.name with
      | some v => .ok v
      | none => .error (.bundleMissing kind)
    let intent ← slot .intent
    let cart ← slot .cart
    let payment ← slot .payment
    return ⟨← IntentMandate.ofJson intent, ← CartMandate.ofJson cart,
      ← PaymentMandate.ofJson payment⟩
  | _ => .error .bundleNotObject

def ofText (text : String) : Except MandateFault MandateBundle :=
  match Json.readText? text with
  | some v => ofJson v
  | none => .error .notJson

def toJson (b : MandateBundle) : Json :=
  .object [("intent", b.intent.toJson), ("cart", b.cart.toJson), ("payment", b.payment.toJson)]

end MandateBundle

end PaymentTrust
