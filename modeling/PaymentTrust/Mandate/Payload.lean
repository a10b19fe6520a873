import PaymentTrust.Mandate.Basic

/-! What the proof of a mandate signs. -/
namespace PaymentTrust

def LineItem.text (i : LineItem) : String :=
  ":".intercalate [i.id, i.name, i.quantity.toNat.repr, Numeral.write i.price]

def LineItem.comesBefore (a b : LineItem) : Bool :=
  a.id < b.id || (a.id == b.id && a.name ≤ b.name)

/-- The items in order, each `id:name:quantity:price`, with commas between them. -/
def LineItem.listing (items : List LineItem) : String :=
  ",".intercalate ((items.mergeSort LineItem.comesBefore).map LineItem.text)

def IntentMandate.payloadFields (m : IntentMandate) : List String :=
  [m.header.id, m.header.subject, m.header.kind.name, ",".intercalate m.scope,
    match m.requestedAmount with
    | some amount => Numeral.write amount
    | none => "",
    m.header.expires.text]

def CartMandate.payloadFields (m : CartMandate) : List String :=
  [m.header.id, m.header.subject, LineItem.listing m.items, Numeral.write m.subtotal,
    Numeral.write m.taxes, m.currency, m.merchantDomain, m.header.expires.text]

/-- Merchant, presence and modality are not signed. -/
def PaymentMandate.payloadFields (m : PaymentMandate) : List String :=
  [m.header.id, m.header.subject, Numeral.write m.amount, m.token, m.chain, m.destination,
    m.auditHash]

namespace Mandate

def payloadFields : Mandate → List String
  | intent m => m.payloadFields
  | cart m => m.payloadFields
  | payment m => m.payloadFields

def payload (m : Mandate) : String := joinFields m.payloadFields

def signingInput (m : Mandate) : String :=
  domainSeparated m.header.domain m.header.nonce m.header.purpose m.payload

end Mandate

end PaymentTrust
