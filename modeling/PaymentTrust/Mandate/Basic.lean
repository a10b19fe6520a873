import PaymentTrust.SigningPayload
import PaymentTrust.Timestamp

/-! Mandates: signed, time-bounded authorizations. A user's intent, a merchant's cart and the payment
that moves funds belong together. Amounts are in minor units of the currency. -/
namespace PaymentTrust

inductive MandateKind where
  | intent
  | cart
  | payment
  deriving DecidableEq, Repr

def MandateKind.name : MandateKind → String
  | intent => "intent"
  | cart => "cart"
  | payment => "payment"

structure Proof where
  /-- `controller#scheme:hex`. -/
  verificationMethod : String
  created : Timestamp
  purpose : String
  value : String
  deriving DecidableEq, Repr

structure MandateHeader where
  id : String
  kind : MandateKind
  issuer : String
  subject : String
  expires : Timestamp
  nonce : String
  proof : Proof
  domain : String
  purpose : String
  deriving DecidableEq, Repr

def MandateHeader.isExpired (h : MandateHeader) (now : Timestamp) : Bool :=
  h.expires.isReached now

structure IntentMandate where
  header : MandateHeader
  scope : List String
  requestedAmount : Option UInt64
  deriving DecidableEq, Repr

structure LineItem where
  id : String
  name : String
  quantity : UInt32
  price : UInt64
  deriving DecidableEq, Repr

structure CartMandate where
  header : MandateHeader
  items : List LineItem
  merchantDomain : String
  currency : String
  subtotal : UInt64
  taxes : UInt64
  deriving DecidableEq, Repr

/-- Subtotal and taxes together, unless they exceed 64 bits. -/
def CartMandate.total? (c : CartMandate) : Option UInt64 :=
  let sum := c.subtotal.toNat + c.taxes.toNat
  if sum < UInt64.size then some (UInt64.ofNat sum) else none

structure PaymentMandate where
  header : MandateHeader
  chain : String
  token : String
  amount : UInt64
  destination : String
  auditHash : String
  merchantDomain : Option String
  agentPresence : Option String
  modality : Option String
  deriving DecidableEq, Repr

inductive Mandate where
  | intent (m : IntentMandate)
  | cart (m : CartMandate)
  | payment (m : PaymentMandate)
  deriving DecidableEq, Repr

structure MandateBundle where
  intent : IntentMandate
  cart : CartMandate
  payment : PaymentMandate
  deriving DecidableEq, Repr

namespace Mandate

/-- The kind that the mandate has by its form; its header may declare another. -/
def kind : Mandate → MandateKind
  | intent _ => .intent
  | cart _ => .cart
  | payment _ => .payment

def header : Mandate → MandateHeader
  | intent m => m.header
  | cart m => m.header
  | payment m => m.header

end Mandate

end PaymentTrust
