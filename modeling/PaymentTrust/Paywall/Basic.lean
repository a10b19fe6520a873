import PaymentTrust.Timestamp

/-! What is exchanged when a resource is paid for: the challenge, the payer's answer to it, and the
receipt. -/
namespace PaymentTrust

structure PaymentTerms where
  resource : String
  amount : String
  currency : String
  payee : String
  network : String
  token : Option String
  deriving DecidableEq, Repr

structure PaymentChallenge where
  id : String
  terms : PaymentTerms
  expires : Timestamp
  nonce : String
  deriving DecidableEq, Repr

structure PaymentPayload where
  id : String
  payer : String
  amount : String
  nonce : String
  signature : String
  deriving DecidableEq, Repr

structure PaymentReceipt where
  success : Bool
  id : String
  network : String
  transaction : Option String
  payer : Option String
  failure : Option String
  deriving DecidableEq, Repr

namespace PaymentChallenge

def record : Json.Record PaymentChallenge :=
  (fun id resource amount currency payee network token expires nonce =>
      ⟨id, ⟨resource, amount, currency, payee, network, token⟩, expires, nonce⟩) <$>
    .required "paymentId" .text <*> .required "resourceUri" .text <*> .required "amount" .text <*>
    .required "currency" .text <*> .required "payeeAddress" .text <*> .required "network" .text <*>
    .optional "tokenAddress" .text <*> .required "expiresAt" Timestamp.decode <*>
    .required "nonce" .text

def toJson (c : PaymentChallenge) : Json :=
  .object <|
    [("paymentId", .string c.id), ("resourceUri", .string c.terms.resource),
      ("amount", .string c.terms.amount), ("currency", .string c.terms.currency),
      ("payeeAddress", .string c.terms.payee), ("network", .string c.terms.network)] ++
    Json.member? "tokenAddress" (c.terms.token.map .string) ++
    [("expiresAt", c.expires.toJson), ("nonce", .string c.nonce)]

def isExpired (c : PaymentChallenge) (now : Timestamp) : Bool := c.expires.isReached now

end PaymentChallenge

namespace PaymentPayload

def record : Json.Record PaymentPayload :=
  mk <$> .required "paymentId" .text <*> .required "payerAddress" .text <*>
    .required "amount" .text <*> .required "nonce" .text <*> .required "signature" .text

def toJson (p : PaymentPayload) : Json :=
  .object [("paymentId", .string p.id), ("payerAddress", .string p.payer),
    ("amount", .string p.amount), ("nonce", .string p.nonce), ("signature", .string p.signature)]

end PaymentPayload

namespace PaymentReceipt

def record : Json.Record PaymentReceipt :=
  mk <$> .required "success" .bool <*> .required "paymentId" .text <*>
    .required "network" .text <*> .optional "transaction" .text <*> .optional "payer" .text <*>
    .optional "errorReason" .text

def toJson (r : PaymentReceipt) : Json :=
  .object <|
    [("success", .bool r.success), ("paymentId", .string r.id), ("network", .string r.network)] ++
    Json.member? "transaction" (r.transaction.map .string) ++
    Json.member? "payer" (r.payer.map .string) ++
    Json.member? "errorReason" (r.failure.map .string)

end PaymentReceipt

end PaymentTrust
