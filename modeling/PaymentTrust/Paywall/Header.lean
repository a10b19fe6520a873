import PaymentTrust.Bytes.Base64
import PaymentTrust.Paywall.Basic
import PaymentTrust.Text.Blank
import PaymentTrust.Verdict

/-! The HTTP headers of a payment. Each carries one record as JSON in padded base64. -/
namespace PaymentTrust

inductive HeaderFault where
  | notBase64 (e : Base64.Error)
  | notRecord (fault : Json.Fault)
  deriving DecidableEq, Repr

def HeaderFault.message : HeaderFault → String
  | notBase64 e => e.message
  | notRecord fault => fault.message

structure HeaderError where
  header : String
  code : String
  fault : HeaderFault
  deriving DecidableEq, Repr

instance : Explained HeaderError where
  reason := fun e => e.code
  message := fun e => s!"invalid {e.header} header: {e.fault.message}"

structure PaymentHeader (α : Type) where
  name : String
  code : String
  record : Json.Record α
  toJson : α → Json

namespace PaymentHeader

def encode (h : PaymentHeader α) (a : α) : String :=
  let text := Utf8.encode (h.toJson a).render.toList
  String.ofList ((Base64.standard.encode text).map fun b => Char.ofNat b.toNat)

/-- Blanks around the value are put up with. -/
def decode (h : PaymentHeader α) (value : String) : Except HeaderError α := do
  let text ← (Base64.standard.decode (Utf8.encode (Text.trim value.toList))).mapError
    fun e => HeaderError.mk h.name h.code (.notBase64 e)
  (h.record.lenient.ofBytes text).mapError fun e => ⟨h.name, h.code, .notRecord e⟩

end PaymentHeader

def PaymentChallenge.header : PaymentHeader PaymentChallenge where
  name := "PaymentRequired"
  code := "invalid_challenge_header"
  record := record
  toJson := toJson

def PaymentPayload.header : PaymentHeader PaymentPayload where
  name := "PAYMENT-SIGNATURE"
  code := "invalid_payment_signature_header"
  record := record
  toJson := toJson

def PaymentReceipt.header : PaymentHeader PaymentReceipt where
  name := "PAYMENT-RESPONSE"
  code := "invalid_payment_response_header"
  record := record
  toJson := toJson

end PaymentTrust
