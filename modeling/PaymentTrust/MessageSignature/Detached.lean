import PaymentTrust.Bytes.Base64
import PaymentTrust.MessageSignature.Label
import PaymentTrust.Text.Utf8

/-! The header that carries the bytes of a message signature: `label=:base64:`. -/
namespace PaymentTrust

structure DetachedSignature where
  label : String
  bytes : Bytes
  deriving DecidableEq, Repr

inductive DetachedFault where
  | label (fault : LabelFault)
  | notBetweenColons
  | notBase64 (e : Base64.Error)
  deriving DecidableEq, Repr

def DetachedFault.message : DetachedFault → String
  | label fault => fault.message
  | notBetweenColons => "value must be a `:base64:` byte sequence"
  | notBase64 e => e.message

namespace DetachedSignature

def betweenColons? : List Char → Option (List Char)
  | ':' :: rest =>
    if rest.getLast? = some ':' ∧ rest.dropLast ≠ [] then some rest.dropLast else none
  | _ => none

def parse (header : String) : Except DetachedFault DetachedSignature := do
  let (label, value) ← (Label.split header).mapError .label
  let some text := betweenColons? value | throw .notBetweenColons
  let bytes ← (Base64.decodeEither (Utf8.encode text)).mapError .notBase64
  return ⟨label, bytes⟩

end DetachedSignature

end PaymentTrust
