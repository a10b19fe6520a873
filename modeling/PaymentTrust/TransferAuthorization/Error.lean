import PaymentTrust.TransferAuthorization.Basic
import PaymentTrust.Verdict

/-! Why a transfer authorization is rejected or cannot be encoded. -/
namespace PaymentTrust

inductive HexField where
  | nonce
  | r
  | s
  deriving DecidableEq, Repr

def HexField.name : HexField → String
  | nonce => "nonce"
  | r => "r"
  | s => "s"

inductive SignatureFault where
  | parity (v : UInt8)
  | unrecoverable
  deriving DecidableEq, Repr

def SignatureFault.message : SignatureFault → String
  | parity v => s!"v must be 27 or 28, got {v.toNat}"
  | unrecoverable => "signature error"

inductive TransferError where
  | neverValid (validAfter validBefore : Timestamp)
  | notYetValid (validAfter : Timestamp)
  | expired (validBefore : Timestamp)
  | hexTooLong (field : HexField) (length : Nat)
  | notHex (field : HexField)
  | signedByOther (expected recovered : Address)
  | signatureInvalid (fault : SignatureFault)
  deriving DecidableEq, Repr

instance : Explained TransferError where
  reason
    | .neverValid _ _ => "invalid_validity_window"
    | .notYetValid _ => "authorization_not_yet_valid"
    | .expired _ => "authorization_expired"
    | .hexTooLong _ _ => "hex_too_long"
    | .notHex _ => "invalid_hex"
    | .signedByOther _ _ => "authorization_signer_mismatch"
    | .signatureInvalid _ => "authorization_signature_invalid"
  message
    | .neverValid validAfter validBefore =>
      s!"validAfter {validAfter.text} is not before validBefore {validBefore.text}"
    | .notYetValid validAfter => s!"authorization is not valid until {validAfter.text}"
    | .expired validBefore => s!"authorization expired at {validBefore.text}"
    | .hexTooLong field length => s!"`{field.name}` is {length} bytes, more than 32"
    | .notHex field => s!"`{field.name}` is not valid hex"
    | .signedByOther expected recovered =>
      s!"authorization was signed by {recovered.checksummed}, not {expected.checksummed}"
    | .signatureInvalid fault => s!"authorization signature is invalid: {fault.message}"

end PaymentTrust
