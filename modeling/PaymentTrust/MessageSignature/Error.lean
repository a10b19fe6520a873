import PaymentTrust.Ledger.Replay
import PaymentTrust.MessageSignature.Detached
import PaymentTrust.MessageSignature.Input

/-! Why a message signature is rejected. -/
namespace PaymentTrust

inductive MessageError where
  | malformedInput (fault : SignatureInputFault)
  | malformedSignature (fault : DetachedFault)
  | labelsDiffer (input signature : String)
  | tagNotAllowed (tag : String)
  | algorithmNotAllowed (name : String)
  | notYetValid (created : Timestamp)
  | expired (expires : Timestamp)
  | windowTooLarge (window max : UInt64)
  | nonceReplayed (nonce : String)
  | componentMissing (name : String)
  | signatureInvalid
  | store (e : ReplayError)
  deriving DecidableEq, Repr

instance : Explained MessageError where
  reason
    | .malformedInput _ => "tap_signature_input_malformed"
    | .malformedSignature _ => "tap_signature_malformed"
    | .labelsDiffer _ _ => "tap_signature_label_mismatch"
    | .tagNotAllowed _ => "tap_tag_invalid"
    | .algorithmNotAllowed _ => "tap_alg_invalid"
    | .notYetValid _ => "tap_signature_not_yet_valid"
    | .expired _ => "tap_signature_expired"
    | .windowTooLarge _ _ => "tap_window_too_large"
    | .nonceReplayed _ => "tap_nonce_replayed"
    | .componentMissing _ => "tap_component_missing"
    | .signatureInvalid => "tap_signature_invalid"
    | .store e => Explained.reason e
  message
    | .malformedInput fault => s!"malformed Signature-Input: {fault.message}"
    | .malformedSignature fault => s!"malformed Signature: {fault.message}"
    | .labelsDiffer input signature =>
      s!"Signature label `{signature}` does not match Signature-Input label `{input}`"
    | .tagNotAllowed tag => s!"tag `{tag}` is not allowed"
    | .algorithmNotAllowed name => s!"alg `{name}` is not allowed"
    | .notYetValid created => s!"signature is not valid until {created.text}"
    | .expired expires => s!"signature expired at {expires.text}"
    | .windowTooLarge window max =>
      s!"signature window of {window.toNat}s exceeds the {max.toNat}s maximum"
    | .nonceReplayed nonce => s!"nonce `{nonce}` has already been used"
    | .componentMissing name => s!"covered component `{name}` is missing from the request"
    | .signatureInvalid => "message signature is invalid"
    | .store e => Explained.message e

end PaymentTrust
