import PaymentTrust.Identity
import PaymentTrust.Ledger.Replay
import PaymentTrust.Mandate.Wire

/-! Why a mandate, or a bundle of them, is rejected. -/
namespace PaymentTrust

inductive MandateError where
  | malformed (fault : MandateFault)
  | expired (id : String)
  | domainNotAllowed (domain : String)
  | replayed (id : String)
  | contentReplayed (fingerprint : String)
  | identity (e : IdentityError)
  | proofNotBase64
  | signatureInvalid (e : SignatureError)
  | store (e : ReplayError)
  | kindMismatch (slot declared : MandateKind)
  | purposeMismatch (slot : MandateKind) (expected declared : String)
  | subjectsDiffer
  | noMerchantDomain
  | merchantDomainsDiffer (cart payment : String)
  | presenceNotAllowed (presence : String)
  | modalityNotAllowed (modality : String)
  | amountNotTotal (payment total : UInt64)
  | amountAboveIntent (payment requested : UInt64)
  deriving DecidableEq, Repr

instance : Explained MandateError where
  reason
    | .malformed _ => "malformed_bundle"
    | .expired _ => "mandate_expired"
    | .domainNotAllowed _ => "domain_not_allowed"
    | .replayed _ => "mandate_replayed"
    | .contentReplayed _ => "mandate_content_replayed"
    | .identity e => Explained.reason e
    | .proofNotBase64 => "invalid_proof_encoding"
    | .signatureInvalid _ => "signature_invalid"
    | .store e => Explained.reason e
    | .kindMismatch _ _ => "mandate_type_mismatch"
    | .purposeMismatch _ _ _ => "mandate_purpose_mismatch"
    | .subjectsDiffer => "subject_mismatch"
    | .noMerchantDomain => "payment_missing_merchant_domain"
    | .merchantDomainsDiffer _ _ => "merchant_domain_mismatch"
    | .presenceNotAllowed _ => "payment_agent_presence_required"
    | .modalityNotAllowed _ => "payment_invalid_modality"
    | .amountNotTotal _ _ => "payment_amount_mismatch"
    | .amountAboveIntent _ _ => "intent_amount_exceeded"
  message
    | .malformed fault => s!"malformed mandate bundle: {fault.message}"
    | .expired id => s!"mandate {id} is expired"
    | .domainNotAllowed domain => s!"domain `{domain}` is not allowed"
    | .replayed id => s!"mandate {id} has already been used"
    | .contentReplayed fingerprint =>
      s!"payment content {fingerprint} has already been consumed"
    | .identity e => Explained.message e
    | .proofNotBase64 => "proof value is not valid base64"
    | .signatureInvalid e => s!"mandate signature is invalid: {e.message}"
    | .store e => Explained.message e
    | .kindMismatch slot declared => s!"expected a {slot.name} mandate, found {declared.name}"
    | .purposeMismatch slot expected declared =>
      s!"{slot.name} mandate purpose `{declared}` does not match `{expected}`"
    | .subjectsDiffer => "mandate subjects differ across the chain"
    | .noMerchantDomain => "payment mandate has no merchant domain"
    | .merchantDomainsDiffer cart payment =>
      s!"cart merchant `{cart}` does not match payment merchant `{payment}`"
    | .presenceNotAllowed presence => s!"agent presence `{presence}` is not allowed"
    | .modalityNotAllowed modality => s!"transaction modality `{modality}` is not allowed"
    | .amountNotTotal payment total =>
      s!"payment amount {payment.toNat} does not equal cart total {total.toNat}"
    | .amountAboveIntent payment requested =>
      s!"payment amount {payment.toNat} exceeds intent amount {requested.toNat}"

end PaymentTrust
