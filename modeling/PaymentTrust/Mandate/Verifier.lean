import PaymentTrust.Bytes.Base64
import PaymentTrust.Json.Canonical
import PaymentTrust.Ledger.Consumed
import PaymentTrust.Mandate.Error
import PaymentTrust.Mandate.Payload
import PaymentTrust.Mandate.Policy

/-! Acceptance of single mandates and of bundles. All checks come before anything is recorded, and a
rejection leaves no live record behind. -/
namespace PaymentTrust

structure MandateVerifier where
  policy : MandatePolicy
  signers : SignerResolver
  verifiers : VerifierRegistry

/-- What acceptance is recorded in: identifiers, and the content of payments if it is tracked. -/
structure MandateStores (σ : Type) where
  replay : σ
  consumed : Option (ConsumedLedger Json)

namespace MandateVerifier

variable {σ : Type} [ReplayStore σ] (v : MandateVerifier)

def require (condition : Bool) (e : MandateError) : Except MandateError Unit :=
  if condition then .ok () else .error e

def checkProof (m : Mandate) : Except MandateError Unit := do
  let proof := m.header.proof
  let key ← (v.signers.resolve proof.verificationMethod).mapError .identity
  let signature ← (Base64.decodeEither (Utf8.encode proof.value.toList)).mapError
    fun _ => MandateError.proofNotBase64
  (v.verifiers.verify key (Utf8.encode m.signingInput.toList) signature).mapError .signatureInvalid

/-- Expiry, domain, then replay if `used` is given, then the proof. -/
def checkMandate (m : Mandate) (now : Timestamp) (used : Bool) : Except MandateError Unit := do
  require (!m.header.isExpired now) (.expired m.header.id)
  require (v.policy.domains.contains m.header.domain) (.domainNotAllowed m.header.domain)
  require (!used) (.replayed m.header.id)
  v.checkProof m

def checkSlot (m : Mandate) : Except MandateError Unit := do
  require (m.header.kind = m.kind) (.kindMismatch m.kind m.header.kind)
  let expected := v.policy.purposes.ofKind m.kind
  require (m.header.purpose = expected) (.purposeMismatch m.kind expected m.header.purpose)

/-- An overflowing cart counts as the largest amount. -/
def cartTotal (c : CartMandate) : UInt64 := c.total?.getD (UInt64.ofNat (UInt64.size - 1))

def checkBinding (b : MandateBundle) : Except MandateError Unit := do
  let subject := b.cart.header.subject
  require (b.intent.header.subject = subject ∧ subject = b.payment.header.subject) .subjectsDiffer
  match b.payment.merchantDomain with
  | none => throw .noMerchantDomain
  | some merchant =>
    require (b.cart.merchantDomain = merchant)
      (.merchantDomainsDiffer b.cart.merchantDomain merchant)
  match b.payment.agentPresence with
  | none => pure ()
  | some presence =>
    require (v.policy.agentPresence.contains presence) (.presenceNotAllowed presence)
  match b.payment.modality with
  | none => pure ()
  | some modality => require (v.policy.modalities.contains modality) (.modalityNotAllowed modality)
  let amount := b.payment.amount
  require (amount = cartTotal b.cart) (.amountNotTotal amount (cartTotal b.cart))
  match b.intent.requestedAmount with
  | none => pure ()
  | some requested => require (amount ≤ requested) (.amountAboveIntent amount requested)

def checkBundle (b : MandateBundle) (now : Timestamp) (used : Bool) :
    Except MandateError Unit := do
  v.checkMandate (.intent b.intent) now false
  v.checkMandate (.cart b.cart) now false
  v.checkMandate (.payment b.payment) now used
  v.checkSlot (.intent b.intent)
  v.checkSlot (.cart b.cart)
  v.checkSlot (.payment b.payment)
  v.checkBinding b

def recordId (s : MandateStores σ) (h : MandateHeader) (now : Timestamp) :
    Except MandateError Unit × MandateStores σ :=
  let (outcome, replay) := ReplayStore.record s.replay h.id h.expires now
  let s := { s with replay }
  match outcome with
  | .ok true => (.ok (), s)
  | .ok false => (.error (.replayed h.id), s)
  | .error e => (.error (.store e), s)

/-- Consumes the payment's content, then its identifier; content is given back if the identifier
cannot be recorded. -/
def recordPayment (s : MandateStores σ) (p : PaymentMandate) (now : Timestamp) :
    Except MandateError Unit × MandateStores σ :=
  match s.consumed with
  | none => recordId s p.header now
  | some ledger =>
    let fingerprint := p.content.fingerprint
    let (first, ledger) :=
      ledger.consume fingerprint p.content (some (p.header.expires.since now)) now
    if first then
      match recordId { s with consumed := some ledger } p.header now with
      | (.ok (), s) => (.ok (), s)
      | (.error e, s) => (.error e, { s with consumed := some (ledger.revoke fingerprint).2 })
    else (.error (.contentReplayed fingerprint), { s with consumed := some ledger })

def verify (s : MandateStores σ) (m : Mandate) (now : Timestamp) :
    Verdict Unit × MandateStores σ :=
  match v.checkMandate m now (ReplayStore.contains s.replay m.header.id now) with
  | .error e => (.rejected (.ofError e), s)
  | .ok () =>
    let (outcome, s) := recordId s m.header now
    (.ofExcept outcome, s)

/-- Accepts a bundle and uses up its payment. Intents and carts may back several payments. -/
def verifyBundle (s : MandateStores σ) (b : MandateBundle) (now : Timestamp) :
    Verdict MandateBundle × MandateStores σ :=
  match v.checkBundle b now (ReplayStore.contains s.replay b.payment.header.id now) with
  | .error e => (.rejected (.ofError e), s)
  | .ok () =>
    let (outcome, s) := recordPayment s b.payment now
    (.ofExcept (outcome.map fun _ => b), s)

def verifyText (s : MandateStores σ) (text : String) (now : Timestamp) :
    Verdict MandateBundle × MandateStores σ :=
  match MandateBundle.ofText text with
  | .error fault => (.rejected (.ofError (MandateError.malformed fault)), s)
  | .ok b => v.verifyBundle s b now

end MandateVerifier

end PaymentTrust
