import PaymentTrust.MessageSignature.Error
import PaymentTrust.MessageSignature.Policy
import PaymentTrust.MessageSignature.Request
import PaymentTrust.Signature.Verifier

/-! Acceptance of message signatures. The headers are accepted first, and use up their nonce; the
signature itself is checked once the key is known. -/
namespace PaymentTrust

structure AcceptedMessage where
  input : SignatureInput
  signature : Bytes
  base : String
  deriving DecidableEq, Repr

structure MessageValidator where
  policy : MessagePolicy
  verifiers : VerifierRegistry

namespace MessageValidator

variable {σ : Type} [ReplayStore σ] (v : MessageValidator)

/-- Nonces share a store with other identifiers and are told apart by this mark. -/
def nonceKey (nonce : String) : String := "tap-nonce:" ++ nonce

def readHeaders (input signature : String) :
    Except MessageError (SignatureInput × DetachedSignature) := do
  let i ← (SignatureInput.parse input).mapError .malformedInput
  let s ← (DetachedSignature.parse signature).mapError .malformedSignature
  if s.label ≠ i.label then throw (.labelsDiffer i.label s.label)
  return (i, s)

def checkParameters (i : SignatureInput) (now : Timestamp) : Except MessageError Unit := do
  if !v.policy.tags.contains i.tag then throw (.tagNotAllowed i.tag)
  if !v.policy.allowsAlgorithm i.algorithm then throw (.algorithmNotAllowed i.algorithm)
  if now < i.created then throw (.notYetValid i.created)
  if i.expires.isReached now then throw (.expired i.expires)
  if v.policy.maxWindow < i.window then throw (.windowTooLarge i.window v.policy.maxWindow)

/-- Every check that records nothing; `used` tells whether a nonce has a live record. -/
def check (input signature : String) (request : RequestComponents) (now : Timestamp)
    (used : String → Bool) : Except MessageError AcceptedMessage := do
  let (i, s) ← readHeaders input signature
  v.checkParameters i now
  if used i.nonce then throw (.nonceReplayed i.nonce)
  let base ← (i.base request).mapError .componentMissing
  return ⟨i, s.bytes, base⟩

def recordNonce (store : σ) (i : SignatureInput) (now : Timestamp) :
    Except MessageError Unit × σ :=
  let (outcome, store) := ReplayStore.record store (nonceKey i.nonce) i.expires now
  match outcome with
  | .ok true => (.ok (), store)
  | .ok false => (.error (.nonceReplayed i.nonce), store)
  | .error e => (.error (.store e), store)

/-- Accepts headers over a request, with each nonce once if a store keeps them. -/
def validate (store : Option σ) (input signature : String) (request : RequestComponents)
    (now : Timestamp) : Verdict AcceptedMessage × Option σ :=
  let used (nonce : String) : Bool :=
    store.any fun store => ReplayStore.contains store (nonceKey nonce) now
  match v.check input signature request now used, store with
  | .error e, store => (.rejected (.ofError e), store)
  | .ok message, none => (.accepted message, none)
  | .ok message, some store =>
    let (outcome, store) := recordNonce store message.input now
    (.ofExcept (outcome.map fun _ => message), some store)

def verifyWithKey (m : AcceptedMessage) (key : PublicKey) : Verdict Unit :=
  .ofExcept <|
    if key.algorithm ≠ v.policy.algorithm then
      .error (MessageError.algorithmNotAllowed key.algorithm.name)
    else
      (v.verifiers.verify key (Utf8.encode m.base.toList) m.signature).mapError
        fun _ => .signatureInvalid

end MessageValidator

end PaymentTrust
