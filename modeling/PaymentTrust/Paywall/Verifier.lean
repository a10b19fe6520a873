import PaymentTrust.Bytes.Hex
import PaymentTrust.Paywall.Header
import PaymentTrust.Paywall.Policy
import PaymentTrust.Signature.Verifier

/-! Issue of payment challenges, and acceptance of the answers to them. -/
namespace PaymentTrust

inductive PaymentError where
  | challengeExpired (id : String)
  | idsDiffer (payload challenge : String)
  | noncesDiffer
  | amountsDiffer (payload challenge : String)
  | signatureInvalid
  | unsupportedVersion (version : String)
  deriving DecidableEq, Repr

instance : Explained PaymentError where
  reason
    | .challengeExpired _ => "challenge_expired"
    | .idsDiffer _ _ => "payment_id_mismatch"
    | .noncesDiffer => "nonce_mismatch"
    | .amountsDiffer _ _ => "amount_mismatch"
    | .signatureInvalid => "signature_invalid"
    | .unsupportedVersion _ => "unsupported_version"
  message
    | .challengeExpired id => s!"challenge {id} expired"
    | .idsDiffer payload challenge =>
      s!"payment id `{payload}` does not match challenge `{challenge}`"
    | .noncesDiffer => "payload nonce does not match the challenge nonce"
    | .amountsDiffer payload challenge =>
      s!"payload amount `{payload}` does not match challenge amount `{challenge}`"
    | .signatureInvalid => "payment signature is invalid"
    | .unsupportedVersion version => s!"x402 version `{version}` is not supported"

structure IssuedChallenge where
  challenge : PaymentChallenge
  header : String
  deriving DecidableEq, Repr

def IssuedChallenge.status : Nat := 402

/-- Issues a challenge for `ttl` seconds, or for the configured time, under 16 and 32 bytes that
were drawn at random for it. -/
def PaywallPolicy.issue (p : PaywallPolicy) (terms : PaymentTerms) (ttl : Option UInt64)
    (now : Timestamp) (id nonce : Bytes) : IssuedChallenge :=
  let challenge : PaymentChallenge :=
    ⟨Hex.encode id, terms, now.later (ttl.getD p.challengeTtl), Hex.encode nonce⟩
  ⟨challenge, PaymentChallenge.header.encode challenge⟩

/-- A request that names no version is served. -/
def PaywallPolicy.checkVersion (p : PaywallPolicy) (version : String) : Except PaymentError Unit :=
  if version = "" ∨ p.versions.contains version then .ok ()
  else .error (.unsupportedVersion version)

/-- Tells whether a payload's signature verifies, or why it cannot be told. Only `true` accepts. -/
abbrev PaymentVerifier := PaymentPayload → PaymentChallenge → Except SignatureError Bool

/-- Whether the payload answers the challenge in time. Without a verifier its signature is not
looked at. -/
def PaymentChallenge.checkPayload (c : PaymentChallenge) (p : PaymentPayload)
    (verifier : Option PaymentVerifier) (now : Timestamp) : Except PaymentError Unit := do
  if c.isExpired now then throw (.challengeExpired c.id)
  if p.id ≠ c.id then throw (.idsDiffer p.id c.id)
  if p.nonce ≠ c.nonce then throw .noncesDiffer
  if p.amount ≠ c.terms.amount then throw (.amountsDiffer p.amount c.terms.amount)
  match verifier with
  | none => pure ()
  | some verify =>
    match verify p c with
    | .ok true => pure ()
    | _ => throw .signatureInvalid

end PaymentTrust
