import PaymentTrust.Bytes.Base64
import PaymentTrust.Json.Canonical
import PaymentTrust.Signature.Jwk
import PaymentTrust.Verdict

/-! Objects sent along with a message signature. Each repeats the nonce of the message and is signed
on its own, over the canonical text of all its members but the signature. -/
namespace PaymentTrust

inductive LinkedKind where
  | consumer
  | container
  deriving DecidableEq, Repr

namespace LinkedKind

def code : LinkedKind → String
  | consumer => "agentic_consumer"
  | container => "agentic_payment_container"

def title : LinkedKind → String
  | consumer => "agentic consumer object"
  | container => "agentic payment container"

/-- Members that must be strings and not empty, in the order in which they are missed. -/
def requiredFields : LinkedKind → List String
  | consumer => ["nonce", "idToken", "kid", "alg", "signature"]
  | container => ["nonce", "kid", "alg", "signature"]

end LinkedKind

inductive LinkedFault where
  | notObject
  | missing (field : String)
  | nonceDiffers
  | algorithmNotAllowed (name : String)
  | signatureInvalid
  deriving DecidableEq, Repr

structure LinkedError where
  kind : LinkedKind
  fault : LinkedFault
  deriving DecidableEq, Repr

instance : Explained LinkedError where
  reason := fun ⟨kind, fault⟩ => kind.code ++ "_" ++ match fault with
    | .notObject => "malformed"
    | .missing field => "missing_" ++ field
    | .nonceDiffers => "nonce_mismatch"
    | .algorithmNotAllowed _ => "alg_invalid"
    | .signatureInvalid => "signature_invalid"
  message := fun ⟨kind, fault⟩ => kind.title ++ match fault with
    | .notObject => " must be a JSON object"
    | .missing field => s!" is missing `{field}`"
    | .nonceDiffers => " nonce does not match the message signature nonce"
    | .algorithmNotAllowed name => s!" alg `{name}` is not allowed"
    | .signatureInvalid => " signature is invalid"

structure LinkedSignature where
  keyId : String
  algorithm : String
  message : String
  signature : String
  deriving DecidableEq, Repr

/-- Tells whether a signature verifies, or why it cannot be told. Only `true` accepts. -/
abbrev LinkedVerifier := LinkedSignature → Except SignatureError Bool

namespace LinkedKind

def text (kind : LinkedKind) (members : List (String × Json)) (field : String) :
    Except LinkedError String :=
  match members.lookup field with
  | some (.string s) => if s = "" then .error ⟨kind, .missing field⟩ else .ok s
  | _ => .error ⟨kind, .missing field⟩

def isNoAlgorithm (name : String) : Bool :=
  ["none", "null"].contains (String.ofList (Text.lowerAscii name.toList))

def signatureOf (kind : LinkedKind) (object : Json) (nonce : String) :
    Except LinkedError LinkedSignature :=
  match object with
  | .object members => do
    kind.requiredFields.forM fun field => discard (kind.text members field)
    if (← kind.text members "nonce") ≠ nonce then throw ⟨kind, .nonceDiffers⟩
    let algorithm ← kind.text members "alg"
    if isNoAlgorithm algorithm then throw ⟨kind, .algorithmNotAllowed algorithm⟩
    return { keyId := ← kind.text members "kid"
             algorithm
             message := (object.without "signature").canonical
             signature := ← kind.text members "signature" }
  | _ => .error ⟨kind, .notObject⟩

/-- Accepts an object that repeats the nonce. Without a verifier its signature is not looked at. -/
def validate (kind : LinkedKind) (object : Json) (nonce : String)
    (verifier : Option LinkedVerifier) : Verdict Unit :=
  .ofExcept <| do
    let signature ← kind.signatureOf object nonce
    match verifier with
    | none => pure ()
    | some verify =>
      match verify signature with
      | .ok true => pure ()
      | _ => throw ⟨kind, .signatureInvalid⟩

end LinkedKind

/-- Verifies with the key of the set that the object names, whose algorithm the object must name
too. -/
def JwkSet.verifier (keys : JwkSet) (verifiers : VerifierRegistry) : LinkedVerifier := fun s => do
  let some jwk := keys.find? s.keyId
    | throw (.malformedKey s!"no key with kid `{s.keyId}`")
  let key ← jwk.publicKey
  let some declared := Algorithm.ofName? s.algorithm | throw (.unsupported s.algorithm)
  if declared ≠ key.algorithm then
    throw (.unsupported s!"alg `{s.algorithm}` does not match key type {key.algorithm.name}")
  let bytes ← (Base64.decodeEither (Utf8.encode s.signature.toList)).mapError
    fun e => SignatureError.malformedSignature e.message
  match verifiers.verify key (Utf8.encode s.message.toList) bytes with
  | .ok () => return true
  | .error .mismatch => return false
  | .error e => throw e

end PaymentTrust
