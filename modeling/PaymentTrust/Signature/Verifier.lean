import PaymentTrust.Bytes.Basic
import PaymentTrust.Signature.Algorithm

/-! Verifiers of detached signatures, and a registry that holds at most one for each algorithm. -/
namespace PaymentTrust

/-- Why a signature is not accepted. Whoever decodes a key or a signature words the detail. -/
inductive SignatureError where
  | malformedKey (detail : String)
  | malformedSignature (detail : String)
  | mismatch
  | unsupported (algorithm : String)
  deriving DecidableEq, Repr

def SignatureError.message : SignatureError → String
  | malformedKey detail => s!"malformed public key: {detail}"
  | malformedSignature detail => s!"malformed signature: {detail}"
  | mismatch => "signature does not match message"
  | unsupported algorithm => s!"unsupported algorithm: {algorithm}"

structure PublicKey where
  algorithm : Algorithm
  bytes : Bytes
  deriving DecidableEq, Repr

structure Verifier where
  algorithm : Algorithm
  verify : (message signature key : Bytes) → Except SignatureError Unit

def Verifier.accepts (v : Verifier) (message signature key : Bytes) : Bool :=
  (v.verify message signature key).isOk

structure VerifierRegistry where
  verifiers : List Verifier

namespace VerifierRegistry

def empty : VerifierRegistry := ⟨[]⟩

def register (r : VerifierRegistry) (v : Verifier) : VerifierRegistry :=
  ⟨v :: r.verifiers.filter (·.algorithm ≠ v.algorithm)⟩

def get? (r : VerifierRegistry) (a : Algorithm) : Option Verifier :=
  r.verifiers.find? (·.algorithm = a)

def ofName? (r : VerifierRegistry) (name : String) : Option Verifier :=
  (Algorithm.ofName? name).bind r.get?

def ofKeyType? (r : VerifierRegistry) (kty : String) (crv : Option String) : Option Verifier :=
  (Algorithm.ofKeyType? kty crv).bind r.get?

def verify (r : VerifierRegistry) (key : PublicKey) (message signature : Bytes) :
    Except SignatureError Unit :=
  match r.get? key.algorithm with
  | some v => v.verify message signature key.bytes
  | none => .error (.unsupported key.algorithm.name)

end VerifierRegistry

end PaymentTrust
