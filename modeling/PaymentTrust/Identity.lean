import PaymentTrust.Bytes.Hex
import PaymentTrust.Signature.Algorithm
import PaymentTrust.Signature.Verifier
import PaymentTrust.Verdict

/-! Who signs: references of the form `controller#scheme:hex`, and the keys they are trusted for. -/
namespace PaymentTrust

inductive Environment where
  | production
  /-- Without a registry, the key in the reference is trusted. -/
  | development
  deriving DecidableEq, Repr

def Environment.name : Environment → String
  | production => "production"
  | development => "development"

inductive ReferenceFault where
  | noFragment
  | noScheme
  | keyNotHex (e : Hex.Error)
  | emptyKey
  deriving DecidableEq, Repr

def ReferenceFault.message : ReferenceFault → String
  | noFragment => "missing `#` fragment"
  | noScheme => "fragment must be `<scheme>:<hex>`"
  | keyNotHex e => s!"public key is not hex: {e.message}"
  | emptyKey => "public key is empty"

inductive IdentityError where
  | registryRequired
  | malformed (fault : ReferenceFault)
  | unsupportedScheme (scheme : String)
  | unresolved (controller : String)
  deriving DecidableEq, Repr

instance : Explained IdentityError where
  reason
    | .registryRequired => "identity_registry_required"
    | .malformed _ => "malformed_verification_method"
    | .unsupportedScheme _ => "unsupported_verification_method"
    | .unresolved _ => "signer_unresolved"
  message
    | .registryRequired => "an identity registry is required in production"
    | .malformed fault => s!"malformed verification method: {fault.message}"
    | .unsupportedScheme scheme => s!"unsupported verification method scheme `{scheme}`"
    | .unresolved controller => s!"signer `{controller}` is not known to the identity registry"

structure VerificationMethod where
  controller : String
  key : PublicKey
  deriving DecidableEq, Repr

/-- The controller ends at the first `#`, and the scheme at the first `:` after that. -/
def VerificationMethod.parse (reference : String) : Except IdentityError VerificationMethod :=
  match Text.splitFirst '#' reference.toList with
  | none => .error (.malformed .noFragment)
  | some (controller, fragment) =>
    match Text.splitFirst ':' fragment with
    | none => .error (.malformed .noScheme)
    | some (scheme, hex) =>
      match Algorithm.ofName? (String.ofList scheme) with
      | none => .error (.unsupportedScheme (String.ofList scheme))
      | some algorithm =>
        match Hex.decode (Utf8.encode hex) with
        | .error e => .error (.malformed (.keyNotHex e))
        | .ok [] => .error (.malformed .emptyKey)
        | .ok bytes => .ok ⟨String.ofList controller, algorithm, bytes⟩

/-- Which key, if any, is trusted for what a reference claims. -/
structure IdentityRegistry where
  resolve? : VerificationMethod → Option PublicKey

/-- The keys that are trusted for each controller, the oldest first. -/
structure StaticRegistry where
  entries : List (String × List PublicKey)

namespace StaticRegistry

def empty : StaticRegistry := ⟨[]⟩

def keys (r : StaticRegistry) (controller : String) : List PublicKey :=
  ((r.entries.find? (·.1 = controller)).map (·.2)).getD []

def insert (r : StaticRegistry) (controller : String) (key : PublicKey) : StaticRegistry :=
  ⟨(controller, r.keys controller ++ [key]) :: r.entries.filter (·.1 ≠ controller)⟩

def toRegistry (r : StaticRegistry) : IdentityRegistry :=
  ⟨fun m => (r.keys m.controller).find? (· = m.key)⟩

end StaticRegistry

structure SignerResolver where
  environment : Environment
  registry : Option IdentityRegistry

/-- In production nothing is resolved without a registry, however malformed the reference. -/
def SignerResolver.resolve (r : SignerResolver) (reference : String) :
    Except IdentityError PublicKey :=
  match r.environment, r.registry with
  | .production, none => .error .registryRequired
  | _, registry => do
    let method ← VerificationMethod.parse reference
    match registry with
    | none => return method.key
    | some registry =>
      match registry.resolve? method with
      | some key => return key
      | none => throw (.unresolved method.controller)

end PaymentTrust
