import PaymentTrust.Signature.EcdsaP256
import PaymentTrust.Signature.Ed25519
import PaymentTrust.Signature.RsaPss

/-! The registry of all built-in verifiers. -/
namespace PaymentTrust

def VerifierRegistry.standard : VerifierRegistry :=
  ((empty.register ed25519Verifier).register p256Verifier).register
    (rsaPssVerifier RsaPss.defaultMinBits)

end PaymentTrust
