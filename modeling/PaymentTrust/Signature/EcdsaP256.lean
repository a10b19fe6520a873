import PaymentTrust.Bytes.Der
import PaymentTrust.Curve.Weierstrass
import PaymentTrust.Digest.Sha2
import PaymentTrust.Signature.Verifier

/-! ECDSA over P-256 with SHA-256. Keys are encoded points; signatures are `r` and `s` side by side
in 64 bytes, or an ASN.1 pair. -/
namespace PaymentTrust

namespace EcdsaP256

/-- Decodes a point that is uncompressed (`04`), compressed with the ordinate's parity (`02`, `03`),
or compact, which stands for the smaller ordinate (`05`). -/
def decodePoint? : Bytes → Option Weierstrass.Point
  | [] => none
  | tag :: rest =>
    let x := Bytes.toNat (rest.take 32)
    if tag = 0x04 ∧ rest.length = 64 then
      let y := Bytes.toNat (rest.drop 32)
      if p256.isOnCurve x y then some (.affine x y) else none
    else if (tag = 0x02 ∨ tag = 0x03) ∧ rest.length = 32 then p256.lift? x (tag = 0x03)
    else if tag = 0x05 ∧ rest.length = 32 then
      match p256.lift? x false with
      | some (.affine x y) => some (.affine x (min y (p256.p - y)))
      | _ => none
    else none

/-- The two numbers of a signature; bytes of any length but 64 are read as an ASN.1 pair. -/
def decodeSignature? (signature : Bytes) : Option (Nat × Nat) := do
  let (r, s) ←
    if signature.length = 64 then
      some (Bytes.toNat (signature.take 32), Bytes.toNat (signature.drop 32))
    else Der.integerPair? signature
  if 0 < r ∧ r < p256.order ∧ 0 < s ∧ s < p256.order then some (r, s) else none

def verify (message signature key : Bytes) : Except SignatureError Unit :=
  match decodePoint? key with
  | none => .error (.malformedKey "signature error")
  | some point =>
    match decodeSignature? signature with
    | none => .error (.malformedSignature "signature error")
    | some (r, s) =>
      if p256.ecdsaHolds (Bytes.toNat (Digest.sha256 message)) r s point then .ok ()
      else .error .mismatch

end EcdsaP256

def p256Verifier : Verifier := ⟨.ecdsaP256, EcdsaP256.verify⟩

end PaymentTrust
