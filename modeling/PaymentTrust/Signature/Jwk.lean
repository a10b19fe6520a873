import PaymentTrust.Bytes.Base64
import PaymentTrust.Json.Record
import PaymentTrust.Signature.RsaKey
import PaymentTrust.Signature.Verifier

/-! JSON Web Keys (RFC 7517) and the public keys they hold. -/
namespace PaymentTrust

structure Jwk where
  kty : String
  crv : Option String
  x : Option String
  y : Option String
  n : Option String
  e : Option String
  kid : Option String
  alg : Option String
  deriving DecidableEq, Repr

namespace Jwk

def record : Json.Record Jwk :=
  mk <$> .required "kty" .text <*> .optional "crv" .text <*> .optional "x" .text <*>
    .optional "y" .text <*> .optional "n" .text <*> .optional "e" .text <*>
    .optional "kid" .text <*> .optional "alg" .text

def toJson (k : Jwk) : Json :=
  .object <| ("kty", .string k.kty) ::
    [("crv", k.crv), ("x", k.x), ("y", k.y), ("n", k.n), ("e", k.e), ("kid", k.kid),
      ("alg", k.alg)].filterMap fun (name, value) => value.map fun s => (name, .string s)

def algorithm (k : Jwk) : Except SignatureError Algorithm :=
  match Algorithm.ofKeyType? k.kty k.crv with
  | some a => .ok a
  | none => .error (.unsupported (k.kty ++ "/" ++ k.crv.getD "-"))

def bytes (name : String) : Option String → Except SignatureError Bytes
  | none => .error (.malformedKey s!"JWK is missing `{name}`")
  | some text =>
    match Base64.urlSafe.decode (Utf8.encode text.toList) with
    | .ok bytes => .ok bytes
    | .error e => .error (.malformedKey s!"JWK `{name}`: {e.message}")

/-- The key in the form its verifier decodes: 32 bytes, an uncompressed point, or a DER pair. -/
def publicKey (k : Jwk) : Except SignatureError PublicKey := do
  match ← k.algorithm with
  | .ed25519 =>
    let x ← bytes "x" k.x
    if x.length ≠ 32 then
      throw (.malformedKey s!"Ed25519 `x` must be 32 bytes, got {x.length}")
    return ⟨.ed25519, x⟩
  | .ecdsaP256 =>
    let x ← bytes "x" k.x
    let y ← bytes "y" k.y
    if x.length ≠ 32 ∨ y.length ≠ 32 then
      throw (.malformedKey "P-256 coordinates must be 32 bytes")
    return ⟨.ecdsaP256, 0x04 :: x ++ y⟩
  | .rsaPssSha256 =>
    let n ← bytes "n" k.n
    let e ← bytes "e" k.e
    match RsaKey.check (Bytes.toNat n) (Bytes.toNat e) with
    | .ok key => return ⟨.rsaPssSha256, key.encode⟩
    | .error e => throw (.malformedKey e.message)

end Jwk

structure JwkSet where
  keys : List Jwk

namespace JwkSet

def record : Json.Record JwkSet := mk <$> .required "keys" (.list Jwk.record.lenient)

def find? (s : JwkSet) (kid : String) : Option Jwk :=
  s.keys.find? (·.kid = some kid)

end JwkSet

end PaymentTrust
