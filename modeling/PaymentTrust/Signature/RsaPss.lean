import PaymentTrust.Curve.Residue
import PaymentTrust.Digest.Sha2
import PaymentTrust.Signature.RsaKey
import PaymentTrust.Signature.Verifier

/-! RSASSA-PSS with SHA-256, a mask from SHA-256, and a salt as long as the digest. -/
namespace PaymentTrust

namespace RsaPss

def digestLength : Nat := 32

def defaultMinBits : Nat := 2048

/-- The first `length` bytes of the digests of the seed followed by 0, 1, 2, … in four bytes. -/
def mask (seed : Bytes) (length : Nat) : Bytes :=
  ((List.range ((length + digestLength - 1) / digestLength)).flatMap fun i =>
    Digest.sha256 (seed ++ Bytes.ofNat 4 i)).take length

/-- Whether `em`, of which the first `unused` bits do not count, encodes the message digest: a
masked block of zeros, a one and the salt, then a digest over salt and message, then `0xbc`. -/
def isEncoding (unused : Nat) (messageDigest em : Bytes) : Bool :=
  let blockLength := em.length - digestLength - 1
  let masked := em.take blockLength
  let digest := (em.drop blockLength).take digestLength
  let zeros := blockLength - digestLength - 1
  if em.length < 2 * digestLength + 2 then false
  else
    let top := Nat.pow 2 (8 - unused)
    let block := List.zipWith (· ^^^ ·) masked (mask digest blockLength)
    let block := match block with
      | [] => []
      | b :: rest => UInt8.ofNat (b.toNat % top) :: rest
    let salt := block.drop (zeros + 1)
    em.getLast? == some 0xbc && (masked.headD 0).toNat < top &&
      block.take (zeros + 1) == List.replicate zeros 0 ++ [1] &&
      Digest.sha256 (List.replicate 8 0 ++ messageDigest ++ salt) == digest

def holds (key : RsaKey) (message signature : Bytes) : Bool :=
  let bits := RsaKey.bitLength key.modulus - 1
  let length := (bits + 7) / 8
  let s := Bytes.toNat signature
  signature.length == key.size && s < key.modulus &&
    isEncoding (8 * length - bits) (Digest.sha256 message)
      (Bytes.ofNat length (Residue.pow key.modulus s key.exponent))

def decodeKey (minBits : Nat) (key : Bytes) : Except SignatureError RsaKey :=
  match RsaKey.decode? key with
  | none => .error (.malformedKey "public key error: no RSA key in DER")
  | some k =>
    let bits := k.size * 8
    if bits < minBits then
      .error (.malformedKey s!"RSA modulus of {bits} bits is below the {minBits} bit minimum")
    else .ok k

def verify (minBits : Nat) (message signature key : Bytes) : Except SignatureError Unit := do
  let k ← decodeKey minBits key
  if holds k message signature then return () else throw .mismatch

end RsaPss

/-- Rejects keys whose modulus, in whole bytes, has fewer than `minBits` bits. -/
def rsaPssVerifier (minBits : Nat) : Verifier := ⟨.rsaPssSha256, RsaPss.verify minBits⟩

end PaymentTrust
