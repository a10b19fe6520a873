import PaymentTrust.Curve.Edwards
import PaymentTrust.Digest.Sha2
import PaymentTrust.Signature.Verifier

/-! Ed25519 with the strict rules: a canonical scalar, and neither key nor commitment of small
order. -/
namespace PaymentTrust

namespace Ed25519

def decodeKey (key : Bytes) : Except SignatureError Edwards.Point :=
  if key.length ≠ 32 then
    .error (.malformedKey s!"expected 32-byte Ed25519 key, got {key.length} bytes")
  else
    match Edwards.decode? key with
    | none => .error (.malformedKey "signature error: Cannot decompress Edwards point")
    | some point => .ok point

def holds (message signature key : Bytes) (point : Edwards.Point) : Bool :=
  let commitment := signature.take 32
  let s := Bytes.toNatLE (signature.drop 32)
  match Edwards.decode? commitment with
  | none => false
  | some r =>
    let k := Bytes.toNatLE (Digest.sha512 (commitment ++ key ++ message)) % Edwards.order
    s < Edwards.order && !Edwards.isSmallOrder r && !Edwards.isSmallOrder point &&
      Edwards.encode (Edwards.add (Edwards.scale s Edwards.base)
        (Edwards.scale k (Edwards.neg point))) == commitment

def verify (message signature key : Bytes) : Except SignatureError Unit := do
  let point ← decodeKey key
  if signature.length ≠ 64 then
    throw (.malformedSignature s!"expected 64-byte Ed25519 signature, got {signature.length} bytes")
  if holds message signature key point then return () else throw .mismatch

end Ed25519

def ed25519Verifier : Verifier := ⟨.ed25519, Ed25519.verify⟩

end PaymentTrust
