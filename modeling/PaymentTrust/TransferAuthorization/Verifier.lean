import PaymentTrust.Curve.Weierstrass
import PaymentTrust.TransferAuthorization.Encoding

/-! Whether a transfer authorization is valid now, and signed by the sender of the tokens. -/
namespace PaymentTrust.TransferAuthorization

def checkTiming (a : TransferAuthorization) (now : Timestamp) : Except TransferError Unit := do
  if a.validBefore ≤ a.validAfter then throw (.neverValid a.validAfter a.validBefore)
  if now < a.validAfter then throw (.notYetValid a.validAfter)
  if a.validBefore.isReached now then throw (.expired a.validBefore)

def parity (v : UInt8) : Except TransferError Bool :=
  if v = 0 ∨ v = 27 then .ok false
  else if v = 1 ∨ v = 28 then .ok true
  else .error (.signatureInvalid (.parity v))

/-- The address whose key made the signature; neither half may be zero or reach the order of the
curve. -/
def recover? (digest r s : Word256) (odd : Bool) : Option Address :=
  let isScalar (w : Word256) : Bool := 0 < w.toNat && w.toNat < secp256k1.order
  if isScalar r && isScalar s then
    match secp256k1.ecdsaRecover? digest.toNat r.toNat s.toNat odd with
    | some (.affine x y) => some (.ofPoint x y)
    | _ => none
  else none

def checkSignature (a : TransferAuthorization) (d : TokenDomain) : Except TransferError Unit := do
  let digest ← a.signingDigest d
  let words ← a.hexWords
  let odd ← parity a.v
  match recover? digest words.r words.s odd with
  | none => throw (.signatureInvalid .unrecoverable)
  | some recovered =>
    if recovered ≠ a.sender then throw (.signedByOther a.sender recovered)

def check (a : TransferAuthorization) (d : TokenDomain) (now : Timestamp) :
    Except TransferError Unit := do
  a.checkTiming now
  a.checkSignature d

end PaymentTrust.TransferAuthorization
