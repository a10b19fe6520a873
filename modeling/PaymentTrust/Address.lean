import PaymentTrust.Bytes.Hex
import PaymentTrust.Word256
import PaymentTrust.Digest.Keccak

/-! Ethereum addresses: the last 20 bytes of the digest of a public key. -/
namespace PaymentTrust

structure Address where
  value : BitVec 160
  deriving DecidableEq, Repr

namespace Address

def size : Nat := 20

def bytes (a : Address) : Bytes := Bytes.ofNat size a.value.toNat

def ofBytes (bytes : Bytes) : Address := ⟨BitVec.ofNat 160 (Bytes.toNat bytes)⟩

def toWord (a : Address) : Word256 := a.value.setWidth 256

def ofPoint (x y : Nat) : Address :=
  ofBytes (Digest.keccak256 (Bytes.ofNat 32 x ++ Bytes.ofNat 32 y))

/-- Upper case for the digits whose place in the digest of the lower-case text has its top bit
set (EIP-55). -/
def checksummed (a : Address) : String :=
  let digits := (Hex.encode a.bytes).toList
  let digest := (Hex.encode (Digest.keccak256 (Utf8.encode digits))).toList
  "0x" ++ String.ofList (List.zipWith (fun c d => if d < '8' then c else c.toUpper) digits digest)

/-- Twenty bytes in hexadecimal digits of any case, or as numbers. -/
def decode : Json.Decoder Address
  | .string (some s) =>
    match Hex.decodeText s with
    | .ok bytes => if bytes.length = size then .ok (ofBytes bytes) else .error .unsuitable
    | .error _ => .error .unsuitable
  | .array items => do
    let bytes ← Json.Decoder.eachItem .word8 items
    if bytes.length = size then return ofBytes bytes else throw .unsuitable
  | _ => .error .unsuitable

def toJson (a : Address) : Json := .string ("0x" ++ Hex.encode a.bytes)

end Address

end PaymentTrust
