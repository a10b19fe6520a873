/-! Byte strings and their big-endian reading as numbers. -/
namespace PaymentTrust

abbrev Bytes := List UInt8

namespace Bytes

/-- The number whose base-256 digits, most significant first, are the bytes. -/
def toNat (bytes : Bytes) : Nat :=
  bytes.foldl (fun n b => n * 256 + b.toNat) 0

def ofNat : (width : Nat) → (n : Nat) → Bytes
  | 0, _ => []
  | width + 1, n => ofNat width (n / 256) ++ [UInt8.ofNat (n % 256)]

def toNatLE (bytes : Bytes) : Nat :=
  bytes.foldr (fun b n => b.toNat + 256 * n) 0

def ofNatLE (width n : Nat) : Bytes :=
  (ofNat width n).reverse

/-- The digits of `n` without a leading zero byte; none at all for zero. -/
def minimal (n : Nat) : Bytes :=
  if n = 0 then [] else minimal (n / 256) ++ [UInt8.ofNat (n % 256)]
termination_by n

end Bytes

end PaymentTrust
