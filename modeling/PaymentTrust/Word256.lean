import PaymentTrust.Json.Record

/-! The 256-bit words of the Ethereum virtual machine. -/
namespace PaymentTrust

abbrev Word256 := BitVec 256

namespace Word256

def bytes (w : Word256) : Bytes := Bytes.ofNat 32 w.toNat

def ofBytes (bytes : Bytes) : Word256 := BitVec.ofNat 256 (Bytes.toNat bytes)

def ofWord64 (n : UInt64) : Word256 := BitVec.ofNat 256 n.toNat

def splitBase : List Char → Nat × List Char
  | '0' :: mark :: rest =>
    if mark = 'x' ∨ mark = 'X' then (16, rest)
    else if mark = 'o' ∨ mark = 'O' then (8, rest)
    else if mark = 'b' ∨ mark = 'B' then (2, rest)
    else (10, '0' :: mark :: rest)
  | digits => (10, digits)

/-- Reads digits with underscores anywhere among them; no digits at all denote zero. -/
def read? (text : List Char) : Option Word256 :=
  let (base, digits) := splitBase text
  match Numeral.ofDigits? base (digits.filter (· ≠ '_')) with
  | some n => if n < Nat.pow 2 256 then some (BitVec.ofNat 256 n) else none
  | none => none

/-- Read from a string, or from a number below `2^64`. -/
def decode : Json.Decoder Word256
  | .string (some s) =>
    match read? s.toList with
    | some w => .ok w
    | none => .error .unsuitable
  | d => (Json.Decoder.word64 d).map ofWord64

def toJson (w : Word256) : Json :=
  .string ("0x" ++ String.ofList (Nat.toDigits 16 w.toNat))

end Word256

end PaymentTrust
