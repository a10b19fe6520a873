import PaymentTrust.Bytes.Der

/-! RSA public keys and their DER forms. -/
namespace PaymentTrust

structure RsaKey where
  modulus : Nat
  exponent : Nat
  deriving DecidableEq, Repr

namespace RsaKey

inductive Error where
  | modulusTooLarge
  | exponentTooLarge
  | invalidModulus
  | invalidExponent
  | exponentTooSmall
  deriving DecidableEq, Repr

def Error.message : Error → String
  | modulusTooLarge => "modulus too large"
  | exponentTooLarge => "public exponent too large"
  | invalidModulus => "invalid modulus"
  | invalidExponent => "invalid exponent"
  | exponentTooSmall => "public exponent too small"

def bitLength (n : Nat) : Nat := if n = 0 then 0 else n.log2 + 1

def maxModulusBits : Nat := 4096

/-- A key is an odd modulus of at most 4096 bits with a smaller odd exponent from 3 to `2^33 - 1`. -/
def check (modulus exponent : Nat) : Except Error RsaKey :=
  if maxModulusBits < bitLength modulus then .error .modulusTooLarge
  else if UInt64.size ≤ exponent then .error .exponentTooLarge
  else if modulus ≤ exponent ∨ modulus % 2 = 0 then .error .invalidModulus
  else if exponent % 2 = 0 then .error .invalidExponent
  else if exponent < 2 then .error .exponentTooSmall
  else if 0x200000000 ≤ exponent then .error .exponentTooLarge
  else .ok ⟨modulus, exponent⟩

def size (k : RsaKey) : Nat := (bitLength k.modulus + 7) / 8

/-- The sequence of modulus and exponent (PKCS #1). -/
def encode (k : RsaKey) : Bytes := Der.integerPair k.modulus k.exponent

def ofPair? (bytes : Bytes) : Option RsaKey := do
  let (n, e) ← Der.integerPair? bytes
  (check n e).toOption

def algorithmIdentifier : Bytes :=
  Der.element Der.objectIdTag [0x2a, 0x86, 0x48, 0x86, 0xf7, 0x0d, 0x01, 0x01, 0x01] ++
    Der.element Der.nullTag []

/-- The key inside a bit string that an algorithm identifier precedes (SubjectPublicKeyInfo). -/
def ofPublicKeyInfo? (bytes : Bytes) : Option RsaKey := do
  let content ← Der.only? Der.sequenceTag bytes
  let (algorithm, rest) ← Der.read? Der.sequenceTag content
  let bits ← Der.only? Der.bitStringTag rest
  match bits with
  | 0 :: key => if algorithm = algorithmIdentifier then ofPair? key else none
  | _ => none

def decode? (bytes : Bytes) : Option RsaKey :=
  match ofPublicKeyInfo? bytes with
  | some k => some k
  | none => ofPair? bytes

end RsaKey

end PaymentTrust
