import PaymentTrust.Text.Blank

/-! The signature algorithms and their names. -/
namespace PaymentTrust

inductive Algorithm where
  | ed25519
  | ecdsaP256
  | rsaPssSha256
  deriving DecidableEq, Repr

namespace Algorithm

def name : Algorithm → String
  | ed25519 => "ed25519"
  | ecdsaP256 => "ecdsa-p256"
  | rsaPssSha256 => "rsa-pss-sha256"

def all : List Algorithm := [ed25519, ecdsaP256, rsaPssSha256]

/-- Every name of the algorithm in lower case, the canonical one first. -/
def names : Algorithm → List String
  | ed25519 => ["ed25519", "eddsa"]
  | ecdsaP256 => ["ecdsa-p256", "es256", "p256", "p-256"]
  | rsaPssSha256 => ["rsa-pss-sha256", "ps256", "rsa-pss"]

def ofName? (name : String) : Option Algorithm :=
  let lower := String.ofList (Text.lowerAscii name.toList)
  all.find? fun a => a.names.contains lower

def ofKeyType? (kty : String) (crv : Option String) : Option Algorithm :=
  if kty = "OKP" ∧ crv = some "Ed25519" then some ed25519
  else if kty = "EC" ∧ crv = some "P-256" then some ecdsaP256
  else if kty = "RSA" then some rsaPssSha256
  else none

end Algorithm

end PaymentTrust
