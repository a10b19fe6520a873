import PaymentTrust.Address
import PaymentTrust.Timestamp

/-! Signed authorizations of a token transfer (ERC-3009), which anyone may submit while they are
valid, and the token contracts they are made for. -/
namespace PaymentTrust

/-- Valid from `validAfter` on and before `validBefore`. The nonce and both halves of the signature
are hexadecimal texts. -/
structure TransferAuthorization where
  sender : Address
  receiver : Address
  value : Word256
  validAfter : Timestamp
  validBefore : Timestamp
  nonce : String
  v : UInt8
  r : String
  s : String
  deriving DecidableEq, Repr

structure TokenDomain where
  name : String
  version : String
  chainId : UInt64
  contract : Address
  deriving DecidableEq, Repr

namespace TransferAuthorization

def record : Json.Record TransferAuthorization :=
  mk <$> .requiredBytes "fromAddress" Address.size Address.decode <*>
    .requiredBytes "toAddress" Address.size Address.decode <*> .required "value" Word256.decode <*>
    .required "validAfter" Timestamp.decode <*> .required "validBefore" Timestamp.decode <*>
    .required "nonce" .text <*> .required "v" .word8 <*> .required "r" .text <*>
    .required "s" .text

def toJson (a : TransferAuthorization) : Json :=
  .object [("fromAddress", a.sender.toJson), ("toAddress", a.receiver.toJson),
    ("value", a.value.toJson), ("validAfter", a.validAfter.toJson),
    ("validBefore", a.validBefore.toJson), ("nonce", .string a.nonce), ("v", .nat a.v.toNat),
    ("r", .string a.r), ("s", .string a.s)]

end TransferAuthorization

namespace TokenDomain

def record : Json.Record TokenDomain :=
  mk <$> .required "name" .text <*> .required "version" .text <*> .required "chainId" .word64 <*>
    .requiredBytes "verifyingContract" Address.size Address.decode

def toJson (d : TokenDomain) : Json :=
  .object [("name", .string d.name), ("version", .string d.version),
    ("chainId", .nat d.chainId.toNat), ("verifyingContract", d.contract.toJson)]

end TokenDomain

end PaymentTrust
