import PaymentTrust.Text.Blank
import PaymentTrust.TransferAuthorization.Error

/-! What is signed of a transfer authorization (EIP-712), and the call that executes it. The typed
data, the list of arguments and the call each name their fields on their own. -/
namespace PaymentTrust

/-- Reads at most 32 bytes in hexadecimal digits, with zeros in front of them. Blanks around the
text, a mark and a missing first digit are put up with. -/
def HexField.read (field : HexField) (text : String) : Except TransferError Word256 :=
  let digits := Utf8.encode <| match Text.trim text.toList with
    | '0' :: 'x' :: rest => rest
    | rest => rest
  match Hex.decode (if digits.length % 2 = 1 then 0x30 :: digits else digits) with
  | .error _ => .error (.notHex field)
  | .ok bytes =>
    if 32 < bytes.length then .error (.hexTooLong field bytes.length)
    else .ok (Word256.ofBytes bytes)

inductive AbiValue where
  | address (a : Address)
  | uint256 (n : Word256)
  | uint8 (n : UInt8)
  | bytes32 (w : Word256)
  deriving DecidableEq, Repr

namespace AbiValue

/-- Each value fills a word; what is shorter stands at the word's end. -/
def word : AbiValue → Word256
  | address a => a.toWord
  | uint256 n => n
  | uint8 n => BitVec.ofNat 256 n.toNat
  | bytes32 w => w

def encode (values : List AbiValue) : Bytes :=
  values.flatMap fun value => value.word.bytes

end AbiValue

def textDigest (s : String) : Word256 :=
  Word256.ofBytes (Digest.keccak256 (Utf8.encode s.toList))

/-- What is hashed of typed data: the digest of its type, and its fields. -/
def typedBytes (typeText : String) (fields : List AbiValue) : Bytes :=
  (textDigest typeText).bytes ++ AbiValue.encode fields

def typedDigest (typeText : String) (fields : List AbiValue) : Word256 :=
  Word256.ofBytes (Digest.keccak256 (typedBytes typeText fields))

namespace TokenDomain

def typeText : String :=
  "EIP712Domain(string name,string version,uint256 chainId,address verifyingContract)"

def fields (d : TokenDomain) : List AbiValue :=
  [.bytes32 (textDigest d.name), .bytes32 (textDigest d.version), .uint256 (.ofWord64 d.chainId),
    .address d.contract]

def digest (d : TokenDomain) : Word256 := typedDigest typeText d.fields

end TokenDomain

structure TypedTransfer where
  sender : Address
  receiver : Address
  value : Word256
  validAfter : Word256
  validBefore : Word256
  nonce : Word256
  deriving DecidableEq, Repr

namespace TypedTransfer

def typeText : String :=
  "TransferWithAuthorization(address from,address to,uint256 value,uint256 validAfter," ++
    "uint256 validBefore,bytes32 nonce)"

def fields (t : TypedTransfer) : List AbiValue :=
  [.address t.sender, .address t.receiver, .uint256 t.value, .uint256 t.validAfter,
    .uint256 t.validBefore, .bytes32 t.nonce]

def digest (t : TypedTransfer) : Word256 := typedDigest typeText t.fields

def signedBytes (t : TypedTransfer) (d : TokenDomain) : Bytes :=
  [0x19, 0x01] ++ d.digest.bytes ++ t.digest.bytes

end TypedTransfer

structure TransferCall where
  sender : Address
  receiver : Address
  value : Word256
  validAfter : Word256
  validBefore : Word256
  nonce : Word256
  v : UInt8
  r : Word256
  s : Word256
  deriving DecidableEq, Repr

namespace TransferCall

def functionText : String :=
  "transferWithAuthorization(address,address,uint256,uint256,uint256,bytes32,uint8,bytes32,bytes32)"

def selector : Bytes := (Digest.keccak256 (Utf8.encode functionText.toList)).take 4

def arguments (c : TransferCall) : List AbiValue :=
  [.address c.sender, .address c.receiver, .uint256 c.value, .uint256 c.validAfter,
    .uint256 c.validBefore, .bytes32 c.nonce, .uint8 c.v, .bytes32 c.r, .bytes32 c.s]

def data (c : TransferCall) : Bytes := selector ++ AbiValue.encode c.arguments

end TransferCall

structure HexWords where
  nonce : Word256
  r : Word256
  s : Word256
  deriving DecidableEq, Repr

namespace TransferAuthorization

def hexWords (a : TransferAuthorization) : Except TransferError HexWords := do
  let nonce ← HexField.nonce.read a.nonce
  let r ← HexField.r.read a.r
  let s ← HexField.s.read a.s
  return ⟨nonce, r, s⟩

def typedTransfer (a : TransferAuthorization) : Except TransferError TypedTransfer := do
  let nonce ← HexField.nonce.read a.nonce
  return {
    sender := a.sender
    receiver := a.receiver
    value := a.value
    validAfter := .ofWord64 a.validAfter.seconds
    validBefore := .ofWord64 a.validBefore.seconds
    nonce }

def signingDigest (a : TransferAuthorization) (d : TokenDomain) : Except TransferError Word256 :=
  a.typedTransfer.map fun t => Word256.ofBytes (Digest.keccak256 (t.signedBytes d))

/-- The arguments of the call on their own, where `v` is a number like the others. -/
def callArguments (a : TransferAuthorization) : Except TransferError Bytes := do
  let words ← a.hexWords
  return AbiValue.encode [.address a.sender, .address a.receiver, .uint256 a.value,
    .uint256 (.ofWord64 a.validAfter.seconds), .uint256 (.ofWord64 a.validBefore.seconds),
    .bytes32 words.nonce, .uint256 (BitVec.ofNat 256 a.v.toNat), .bytes32 words.r,
    .bytes32 words.s]

def call (a : TransferAuthorization) : Except TransferError TransferCall := do
  let words ← a.hexWords
  return {
    sender := a.sender
    receiver := a.receiver
    value := a.value
    validAfter := .ofWord64 a.validAfter.seconds
    validBefore := .ofWord64 a.validBefore.seconds
    nonce := words.nonce
    v := a.v
    r := words.r
    s := words.s }

def callData (a : TransferAuthorization) : Except TransferError Bytes :=
  a.call.map TransferCall.data

end TransferAuthorization

end PaymentTrust
