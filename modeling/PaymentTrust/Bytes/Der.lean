import PaymentTrust.Bytes.Basic

/-! The distinguished encoding of ASN.1 elements: tag, shortest length, content. -/
namespace PaymentTrust.Der

def integerTag : UInt8 := 0x02
def bitStringTag : UInt8 := 0x03
def nullTag : UInt8 := 0x05
def objectIdTag : UInt8 := 0x06
def sequenceTag : UInt8 := 0x30

/-- Below 128 one byte; otherwise the count of length bytes, with the top bit set, and these. -/
def encodeLength (n : Nat) : Bytes :=
  if n < 128 then [UInt8.ofNat n]
  else
    let digits := Bytes.minimal n
    UInt8.ofNat (128 + digits.length) :: digits

def element (tag : UInt8) (content : Bytes) : Bytes :=
  tag :: encodeLength content.length ++ content

/-- Reads a length of at most four bytes that is no longer than it need be. -/
def length? : Bytes → Option (Nat × Bytes)
  | [] => none
  | b :: rest =>
    if b < 0x80 then some (b.toNat, rest)
    else
      let count := b.toNat - 128
      if count = 0 ∨ 4 < count ∨ rest.length < count then none
      else
        let n := Bytes.toNat (rest.take count)
        if encodeLength n = b :: rest.take count then some (n, rest.drop count) else none

def read? (tag : UInt8) : Bytes → Option (Bytes × Bytes)
  | [] => none
  | b :: rest =>
    if b = tag then do
      let (n, rest) ← length? rest
      if n ≤ rest.length then some (rest.take n, rest.drop n) else none
    else none

def only? (tag : UInt8) (bytes : Bytes) : Option Bytes :=
  match read? tag bytes with
  | some (content, []) => some content
  | _ => none

/-- The content of a non-negative integer: its shortest digits, after a zero byte where the top bit
would make it negative. -/
def encodeUnsigned (n : Nat) : Bytes :=
  match Bytes.minimal n with
  | [] => [0]
  | b :: rest => if b < 0x80 then b :: rest else 0 :: b :: rest

def unsigned? : Bytes → Option Nat
  | [] => none
  | [0] => some 0
  | b :: rest =>
    if 0x80 ≤ b then none
    else if b = 0 ∧ (rest.headD 0) < 0x80 then none
    else some (Bytes.toNat (b :: rest))

def integer (n : Nat) : Bytes := element integerTag (encodeUnsigned n)

def integer? (bytes : Bytes) : Option (Nat × Bytes) := do
  let (content, rest) ← read? integerTag bytes
  let n ← unsigned? content
  some (n, rest)

def integerPair (m n : Nat) : Bytes := element sequenceTag (integer m ++ integer n)

def integerPair? (bytes : Bytes) : Option (Nat × Nat) := do
  let content ← only? sequenceTag bytes
  let (m, rest) ← integer? content
  let (n, rest) ← integer? rest
  if rest = [] then some (m, n) else none

end PaymentTrust.Der
