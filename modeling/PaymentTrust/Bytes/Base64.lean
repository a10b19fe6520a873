import PaymentTrust.Bytes.Basic

/-! Base64 in two variants: the standard alphabet with padding, and the URL-safe alphabet without.
Reading is canonical: padding is complete or absent, and unused bits are zero. -/
namespace PaymentTrust.Base64

/-- The two symbols beyond letters and digits, and whether groups are padded to four. -/
structure Variant where
  symbol62 : UInt8
  symbol63 : UInt8
  padded : Bool

def standard : Variant := ⟨0x2b, 0x2f, true⟩

def urlSafe : Variant := ⟨0x2d, 0x5f, false⟩

def pad : UInt8 := 0x3d

inductive Error where
  | symbol (byte : UInt8) (offset : Nat)
  | lastSymbol (byte : UInt8) (offset : Nat)
  | length (symbols : Nat)
  | padding
  deriving DecidableEq, Repr

def Error.message : Error → String
  | symbol byte offset => s!"Invalid symbol {byte.toNat}, offset {offset}."
  | lastSymbol byte offset => s!"Invalid last symbol {byte.toNat}, offset {offset}."
  | length symbols => s!"Invalid input length: {symbols}"
  | padding => "Invalid padding"

def Variant.value? (v : Variant) (b : UInt8) : Option Nat :=
  if 0x41 ≤ b ∧ b ≤ 0x5a then some (b.toNat - 0x41)
  else if 0x61 ≤ b ∧ b ≤ 0x7a then some (b.toNat - 0x61 + 26)
  else if 0x30 ≤ b ∧ b ≤ 0x39 then some (b.toNat - 0x30 + 52)
  else if b = v.symbol62 then some 62
  else if b = v.symbol63 then some 63
  else none

def Variant.symbol (v : Variant) (n : Nat) : UInt8 :=
  if n < 26 then UInt8.ofNat (0x41 + n)
  else if n < 52 then UInt8.ofNat (0x61 + (n - 26))
  else if n < 62 then UInt8.ofNat (0x30 + (n - 52))
  else if n = 62 then v.symbol62
  else v.symbol63

def Variant.values (v : Variant) (offset : Nat) : Bytes → Except Error (List Nat)
  | [] => .ok []
  | b :: rest =>
    match v.value? b with
    | none => .error (.symbol b offset)
    | some n => (v.values (offset + 1) rest).map (n :: ·)

/-- The bytes of two to four values; the bits of the last value that fill no byte are zero. -/
def joinLast (last : UInt8) (offset : Nat) : List Nat → Except Error Bytes
  | [a, b] =>
    if b % 16 ≠ 0 then .error (.lastSymbol last (offset + 1))
    else .ok [UInt8.ofNat (a * 4 + b / 16)]
  | [a, b, c] =>
    if c % 4 ≠ 0 then .error (.lastSymbol last (offset + 2))
    else .ok [UInt8.ofNat (a * 4 + b / 16), UInt8.ofNat (b % 16 * 16 + c / 4)]
  | [a, b, c, d] =>
    .ok [UInt8.ofNat (a * 4 + b / 16), UInt8.ofNat (b % 16 * 16 + c / 4),
      UInt8.ofNat (c % 4 * 64 + d)]
  | _ => .ok []

def Variant.decodeLast (v : Variant) (offset : Nat) (group : Bytes) : Except Error Bytes := do
  let body := group.takeWhile (· ≠ pad)
  let tail := group.drop body.length
  let values ← v.values offset body
  if tail ≠ [] ∧ (body.length < 2 ∨ tail.any (· ≠ pad)) then
    throw (.symbol pad (offset + body.length))
  if body.length < 2 then
    throw (.length (offset + body.length))
  if (if v.padded then group.length ≠ 4 else tail ≠ []) then
    throw .padding
  joinLast (body.getLastD 0) offset values

/-- Reads four symbols at a time; only the last group may be short or padded. -/
def Variant.decodeGroups (v : Variant) (offset : Nat) : Bytes → Except Error Bytes
  | a :: b :: c :: d :: e :: rest => do
    match ← v.values offset [a, b, c, d] with
    | [a, b, c, d] =>
      let tail ← v.decodeGroups (offset + 4) (e :: rest)
      return UInt8.ofNat (a * 4 + b / 16) :: UInt8.ofNat (b % 16 * 16 + c / 4) ::
        UInt8.ofNat (c % 4 * 64 + d) :: tail
    | _ => return []
  | group => v.decodeLast offset group

/-- Whether the text has one symbol too many, and that symbol is outside the alphabet. -/
def Variant.strayLast? (v : Variant) (text : Bytes) : Option UInt8 :=
  match text.getLast? with
  | some last =>
    if text.length % 4 = 1 ∧ last ≠ pad ∧ (v.value? last).isNone then some last else none
  | none => none

def Variant.decode (v : Variant) (text : Bytes) : Except Error Bytes :=
  if text = [] then .ok []
  else
    match v.strayLast? text with
    | some last => .error (.symbol last (text.length - 1))
    | none => v.decodeGroups 0 text

def Variant.encode (v : Variant) : Bytes → Bytes
  | [] => []
  | [x] =>
    let n := x.toNat
    [v.symbol (n / 4), v.symbol (n % 4 * 16)] ++ (if v.padded then [pad, pad] else [])
  | [x, y] =>
    let n := x.toNat * 256 + y.toNat
    [v.symbol (n / 1024), v.symbol (n / 16 % 64), v.symbol (n % 16 * 4)] ++
      (if v.padded then [pad] else [])
  | x :: y :: z :: rest =>
    let n := (x.toNat * 256 + y.toNat) * 256 + z.toNat
    v.symbol (n / 262144) :: v.symbol (n / 4096 % 64) :: v.symbol (n / 64 % 64) ::
      v.symbol (n % 64) :: v.encode rest

def isBlank (b : UInt8) : Bool :=
  b = 0x20 || b = 0x09 || b = 0x0a || b = 0x0c || b = 0x0d

/-- Reads the standard variant or else the URL-safe one, without the blanks around the text; a text
in neither is refused for the reason it fails as standard. -/
def decodeEither (text : Bytes) : Except Error Bytes :=
  let bare := ((text.dropWhile isBlank).reverse.dropWhile isBlank).reverse
  match standard.decode bare with
  | .ok bytes => .ok bytes
  | .error e =>
    match urlSafe.decode bare with
    | .ok bytes => .ok bytes
    | .error _ => .error e

end PaymentTrust.Base64
