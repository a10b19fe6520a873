import PaymentTrust.Bytes.Basic

/-! UTF-8 as a machine over bytes. The strict reading refuses ill-formed bytes; the lenient one
writes the replacement character for each maximal piece that begins no character. -/
namespace PaymentTrust.Utf8

def encode (text : List Char) : Bytes :=
  text.flatMap String.utf8EncodeChar

/-- A character begun: the bits read so far, how many continuation bytes are owed, and the range
of the next one. -/
structure Pending where
  bits : Nat
  owed : Nat
  low : UInt8
  high : UInt8

inductive Start where
  | whole (c : Char)
  | begun (p : Pending)
  | illFormed

/-- The narrowed second ranges exclude overlong forms, surrogates and numbers above `0x10FFFF`. -/
def start (b : UInt8) : Start :=
  if b < 0x80 then .whole (Char.ofNat b.toNat)
  else if b < 0xc2 then .illFormed
  else if b < 0xe0 then .begun ⟨b.toNat % 32, 1, 0x80, 0xbf⟩
  else if b = 0xe0 then .begun ⟨0, 2, 0xa0, 0xbf⟩
  else if b = 0xed then .begun ⟨13, 2, 0x80, 0x9f⟩
  else if b < 0xf0 then .begun ⟨b.toNat % 16, 2, 0x80, 0xbf⟩
  else if b = 0xf0 then .begun ⟨0, 3, 0x90, 0xbf⟩
  else if b < 0xf4 then .begun ⟨b.toNat % 8, 3, 0x80, 0xbf⟩
  else if b = 0xf4 then .begun ⟨4, 3, 0x80, 0x8f⟩
  else .illFormed

/-- Each element is a character read, or `none` for a piece that is ill-formed. -/
def pieces : Option Pending → Bytes → List (Option Char)
  | none, [] => []
  | some _, [] => [none]
  | none, b :: rest =>
    match start b with
    | .whole c => some c :: pieces none rest
    | .begun p => pieces (some p) rest
    | .illFormed => none :: pieces none rest
  | some p, b :: rest =>
    if p.low ≤ b ∧ b ≤ p.high then
      let bits := p.bits * 64 + b.toNat % 64
      if p.owed ≤ 1 then some (Char.ofNat bits) :: pieces none rest
      else pieces (some ⟨bits, p.owed - 1, 0x80, 0xbf⟩) rest
    else
      match start b with
      | .whole c => none :: some c :: pieces none rest
      | .begun p => none :: pieces (some p) rest
      | .illFormed => none :: none :: pieces none rest

def decode? (bytes : Bytes) : Option (List Char) :=
  (pieces none bytes).mapM id

def decodeLossy (bytes : Bytes) : List Char :=
  (pieces none bytes).map (·.getD '\ufffd')

end PaymentTrust.Utf8
