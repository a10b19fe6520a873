import PaymentTrust.Bytes.Basic
import PaymentTrust.Text.Utf8

/-! Hexadecimal text. Writing is lower case without a mark; reading takes either case and one
leading `0x` or `0X`. -/
namespace PaymentTrust.Hex

/-- Why a text is no hexadecimal byte string; positions count bytes after the mark. -/
inductive Error where
  | oddLength
  | notDigit (byte : UInt8) (position : Nat)
  deriving DecidableEq, Repr

private def quoted (byte : UInt8) : String :=
  let inner :=
    if byte = 0x00 then "\\0"
    else if byte = 0x09 then "\\t"
    else if byte = 0x0a then "\\n"
    else if byte = 0x0d then "\\r"
    else if byte = 0x27 then "\\'"
    else if byte = 0x5c then "\\\\"
    else if byte < 0x20 ∨ (0x7f ≤ byte ∧ byte ≤ 0xa0) ∨ byte = 0xad then
      "\\u\x7b" ++ String.ofList (Nat.toDigits 16 byte.toNat) ++ "\x7d"
    else (Char.ofNat byte.toNat).toString
  "'" ++ inner ++ "'"

def Error.message : Error → String
  | oddLength => "odd number of digits"
  | notDigit byte position => s!"invalid character {quoted byte} at position {position}"

def digit? (b : UInt8) : Option Nat :=
  if 0x30 ≤ b ∧ b ≤ 0x39 then some (b.toNat - 0x30)
  else if 0x41 ≤ b ∧ b ≤ 0x46 then some (b.toNat - 0x41 + 10)
  else if 0x61 ≤ b ∧ b ≤ 0x66 then some (b.toNat - 0x61 + 10)
  else none

def decodePairs (position : Nat) : Bytes → Except Error Bytes
  | [] => .ok []
  | [_] => .error .oddLength
  | high :: low :: rest =>
    match digit? high, digit? low with
    | none, _ => .error (.notDigit high position)
    | _, none => .error (.notDigit low (position + 1))
    | some h, some l => (decodePairs (position + 2) rest).map (UInt8.ofNat (h * 16 + l) :: ·)

/-- The text without one leading `0x` or `0X`. -/
def unmarked : Bytes → Bytes
  | 0x30 :: 0x78 :: rest => rest
  | 0x30 :: 0x58 :: rest => rest
  | text => text

/-- An odd number of digits is noticed before a character that is no digit. -/
def decode (text : Bytes) : Except Error Bytes :=
  let digits := unmarked text
  if digits.length % 2 = 1 then .error .oddLength else decodePairs 0 digits

def decodeText (text : String) : Except Error Bytes :=
  decode (Utf8.encode text.toList)

def encode (bytes : Bytes) : String :=
  String.ofList (bytes.flatMap fun b => [Nat.digitChar (b.toNat / 16), Nat.digitChar (b.toNat % 16)])

end PaymentTrust.Hex
