import PaymentTrust.Json.Numeral
import PaymentTrust.Json.Real

/-! Compact JSON text. What becomes of the characters that need no escape is a parameter: they are
written as they are, or those beyond ASCII are written as UTF-16 units. -/
namespace PaymentTrust.Json

def unitEscape (n : Nat) : List Char :=
  let digits := Nat.toDigits 16 n
  '\\' :: 'u' :: List.replicate (4 - digits.length) '0' ++ digits

/-- Escapes the quotation mark, the backslash and the control characters below the space. -/
def escape (plain : Char → List Char) (c : Char) : List Char :=
  if c = '"' then ['\\', '"']
  else if c = '\\' then ['\\', '\\']
  else if c = '\x08' then ['\\', 'b']
  else if c = '\x0c' then ['\\', 'f']
  else if c = '\n' then ['\\', 'n']
  else if c = '\r' then ['\\', 'r']
  else if c = '\t' then ['\\', 't']
  else if c.toNat < 0x20 then unitEscape c.toNat
  else plain c

def writeString (plain : Char → List Char) (s : String) : List Char :=
  '"' :: s.toList.flatMap (escape plain) ++ ['"']

def Number.write : Number → List Char
  | .integer n => Numeral.writeInt n
  | .real x => Real.write x

mutual

def write (plain : Char → List Char) : Json → List Char
  | .null => ['n', 'u', 'l', 'l']
  | .bool true => ['t', 'r', 'u', 'e']
  | .bool false => ['f', 'a', 'l', 's', 'e']
  | .number n => n.write
  | .string s => writeString plain s
  | .array items => '[' :: writeItems plain items ++ [']']
  | .object members => '\x7b' :: writeMembers plain members ++ ['\x7d']

def writeItems (plain : Char → List Char) : List Json → List Char
  | [] => []
  | [v] => write plain v
  | v :: rest => write plain v ++ ',' :: writeItems plain rest

def writeMembers (plain : Char → List Char) : List (String × Json) → List Char
  | [] => []
  | [(k, v)] => writeString plain k ++ ':' :: write plain v
  | (k, v) :: rest => writeString plain k ++ ':' :: write plain v ++ ',' :: writeMembers plain rest

end

def render (v : Json) : String :=
  String.ofList (write (fun c => [c]) v)

end PaymentTrust.Json
