import PaymentTrust.Bytes.Hex
import PaymentTrust.Digest.Sha2
import PaymentTrust.Json.Render

/-! Canonical JSON: compact ASCII text with the members of every object by ascending key. -/
namespace PaymentTrust.Json

/-- ASCII as it is, anything else as one or two UTF-16 units. -/
def asciiOnly (c : Char) : List Char :=
  let n := c.toNat
  if n < 0x80 then [c]
  else if n < 0x10000 then unitEscape n
  else unitEscape (0xd800 + (n - 0x10000) / 0x400) ++ unitEscape (0xdc00 + (n - 0x10000) % 0x400)

mutual

def sorted : Json → Json
  | .array items => .array (sortedItems items)
  | .object members => .object (sortMembers (sortedMembers members))
  | v => v

def sortedItems : List Json → List Json
  | [] => []
  | v :: rest => v.sorted :: sortedItems rest

def sortedMembers : List (String × Json) → List (String × Json)
  | [] => []
  | (k, v) :: rest => (k, v.sorted) :: sortedMembers rest

end

def canonical (v : Json) : String :=
  String.ofList (write asciiOnly v.sorted)

def without (key : String) : Json → Json
  | .object members => .object (members.filter (·.1 ≠ key))
  | v => v

def fingerprint (v : Json) : String :=
  Hex.encode (Digest.sha256 (Utf8.encode v.canonical.toList))

end PaymentTrust.Json
