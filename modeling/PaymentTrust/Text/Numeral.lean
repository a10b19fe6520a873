/-! Numerals: digits of a base up to 16, and decimal numerals of 64-bit words. -/
namespace PaymentTrust.Numeral

def digit? (base : Nat) (c : Char) : Option Nat :=
  (List.range base).find? fun n => Nat.digitChar n = c.toLower

/-- The number that digits of the base spell; zero if there are none. -/
def ofDigits? (base : Nat) (text : List Char) : Option Nat :=
  (text.mapM (digit? base)).map (·.foldl (fun n d => n * base + d) 0)

def digits? : List Char → Option Nat
  | [] => none
  | text => if text.all Char.isDigit then some (Nat.ofDigitChars 10 text 0) else none

/-- Reads decimal digits, with one leading `+` allowed, that denote a number below `2^64`. -/
def read? (text : List Char) : Option UInt64 :=
  let digits := match text with
    | '+' :: rest => rest
    | _ => text
  match digits? digits with
  | some n => if n < UInt64.size then some (UInt64.ofNat n) else none
  | none => none

def write (n : UInt64) : String :=
  n.toNat.repr

end PaymentTrust.Numeral
