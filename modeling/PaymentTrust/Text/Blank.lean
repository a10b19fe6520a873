/-! Blank characters: the Unicode property White_Space, and its part within ASCII that separates
words in header fields. -/
namespace PaymentTrust.Text

/-- The Unicode property White_Space. -/
def isBlank (c : Char) : Bool :=
  let n := c.toNat
  (0x09 ≤ n && n ≤ 0x0d) || n == 0x20 || n == 0x85 || n == 0xa0 || n == 0x1680 ||
    (0x2000 ≤ n && n ≤ 0x200a) || n == 0x2028 || n == 0x2029 || n == 0x202f || n == 0x205f ||
    n == 0x3000

def isAsciiBlank (c : Char) : Bool :=
  c == ' ' || c == '\t' || c == '\n' || c == '\x0c' || c == '\r'

def trimBy (p : α → Bool) (text : List α) : List α :=
  ((text.dropWhile p).reverse.dropWhile p).reverse

def trim (text : List Char) : List Char :=
  trimBy isBlank text

def splitFirst (mark : Char) : List Char → Option (List Char × List Char)
  | [] => none
  | c :: rest =>
    if c = mark then some ([], rest)
    else (splitFirst mark rest).map fun (before, after) => (c :: before, after)

/-- The pieces between the characters that satisfy `p`; one more than there are of those. -/
def splitAll (p : Char → Bool) : List Char → List (List Char)
  | [] => [[]]
  | c :: rest =>
    if p c then [] :: splitAll p rest
    else
      match splitAll p rest with
      | [] => [[c]]
      | piece :: pieces => (c :: piece) :: pieces

def words (text : List Char) : List (List Char) :=
  (splitAll isAsciiBlank text).filter (· ≠ [])

def lowerAscii (text : List Char) : List Char :=
  text.map Char.toLower

def upperAscii (text : List Char) : List Char :=
  text.map Char.toUpper

end PaymentTrust.Text
