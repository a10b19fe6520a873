import PaymentTrust.Text.Blank
import PaymentTrust.Text.Numeral

/-! The small parts of a TOML text: blanks, comments, line ends, strings and keys. A scanner returns
what it read and the text after it. -/
namespace PaymentTrust.Toml

abbrev Scanner (α : Type) := List Char → Option (α × List Char)

def isBlank (c : Char) : Bool := c = ' ' || c = '\t'

def skipBlanks (text : List Char) : List Char := text.dropWhile isBlank

def isPlain (c : Char) : Bool := c = '\t' || (0x20 ≤ c.toNat && c.toNat ≠ 0x7f)

def skipLineEnd? : List Char → Option (List Char)
  | [] => some []
  | '\n' :: rest => some rest
  | '\r' :: '\n' :: rest => some rest
  | _ => none

def skipRestOfLine? (text : List Char) : Option (List Char) :=
  match skipBlanks text with
  | '#' :: rest => skipLineEnd? (rest.dropWhile isPlain)
  | rest => skipLineEnd? rest

/-- Skips blanks, line ends and comments; `comment` tells whether the text begins inside one. -/
def skipGap : (comment : Bool) → List Char → List Char
  | _, [] => []
  | _, '\n' :: rest => skipGap false rest
  | _, '\r' :: '\n' :: rest => skipGap false rest
  | true, c :: rest => if isPlain c then skipGap true rest else c :: rest
  | false, '#' :: rest => skipGap true rest
  | false, c :: rest => if isBlank c then skipGap false rest else c :: rest

def codePoint? (digits : List Char) : Option Char :=
  match Numeral.ofDigits? 16 digits with
  | some n => if n.isValidChar then some (Char.ofNat n) else none
  | none => none

def shortEscape? : Char → Option Char
  | 'b' => some '\x08'
  | 't' => some '\t'
  | 'n' => some '\n'
  | 'f' => some '\x0c'
  | 'r' => some '\r'
  | '"' => some '"'
  | '\\' => some '\\'
  | _ => none

def cons? (c : Option Char) (tail : Option (List Char × List Char)) :
    Option (List Char × List Char) :=
  match c, tail with
  | some c, some (s, rest) => some (c :: s, rest)
  | _, _ => none

def basicString : Scanner (List Char)
  | '"' :: rest => some ([], rest)
  | '\\' :: 'u' :: a :: b :: c :: d :: rest => cons? (codePoint? [a, b, c, d]) (basicString rest)
  | '\\' :: 'U' :: a :: b :: c :: d :: e :: f :: g :: h :: rest =>
    cons? (codePoint? [a, b, c, d, e, f, g, h]) (basicString rest)
  | '\\' :: c :: rest => cons? (shortEscape? c) (basicString rest)
  | c :: rest => if isPlain c then cons? (some c) (basicString rest) else none
  | [] => none

def literalString : Scanner (List Char)
  | '\'' :: rest => some ([], rest)
  | c :: rest => if isPlain c then cons? (some c) (literalString rest) else none
  | [] => none

/-- Up to two quotes may stand right before the three that close a string of several lines. -/
def closing (quote : Char) : List Char → List Char × List Char
  | c :: d :: rest =>
    if c = quote ∧ d = quote then ([c, d], rest)
    else if c = quote then ([c], d :: rest)
    else ([], c :: d :: rest)
  | [c] => if c = quote then ([c], []) else ([], [c])
  | [] => ([], [])

/-- Reads a basic string of several lines from after its opening quotes. While it folds, blanks and
line ends are left out, as they are after a backslash that ends a line. -/
def basicLines : (folding : Bool) → Scanner (List Char)
  | true, '\n' :: rest => basicLines true rest
  | true, '\r' :: '\n' :: rest => basicLines true rest
  | true, ' ' :: rest => basicLines true rest
  | true, '\t' :: rest => basicLines true rest
  | _, '"' :: '"' :: '"' :: rest => some (closing '"' rest)
  | _, '\n' :: rest => cons? (some '\n') (basicLines false rest)
  | _, '\r' :: '\n' :: rest => cons? (some '\n') (basicLines false rest)
  | _, '\\' :: 'u' :: a :: b :: c :: d :: rest =>
    cons? (codePoint? [a, b, c, d]) (basicLines false rest)
  | _, '\\' :: 'U' :: a :: b :: c :: d :: e :: f :: g :: h :: rest =>
    cons? (codePoint? [a, b, c, d, e, f, g, h]) (basicLines false rest)
  | _, '\\' :: c :: rest =>
    match shortEscape? c with
    | some c => cons? (some c) (basicLines false rest)
    | none =>
      match skipBlanks (c :: rest) with
      | '\n' :: _ => basicLines true (c :: rest)
      | '\r' :: '\n' :: _ => basicLines true (c :: rest)
      | _ => none
  | _, c :: rest => if isPlain c then cons? (some c) (basicLines false rest) else none
  | _, [] => none

def literalLines : Scanner (List Char)
  | '\'' :: '\'' :: '\'' :: rest => some (closing '\'' rest)
  | '\n' :: rest => cons? (some '\n') (literalLines rest)
  | '\r' :: '\n' :: rest => cons? (some '\n') (literalLines rest)
  | c :: rest => if isPlain c then cons? (some c) (literalLines rest) else none
  | [] => none

def skipFirstLineEnd : List Char → List Char
  | '\n' :: rest => rest
  | '\r' :: '\n' :: rest => rest
  | text => text

def quotedString : Scanner String
  | '"' :: '"' :: '"' :: rest => asString (basicLines false (skipFirstLineEnd rest))
  | '"' :: rest => asString (basicString rest)
  | '\'' :: '\'' :: '\'' :: rest => asString (literalLines (skipFirstLineEnd rest))
  | '\'' :: rest => asString (literalString rest)
  | _ => none
where
  asString (result : Option (List Char × List Char)) : Option (String × List Char) :=
    result.map fun (s, rest) => (String.ofList s, rest)

def isBareKey (c : Char) : Bool := c.isAlphanum || c = '-' || c = '_'

def simpleKey : Scanner String
  | '"' :: rest => (basicString rest).map fun (s, rest) => (String.ofList s, rest)
  | '\'' :: rest => (literalString rest).map fun (s, rest) => (String.ofList s, rest)
  | text =>
    match text.takeWhile isBareKey with
    | [] => none
    | key => some (String.ofList key, text.dropWhile isBareKey)

def keyParts (text : List Char) : Option (List String × List Char) :=
  match simpleKey (skipBlanks text) with
  | none => none
  | some (key, rest) =>
    match skipBlanks rest with
    | '.' :: rest =>
      if _h : rest.length < text.length then
        (keyParts rest).map fun (keys, rest) => (key :: keys, rest)
      else none
    | rest => some ([key], rest)
termination_by text.length

/-- The parts before the last of a key, and the last. A key has fewer than 80 parts. -/
def keyPath : Scanner (List String × String) := fun text => do
  let (keys, rest) ← keyParts text
  if 80 ≤ keys.length then none else some ((keys.dropLast, keys.getLastD ""), rest)

end PaymentTrust.Toml
