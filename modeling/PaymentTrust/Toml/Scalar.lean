import PaymentTrust.Toml.Basic
import PaymentTrust.Toml.Lexis

/-! TOML values written as one word: numbers, booleans, dates and times. -/
namespace PaymentTrust.Toml

def isWordChar (c : Char) : Bool :=
  c.isAlphanum || c = '_' || c = '+' || c = '-' || c = '.' || c = ':'

def splitSign : List Char → Bool × List Char
  | '-' :: rest => (true, rest)
  | '+' :: rest => (false, rest)
  | word => (false, word)

def grouped? (base : Nat) (word : List Char) : Option Nat :=
  let groups := Text.splitAll (· = '_') word
  if groups.contains [] then none else Numeral.ofDigits? base groups.flatten

def decimal? : List Char → Option Nat
  | '0' :: _ :: _ => none
  | word => grouped? 10 word

/-- A number in one of the four bases; only a decimal one has a sign. -/
def integer? (word : List Char) : Option Toml :=
  let value? : Option Int := match word with
    | '0' :: 'x' :: digits => (grouped? 16 digits).map Int.ofNat
    | '0' :: 'o' :: digits => (grouped? 8 digits).map Int.ofNat
    | '0' :: 'b' :: digits => (grouped? 2 digits).map Int.ofNat
    | _ =>
      let (negative, digits) := splitSign word
      (decimal? digits).map fun n => if negative then -(n : Int) else n
  match value? with
  | some n => if -0x8000000000000000 ≤ n ∧ n < 0x8000000000000000 then some (.integer n) else none
  | none => none

/-- Whether the nearest double is infinite: midway past the largest one, or above. -/
def Decimal.overflows (x : Decimal) : Bool :=
  let bound := Nat.pow 2 1024 - Nat.pow 2 970
  let places := (Nat.toDigits 10 x.significand).length + x.exponent
  x.significand ≠ 0 && (310 < places ||
    (0 < places && bound * Nat.pow 10 (-x.exponent).toNat ≤ x.significand * Nat.pow 10 x.exponent.toNat))

def splitAt (p : Char → Bool) (word : List Char) : List Char × Option (List Char) :=
  match word.dropWhile (!p ·) with
  | [] => (word, none)
  | _ :: rest => (word.takeWhile (!p ·), some rest)

/-- A number with a fraction, an exponent or both. A positive one must round to a finite double. -/
def real? (word : List Char) : Option Toml := do
  let (negative, word) := splitSign word
  let (mantissa, power) := splitAt (fun c => c = 'e' || c = 'E') word
  let (whole, fraction) := splitAt (· = '.') mantissa
  if fraction.isNone ∧ power.isNone then none
  let whole ← decimal? whole
  let (places, below) ← match fraction with
    | some digits => (grouped? 10 digits).map fun n => ((digits.filter (· ≠ '_')).length, n)
    | none => some (0, 0)
  let shift : Int ← match power with
    | some digits =>
      let (negative, digits) := splitSign digits
      (grouped? 10 digits).map fun n => if negative then -(n : Int) else n
    | none => some 0
  let x : Decimal := ⟨negative, whole * Nat.pow 10 places + below, shift - places⟩
  if !negative ∧ x.overflows then none
  return .real x

def inRange (low high : Nat) (digits : List Char) : Bool :=
  match Numeral.ofDigits? 10 digits with
  | some n => low ≤ n && n ≤ high
  | none => false

def isLeapYear (year : Nat) : Bool :=
  year % 4 = 0 && (year % 100 ≠ 0 || year % 400 = 0)

def daysIn (year month : Nat) : Nat :=
  if month = 2 then if isLeapYear year then 29 else 28
  else if [4, 6, 9, 11].contains month then 30
  else 31

def isDate : List Char → Bool
  | [y1, y2, y3, y4, '-', m1, m2, '-', d1, d2] =>
    match Numeral.ofDigits? 10 [y1, y2, y3, y4], Numeral.ofDigits? 10 [m1, m2] with
    | some year, some month => 1 ≤ month && month ≤ 12 && inRange 1 (daysIn year month) [d1, d2]
    | _, _ => false
  | _ => false

/-- The text after `HH:MM:SS` and a fraction of the second; the second may be 60. -/
def afterTime? : List Char → Option (List Char)
  | h1 :: h2 :: ':' :: m1 :: m2 :: ':' :: s1 :: s2 :: rest =>
    if inRange 0 23 [h1, h2] && inRange 0 59 [m1, m2] && inRange 0 60 [s1, s2] then
      match rest with
      | '.' :: fraction =>
        if (fraction.takeWhile Char.isDigit).isEmpty then none
        else some (fraction.dropWhile Char.isDigit)
      | _ => some rest
    else none
  | _ => none

def isOffset : List Char → Bool
  | [] => true
  | [c] => c = 'Z' || c = 'z'
  | [sign, h1, h2, ':', m1, m2] =>
    (sign = '+' || sign = '-') && inRange 0 23 [h1, h2] && inRange 0 59 [m1, m2]
  | _ => false

/-- A date, a time of day, or a date and a time with `T`, `t` or a blank between them, the last of
which may have an offset. -/
def moment? (word : List Char) : Option Toml :=
  let date := word.take 10
  let dated : Bool := match word.drop 10 with
    | [] => true
    | mark :: time =>
      (mark = 'T' || mark = 't' || mark = ' ') && (afterTime? time).any isOffset
  if (isDate date && dated) || afterTime? word = some [] then some (.moment (String.ofList word))
  else none

def constant? (word : List Char) : Option Toml :=
  if word = "true".toList then some (.boolean true)
  else if word = "false".toList then some (.boolean false)
  else
    let (_, unsigned) := splitSign word
    if unsigned = "inf".toList then some .infinite
    else if unsigned = "nan".toList then some .notANumber
    else none

/-- Reads the longest word, which after a date may go on behind one blank. -/
def word (text : List Char) : List Char × List Char :=
  let first := text.takeWhile isWordChar
  let rest := text.dropWhile isWordChar
  match rest with
  | ' ' :: c :: tail =>
    if isDate first ∧ isWordChar c then
      (first ++ ' ' :: (c :: tail).takeWhile isWordChar, (c :: tail).dropWhile isWordChar)
    else (first, rest)
  | _ => (first, rest)

def scalar : Scanner Toml := fun text =>
  let (word, rest) := word text
  (integer? word <|> real? word <|> moment? word <|> constant? word).map fun v => (v, rest)

end PaymentTrust.Toml
