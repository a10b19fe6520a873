/-! The shortest decimal that reads back as a given binary fraction, and its written form. -/
namespace PaymentTrust.Json.Real

/-- A finite non-negative binary fraction `mantissa * 2 ^ exponent`. `lowest` marks a mantissa whose
neighbour below is only half as far away as the one above. -/
structure Binary where
  mantissa : Nat
  exponent : Int
  lowest : Bool

def Binary.ofFloat (x : Float) : Binary :=
  let bits := x.toBits.toNat
  let fraction := bits % 0x10000000000000
  let biased := bits / 0x10000000000000 % 0x800
  if biased = 0 then ⟨fraction, -1074, false⟩
  else ⟨0x10000000000000 + fraction, (biased : Int) - 1075, fraction = 0 && 1 < biased⟩

structure Decimal where
  significand : Nat
  exponent : Int
  deriving DecidableEq, Repr

private def pow2 (e : Int) : Nat := Nat.pow 2 e.toNat
private def pow10 (e : Int) : Nat := Nat.pow 10 e.toNat

def leading (num den : Nat) : Int :=
  let guess : Int := ((num.log2 : Int) - den.log2) * 30103 / 100000
  let le (k : Int) : Bool := pow10 k * den ≤ num * pow10 (-k)
  if le (guess + 1) then guess + 1 else if le guess then guess else guess - 1

/-- Of the two decimals around the fraction whose last digit counts `10 ^ place`, the one in the
interval that reads back as it; the nearer if both are, and the even one at a tie. -/
def onGrid? (b : Binary) (place : Int) : Option Decimal :=
  let unit := pow2 b.exponent * pow10 (-place)
  let num := b.mantissa * unit
  let den := pow2 (-b.exponent) * pow10 place
  let below := 4 * num - (if b.lowest then unit else 2 * unit)
  let above := 4 * num + 2 * unit
  let inside (c : Nat) : Bool :=
    if b.mantissa % 2 = 0 then below ≤ 4 * c * den && 4 * c * den ≤ above
    else below < 4 * c * den && 4 * c * den < above
  let low := num / den
  let rest := num % den
  let nearer :=
    if 2 * rest < den then low
    else if den < 2 * rest then low + 1
    else if low % 2 = 0 then low else low + 1
  let other := if nearer = low then low + 1 else low
  if inside nearer then some ⟨nearer, place⟩
  else if inside other then some ⟨other, place⟩
  else none

/-- The decimal of fewest digits that reads back as the fraction; 17 digits always suffice. -/
def shortest (b : Binary) : Decimal :=
  let top := leading (b.mantissa * pow2 b.exponent) (pow2 (-b.exponent))
  match (List.range 17).findSome? fun n => onGrid? b (top - (n : Nat)) with
  | some d => d
  | none => ⟨b.mantissa, b.exponent⟩

def Decimal.digits (d : Decimal) : List Char × Int :=
  let all := Nat.toDigits 10 d.significand
  ((all.reverse.dropWhile (· == '0')).reverse, d.exponent + all.length - 1)

/-- Positional with at least one place for leading digits from `10^-5` to `10^15`; otherwise one
digit before the point and a signed exponent, whose plus is written and whose zeros are not. -/
def Decimal.write (d : Decimal) : List Char :=
  let (digits, top) := d.digits
  let count : Int := digits.length
  if 0 ≤ top ∧ top ≤ 15 then
    if count ≤ top + 1 then
      digits ++ List.replicate (top + 1 - count).toNat '0' ++ ['.', '0']
    else digits.take (top + 1).toNat ++ '.' :: digits.drop (top + 1).toNat
  else if -5 ≤ top ∧ top < 0 then
    '0' :: '.' :: List.replicate (-top - 1).toNat '0' ++ digits
  else
    let point := match digits with
      | [c] => [c]
      | c :: rest => c :: '.' :: rest
      | [] => []
    point ++ 'e' :: (if top < 0 then '-' else '+') :: Nat.toDigits 10 top.natAbs

def write (x : Float) : List Char :=
  let sign := if x.toBits.toNat / 0x8000000000000000 = 1 then ['-'] else []
  let b := Binary.ofFloat x
  sign ++ if b.mantissa = 0 then ['0', '.', '0'] else (shortest b).write

end PaymentTrust.Json.Real
