import PaymentTrust.Bytes.Basic
import PaymentTrust.Json.Basic

/-! JSON numerals and the numbers they denote. An integer that fits 64 bits, signed or unsigned, is
that integer; any other numeral is a double. -/
namespace PaymentTrust.Json

/-- A numeral taken apart; digits are numbers below ten. -/
structure Numeral where
  negative : Bool
  whole : List Nat
  fraction : Option (List Nat)
  exponent : Option (Bool × List Nat)

namespace Numeral

def isDigit (b : UInt8) : Bool := 0x30 ≤ b && b ≤ 0x39

private def digitValues (digits : Bytes) : List Nat := digits.map fun b => b.toNat - 0x30

/-- A leading zero stands alone. -/
def scanWhole (text : Bytes) : Option (List Nat × Bytes) :=
  match digitValues (text.takeWhile isDigit) with
  | [] => none
  | 0 :: _ :: _ => none
  | digits => some (digits, text.dropWhile isDigit)

def scanFraction : Bytes → Option (Option (List Nat) × Bytes)
  | 0x2e :: rest =>
    match digitValues (rest.takeWhile isDigit) with
    | [] => none
    | digits => some (some digits, rest.dropWhile isDigit)
  | text => some (none, text)

def scanSign : Bytes → Bool × Bytes
  | 0x2d :: rest => (true, rest)
  | 0x2b :: rest => (false, rest)
  | text => (false, text)

def scanExponent : Bytes → Option (Option (Bool × List Nat) × Bytes)
  | [] => some (none, [])
  | b :: rest =>
    if b = 0x65 ∨ b = 0x45 then
      let (negative, rest) := scanSign rest
      match digitValues (rest.takeWhile isDigit) with
      | [] => none
      | digits => some (some (negative, digits), rest.dropWhile isDigit)
    else some (none, b :: rest)

def scanMinus : Bytes → Bool × Bytes
  | 0x2d :: rest => (true, rest)
  | text => (false, text)

def scan? (text : Bytes) : Option (Numeral × Bytes) := do
  let (negative, text) := scanMinus text
  let (whole, text) ← scanWhole text
  let (fraction, text) ← scanFraction text
  let (exponent, text) ← scanExponent text
  some (⟨negative, whole, fraction, exponent⟩, text)

private theorem length_dropWhile_le {p : UInt8 → Bool} (text : Bytes) :
    (text.dropWhile p).length ≤ text.length :=
  (List.dropWhile_sublist p).length_le

theorem length_scanWhole {text rest : Bytes} {digits : List Nat}
    (h : scanWhole text = some (digits, rest)) : rest.length < text.length := by
  have hlen := congrArg List.length (List.takeWhile_append_dropWhile (p := isDigit) (l := text))
  unfold scanWhole at h
  cases ht : text.takeWhile isDigit with
  | nil => simp [ht, digitValues] at h
  | cons b t =>
    have hr : text.dropWhile isDigit = rest := by split at h <;> simp_all
    simp only [List.length_append, ht, hr, List.length_cons] at hlen
    omega

theorem length_scanFraction {text rest : Bytes} {fraction : Option (List Nat)}
    (h : scanFraction text = some (fraction, rest)) : rest.length ≤ text.length := by
  unfold scanFraction at h
  split at h
  · next tail =>
    have hd := length_dropWhile_le (p := isDigit) tail
    split at h
    · contradiction
    · simp only [Option.some.injEq, Prod.mk.injEq] at h
      rw [← h.2, List.length_cons]
      omega
  · simp_all

theorem length_scanSign (text : Bytes) : (scanSign text).2.length ≤ text.length := by
  unfold scanSign
  split <;> simp

theorem length_scanExponent {text rest : Bytes} {exponent : Option (Bool × List Nat)}
    (h : scanExponent text = some (exponent, rest)) : rest.length ≤ text.length := by
  unfold scanExponent at h
  split at h
  · simp_all
  · next b tail =>
    have hs := length_scanSign tail
    have hd := length_dropWhile_le (p := isDigit) (scanSign tail).2
    split at h
    · dsimp only at h
      split at h
      · contradiction
      · simp only [Option.some.injEq, Prod.mk.injEq] at h
        rw [← h.2, List.length_cons]
        omega
    · simp_all

theorem length_scanMinus (text : Bytes) : (scanMinus text).2.length ≤ text.length := by
  unfold scanMinus
  split <;> simp

theorem length_scan? {text rest : Bytes} {n : Numeral} (h : scan? text = some (n, rest)) :
    rest.length < text.length := by
  simp only [scan?, bind, Option.bind_eq_some_iff] at h
  obtain ⟨⟨whole, r1⟩, h1, ⟨fraction, r2⟩, h2, ⟨exponent, r3⟩, h3, h⟩ := h
  have := length_scanMinus text
  have := length_scanWhole h1
  have := length_scanFraction h2
  have := length_scanExponent h3
  simp_all
  omega

/-- Appends digits to a significand while it stays below `2^64`; also tells how many it took. -/
def absorb (significand : Nat) : List Nat → Nat × Nat
  | [] => (significand, 0)
  | d :: rest =>
    if significand * 10 + d < UInt64.size then
      let (result, taken) := absorb (significand * 10 + d) rest
      (result, taken + 1)
    else (significand, 0)

private def powerOfTen (e : Nat) : Float := Float.ofScientific 1 false e

/-- `x` times a power of ten by one multiplication or division, after divisions by `10^308` while
the exponent is below that; none when the product is out of range. -/
def scale (x : Float) (e : Int) : Option Float :=
  if 0 ≤ e then
    if e ≤ 308 then
      let y := x * powerOfTen e.toNat
      if y.isInf then none else some y
    else if x == 0 then some x
    else none
  else if -308 ≤ e then some (x / powerOfTen e.natAbs)
  else if x == 0 then some x
  else scale (x / powerOfTen 308) (e + 308)
termination_by e.natAbs

private def signed (negative : Bool) (x : Float) : Float := if negative then -x else x

/-- The significand holds the digits that fit 64 bits; later ones only count as places. -/
def value? (n : Numeral) : Option Number :=
  let (significand, taken) := absorb 0 n.whole
  let dropped := n.whole.length - taken
  match n.fraction, n.exponent with
  | none, none =>
    let x := (UInt64.ofNat significand).toFloat
    if dropped = 0 then
      if n.negative then
        if 0 < significand ∧ significand ≤ 0x8000000000000000 then some (.integer (-significand))
        else some (.real (-x))
      else some (.integer significand)
    else (scale x dropped).map fun y => .real (signed n.negative y)
  | fraction, exponent =>
    let (significand, places) := absorb significand (fraction.getD [])
    let shift : Int := match exponent with
      | none => 0
      | some (negative, digits) =>
        let e : Nat := digits.foldl (fun e d => e * 10 + d) 0
        if negative then -(e : Int) else e
    (scale (UInt64.ofNat significand).toFloat ((dropped : Int) - places + shift)).map fun y =>
      .real (signed n.negative y)

def writeInt (n : Int) : List Char :=
  if n < 0 then '-' :: Nat.toDigits 10 n.natAbs else Nat.toDigits 10 n.natAbs

end Numeral

end PaymentTrust.Json
