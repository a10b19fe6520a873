import PaymentTrust.Bytes.Hex
import PaymentTrust.Json.Numeral

/-! The words of JSON text. A word may be well-formed and yet denote nothing: a string with a lone
surrogate, or a numeral beyond the range of doubles. -/
namespace PaymentTrust.Json

inductive Token where
  | openArray
  | closeArray
  | openObject
  | closeObject
  | comma
  | colon
  | null
  | bool (b : Bool)
  | number (n : Option Number)
  | string (s : Option String)
  | fault

namespace Token

inductive Piece where
  | byte (b : UInt8)
  | unit (n : Nat)

def unit? (a b c d : UInt8) : Option Nat := do
  return (((← Hex.digit? a) * 16 + (← Hex.digit? b)) * 16 + (← Hex.digit? c)) * 16 + (← Hex.digit? d)

def escaped? (letter : UInt8) : Option UInt8 :=
  if letter = 0x22 ∨ letter = 0x5c ∨ letter = 0x2f then some letter
  else if letter = 0x62 then some 0x08
  else if letter = 0x66 then some 0x0c
  else if letter = 0x6e then some 0x0a
  else if letter = 0x72 then some 0x0d
  else if letter = 0x74 then some 0x09
  else none

def scanString : Bytes → Option (List Piece × Bytes)
  | [] => none
  | 0x22 :: rest => some ([], rest)
  | 0x5c :: 0x75 :: a :: b :: c :: d :: rest =>
    match unit? a b c d with
    | some n => (scanString rest).map fun (pieces, rest) => (.unit n :: pieces, rest)
    | none => none
  | 0x5c :: letter :: rest =>
    match escaped? letter with
    | some b => (scanString rest).map fun (pieces, rest) => (.byte b :: pieces, rest)
    | none => none
  | b :: rest =>
    if b < 0x20 ∨ b = 0x5c then none
    else (scanString rest).map fun (pieces, rest) => (.byte b :: pieces, rest)

def isHigh (n : Nat) : Bool := 0xd800 ≤ n && n < 0xdc00
def isLow (n : Nat) : Bool := 0xdc00 ≤ n && n < 0xe000

/-- The UTF-8 bytes of the pieces; none where a surrogate has no partner. -/
def join? : List Piece → Option Bytes
  | [] => some []
  | .byte b :: rest => (join? rest).map (b :: ·)
  | .unit high :: .unit low :: rest =>
    if isHigh high ∧ isLow low then
      let n := 0x10000 + (high - 0xd800) * 0x400 + (low - 0xdc00)
      (join? rest).map (String.utf8EncodeChar (Char.ofNat n) ++ ·)
    else if isHigh high ∨ isLow high then none
    else (join? (.unit low :: rest)).map (String.utf8EncodeChar (Char.ofNat high) ++ ·)
  | .unit n :: rest =>
    if isHigh n ∨ isLow n then none
    else (join? rest).map (String.utf8EncodeChar (Char.ofNat n) ++ ·)

def text? (pieces : List Piece) : Option String :=
  ((join? pieces).bind Utf8.decode?).map String.ofList

theorem length_scanString {text rest : Bytes} {pieces : List Piece}
    (h : scanString text = some (pieces, rest)) : rest.length < text.length := by
  fun_induction scanString text generalizing pieces rest with
  | case1 => simp at h
  | case2 => simp_all
  | case3 a b c d tail n hn ih =>
    obtain ⟨⟨ps, r⟩, hr, he⟩ := Option.map_eq_some_iff.1 h
    have := ih hr
    simp_all; omega
  | case4 => simp at h
  | case5 letter tail _ b hb ih =>
    obtain ⟨⟨ps, r⟩, hr, he⟩ := Option.map_eq_some_iff.1 h
    have := ih hr
    simp_all; omega
  | case6 => simp at h
  | case7 => simp at h
  | case8 b tail _ _ _ _ ih =>
    obtain ⟨⟨ps, r⟩, hr, he⟩ := Option.map_eq_some_iff.1 h
    have := ih hr
    simp_all; omega

def isBlank (b : UInt8) : Bool := b = 0x20 || b = 0x0a || b = 0x09 || b = 0x0d

def first : Bytes → Token × Bytes
  | 0x5b :: rest => (.openArray, rest)
  | 0x5d :: rest => (.closeArray, rest)
  | 0x7b :: rest => (.openObject, rest)
  | 0x7d :: rest => (.closeObject, rest)
  | 0x2c :: rest => (.comma, rest)
  | 0x3a :: rest => (.colon, rest)
  | 0x6e :: 0x75 :: 0x6c :: 0x6c :: rest => (.null, rest)
  | 0x74 :: 0x72 :: 0x75 :: 0x65 :: rest => (.bool true, rest)
  | 0x66 :: 0x61 :: 0x6c :: 0x73 :: 0x65 :: rest => (.bool false, rest)
  | 0x22 :: rest =>
    match scanString rest with
    | some (pieces, rest) => (.string (text? pieces), rest)
    | none => (.fault, [])
  | text =>
    match Numeral.scan? text with
    | some (n, rest) => (.number n.value?, rest)
    | none => (.fault, [])

theorem length_first (b : UInt8) (tail : Bytes) : (first (b :: tail)).2.length ≤ tail.length := by
  unfold first
  split
  case h_10 rest h =>
    split
    · next hs =>
      have := length_scanString hs
      grind
    · simp
  case h_11 =>
    split
    · next hs =>
      have := Numeral.length_scan? hs
      grind
    · simp
  all_goals grind

/-- The words of a text, up to and with the first fault. -/
def all (text : Bytes) : List Token :=
  match _h : text.dropWhile isBlank with
  | [] => []
  | b :: tail => (first (b :: tail)).1 :: all (first (b :: tail)).2
termination_by text.length
decreasing_by
  have := length_first b tail
  have := (List.dropWhile_sublist isBlank (l := text)).length_le
  simp_all
  omega

end Token

end PaymentTrust.Json
