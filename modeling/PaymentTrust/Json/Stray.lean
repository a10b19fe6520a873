import PaymentTrust.Json.Draft

/-! Lists of a fixed number of bytes. A list that is full may hold one more item, which is passed
over unless it is a byte: reading goes on where the attempt to read a byte gives up, and the list
ends there or is at fault. So the item need not be well-formed. -/
namespace PaymentTrust.Json.Stray

def afterWord : Bytes → Bytes → Bytes
  | [], text => text
  | _, [] => []
  | expected :: word, b :: text => if b = expected then afterWord word text else text

/-- What follows a string from behind its opening quote, or the first byte that no string can have
there. A low surrogate is refused at once where no high one precedes it, a high one at what should
be a low one. -/
def afterString : Bytes → Bytes
  | [] => []
  | 0x22 :: rest => rest
  | 0x5c :: 0x75 :: a :: b :: c :: d :: rest =>
    match Token.unit? a b c d with
    | none => rest
    | some n =>
      if Token.isLow n then rest
      else if Token.isHigh n then
        match rest with
        | 0x5c :: 0x75 :: a :: b :: c :: d :: rest =>
          if (Token.unit? a b c d).any Token.isLow then afterString rest else rest
        | 0x5c :: 0x75 :: _ => []
        | 0x5c :: rest => rest.drop 1
        | rest => rest.drop 1
      else afterString rest
  | 0x5c :: 0x75 :: _ => []
  | 0x5c :: letter :: rest => if (Token.escaped? letter).isSome then afterString rest else rest
  | b :: rest => if b < 0x20 then rest else afterString rest

def afterExponent (e : Nat) : Bytes → Bytes
  | [] => []
  | b :: rest =>
    if Numeral.isDigit b then
      let e := e * 10 + (b.toNat - 0x30)
      if 0x7fffffff < e then rest else afterExponent e rest
    else b :: rest

/-- What follows a numeral, or the first byte that shows that there is none. Only of a number other
than zero can an exponent be too large. -/
def afterNumeral (text : Bytes) : Bytes :=
  let text := (Numeral.scanMinus text).2
  match Numeral.scanWhole text with
  | none => text.drop 1
  | some (whole, text) =>
    match Numeral.scanFraction text with
    | none => text.drop 1
    | some (fraction, text) =>
      let digits := (Numeral.scanSign (text.drop 1)).2
      match Numeral.scanExponent text with
      | none => digits.drop 1
      | some (some (false, _), rest) =>
        if (whole ++ fraction.getD []).all (· = 0) then rest else afterExponent 0 digits
      | some (_, rest) => rest

/-- Where the attempt to read a byte gives up; none if there is a byte to read. The text begins with
no blank. -/
def giveUp? (text : Bytes) : Option Bytes :=
  match text with
  | 0x22 :: rest => some (afterString rest)
  | 0x6e :: _ => some (afterWord [0x6e, 0x75, 0x6c, 0x6c] text)
  | 0x74 :: _ => some (afterWord [0x74, 0x72, 0x75, 0x65] text)
  | 0x66 :: _ => some (afterWord [0x66, 0x61, 0x6c, 0x73, 0x65] text)
  | [] => some []
  | b :: _ =>
    if b = 0x2d ∨ Numeral.isDigit b then
      match (Numeral.scan? text).bind (·.1.value?) with
      | some (.integer n) => if 0 ≤ n ∧ n < 0x100 then none else some (afterNumeral text)
      | _ => some (afterNumeral text)
    else some text

def afterList? (text : Bytes) : Option Bytes :=
  match giveUp? (text.dropWhile Token.isBlank) with
  | none => none
  | some text =>
    match text.dropWhile Token.isBlank with
    | 0x5d :: rest => some rest
    | _ => none

theorem length_afterWord (word text : Bytes) : (afterWord word text).length ≤ text.length := by
  fun_induction afterWord word text with
  | case1 => simp
  | case2 => simp
  | case3 _ _ _ ih => simp; omega
  | case4 => simp

theorem length_afterString (text : Bytes) : (afterString text).length ≤ text.length := by
  fun_induction afterString text <;> simp_all <;> grind

theorem length_afterExponent (e : Nat) (text : Bytes) :
    (afterExponent e text).length ≤ text.length := by
  fun_induction afterExponent e text with
  | case1 => simp
  | case2 => simp
  | case3 _ _ _ _ _ _ ih => simp; omega
  | case4 => simp

theorem length_afterNumeral (text : Bytes) : (afterNumeral text).length ≤ text.length := by
  unfold afterNumeral
  have := Numeral.length_scanMinus text
  dsimp only
  split
  · simp; omega
  · next h1 =>
    have := Numeral.length_scanWhole h1
    split
    · simp; omega
    · next fraction rest h2 =>
      have := Numeral.length_scanFraction h2
      have := Numeral.length_scanSign (rest.drop 1)
      have := length_afterExponent 0 (Numeral.scanSign (rest.drop 1)).2
      have : (rest.drop 1).length ≤ rest.length := by simp
      split
      · simp only [List.length_drop] at *; omega
      · next h3 =>
        have := Numeral.length_scanExponent h3
        split <;> omega
      · next h3 =>
        have := Numeral.length_scanExponent h3
        omega

theorem length_giveUp? {text rest : Bytes} (h : giveUp? text = some rest) :
    rest.length ≤ text.length := by
  have := length_afterNumeral text
  have := fun word => length_afterWord word text
  unfold giveUp? at h
  split at h
  all_goals grind [length_afterString]

theorem length_afterList? {text rest : Bytes} (h : afterList? text = some rest) :
    rest.length < text.length := by
  have hb : ∀ t : Bytes, (t.dropWhile Token.isBlank).length ≤ t.length :=
    fun t => (List.dropWhile_sublist Token.isBlank).length_le
  unfold afterList? at h
  split at h
  · contradiction
  · next given hg =>
    have := length_giveUp? hg
    have := hb text
    have hd := hb given
    split at h
    · next he =>
      cases h
      simp only [he, List.length_cons] at hd
      omega
    · contradiction

open Draft

/-- The next word of a text that begins with no blank. A stray item is part of the bracket that ends
its list. -/
def next (isFull : List Frame → Bool) (phase : Phase) (stack : List Frame) (text : Bytes) :
    Token × Bytes :=
  let (t, rest) := Token.first text
  match phase, t with
  | .more, .comma =>
    match if isFull stack then afterList? rest else none with
    | some after => (.closeArray, after)
    | none => (t, rest)
  | _, _ => (t, rest)

theorem length_next (isFull : List Frame → Bool) (phase : Phase) (stack : List Frame) (b : UInt8)
    (tail : Bytes) : (next isFull phase stack (b :: tail)).2.length ≤ tail.length := by
  have := Token.length_first b tail
  unfold next
  dsimp only
  split
  · split
    · next h =>
      split at h
      · have := length_afterList? h
        simp only
        omega
      · contradiction
    · omega
  · omega

def words (isFull : List Frame → Bool) (phase : Phase) (stack : List Frame) (text : Bytes) :
    List Token :=
  match _h : text.dropWhile Token.isBlank with
  | [] => []
  | b :: tail =>
    let word := next isFull phase stack (b :: tail)
    word.1 :: match step phase stack word.1 with
      | .next phase' stack' => words isFull phase' stack' word.2
      | _ => Token.all word.2
termination_by text.length
decreasing_by
  have := length_next isFull phase stack b tail
  have := (List.dropWhile_sublist Token.isBlank (l := text)).length_le
  simp_all
  omega

def read (isFull : List Frame → Bool) (text : Bytes) : Document :=
  run .value [] (words isFull .value [] text)

end PaymentTrust.Json.Stray
