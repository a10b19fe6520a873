import PaymentTrust.Json.Canonical
import PaymentTrust.Json.Token
import PaymentTrust.Proofs.Text.Utf8

/-! A string is read back from its text, also where all that is not ASCII is written as UTF-16 units.
-/
namespace PaymentTrust.Json

def paddedDigits (width n : Nat) : List Char :=
  List.replicate (width - (Nat.toDigits 16 n).length) '0' ++ Nat.toDigits 16 n

theorem paddedDigits_one {n : Nat} (h : n < 16) : paddedDigits 1 n = [Nat.digitChar n] := by
  unfold paddedDigits
  rw [Nat.toDigits_of_lt_base h]
  rfl

theorem paddedDigits_succ (width n : Nat) :
    paddedDigits (width + 2) n = paddedDigits (width + 1) (n / 16) ++ [Nat.digitChar (n % 16)] := by
  unfold paddedDigits
  by_cases h : n < 16
  · have hdiv : n / 16 = 0 := by omega
    rw [Nat.toDigits_of_lt_base h, hdiv, Nat.toDigits_zero, Nat.mod_eq_of_lt h]
    exact congrArg (· ++ [n.digitChar]) (List.replicate_succ' (n := width))
  · have hwidth (length : Nat) : width + 2 - (length + 1) = width + 1 - length := by omega
    rw [Nat.toDigits_of_base_le (by decide) (Nat.not_lt.mp h), List.length_append,
      List.length_singleton, hwidth, List.append_assoc]

theorem unitEscape_eq {n : Nat} (h : n < 0x10000) :
    unitEscape n = ['\\', 'u', Nat.digitChar (n / 4096), Nat.digitChar (n / 256 % 16),
      Nat.digitChar (n / 16 % 16), Nat.digitChar (n % 16)] := by
  have hdigits : unitEscape n = '\\' :: 'u' :: paddedDigits 4 n := rfl
  have h256 : n / 16 / 16 = n / 256 := Nat.div_div_eq_div_mul n 16 16
  have h4096 : n / 256 / 16 = n / 4096 := Nat.div_div_eq_div_mul n 256 16
  rw [hdigits, paddedDigits_succ, paddedDigits_succ, paddedDigits_succ, h256, h4096,
    paddedDigits_one (by omega)]
  rfl

namespace Token

theorem exists_hexDigit {n : Nat} (h : n < 16) :
    ∃ b, String.utf8EncodeChar (Nat.digitChar n) = [b] ∧ Hex.digit? b = some n := by
  interval_cases n <;> exact ⟨_, rfl, rfl⟩

def prepend (pieces : List Piece) (result : Option (List Piece × Bytes)) :
    Option (List Piece × Bytes) :=
  result.map fun (more, rest) => (pieces ++ more, rest)

theorem prepend_prepend (first second : List Piece) (result : Option (List Piece × Bytes)) :
    prepend first (prepend second result) = prepend (first ++ second) result := by
  cases result with
  | none => rfl
  | some result => simp [prepend]

theorem scanString_unit {n : Nat} (h : n < 0x10000) (rest : Bytes) :
    scanString (Utf8.encode (unitEscape n) ++ rest) = prepend [.unit n] (scanString rest) := by
  obtain ⟨a, hencodeA, ha⟩ := exists_hexDigit (n := n / 4096) (by omega)
  obtain ⟨b, hencodeB, hb⟩ := exists_hexDigit (n := n / 256 % 16) (by omega)
  obtain ⟨c, hencodeC, hc⟩ := exists_hexDigit (n := n / 16 % 16) (by omega)
  obtain ⟨d, hencodeD, hd⟩ := exists_hexDigit (n := n % 16) (by omega)
  have hunit : unit? a b c d = some n := by
    simp only [unit?, ha, hb, hc, hd, bind, Option.bind, pure]
    congr 1
    omega
  have hbytes : Utf8.encode (unitEscape n) ++ rest = 0x5c :: 0x75 :: a :: b :: c :: d :: rest := by
    simp only [unitEscape_eq h, Utf8.encode, List.flatMap_cons, hencodeA, hencodeB, hencodeC,
      hencodeD]
    rfl
  rw [hbytes, scanString, hunit]
  rfl

theorem scanString_byte {b : UInt8} (printable : ¬b < 0x20) (quote : b ≠ 0x22)
    (backslash : b ≠ 0x5c) (rest : Bytes) :
    scanString (b :: rest) = prepend [.byte b] (scanString rest) := by
  rw [scanString, if_neg (not_or.mpr ⟨printable, backslash⟩)]
  · rfl
  · exact quote
  · intro _ _ _ _ _ h
    exact absurd h backslash
  · intro _ _ h
    exact absurd h backslash

theorem scanString_escaped {letter b : UInt8} (h : escaped? letter = some b) (unit : letter ≠ 0x75)
    (rest : Bytes) : scanString (0x5c :: letter :: rest) = prepend [.byte b] (scanString rest) := by
  rw [scanString, h]
  · rfl
  · intro _ _ _ _ _ h
    exact absurd h unit

theorem join?_unit {n : Nat} (high : isHigh n = false) (low : isLow n = false)
    (more : List Piece) :
    join? (.unit n :: more) = (join? more).map (String.utf8EncodeChar (Char.ofNat n) ++ ·) := by
  cases more with
  | nil => simp [join?, high, low]
  | cons piece more => cases piece <;> simp [join?, high, low]

theorem join?_pair {high low : Nat} (hhigh : isHigh high = true) (hlow : isLow low = true)
    (more : List Piece) :
    join? (.unit high :: .unit low :: more) = (join? more).map
      (String.utf8EncodeChar (Char.ofNat (0x10000 + (high - 0xd800) * 0x400 + (low - 0xdc00)))
        ++ ·) := by
  simp [join?, hhigh, hlow]

def StandsFor (text : List Char) (c : Char) : Prop :=
  ∃ pieces, (∀ rest, scanString (Utf8.encode text ++ rest) = prepend pieces (scanString rest)) ∧
    ∀ more, join? (pieces ++ more) = (join? more).map (String.utf8EncodeChar c ++ ·)

theorem standsFor_escaped {letter c : Char} {b : UInt8}
    (hletter : String.utf8EncodeChar letter = [letter.toUInt8]) (hc : String.utf8EncodeChar c = [b])
    (h : escaped? letter.toUInt8 = some b) (unit : letter.toUInt8 ≠ 0x75) :
    StandsFor ['\\', letter] c := by
  refine ⟨[.byte b], ?_, ?_⟩
  · intro rest
    have hbytes : Utf8.encode ['\\', letter] ++ rest = 0x5c :: letter.toUInt8 :: rest := by
      simp only [Utf8.encode, List.flatMap_cons, hletter]
      rfl
    rw [hbytes, scanString_escaped h unit]
  · intro more
    rw [hc]
    rfl

theorem isHigh_or_isLow_eq_false (c : Char) :
    isHigh c.toNat = false ∧ isLow c.toNat = false := by
  have hvalid : c.toNat < 0xd800 ∨ 0xdfff < c.toNat ∧ c.toNat < 0x110000 := c.valid
  simp only [isHigh, isLow, Bool.and_eq_false_iff, decide_eq_false_iff_not]
  omega

theorem standsFor_unitEscape {c : Char} (h : c.toNat < 0x10000) :
    StandsFor (unitEscape c.toNat) c := by
  refine ⟨[.unit c.toNat], scanString_unit h, ?_⟩
  intro more
  obtain ⟨high, low⟩ := isHigh_or_isLow_eq_false c
  rw [List.singleton_append, join?_unit high low, Char.ofNat_toNat]

theorem standsFor_pair {c : Char} (h : 0x10000 ≤ c.toNat) :
    StandsFor (unitEscape (0xd800 + (c.toNat - 0x10000) / 0x400) ++
      unitEscape (0xdc00 + (c.toNat - 0x10000) % 0x400)) c := by
  have hvalid : c.toNat < 0xd800 ∨ 0xdfff < c.toNat ∧ c.toNat < 0x110000 := c.valid
  refine ⟨[.unit (0xd800 + (c.toNat - 0x10000) / 0x400),
    .unit (0xdc00 + (c.toNat - 0x10000) % 0x400)], ?_, ?_⟩
  · intro rest
    rw [Utf8.encode_append, List.append_assoc, scanString_unit (by omega),
      scanString_unit (by omega), prepend_prepend]
    rfl
  · intro more
    have hc : 0x10000 + (0xd800 + (c.toNat - 0x10000) / 0x400 - 0xd800) * 0x400 +
        (0xdc00 + (c.toNat - 0x10000) % 0x400 - 0xdc00) = c.toNat := by
      omega
    rw [List.cons_append, List.singleton_append, join?_pair, hc, Char.ofNat_toNat]
    · simp only [isHigh, Bool.and_eq_true, decide_eq_true_eq]
      omega
    · simp only [isLow, Bool.and_eq_true, decide_eq_true_eq]
      omega

theorem scanString_bytes {bytes : Bytes}
    (plain : ∀ b ∈ bytes, ¬b < 0x20 ∧ b ≠ 0x22 ∧ b ≠ 0x5c) (rest : Bytes) :
    scanString (bytes ++ rest) = prepend (bytes.map .byte) (scanString rest) := by
  induction bytes with
  | nil => cases h : scanString rest <;> simp [prepend, h]
  | cons b bytes ih =>
    obtain ⟨⟨printable, quote, backslash⟩, hrest⟩ := List.forall_mem_cons.mp plain
    rw [List.cons_append, scanString_byte printable quote backslash, ih hrest, prepend_prepend]
    rfl

theorem join?_bytes (bytes : Bytes) (more : List Piece) :
    join? (bytes.map .byte ++ more) = (join? more).map (bytes ++ ·) := by
  induction bytes with
  | nil => cases h : join? more <;> simp [h]
  | cons b bytes ih =>
    rw [List.map_cons, List.cons_append, join?, ih, Option.map_map]
    rfl

theorem plain_of_mem_utf8EncodeChar {c : Char} (printable : 0x20 ≤ c.toNat) (quote : c ≠ '"')
    (backslash : c ≠ '\\') :
    ∀ b ∈ String.utf8EncodeChar c, ¬b < 0x20 ∧ b ≠ 0x22 ∧ b ≠ 0x5c := by
  intro b mem
  rw [UInt8.lt_iff_toNat_lt, ne_eq, ne_eq, ← UInt8.toNat_inj, ← UInt8.toNat_inj]
  by_cases ascii : c.toNat < 0x80
  · have hbyte : (UInt8.ofNat c.toNat).toNat = c.toNat :=
      UInt8.toNat_ofNat_of_lt (by simp only [UInt8.size]; omega)
    rw [Utf8.utf8EncodeChar_of_ascii ascii, List.mem_singleton] at mem
    rw [mem, hbyte]
    exact ⟨Nat.not_lt.mpr printable, mt (fun h => Char.toNat_inj.mp h) quote,
      mt (fun h => Char.toNat_inj.mp h) backslash⟩
  · have hhigh := Utf8.le_toNat_of_mem_utf8EncodeChar (Nat.not_lt.mp ascii) b mem
    simp only [UInt8.reduceToNat]
    omega

theorem standsFor_self {c : Char} (printable : 0x20 ≤ c.toNat) (quote : c ≠ '"')
    (backslash : c ≠ '\\') : StandsFor [c] c := by
  refine ⟨(String.utf8EncodeChar c).map .byte, ?_, join?_bytes (String.utf8EncodeChar c)⟩
  intro rest
  rw [Utf8.encode, List.flatMap_singleton,
    scanString_bytes (plain_of_mem_utf8EncodeChar printable quote backslash)]

/-- Characters that need no escape are written as texts that stand for them. -/
def Faithful (plain : Char → List Char) : Prop :=
  ∀ c : Char, 0x20 ≤ c.toNat → c ≠ '"' → c ≠ '\\' → StandsFor (plain c) c

theorem faithful_asciiOnly : Faithful asciiOnly := by
  intro c printable quote backslash
  unfold asciiOnly
  dsimp only
  split_ifs with ascii unit
  · exact standsFor_self printable quote backslash
  · exact standsFor_unitEscape unit
  · exact standsFor_pair (not_lt.mp unit)

theorem faithful_self : Faithful fun c => [c] :=
  fun _ printable quote backslash => standsFor_self printable quote backslash

variable {plain : Char → List Char} (faithful : Faithful plain)

include faithful

theorem standsFor_escape (c : Char) : StandsFor (escape plain c) c := by
  unfold escape
  split_ifs with quote backslash b f n r t control
  · rw [quote]
    exact standsFor_escaped rfl rfl rfl (by decide)
  · rw [backslash]
    exact standsFor_escaped rfl rfl rfl (by decide)
  · rw [b]
    exact standsFor_escaped rfl rfl rfl (by decide)
  · rw [f]
    exact standsFor_escaped rfl rfl rfl (by decide)
  · rw [n]
    exact standsFor_escaped rfl rfl rfl (by decide)
  · rw [r]
    exact standsFor_escaped rfl rfl rfl (by decide)
  · rw [t]
    exact standsFor_escaped rfl rfl rfl (by decide)
  · exact standsFor_unitEscape (by omega)
  · exact faithful c (not_lt.mp control) quote backslash

theorem scanString_flatMap_escape (text : List Char) (rest : Bytes) :
    ∃ pieces, scanString (Utf8.encode (text.flatMap (escape plain)) ++ 0x22 :: rest) =
        some (pieces, rest) ∧ join? pieces = some (Utf8.encode text) := by
  induction text with
  | nil =>
    refine ⟨[], ?_, rfl⟩
    simp [Utf8.encode, scanString]
  | cons c text ih =>
    obtain ⟨more, hscan, hjoin⟩ := ih
    obtain ⟨pieces, hscan', hjoin'⟩ := standsFor_escape faithful c
    refine ⟨pieces ++ more, ?_, ?_⟩
    · rw [List.flatMap_cons, Utf8.encode_append, List.append_assoc, hscan', hscan]
      rfl
    · rw [hjoin', hjoin]
      rfl

theorem first_writeString (s : String) (rest : Bytes) :
    first (Utf8.encode (writeString plain s) ++ rest) = (.string (some s), rest) := by
  obtain ⟨pieces, hscan, hjoin⟩ := scanString_flatMap_escape faithful s.toList rest
  have hbytes : Utf8.encode (writeString plain s) ++ rest =
      0x22 :: (Utf8.encode (s.toList.flatMap (escape plain)) ++ 0x22 :: rest) := by
    simp only [writeString, Utf8.encode_append, List.append_assoc]
    rfl
  have htext : text? pieces = some s := by
    simp only [text?, hjoin, Option.bind_some, Utf8.decode?_encode, Option.map_some,
      String.ofList_toList]
  rw [hbytes]
  simp only [first, hscan, htext]

end Token

end PaymentTrust.Json
