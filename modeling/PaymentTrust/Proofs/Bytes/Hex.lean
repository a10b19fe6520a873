import PaymentTrust.Bytes.Hex
import PaymentTrust.Proofs.Text.Utf8
import PaymentTrust.Text.Blank

/-! Hexadecimal text is read exactly if it is what the bytes are written as, in whatever letter case
and behind at most one mark. -/
namespace PaymentTrust.Hex

def nibbles (bytes : Bytes) : List Nat :=
  bytes.flatMap fun b => [b.toNat / 16, b.toNat % 16]

@[simp] theorem nibbles_nil : nibbles [] = [] := rfl

theorem nibbles_cons (b : UInt8) (bytes : Bytes) :
    nibbles (b :: bytes) = b.toNat / 16 :: b.toNat % 16 :: nibbles bytes := rfl

theorem lt_of_mem_nibbles {bytes : Bytes} : ∀ n ∈ nibbles bytes, n < 16 := by
  intro n mem
  obtain ⟨b, -, mem⟩ := List.mem_flatMap.mp mem
  have hb : b.toNat < 256 := b.toNat_lt
  simp only [List.mem_cons, List.not_mem_nil, or_false] at mem
  omega

theorem toList_encode (bytes : Bytes) :
    (encode bytes).toList = (nibbles bytes).map Nat.digitChar := by
  simp [encode, nibbles, List.map_flatMap]

theorem lt_of_digit?_eq_some {b : UInt8} {n : Nat} (h : digit? b = some n) : n < 16 := by
  unfold digit? at h
  simp only [UInt8.le_iff_toNat_le, UInt8.reduceToNat] at h
  split_ifs at h <;> cases h <;> omega

theorem ofNat_eq_iff {high low : Nat} (hhigh : high < 16) (hlow : low < 16) (b : UInt8) :
    UInt8.ofNat (high * 16 + low) = b ↔ high = b.toNat / 16 ∧ low = b.toNat % 16 := by
  have hvalue : (UInt8.ofNat (high * 16 + low)).toNat = high * 16 + low :=
    UInt8.toNat_ofNat_of_lt (by simp only [UInt8.size]; omega)
  rw [← UInt8.toNat_inj, hvalue]
  omega

theorem decodePairs_eq_ok_iff {position : Nat} {digits bytes : Bytes} :
    decodePairs position digits = .ok bytes ↔ digits.map digit? = (nibbles bytes).map some := by
  fun_induction decodePairs position digits generalizing bytes with
  | case1 => cases bytes <;> simp [nibbles_cons]
  | case2 => cases bytes <;> simp [nibbles_cons]
  | case3 _ high low rest noDigit => cases bytes <;> simp [nibbles_cons, noDigit]
  | case4 _ high low rest noDigit => cases bytes <;> simp [nibbles_cons, noDigit]
  | case5 position high low rest h l hlow hhigh ih =>
    have hmap : (decodePairs (position + 2) rest).map (UInt8.ofNat (h * 16 + l) :: ·) = .ok bytes ↔
        ∃ more, decodePairs (position + 2) rest = .ok more ∧
          UInt8.ofNat (h * 16 + l) :: more = bytes := by
      cases decodePairs (position + 2) rest <;> simp [Except.map]
    rw [hmap, List.map_cons, List.map_cons, hhigh, hlow]
    cases bytes with
    | nil => simp
    | cons b bytes =>
      have hb := ofNat_eq_iff (lt_of_digit?_eq_some hhigh) (lt_of_digit?_eq_some hlow) b
      simp only [ih, List.cons.injEq, hb, nibbles_cons, List.map_cons, Option.some.injEq]
      constructor
      · rintro ⟨more, same, ⟨first, second⟩, rfl⟩
        exact ⟨first, second, same⟩
      · rintro ⟨first, second, same⟩
        exact ⟨bytes, same, ⟨first, second⟩, rfl⟩

theorem length_nibbles (bytes : Bytes) : (nibbles bytes).length = 2 * bytes.length := by
  induction bytes with
  | nil => rfl
  | cons b bytes ih =>
    rw [nibbles_cons, List.length_cons, List.length_cons, ih, List.length_cons]
    omega

/-- Looking at the number of digits first changes only the error. -/
theorem decode_eq_ok_iff_unmarked {text bytes : Bytes} :
    decode text = .ok bytes ↔ (unmarked text).map digit? = (nibbles bytes).map some := by
  unfold decode
  dsimp only
  split_ifs with odd
  · have apart : (unmarked text).map digit? ≠ (nibbles bytes).map some := by
      intro same
      have hlength := congrArg List.length same
      rw [List.length_map, List.length_map, length_nibbles] at hlength
      omega
    simp [apart]
  · exact decodePairs_eq_ok_iff

theorem digit?_eq_none {b : UInt8} (beyond : 0x80 ≤ b.toNat) : digit? b = none := by
  unfold digit?
  simp only [UInt8.le_iff_toNat_le, UInt8.reduceToNat]
  split_ifs <;> first | omega | rfl

theorem digit?_ofNat_eq_some_iff : ∀ k < 128, ∀ n < 16,
    digit? (UInt8.ofNat k) = some n ↔ (Char.ofNat k).toLower = Nat.digitChar n := by
  decide +kernel

theorem toNat_digitChar_lt : ∀ n < 16, (Nat.digitChar n).toNat < 0x80 := by
  decide

theorem toLower_ne_digitChar {c : Char} (beyond : 0x80 ≤ c.toNat) {n : Nat} (small : n < 16) :
    c.toLower ≠ Nat.digitChar n := by
  have unchanged : c.toLower = c := by
    refine dif_neg fun upper => ?_
    have hupper : c.toNat ≤ 'Z'.toNat := upper.2
    exact absurd (beyond.trans hupper) (by decide)
  rw [unchanged]
  rintro rfl
  exact absurd (toNat_digitChar_lt n small) (Nat.not_lt.mpr beyond)

theorem map_digit?_encode_eq_iff {text : List Char} {values : List Nat}
    (small : ∀ n ∈ values, n < 16) :
    (Utf8.encode text).map digit? = values.map some ↔
      Text.lowerAscii text = values.map Nat.digitChar := by
  induction text generalizing values with
  | nil => cases values <;> simp [Utf8.encode, Text.lowerAscii]
  | cons c text ih =>
    rw [Utf8.encode_cons, Text.lowerAscii, List.map_cons]
    cases values with
    | nil => simp
    | cons n values =>
      obtain ⟨hn, hvalues⟩ := List.forall_mem_cons.mp small
      rcases Nat.lt_or_ge c.toNat 0x80 with ascii | beyond
      · have hdigit := digit?_ofNat_eq_some_iff c.toNat ascii n hn
        rw [Char.ofNat_toNat] at hdigit
        have rest := ih hvalues
        unfold Text.lowerAscii at rest
        rw [Utf8.utf8EncodeChar_of_ascii ascii]
        simp [hdigit, rest]
      -- Beyond ASCII already the first byte of the character is no digit.
      · obtain ⟨b, more, spelled, high⟩ := Utf8.exists_utf8EncodeChar_eq_cons beyond
        simp [spelled, digit?_eq_none high, toLower_ne_digitChar beyond hn]

/-- The text, after one mark or none, is what the bytes are written as, in any letter case. -/
def Spells (text : List Char) (bytes : Bytes) : Prop :=
  ∃ digits, (text = digits ∨ text = '0' :: 'x' :: digits ∨ text = '0' :: 'X' :: digits) ∧
    Text.lowerAscii digits = (encode bytes).toList

theorem exists_unmarked (text : List Char) :
    ∃ digits, unmarked (Utf8.encode text) = Utf8.encode digits ∧
      (text = digits ∨ text = '0' :: 'x' :: digits ∨ text = '0' :: 'X' :: digits) := by
  generalize hbytes : Utf8.encode text = bytes
  fun_cases unmarked bytes with
  | case1 rest =>
    obtain ⟨marked, rfl, hmarked⟩ := Utf8.exists_of_encode_eq_cons (by decide) hbytes
    obtain ⟨digits, rfl, hdigits⟩ := Utf8.exists_of_encode_eq_cons (by decide) hmarked
    exact ⟨digits, hdigits.symm, .inr (.inl rfl)⟩
  | case2 rest =>
    obtain ⟨marked, rfl, hmarked⟩ := Utf8.exists_of_encode_eq_cons (by decide) hbytes
    obtain ⟨digits, rfl, hdigits⟩ := Utf8.exists_of_encode_eq_cons (by decide) hmarked
    exact ⟨digits, hdigits.symm, .inr (.inr rfl)⟩
  | case3 => exact ⟨text, hbytes.symm, .inl rfl⟩

theorem unmarked_of_digits {digits : Bytes} {values : List Nat}
    (h : digits.map digit? = values.map some) : unmarked digits = digits := by
  have apart : none ∉ digits.map digit? := by
    rw [h]
    simp
  fun_cases unmarked digits with
  | case1 rest => exact absurd (List.mem_cons_of_mem _ List.mem_cons_self) apart
  | case2 rest => exact absurd (List.mem_cons_of_mem _ List.mem_cons_self) apart
  | case3 => rfl

theorem decode_encode_eq_ok_iff {text : List Char} {bytes : Bytes} :
    decode (Utf8.encode text) = .ok bytes ↔ Spells text bytes := by
  have hdigits (digits : List Char) : (Utf8.encode digits).map digit? = (nibbles bytes).map some ↔
      Text.lowerAscii digits = (encode bytes).toList := by
    rw [map_digit?_encode_eq_iff lt_of_mem_nibbles, toList_encode]
  rw [decode_eq_ok_iff_unmarked]
  constructor
  · intro read
    obtain ⟨digits, hunmarked, form⟩ := exists_unmarked text
    rw [hunmarked, hdigits] at read
    exact ⟨digits, form, read⟩
  · rintro ⟨digits, form, spelled⟩
    have read := (hdigits digits).mpr spelled
    rcases form with rfl | rfl | rfl
    · rwa [unmarked_of_digits read]
    · exact read
    · exact read

end PaymentTrust.Hex
