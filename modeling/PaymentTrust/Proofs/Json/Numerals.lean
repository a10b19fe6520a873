import PaymentTrust.Json.Token
import PaymentTrust.Proofs.Text.Utf8

/-! An integer of 64 bits, signed or unsigned, is read back from its decimal text. -/
namespace PaymentTrust.Json.Numeral

def digitsOf (n : Nat) : List Nat := (Nat.toDigits 10 n).map fun c => c.toNat - '0'.toNat

/-- The text does not go on with what could be a part of a numeral. -/
def EndsBefore (rest : Bytes) : Prop :=
  ∀ b ∈ rest.head?, isDigit b = false ∧ b ≠ 0x2e ∧ b ≠ 0x65 ∧ b ≠ 0x45

theorem endsBefore_cons {b : UInt8} (h : isDigit b = false ∧ b ≠ 0x2e ∧ b ≠ 0x65 ∧ b ≠ 0x45)
    (rest : Bytes) : EndsBefore (b :: rest) := by
  rintro _ ⟨⟩
  exact h

theorem toNat_of_isDigit {c : Char} (h : c.isDigit = true) :
    (UInt8.ofNat c.toNat).toNat = c.toNat ∧ 48 ≤ c.toNat ∧ c.toNat ≤ 57 := by
  obtain ⟨low, high⟩ := Char.isDigit_iff_toNat.mp h
  refine ⟨UInt8.toNat_ofNat_of_lt ?_, low, high⟩
  exact Nat.lt_of_le_of_lt high (by decide)

theorem encode_digits {text : List Char} (h : ∀ c ∈ text, c.isDigit = true) :
    Utf8.encode text = text.map fun c => UInt8.ofNat c.toNat := by
  induction text with
  | nil => rfl
  | cons c text ih =>
    obtain ⟨_, _, high⟩ := toNat_of_isDigit (h c List.mem_cons_self)
    have hc : String.utf8EncodeChar c = [UInt8.ofNat c.toNat] := by
      unfold String.utf8EncodeChar
      exact if_pos (Nat.le_trans high (by decide))
    have htail := ih fun d mem => h d (List.mem_cons_of_mem c mem)
    rw [Utf8.encode_cons, hc, htail]
    rfl

theorem isDigit_toDigits {n : Nat} {c : Char} (mem : c ∈ Nat.toDigits 10 n) : c.isDigit = true :=
  Nat.isDigit_of_mem_toDigits (by decide) (by decide) mem

theorem isDigit_encode_toDigits {n : Nat} {b : UInt8}
    (mem : b ∈ Utf8.encode (Nat.toDigits 10 n)) : isDigit b = true := by
  rw [encode_digits fun c => isDigit_toDigits] at mem
  obtain ⟨c, hc, rfl⟩ := List.mem_map.mp mem
  obtain ⟨hbyte, low, high⟩ := toNat_of_isDigit (isDigit_toDigits hc)
  simp only [isDigit, Bool.and_eq_true, decide_eq_true_eq, UInt8.le_iff_toNat_le, hbyte]
  exact ⟨low, high⟩

theorem exists_cons_encode_toDigits (n : Nat) :
    ∃ b rest, Utf8.encode (Nat.toDigits 10 n) = b :: rest ∧ isDigit b = true := by
  cases hbytes : Utf8.encode (Nat.toDigits 10 n) with
  | nil =>
    rw [encode_digits fun c => isDigit_toDigits] at hbytes
    exact absurd (List.map_eq_nil_iff.mp hbytes) Nat.toDigits_ne_nil
  | cons b rest =>
    exact ⟨b, rest, rfl, isDigit_encode_toDigits (hbytes ▸ List.mem_cons_self)⟩

theorem digitsOf_eq (n : Nat) :
    (Utf8.encode (Nat.toDigits 10 n)).map (fun b => b.toNat - 0x30) = digitsOf n := by
  rw [encode_digits fun c => isDigit_toDigits, List.map_map]
  apply List.map_congr_left
  intro c mem
  exact congrArg (· - 48) (toNat_of_isDigit (isDigit_toDigits mem)).1

theorem head_digitsOf_pos {n : Nat} (h : 0 < n) : ∃ d rest, digitsOf n = d :: rest ∧ 0 < d := by
  induction n using Nat.strongRecOn with
  | ind n ih =>
    by_cases small : n < 10
    · refine ⟨n, [], ?_, h⟩
      rw [digitsOf, Nat.toDigits_of_lt_base small]
      exact congrArg (fun d => [d]) (Nat.toNat_digitChar_sub_48_of_lt_ten small)
    · obtain ⟨d, rest, hdigits, hpos⟩ := ih (n / 10) (by omega) (by omega)
      refine ⟨d, rest ++ [(n % 10).digitChar.toNat - '0'.toNat], ?_, hpos⟩
      rw [digitsOf, Nat.toDigits_of_base_le (by decide) (Nat.not_lt.mp small), List.map_append,
        ← digitsOf, hdigits]
      rfl

theorem foldl_digitsOf (n : Nat) : (digitsOf n).foldl (fun n d => n * 10 + d) 0 = n := by
  have hread : Nat.ofDigitChars 10 (Nat.toDigits 10 n) 0 = n := Nat.ofDigitChars_ten_toDigits
  rw [Nat.ofDigitChars] at hread
  rw [digitsOf, List.foldl_map]
  simpa only [Nat.mul_comm] using hread

theorem le_foldl (s : Nat) (digits : List Nat) :
    s ≤ digits.foldl (fun n d => n * 10 + d) s := by
  induction digits generalizing s with
  | nil => exact Nat.le_refl s
  | cons d digits ih => exact Nat.le_trans (by omega) (ih (s * 10 + d))

theorem absorb_eq {s : Nat} {digits : List Nat}
    (fits : digits.foldl (fun n d => n * 10 + d) s < UInt64.size) :
    absorb s digits = (digits.foldl (fun n d => n * 10 + d) s, digits.length) := by
  induction digits generalizing s with
  | nil => rfl
  | cons d digits ih =>
    have hnext : s * 10 + d < UInt64.size :=
      Nat.lt_of_le_of_lt (le_foldl (s * 10 + d) digits) fits
    rw [absorb, if_pos hnext, ih fits]
    rfl

theorem scanWhole_eq (text : Bytes) : scanWhole text =
    match (text.takeWhile isDigit).map fun b => b.toNat - 0x30 with
    | [] => none
    | 0 :: _ :: _ => none
    | digits => some (digits, text.dropWhile isDigit) :=
  rfl

theorem scanWhole_toDigits (n : Nat) {rest : Bytes} (ends : EndsBefore rest) :
    scanWhole (Utf8.encode (Nat.toDigits 10 n) ++ rest) = some (digitsOf n, rest) := by
  have hnone : rest.takeWhile isDigit = [] ∧ rest.dropWhile isDigit = rest := by
    cases rest with
    | nil => exact ⟨rfl, rfl⟩
    | cons b rest =>
      have hb := (ends b rfl).1
      rw [List.takeWhile_cons_of_neg (Bool.eq_false_iff.mp hb),
        List.dropWhile_cons_of_neg (Bool.eq_false_iff.mp hb)]
      exact ⟨rfl, rfl⟩
  have htake : (Utf8.encode (Nat.toDigits 10 n) ++ rest).takeWhile isDigit =
      Utf8.encode (Nat.toDigits 10 n) := by
    rw [List.takeWhile_append_of_pos fun b => isDigit_encode_toDigits, hnone.1, List.append_nil]
  have hdrop : (Utf8.encode (Nat.toDigits 10 n) ++ rest).dropWhile isDigit = rest := by
    rw [List.dropWhile_append_of_pos fun b => isDigit_encode_toDigits, hnone.2]
  rw [scanWhole_eq, htake, hdrop, digitsOf_eq]
  cases Nat.eq_zero_or_pos n with
  | inl zero =>
    rw [zero]
    rfl
  | inr pos =>
    obtain ⟨d, digits, hdigits, hpos⟩ := head_digitsOf_pos pos
    obtain ⟨d, rfl⟩ := Nat.exists_eq_succ_of_ne_zero (Nat.ne_of_gt hpos)
    rw [hdigits]
    cases digits <;> rfl

theorem scanMinus_digit {b : UInt8} (h : isDigit b = true) (rest : Bytes) :
    scanMinus (b :: rest) = (false, b :: rest) := by
  rw [scanMinus]
  rintro _ ⟨⟩
  cases h

theorem encode_writeInt (n : Int) :
    Utf8.encode (writeInt n) =
      (if n < 0 then [0x2d] else []) ++ Utf8.encode (Nat.toDigits 10 n.natAbs) := by
  unfold writeInt
  split <;> rfl

theorem scan?_writeInt (n : Int) {rest : Bytes} (ends : EndsBefore rest) :
    scan? (Utf8.encode (writeInt n) ++ rest) =
      some (⟨n < 0, digitsOf n.natAbs, none, none⟩, rest) := by
  have hminus : scanMinus (Utf8.encode (writeInt n) ++ rest) =
      (decide (n < 0), Utf8.encode (Nat.toDigits 10 n.natAbs) ++ rest) := by
    rw [encode_writeInt]
    by_cases negative : n < 0
    · rw [if_pos negative, decide_eq_true negative]
      rfl
    · obtain ⟨b, tail, hbytes, digit⟩ := exists_cons_encode_toDigits n.natAbs
      rw [if_neg negative, decide_eq_false negative, hbytes]
      exact scanMinus_digit digit (tail ++ rest)
  have hfraction : scanFraction rest = some (none, rest) := by
    cases rest with
    | nil => rfl
    | cons b rest =>
      rw [scanFraction]
      rintro _ ⟨⟩
      exact (ends 0x2e rfl).2.1 rfl
  have hexponent : scanExponent rest = some (none, rest) := by
    cases rest with
    | nil => rfl
    | cons b rest =>
      obtain ⟨_, _, lower, upper⟩ := ends b rfl
      rw [scanExponent, if_neg (not_or.mpr ⟨lower, upper⟩)]
  simp only [scan?, hminus, scanWhole_toDigits n.natAbs ends, hfraction, hexponent,
    Option.bind_eq_bind, Option.bind_some]

theorem value?_digitsOf {n : Int} (low : -0x8000000000000000 ≤ n) (high : n < 0x10000000000000000) :
    value? ⟨n < 0, digitsOf n.natAbs, none, none⟩ = some (.integer n) := by
  have fits : (digitsOf n.natAbs).foldl (fun n d => n * 10 + d) 0 < UInt64.size := by
    rw [foldl_digitsOf]
    simp only [UInt64.size]
    omega
  simp only [value?, absorb_eq fits, foldl_digitsOf, Nat.sub_self, if_true, decide_eq_true_eq]
  by_cases negative : n < 0
  · rw [if_pos negative, if_pos (by omega)]
    congr 2
    omega
  · rw [if_neg negative]
    congr 2
    omega

end PaymentTrust.Json.Numeral

namespace PaymentTrust.Json.Token

theorem first_numeral {b : UInt8} {tail rest : Bytes} {n : Numeral}
    (h : Numeral.isDigit b = true ∨ b = 0x2d)
    (hscan : Numeral.scan? (b :: tail) = some (n, rest)) :
    first (b :: tail) = (.number n.value?, rest) := by
  unfold first
  split
  case h_11 => rw [hscan]
  all_goals
    rename_i heq
    obtain ⟨rfl, _⟩ := List.cons.inj heq
    exact absurd h (by decide)

theorem all_cons {b : UInt8} {tail rest : Bytes} {t : Token} (h : isBlank b = false)
    (hfirst : first (b :: tail) = (t, rest)) : all (b :: tail) = t :: all rest := by
  have hdrop : (b :: tail).dropWhile isBlank = b :: tail :=
    List.dropWhile_cons_of_neg (Bool.eq_false_iff.mp h)
  rw [all]
  split
  · simp_all
  · simp_all

theorem all_writeInt {n : Int} (low : -0x8000000000000000 ≤ n) (high : n < 0x10000000000000000)
    {rest : Bytes} (ends : Numeral.EndsBefore rest) :
    all (Utf8.encode (Numeral.writeInt n) ++ rest) = .number (some (.integer n)) :: all rest := by
  have hscan := Numeral.scan?_writeInt n ends
  obtain ⟨b, tail, hbytes, hb⟩ : ∃ b tail, Utf8.encode (Numeral.writeInt n) = b :: tail ∧
      (Numeral.isDigit b = true ∨ b = 0x2d) := by
    rw [Numeral.encode_writeInt]
    by_cases negative : n < 0
    · rw [if_pos negative]
      exact ⟨0x2d, _, rfl, .inr rfl⟩
    · obtain ⟨b, tail, hbytes, digit⟩ := Numeral.exists_cons_encode_toDigits n.natAbs
      rw [if_neg negative]
      exact ⟨b, tail, hbytes, .inl digit⟩
  have hblank : isBlank b = false := by
    cases blank : isBlank b with
    | false => rfl
    | true =>
      simp only [isBlank, Bool.or_eq_true, decide_eq_true_eq] at blank
      rcases blank with ((rfl | rfl) | rfl) | rfl <;> exact absurd hb (by decide)
  rw [hbytes, List.cons_append] at hscan ⊢
  rw [all_cons hblank (first_numeral hb hscan), Numeral.value?_digitsOf low high]

end PaymentTrust.Json.Token
