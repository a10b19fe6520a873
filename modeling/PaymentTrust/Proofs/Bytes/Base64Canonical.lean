import PaymentTrust.Proofs.Bytes.Base64Reading
import PaymentTrust.Proofs.Bytes.Basic
import PaymentTrust.Text.Utf8

/-! A byte string has one base64 text in each variant, which is its numeral in base 64, and nothing
else is read as these bytes. So it cannot matter which variant is tried first. -/
namespace PaymentTrust

namespace Base64

def digits : (width : Nat) → (n : Nat) → List Nat
  | 0, _ => []
  | width + 1, n => digits width (n / 64) ++ [n % 64]

def width (bytes : Bytes) : Nat := (8 * bytes.length + 5) / 6

/-- The number that the bytes are, in base 64. The last digit ends with zero bits where the bytes
leave room in it. -/
def sextets (bytes : Bytes) : List Nat :=
  digits (width bytes) (Bytes.toNat bytes * 2 ^ (6 * width bytes - 8 * bytes.length))

/-- The symbols of RFC 4648, each at the place of the number that it stands for. -/
def standardAlphabet : Bytes :=
  Utf8.encode "ABCDEFGHIJKLMNOPQRSTUVWXYZabcdefghijklmnopqrstuvwxyz0123456789+/".toList

def urlSafeAlphabet : Bytes :=
  Utf8.encode "ABCDEFGHIJKLMNOPQRSTUVWXYZabcdefghijklmnopqrstuvwxyz0123456789-_".toList

def numeral (alphabet bytes : Bytes) : Bytes :=
  (sextets bytes).map (alphabet.getD · 0)

def standardText (bytes : Bytes) : Bytes :=
  let symbols := numeral standardAlphabet bytes
  symbols ++ List.replicate ((4 - symbols.length % 4) % 4) pad

def urlSafeText (bytes : Bytes) : Bytes := numeral urlSafeAlphabet bytes

@[simp] theorem length_digits (width n : Nat) : (digits width n).length = width := by
  induction width generalizing n with
  | zero => rfl
  | succ width ih => simp [digits, ih]

theorem lt_of_mem_digits {width n : Nat} : ∀ d ∈ digits width n, d < 64 := by
  induction width generalizing n with
  | zero => nofun
  | succ width ih =>
    rw [digits, List.forall_mem_append, List.forall_mem_singleton]
    exact ⟨ih, Nat.mod_lt n (by decide)⟩

theorem digits_add {last : Nat} (front high : Nat) {low : Nat} (small : low < 64 ^ last) :
    digits (front + last) (high * 64 ^ last + low) = digits front high ++ digits last low := by
  induction last generalizing low with
  | zero =>
    obtain rfl : low = 0 := by simpa using small
    simp [digits]
  | succ last ih =>
    rw [Nat.pow_succ] at small
    have hdiv : (high * 64 ^ (last + 1) + low) / 64 = high * 64 ^ last + low / 64 := by
      rw [Nat.pow_succ, ← Nat.mul_assoc]
      omega
    have hmod : (high * 64 ^ (last + 1) + low) % 64 = low % 64 := by
      rw [Nat.pow_succ, ← Nat.mul_assoc]
      omega
    rw [← Nat.add_assoc, digits, hdiv, hmod, ih (by omega), digits, List.append_assoc]

theorem pow_width (bytes : Bytes) :
    256 ^ bytes.length * 2 ^ (6 * width bytes - 8 * bytes.length) = 64 ^ width bytes := by
  have hwidth : 8 * bytes.length + (6 * width bytes - 8 * bytes.length) = 6 * width bytes := by
    unfold width
    omega
  have hbyte (n : Nat) : 256 ^ n = 2 ^ (8 * n) := Nat.pow_mul 2 8 n |>.symm
  have hdigit (n : Nat) : 64 ^ n = 2 ^ (6 * n) := Nat.pow_mul 2 6 n |>.symm
  rw [hbyte, hdigit, ← Nat.pow_add, hwidth]

/-- Three bytes fill four digits, so what comes after them is written as it is alone. -/
theorem sextets_cons (x y z : UInt8) (rest : Bytes) :
    sextets (x :: y :: z :: rest) =
      digits 4 ((x.toNat * 256 + y.toNat) * 256 + z.toNat) ++ sextets rest := by
  have hwidth : width (x :: y :: z :: rest) = 4 + width rest := by
    simp only [width, List.length_cons]
    omega
  have hspare : 6 * (4 + width rest) - 8 * (x :: y :: z :: rest).length =
      6 * width rest - 8 * rest.length := by
    simp only [List.length_cons]
    omega
  have hvalue : Bytes.toNat (x :: y :: z :: rest) =
      ((x.toNat * 256 + y.toNat) * 256 + z.toNat) * 256 ^ rest.length + Bytes.toNat rest := by
    have split := Bytes.toNat_append [x, y, z] rest
    simpa [Bytes.toNat] using split
  have small : Bytes.toNat rest * 2 ^ (6 * width rest - 8 * rest.length) < 64 ^ width rest := by
    rw [← pow_width]
    exact Nat.mul_lt_mul_of_pos_right (Bytes.toNat_lt rest) (Nat.two_pow_pos _)
  rw [sextets, hwidth, hspare, hvalue, Nat.add_mul, Nat.mul_assoc, pow_width,
    digits_add _ _ small, sextets]

namespace Variant

variable (v : Variant)

/-- The three cases of the encoder are one rule. -/
theorem encode_eq_sextets (bytes : Bytes) :
    v.encode bytes =
      (sextets bytes).map v.symbol ++ v.padding ((4 - (sextets bytes).length % 4) % 4) := by
  induction bytes using Variant.encode.induct with
  | case1 => cases h : v.padded <;> simp [encode, sextets, width, digits, padding, h]
  | case2 x =>
    have hx : x.toNat < 256 := x.toNat_lt
    have hsextets : sextets [x] = [x.toNat / 4, x.toNat % 4 * 16] := by
      simp [sextets, width, digits, Bytes.toNat]
      omega
    rw [hsextets]
    rfl
  | case3 x y =>
    have hx : x.toNat < 256 := x.toNat_lt
    have hy : y.toNat < 256 := y.toNat_lt
    obtain ⟨n, hn⟩ : ∃ n, n = x.toNat * 256 + y.toNat := ⟨_, rfl⟩
    have hsextets : sextets [x, y] = [n / 1024, n / 16 % 64, n % 16 * 4] := by
      simp [sextets, width, digits, Bytes.toNat, ← hn]
      omega
    rw [hsextets, hn]
    rfl
  | case4 x y z rest ih =>
    have hx : x.toNat < 256 := x.toNat_lt
    have hy : y.toNat < 256 := y.toNat_lt
    have hz : z.toNat < 256 := z.toNat_lt
    obtain ⟨n, hn⟩ : ∃ n, n = (x.toNat * 256 + y.toNat) * 256 + z.toNat := ⟨_, rfl⟩
    have hdigits : digits 4 n = [n / 262144, n / 4096 % 64, n / 64 % 64, n % 64] := by
      simp [digits]
      omega
    have hcount : (4 - (digits 4 n ++ sextets rest).length % 4) % 4 =
        (4 - (sextets rest).length % 4) % 4 := by
      rw [List.length_append, length_digits]
      omega
    rw [sextets_cons, ← hn, hcount, List.map_append, List.append_assoc, ← ih, hdigits, encode, ← hn]
    rfl

theorem encode_eq_numeral {alphabet : Bytes} (table : ∀ n < 64, v.symbol n = alphabet.getD n 0)
    (bytes : Bytes) :
    v.encode bytes = numeral alphabet bytes ++
      v.padding ((4 - (numeral alphabet bytes).length % 4) % 4) := by
  have hmap : (sextets bytes).map v.symbol = numeral alphabet bytes :=
    List.map_congr_left fun n mem => table n (lt_of_mem_digits n mem)
  rw [encode_eq_sextets, hmap, numeral, List.length_map]

end Variant

theorem encode_standard (bytes : Bytes) : standard.encode bytes = standardText bytes :=
  standard.encode_eq_numeral (by decide +kernel) bytes

theorem encode_urlSafe (bytes : Bytes) : urlSafe.encode bytes = urlSafeText bytes :=
  (urlSafe.encode_eq_numeral (by decide +kernel) bytes).trans (List.append_nil _)

/-- A text is read as the bytes exactly if, without the blanks around it, it is one of the two texts
that the bytes have. So what is written is read back, and it is read in either order of the variants
as the same bytes. -/
theorem decodeEither_canonical (text bytes : Bytes) :
    (decodeEither text = .ok bytes ↔
      Text.trimBy isBlank text = standardText bytes ∨
        Text.trimBy isBlank text = urlSafeText bytes) ∧
    (standard.encode bytes = standardText bytes ∧
      decodeEither (standard.encode bytes) = .ok bytes) ∧
    decodeEither = decodeInOrder standard urlSafe ∧
      (decodeInOrder urlSafe standard text).toOption = (decodeEither text).toOption := by
  have written : Spells (standard.encode bytes) bytes :=
    ⟨[], standard.encode bytes, [], by simp, nofun, nofun, .inl rfl⟩
  refine ⟨?_, ⟨encode_standard bytes, decodeEither_eq_ok_iff.mpr written⟩, decodeEither_eq, ?_⟩
  · rw [decodeEither_eq_ok_iff_trimmed, encode_standard, encode_urlSafe]
  · apply Option.ext
    intro read
    rw [Outcome.toOption_eq_some, Outcome.toOption_eq_some, decodeEither_eq_ok_iff_trimmed,
      decodeInOrder_eq_ok_iff Variant.isSound_urlSafe Variant.isSound_standard
        fun _ _ same => (eq_of_encode_eq same.symm).symm]
    exact or_comm

end Base64

end PaymentTrust
