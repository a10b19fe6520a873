import Mathlib.Algebra.Group.Nat.Defs
import Mathlib.Data.List.Induction
import PaymentTrust.Bytes.Basic

/-! Byte strings of one length are the numbers below a power of 256, and those without a leading zero
are all numbers. -/
namespace PaymentTrust.Bytes

@[simp] theorem length_ofNat (width n : Nat) : (ofNat width n).length = width := by
  induction width generalizing n with
  | zero => rfl
  | succ width ih => simp [ofNat, ih]

@[simp] theorem length_ofNatLE (width n : Nat) : (ofNatLE width n).length = width := by
  simp [ofNatLE]

theorem length_flatMap_of_width {α : Type} {f : α → Bytes} {width : Nat}
    (h : ∀ a, (f a).length = width) (items : List α) :
    (items.flatMap f).length = width * items.length := by
  induction items with
  | nil => rfl
  | cons a items ih =>
    rw [List.flatMap_cons, List.length_append, h, ih, List.length_cons, Nat.mul_succ, Nat.add_comm]

theorem toNat_concat (bytes : Bytes) (b : UInt8) :
    toNat (bytes ++ [b]) = toNat bytes * 256 + b.toNat := by
  simp [toNat]

theorem toNat_append (front back : Bytes) :
    toNat (front ++ back) = toNat front * 256 ^ back.length + toNat back := by
  induction back using List.reverseRecOn with
  | nil => simp [toNat]
  | append_singleton back b ih =>
    rw [← List.append_assoc, toNat_concat, ih, toNat_concat, List.length_append,
      List.length_singleton, Nat.pow_succ, ← Nat.mul_assoc]
    omega

theorem toNat_lt (bytes : Bytes) : toNat bytes < 256 ^ bytes.length := by
  induction bytes using List.reverseRecOn with
  | nil => simp [toNat]
  | append_singleton bytes b ih =>
    have hb : b.toNat < 256 := b.toNat_lt
    rw [toNat_concat, List.length_append, List.length_singleton, Nat.pow_succ]
    omega

theorem toNat_lowByte (n : Nat) : (UInt8.ofNat (n % 256)).toNat = n % 256 :=
  UInt8.toNat_ofNat_of_lt (Nat.mod_lt n (by decide))

@[simp] theorem toNat_ofNat (width n : Nat) : toNat (ofNat width n) = n % 256 ^ width := by
  induction width generalizing n with
  | zero => simp [ofNat, toNat, Nat.mod_one]
  | succ width ih =>
    rw [ofNat, toNat_concat, ih, toNat_lowByte, Nat.pow_succ, Nat.mul_comm (256 ^ width), Nat.mod_mul]
    omega

theorem ofNat_toNat (bytes : Bytes) : ofNat bytes.length (toNat bytes) = bytes := by
  induction bytes using List.reverseRecOn with
  | nil => rfl
  | append_singleton bytes b ih =>
    have hb : b.toNat < 256 := b.toNat_lt
    have hdiv : (toNat bytes * 256 + b.toNat) / 256 = toNat bytes := by omega
    have hmod : (toNat bytes * 256 + b.toNat) % 256 = b.toNat := by omega
    rw [List.length_append, List.length_singleton, ofNat, toNat_concat, hdiv, hmod, ih,
      UInt8.ofNat_toNat]

theorem toNat_injective {bytes bytes' : Bytes} (hlength : bytes.length = bytes'.length)
    (h : toNat bytes = toNat bytes') : bytes = bytes' := by
  rw [← ofNat_toNat bytes, ← ofNat_toNat bytes', hlength, h]

/-! ### The digits of a number -/

theorem toNat_cons (b : UInt8) (bytes : Bytes) :
    toNat (b :: bytes) = b.toNat * 256 ^ bytes.length + toNat bytes := by
  simpa [toNat] using toNat_append [b] bytes

theorem pow_length_le_toNat {b : UInt8} (nonzero : b ≠ 0) (bytes : Bytes) :
    256 ^ bytes.length ≤ toNat (b :: bytes) := by
  have hb : 1 ≤ b.toNat := UInt8.pos_iff_ne_zero.mpr nonzero
  rw [toNat_cons]
  exact Nat.le_add_right_of_le (Nat.le_mul_of_pos_left _ hb)

theorem minimal_zero : minimal 0 = [] := by
  rw [minimal, if_pos rfl]

theorem minimal_of_ne_zero {n : Nat} (nonzero : n ≠ 0) :
    minimal n = minimal (n / 256) ++ [UInt8.ofNat (n % 256)] := by
  rw [minimal, if_neg nonzero]

@[simp] theorem toNat_minimal (n : Nat) : toNat (minimal n) = n := by
  induction n using Nat.strongRecOn with
  | ind n ih =>
    by_cases zero : n = 0
    · subst zero
      rw [minimal_zero]
      rfl
    · rw [minimal_of_ne_zero zero, toNat_concat, ih _ (by omega), toNat_lowByte]
      omega

theorem head?_minimal (n : Nat) : (minimal n).head? ≠ some 0 := by
  induction n using Nat.strongRecOn with
  | ind n ih =>
    by_cases zero : n = 0
    · subst zero
      rw [minimal_zero]
      nofun
    · rw [minimal_of_ne_zero zero, List.head?_append]
      have front := ih (n / 256) (by omega)
      cases h : (minimal (n / 256)).head? with
      | some b =>
        rw [h] at front
        exact front
      | none =>
        -- The only digit is the number itself.
        have high : n / 256 = 0 := by
          rw [← toNat_minimal (n / 256), List.head?_eq_none_iff.mp h]
          rfl
        intro digit
        have hdigit : n % 256 = 0 :=
          (toNat_lowByte n).symm.trans (congrArg UInt8.toNat (Option.some.inj digit))
        omega

theorem minimal_eq_iff {n : Nat} {bytes : Bytes} :
    minimal n = bytes ↔ toNat bytes = n ∧ bytes.head? ≠ some 0 := by
  constructor
  · rintro rfl
    exact ⟨toNat_minimal n, head?_minimal n⟩
  · rintro ⟨rfl, h⟩
    induction bytes using List.reverseRecOn with
    | nil => exact minimal_zero
    | append_singleton bytes b ih =>
      have hb : b.toNat < 256 := b.toNat_lt
      have hdiv : (toNat bytes * 256 + b.toNat) / 256 = toNat bytes := by omega
      have hmod : (toNat bytes * 256 + b.toNat) % 256 = b.toNat := by omega
      have front : bytes.head? ≠ some 0 := by
        intro zero
        rw [List.head?_append, zero] at h
        exact h rfl
      have nonzero : toNat bytes * 256 + b.toNat ≠ 0 := by
        cases bytes with
        | nil =>
          have hb : 0 < b.toNat := UInt8.pos_iff_ne_zero.mpr fun zero => h (congrArg some zero)
          omega
        | cons c bytes =>
          have large := pow_length_le_toNat (fun zero => front (congrArg some zero)) bytes
          have positive := Nat.pow_pos (n := bytes.length) (show 0 < 256 by decide)
          omega
      rw [toNat_concat, minimal_of_ne_zero nonzero, hdiv, hmod, ih front, UInt8.ofNat_toNat]

theorem length_minimal_le_iff {n k : Nat} : (minimal n).length ≤ k ↔ n < 256 ^ k := by
  have mono {i j : Nat} (h : i ≤ j) : 256 ^ i ≤ 256 ^ j := Nat.pow_le_pow_right (by decide) h
  obtain ⟨bytes, hbytes⟩ : ∃ bytes, minimal n = bytes := ⟨_, rfl⟩
  obtain ⟨hn, front⟩ := minimal_eq_iff.mp hbytes
  rw [hbytes]
  constructor
  · intro short
    exact hn ▸ Nat.lt_of_lt_of_le (toNat_lt bytes) (mono short)
  · intro small
    cases bytes with
    | nil => exact Nat.zero_le k
    | cons b bytes =>
      have large := pow_length_le_toNat (fun zero => front (congrArg some zero)) bytes
      rw [hn] at large
      by_contra long
      have := mono (Nat.le_of_lt_succ (Nat.not_le.mp long))
      omega

end PaymentTrust.Bytes
