import PaymentTrust.Address
import PaymentTrust.Proofs.Bytes.Basic

/-! Words and their 32 bytes, and what else is written as a word. -/
namespace PaymentTrust

namespace Word256

@[simp] theorem length_bytes (w : Word256) : w.bytes.length = 32 :=
  Bytes.length_ofNat 32 w.toNat

@[simp] theorem toNat_bytes (w : Word256) : Bytes.toNat w.bytes = w.toNat := by
  have hw : w.toNat < 256 ^ 32 := w.isLt
  rw [bytes, Bytes.toNat_ofNat, Nat.mod_eq_of_lt hw]

theorem bytes_injective {w w' : Word256} (h : w.bytes = w'.bytes) : w = w' := by
  apply BitVec.eq_of_toNat_eq
  rw [← toNat_bytes w, h, toNat_bytes]

theorem toNat_ofBytes {bytes : Bytes} (short : bytes.length ≤ 32) :
    (ofBytes bytes).toNat = Bytes.toNat bytes := by
  have hlt := Bytes.toNat_lt bytes
  have hwidth : 256 ^ bytes.length ≤ 256 ^ 32 := Nat.pow_le_pow_right (by decide) short
  rw [ofBytes, BitVec.toNat_ofNat]
  apply Nat.mod_eq_of_lt
  exact Nat.lt_of_lt_of_le hlt hwidth

theorem ofBytes_injective {bytes bytes' : Bytes} (hlength : bytes.length = 32)
    (hlength' : bytes'.length = 32) (h : ofBytes bytes = ofBytes bytes') : bytes = bytes' := by
  apply Bytes.toNat_injective (hlength.trans hlength'.symm)
  rw [← toNat_ofBytes (Nat.le_of_eq hlength), h, toNat_ofBytes (Nat.le_of_eq hlength')]

@[simp] theorem toNat_ofWord64 (n : UInt64) : (ofWord64 n).toNat = n.toNat := by
  have hn : n.toNat < 2 ^ 64 := n.toNat_lt
  rw [ofWord64, BitVec.toNat_ofNat]
  apply Nat.mod_eq_of_lt
  omega

theorem ofWord64_injective {n n' : UInt64} (h : ofWord64 n = ofWord64 n') : n = n' := by
  apply UInt64.toNat_inj.mp
  rw [← toNat_ofWord64 n, h, toNat_ofWord64]

end Word256

@[simp] theorem Address.toNat_toWord (a : Address) : a.toWord.toNat = a.value.toNat := by
  have ha : a.value.toNat < 2 ^ 160 := a.value.isLt
  rw [toWord, BitVec.toNat_setWidth]
  apply Nat.mod_eq_of_lt
  omega

theorem Address.toWord_injective {a b : Address} (h : a.toWord = b.toWord) : a = b := by
  apply congrArg Address.mk
  apply BitVec.eq_of_toNat_eq
  rw [← toNat_toWord a, h, toNat_toWord]

def wordNumbers : (count : Nat) → Bytes → List Nat
  | 0, _ => []
  | count + 1, bytes => Bytes.toNat (bytes.take 32) :: wordNumbers count (bytes.drop 32)

theorem wordNumbers_flatMap (words : List Word256) (rest : Bytes) :
    wordNumbers words.length (words.flatMap Word256.bytes ++ rest) = words.map BitVec.toNat := by
  induction words with
  | nil => rfl
  | cons w words ih =>
    have hw := Word256.length_bytes w
    simp [wordNumbers, hw, ih]

theorem eq_flatMap_of_wordNumbers {words : List Word256} {bytes : Bytes}
    (hlength : bytes.length = 32 * words.length)
    (h : wordNumbers words.length bytes = words.map BitVec.toNat) :
    bytes = words.flatMap Word256.bytes := by
  induction words generalizing bytes with
  | nil => exact List.eq_nil_of_length_eq_zero hlength
  | cons w words ih =>
    rw [List.length_cons] at hlength
    obtain ⟨hfirst, hrest⟩ := List.cons.inj h
    have hbytes : bytes.take 32 = w.bytes := by
      apply Bytes.toNat_injective
      · simp
        omega
      · rw [hfirst, Word256.toNat_bytes]
    have hmore := ih (by simp; omega) hrest
    rw [List.flatMap_cons, ← hbytes, ← hmore, List.take_append_drop]

end PaymentTrust
