import PaymentTrust.Proofs.Bytes.Basic
import PaymentTrust.Proofs.Bytes.Hex

/-! Hexadecimal text as a numeral. An even number of digits spells one byte string, and as a number
that is what the digits denote. -/
namespace PaymentTrust.Hex

def IsDigit (c : Char) : Prop := c ∈ "0123456789abcdefABCDEF".toList

instance (c : Char) : Decidable (IsDigit c) :=
  inferInstanceAs (Decidable (c ∈ "0123456789abcdefABCDEF".toList))

def digitValue (c : Char) : Nat := "0123456789abcdef".toList.idxOf c.toLower

/-- The number that the digits denote, most significant first; no digits denote zero. -/
def number (digits : List Char) : Nat :=
  digits.foldl (fun n c => n * 16 + digitValue c) 0

theorem number_zero_cons (digits : List Char) : number ('0' :: digits) = number digits := by
  unfold number
  rw [List.foldl_cons]
  rfl

theorem toNat_of_isDigit {c : Char} (h : IsDigit c) : c.toNat < 0x80 := by
  have table : "0123456789abcdefABCDEF".toList.all (·.toNat < 0x80) = true := by decide
  exact of_decide_eq_true (List.all_eq_true.mp table c h)

theorem toLower_eq_digitChar_iff {c : Char} {n : Nat} (small : n < 16) :
    c.toLower = Nat.digitChar n ↔ IsDigit c ∧ digitValue c = n := by
  rcases Nat.lt_or_ge c.toNat 0x80 with ascii | beyond
  · have table : ∀ k < 128, ∀ n < 16, (Char.ofNat k).toLower = Nat.digitChar n ↔
        IsDigit (Char.ofNat k) ∧ digitValue (Char.ofNat k) = n := by
      decide +kernel
    have found := table c.toNat ascii n small
    rwa [Char.ofNat_toNat] at found
  · have other : ¬IsDigit c := fun h => Nat.not_lt.mpr beyond (toNat_of_isDigit h)
    simp [toLower_ne_digitChar beyond small, other]

theorem lowerAscii_eq_iff {digits : List Char} {values : List Nat}
    (small : ∀ n ∈ values, n < 16) :
    Text.lowerAscii digits = values.map Nat.digitChar ↔
      (∀ c ∈ digits, IsDigit c) ∧ digits.map digitValue = values := by
  induction digits generalizing values with
  | nil => cases values <;> simp [Text.lowerAscii]
  | cons c digits ih =>
    cases values with
    | nil => simp [Text.lowerAscii]
    | cons n values =>
      obtain ⟨hn, hvalues⟩ := List.forall_mem_cons.mp small
      have rest := ih hvalues
      unfold Text.lowerAscii at rest ⊢
      rw [List.map_cons, List.map_cons, List.cons.injEq, toLower_eq_digitChar_iff hn, rest,
        List.map_cons, List.cons.injEq, List.forall_mem_cons]
      exact and_and_and_comm

theorem digitValue_lt {c : Char} (h : IsDigit c) : digitValue c < 16 := by
  have table : "0123456789abcdefABCDEF".toList.all (digitValue · < 16) = true := by decide
  exact of_decide_eq_true (List.all_eq_true.mp table c h)

theorem foldl_nibbles (bytes : Bytes) :
    (nibbles bytes).foldl (fun n d => n * 16 + d) 0 = Bytes.toNat bytes := by
  unfold nibbles Bytes.toNat
  rw [List.foldl_flatMap]
  congr 1
  funext n b
  simp only [List.foldl_cons, List.foldl_nil]
  omega

theorem exists_nibbles_eq {values : List Nat} (small : ∀ n ∈ values, n < 16)
    (even : values.length % 2 = 0) : ∃ bytes, nibbles bytes = values := by
  induction values using List.twoStepInduction with
  | nil => exact ⟨[], rfl⟩
  | singleton n => cases even
  | cons_cons high low values ih _ =>
    obtain ⟨hhigh, hlow, hvalues⟩ : high < 16 ∧ low < 16 ∧ ∀ n ∈ values, n < 16 := by
      simpa using small
    obtain ⟨bytes, hbytes⟩ := ih hvalues (by simp only [List.length_cons] at even; omega)
    obtain ⟨hdiv, hmod⟩ := (ofNat_eq_iff hhigh hlow _).mp rfl
    exact ⟨UInt8.ofNat (high * 16 + low) :: bytes, by rw [nibbles_cons, ← hdiv, ← hmod, hbytes]⟩

theorem number_of_spelled {digits : List Char} {bytes : Bytes}
    (h : Text.lowerAscii digits = (encode bytes).toList) :
    (∀ c ∈ digits, IsDigit c) ∧ digits.length = 2 * bytes.length ∧
      number digits = Bytes.toNat bytes := by
  rw [toList_encode, lowerAscii_eq_iff lt_of_mem_nibbles] at h
  obtain ⟨hdigits, hvalues⟩ := h
  refine ⟨hdigits, ?_, ?_⟩
  · rw [← length_nibbles, ← hvalues, List.length_map]
  · rw [← foldl_nibbles, ← hvalues, List.foldl_map]
    rfl

theorem exists_spelled {digits : List Char} (hdigits : ∀ c ∈ digits, IsDigit c)
    (even : digits.length % 2 = 0) :
    ∃ bytes, Text.lowerAscii digits = (encode bytes).toList := by
  have small : ∀ n ∈ digits.map digitValue, n < 16 :=
    List.forall_mem_map.mpr fun c mem => digitValue_lt (hdigits c mem)
  obtain ⟨bytes, hbytes⟩ := exists_nibbles_eq small (by rwa [List.length_map])
  refine ⟨bytes, ?_⟩
  rw [toList_encode, lowerAscii_eq_iff lt_of_mem_nibbles]
  exact ⟨hdigits, hbytes.symm⟩

end PaymentTrust.Hex
