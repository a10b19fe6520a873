import PaymentTrust.Proofs.Bytes.Der
import PaymentTrust.Proofs.Verdict
import PaymentTrust.Signature.RsaKey

/-! The two DER forms of an RSA key. Both are read as the numbers that they are written for, if these
are a key, and nothing else is read. -/
namespace PaymentTrust.RsaKey

def publicKeyInfo (key : Bytes) : Bytes :=
  Der.element Der.sequenceTag
    (Der.element Der.sequenceTag algorithmIdentifier ++ Der.element Der.bitStringTag (0 :: key))

/-- The bytes are the DER form of a modulus and an exponent, alone or inside a bit string. -/
def IsForm (bytes : Bytes) (modulus exponent : Nat) : Prop :=
  bytes = Der.integerPair modulus exponent ∨
    bytes = publicKeyInfo (Der.integerPair modulus exponent)

variable {bytes key : Bytes} {k : RsaKey} {n e : Nat}

theorem bitLength_le_iff {width : Nat} : bitLength n ≤ width ↔ n < 2 ^ width := by
  unfold bitLength
  split
  · rename_i zero
    subst zero
    exact iff_of_true (Nat.zero_le width) (Nat.two_pow_pos width)
  · rename_i nonzero
    rw [Nat.succ_le_iff, Nat.log2_lt nonzero]

theorem bitLength_le_mul_iff {width : Nat} : bitLength n ≤ 8 * width ↔ n < 256 ^ width := by
  rw [bitLength_le_iff, Nat.pow_mul]

theorem eq_of_check (h : check n e = .ok k) : k = ⟨n, e⟩ ∧ n < 256 ^ 512 ∧ e < 256 ^ 5 := by
  unfold check at h
  split_ifs at h with width _ _ _ _ limit
  have he : e < 256 ^ 5 := by omega
  have hn : n < 256 ^ 512 := bitLength_le_mul_iff.mp (Nat.not_lt.mp width)
  exact ⟨(Except.ok.inj h).symm, hn, he⟩

theorem length_numbers_lt (h : check n e = .ok k) :
    (Der.integer n ++ Der.integer e).length < 600 := by
  obtain ⟨-, hn, he⟩ := eq_of_check h
  have content := Der.length_encodeUnsigned_le n
  have content' := Der.length_encodeUnsigned_le e
  have short := Bytes.length_minimal_le_iff.mpr hn
  have short' := Bytes.length_minimal_le_iff.mpr he
  have hinteger : (Der.integer n).length ≤ _ :=
    Der.length_element_le Der.integerTag (show (Der.encodeUnsigned n).length < 256 ^ 4 by omega)
  have hinteger' : (Der.integer e).length ≤ _ :=
    Der.length_element_le Der.integerTag (show (Der.encodeUnsigned e).length < 256 ^ 4 by omega)
  rw [List.length_append]
  omega

theorem length_integerPair_lt (h : check n e = .ok k) : (Der.integerPair n e).length < 606 := by
  have short := length_numbers_lt h
  have hpair : (Der.integerPair n e).length ≤ _ :=
    Der.length_element_le Der.sequenceTag
      (show (Der.integer n ++ Der.integer e).length < 256 ^ 4 by omega)
  omega

theorem length_info_le (short : key.length < 606) :
    (Der.element Der.sequenceTag algorithmIdentifier ++
      Der.element Der.bitStringTag (0 :: key)).length < 630 := by
  have hbits := Der.length_element_le Der.bitStringTag (show (0 :: key).length < 256 ^ 4 by
    rw [List.length_cons]
    omega)
  have halgorithm : (Der.element Der.sequenceTag algorithmIdentifier).length = 15 := by decide
  rw [List.length_append]
  rw [List.length_cons] at hbits
  omega

theorem IsForm.length_lt (form : IsForm bytes n e) (h : check n e = .ok k) :
    bytes.length < 256 ^ 4 := by
  have short := length_integerPair_lt h
  rcases form with rfl | rfl
  · omega
  · have hinfo := length_info_le short
    have hform := Der.length_element_le Der.sequenceTag (Nat.lt_trans hinfo (by decide))
    rw [publicKeyInfo]
    omega

theorem ofPair?_eq_some_iff : ofPair? bytes = some k ↔
    bytes = Der.integerPair k.modulus k.exponent ∧ check k.modulus k.exponent = .ok k := by
  simp only [ofPair?, Option.bind_eq_bind, Option.bind_eq_some_iff, Prod.exists,
    Der.integerPair?_eq_some_iff, Outcome.toOption_eq_some]
  constructor
  · rintro ⟨n, e, ⟨rfl, -⟩, valid⟩
    obtain ⟨rfl, -⟩ := eq_of_check valid
    exact ⟨rfl, valid⟩
  · rintro ⟨rfl, valid⟩
    have short := length_numbers_lt valid
    exact ⟨_, _, ⟨rfl, by omega⟩, valid⟩

theorem ofPublicKeyInfo?_eq_some_iff : ofPublicKeyInfo? bytes = some k ↔
    bytes = publicKeyInfo (Der.integerPair k.modulus k.exponent) ∧
      check k.modulus k.exponent = .ok k := by
  simp only [ofPublicKeyInfo?, Option.bind_eq_bind, Option.bind_eq_some_iff, Prod.exists,
    Der.only?_eq_some_iff, Der.read?_eq_some_iff]
  constructor
  · rintro ⟨_, ⟨rfl, -⟩, algorithm, _, ⟨rfl, -⟩, bits, ⟨rfl, -⟩, h⟩
    split at h
    · split at h
      · rename_i same
        subst same
        obtain ⟨rfl, valid⟩ := ofPair?_eq_some_iff.mp h
        exact ⟨rfl, valid⟩
      · cases h
    · cases h
  · rintro ⟨rfl, valid⟩
    have short := length_integerPair_lt valid
    have hinfo := length_info_le short
    refine ⟨_, ⟨rfl, by omega⟩, _, _, ⟨rfl, by decide⟩, _, ⟨rfl, ?_⟩, ?_⟩
    · rw [List.length_cons]
      omega
    · exact (if_pos rfl).trans (ofPair?_eq_some_iff.mpr ⟨rfl, valid⟩)

theorem length_bits_le (key : Bytes) :
    (Der.element Der.bitStringTag (0 :: key)).length ≤ (publicKeyInfo key).length := by
  have hinfo : _ ≤ (publicKeyInfo key).length := Der.length_le_element _ _
  rw [List.length_append] at hinfo
  omega

theorem publicKeyInfo_inj {key' : Bytes} (short : (publicKeyInfo key).length < 256 ^ 4)
    (h : publicKeyInfo key = publicKeyInfo key') : key = key' := by
  have hinfo := List.append_cancel_left (Der.element_inj short h)
  have hbits := Der.element_inj (Nat.lt_of_le_of_lt (length_bits_le key) short) hinfo
  exact (List.cons.inj hbits).2

/-- One sequence starts with a sequence, the other with an integer. -/
theorem publicKeyInfo_ne_integerPair (short : (publicKeyInfo key).length < 256 ^ 4) (n e : Nat) :
    publicKeyInfo key ≠ Der.integerPair n e := fun h =>
  absurd (List.cons.inj (Der.element_inj short h)).1 (by decide)

theorem integerPair_inj {n' e' : Nat} (short : (Der.integerPair n e).length < 256 ^ 4)
    (h : Der.integerPair n e = Der.integerPair n' e') : n = n' ∧ e = e' := by
  have hlength : _ ≤ (Der.integerPair n e).length := Der.length_le_element _ _
  have hlength' : _ ≤ (Der.integerPair n' e').length := Der.length_le_element _ _
  rw [← h] at hlength'
  have read : Der.integerPair? (Der.integerPair n e) = some (n, e) :=
    Der.integerPair?_eq_some_iff.mpr ⟨rfl, by omega⟩
  rw [Der.integerPair?_eq_some_iff.mpr ⟨h, by omega⟩] at read
  exact (Prod.mk.inj (Option.some.inj read)).imp Eq.symm Eq.symm

theorem IsForm.unique {n' e' : Nat} (short : bytes.length < 256 ^ 4) (form : IsForm bytes n e)
    (form' : IsForm bytes n' e') : n = n' ∧ e = e' := by
  rcases form with rfl | rfl <;> rcases form' with h | h
  · exact integerPair_inj short h
  · exact absurd h.symm (publicKeyInfo_ne_integerPair (h ▸ short) n e)
  · exact absurd h (publicKeyInfo_ne_integerPair short n' e')
  · have hbits := length_bits_le (Der.integerPair n e)
    have hkey := Der.length_le_element Der.bitStringTag (0 :: Der.integerPair n e)
    rw [List.length_cons] at hkey
    exact integerPair_inj (by omega) (publicKeyInfo_inj short h)

theorem decode?_eq_some_iff : decode? bytes = some k ↔
    IsForm bytes k.modulus k.exponent ∧ check k.modulus k.exponent = .ok k := by
  rw [IsForm, or_and_right, ← ofPair?_eq_some_iff, ← ofPublicKeyInfo?_eq_some_iff, decode?]
  cases info : ofPublicKeyInfo? bytes with
  | none => simp
  | some k' =>
    -- Such bytes are not the numbers alone.
    obtain ⟨rfl, valid⟩ := ofPublicKeyInfo?_eq_some_iff.mp info
    have short := IsForm.length_lt (.inr rfl) valid
    have other : ofPair? (publicKeyInfo (Der.integerPair k'.modulus k'.exponent)) ≠ some k :=
      fun h => publicKeyInfo_ne_integerPair short _ _ (ofPair?_eq_some_iff.mp h).1
    simp [other]

theorem decode?_of_isForm (form : IsForm bytes n e) : decode? bytes = (check n e).toOption := by
  ext k
  rw [decode?_eq_some_iff, Outcome.toOption_eq_some]
  constructor
  · rintro ⟨form', valid⟩
    obtain ⟨rfl, rfl⟩ := form'.unique (form'.length_lt valid) form
    exact valid
  · intro valid
    obtain ⟨rfl, -⟩ := eq_of_check valid
    exact ⟨form, valid⟩

end PaymentTrust.RsaKey
