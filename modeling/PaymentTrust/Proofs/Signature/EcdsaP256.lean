import PaymentTrust.Proofs.Bytes.Der
import PaymentTrust.Signature.EcdsaP256
import PaymentTrust.Text.Utf8

/-! The two forms of a P-256 signature. Which of them is read is told by the length alone, and an ASN.1
pair can have the length of the other form: then its halves are read, which are never its numbers. -/
namespace PaymentTrust.EcdsaP256

variable {r s : Nat} {message signature key : Bytes} {point : Weierstrass.Point}

def InRange (r s : Nat) : Prop :=
  0 < r ∧ r < p256.order ∧ 0 < s ∧ s < p256.order

instance : Decidable (InRange r s) := inferInstanceAs (Decidable (_ ∧ _))

def fixedForm (r s : Nat) : Bytes := Bytes.ofNat 32 r ++ Bytes.ofNat 32 s

def halves (signature : Bytes) : Nat × Nat :=
  (Bytes.toNat (signature.take 32), Bytes.toNat (signature.drop 32))

/-- The halves of the ASN.1 form happen to be a signature with the verdict of the numbers. -/
def Coincides (message : Bytes) (r s : Nat) (point : Weierstrass.Point) : Prop :=
  let digest := Bytes.toNat (Digest.sha256 message)
  let (r', s') := halves (Der.integerPair r s)
  InRange r' s' ∧ p256.ecdsaHolds digest r' s' point = p256.ecdsaHolds digest r s point

theorem decodePoint?_uncompressed {x y : Bytes} (hx : x.length = 32) (hy : y.length = 32) :
    decodePoint? (0x04 :: x ++ y) =
      if p256.isOnCurve (Bytes.toNat x) (Bytes.toNat y) then
        some (.affine (Bytes.toNat x) (Bytes.toNat y))
      else none := by
  have hlength : (x ++ y).length = 64 := by
    rw [List.length_append, hx, hy]
  rw [List.cons_append, decodePoint?]
  dsimp only
  rw [if_pos ⟨rfl, hlength⟩, List.take_left' hx, List.drop_left' hx]

theorem decodeSignature?_eq_some_iff : decodeSignature? signature = some (r, s) ↔
    (if signature.length = 64 then halves signature = (r, s)
      else Der.integerPair? signature = some (r, s)) ∧ InRange r s := by
  by_cases fixed : signature.length = 64
  · simp only [decodeSignature?, fixed, if_true, Option.bind_eq_bind, Option.bind_some,
      Option.ite_none_right_eq_some, Option.some.injEq, Prod.mk.injEq, halves, InRange]
    constructor
    · rintro ⟨range, rfl, rfl⟩
      exact ⟨⟨rfl, rfl⟩, range⟩
    · rintro ⟨⟨rfl, rfl⟩, range⟩
      exact ⟨range, rfl, rfl⟩
  · simp only [decodeSignature?, fixed, if_false, Option.bind_eq_bind, Option.bind_eq_some_iff,
      Prod.exists, Option.ite_none_right_eq_some, Option.some.injEq, Prod.mk.injEq, InRange]
    constructor
    · rintro ⟨r, s, read, range, rfl, rfl⟩
      exact ⟨read, range⟩
    · rintro ⟨read, range⟩
      exact ⟨r, s, read, range, rfl, rfl⟩

theorem lt_pow_of_lt_order {n : Nat} (h : n < p256.order) : n < 256 ^ 32 :=
  Nat.lt_trans h (by decide)

theorem decodeSignature?_fixedForm (range : InRange r s) :
    decodeSignature? (fixedForm r s) = some (r, s) := by
  have hlength : (fixedForm r s).length = 64 := by
    simp [fixedForm]
  have hr := lt_pow_of_lt_order range.2.1
  have hs := lt_pow_of_lt_order range.2.2.2
  rw [decodeSignature?_eq_some_iff, if_pos hlength]
  refine ⟨?_, range⟩
  rw [halves, fixedForm, List.take_left' (Bytes.length_ofNat 32 r),
    List.drop_left' (Bytes.length_ofNat 32 r), Bytes.toNat_ofNat, Bytes.toNat_ofNat,
    Nat.mod_eq_of_lt hr, Nat.mod_eq_of_lt hs]

theorem length_encodeUnsigned_le {n : Nat} (h : n < p256.order) :
    (Der.encodeUnsigned n).length ≤ 33 :=
  Nat.le_trans (Der.length_encodeUnsigned_le n)
    (Nat.succ_le_succ (Bytes.length_minimal_le_iff.mpr (lt_pow_of_lt_order h)))

theorem length_integer {n : Nat} (h : n < p256.order) :
    (Der.integer n).length = (Der.encodeUnsigned n).length + 2 := by
  have short := length_encodeUnsigned_le h
  exact Der.length_element_of_short Der.integerTag (by omega)

theorem length_integerPair (range : InRange r s) : (Der.integerPair r s).length =
    (Der.encodeUnsigned r).length + (Der.encodeUnsigned s).length + 6 := by
  have short := length_encodeUnsigned_le range.2.1
  have short' := length_encodeUnsigned_le range.2.2.2
  have hlength : (Der.integer r ++ Der.integer s).length =
      (Der.encodeUnsigned r).length + 2 + ((Der.encodeUnsigned s).length + 2) := by
    rw [List.length_append, length_integer range.2.1, length_integer range.2.2.2]
  rw [Der.integerPair, Der.length_element_of_short Der.sequenceTag (by omega), hlength]
  omega

theorem decodeSignature?_integerPair (range : InRange r s)
    (h : (Der.integerPair r s).length ≠ 64) :
    decodeSignature? (Der.integerPair r s) = some (r, s) := by
  have hcontent : (Der.integer r ++ Der.integer s).length ≤ (Der.integerPair r s).length :=
    Der.length_le_element _ _
  have hlength := length_integerPair range
  have short := length_encodeUnsigned_le range.2.1
  have short' := length_encodeUnsigned_le range.2.2.2
  rw [decodeSignature?_eq_some_iff, if_neg h, Der.integerPair?_eq_some_iff]
  exact ⟨⟨rfl, by omega⟩, range⟩

/-- A first half that is `r` begins with the tag of the sequence, so that it has no leading zero and no
sign, and its 32 bytes are the content of `r`. -/
theorem length_encodeUnsigned_of_half (range : InRange r s) (h : (Der.integerPair r s).length = 64)
    (hr : Bytes.toNat ((Der.integerPair r s).take 32) = r) :
    (Der.encodeUnsigned s).length = 26 := by
  have hlength := length_integerPair range
  obtain ⟨rest, hrest⟩ : ∃ rest, Der.integerPair r s = Der.sequenceTag :: rest := ⟨_, rfl⟩
  rw [hrest, List.length_cons] at h
  rw [hrest, List.take_succ_cons] at hr
  have hdigits : Bytes.minimal r = Der.sequenceTag :: rest.take 31 :=
    Bytes.minimal_eq_iff.mpr ⟨hr, fun zero => absurd (Option.some.inj zero) (by decide)⟩
  have hcontent : (Der.encodeUnsigned r).length = 32 := by
    rw [Der.encodeUnsigned_of_minimal hdigits, if_pos (by decide), List.length_cons,
      List.length_take]
    omega
  rw [hrest, List.length_cons] at hlength
  omega

theorem pow_le_second_half (range : InRange r s) (h : (Der.integerPair r s).length = 64)
    (few : (Der.encodeUnsigned s).length = 26) :
    256 ^ 27 ≤ Bytes.toNat ((Der.integerPair r s).drop 32) := by
  have hinteger : (Der.integer s).length = 28 := by
    rw [length_integer range.2.2.2, few]
  obtain ⟨tail, htail⟩ : ∃ tail, Der.integer s = Der.integerTag :: tail := ⟨_, rfl⟩
  have hlarge : 256 ^ tail.length ≤ Bytes.toNat (Der.integer s) := by
    rw [htail]
    exact Bytes.pow_length_le_toNat (by decide) tail
  have htailLength : tail.length = 27 := by
    rw [htail, List.length_cons] at hinteger
    omega
  rw [htailLength] at hlarge
  obtain ⟨front, hfront⟩ : ∃ front, Der.integerPair r s = front ++ Der.integer s :=
    ⟨_, (List.append_assoc (_ :: _) (Der.integer r) (Der.integer s)).symm⟩
  have hdrop : 32 ≤ front.length := by
    rw [hfront, List.length_append] at h
    omega
  rw [hfront, List.drop_append_of_le_length hdrop, Bytes.toNat_append]
  exact Nat.le_add_left_of_le hlarge

theorem halves_integerPair_ne (range : InRange r s) (h : (Der.integerPair r s).length = 64) :
    halves (Der.integerPair r s) ≠ (r, s) := by
  intro same
  obtain ⟨hr, hs⟩ := Prod.mk.inj same
  have few := length_encodeUnsigned_of_half range h hr
  have large := pow_le_second_half range h few
  have small := Der.lt_pow_length_encodeUnsigned s
  rw [few] at small
  omega

theorem verify_of_decodeSignature? (hkey : decodePoint? key = some point)
    (h : decodeSignature? signature = some (r, s)) (message : Bytes) :
    p256Verifier.verify message signature key =
      if p256.ecdsaHolds (Bytes.toNat (Digest.sha256 message)) r s point then .ok ()
      else .error .mismatch := by
  simp only [p256Verifier, verify, hkey, h]

theorem verify_congr {signature' : Bytes}
    (h : decodeSignature? signature = decodeSignature? signature') (message key : Bytes) :
    p256Verifier.verify message signature key = p256Verifier.verify message signature' key := by
  simp only [p256Verifier, verify, h]

theorem verify_of_unread (hkey : decodePoint? key = some point)
    (h : decodeSignature? signature = none) (message : Bytes) :
    p256Verifier.verify message signature key = .error (.malformedSignature "signature error") := by
  simp only [p256Verifier, verify, hkey, h]

theorem verify_integerPair_iff (range : InRange r s) (h : (Der.integerPair r s).length = 64)
    (hkey : decodePoint? key = some point) (message : Bytes) :
    p256Verifier.verify message (Der.integerPair r s) key =
      p256Verifier.verify message (fixedForm r s) key ↔ Coincides message r s point := by
  obtain ⟨r', s', hhalves⟩ : ∃ r' s', halves (Der.integerPair r s) = (r', s') := ⟨_, _, rfl⟩
  have read {r'' s'' : Nat} : decodeSignature? (Der.integerPair r s) = some (r'', s'') ↔
      (r', s') = (r'', s'') ∧ InRange r'' s'' := by
    rw [decodeSignature?_eq_some_iff, if_pos h, hhalves]
  rw [Coincides, hhalves, verify_of_decodeSignature? hkey (decodeSignature?_fixedForm range)]
  by_cases inside : InRange r' s'
  · rw [verify_of_decodeSignature? hkey (read.mpr ⟨rfl, inside⟩)]
    simp only [inside, true_and]
    generalize p256.ecdsaHolds _ r' s' point = verdict'
    generalize p256.ecdsaHolds _ r s point = verdict
    cases verdict' <;> cases verdict <;> simp
  · have unread : decodeSignature? (Der.integerPair r s) = none := by
      refine Option.eq_none_iff_forall_ne_some.mpr fun ⟨r'', s''⟩ found => ?_
      obtain ⟨⟨⟩, range'⟩ := read.mp found
      exact inside range'
    rw [verify_of_unread hkey unread]
    simp only [inside, false_and, iff_false]
    split <;> nofun

/-- The forms are read as the same numbers, and then verified alike, exactly if the ASN.1 form is not
of 64 bytes. If it is, it is verified alike under a key that is none, and otherwise only by chance. -/
theorem forms_agree_iff (range : InRange r s) :
    (decodeSignature? (Der.integerPair r s) = decodeSignature? (fixedForm r s) ↔
      (Der.integerPair r s).length ≠ 64) ∧
    ∀ message key,
      p256Verifier.verify message (Der.integerPair r s) key =
          p256Verifier.verify message (fixedForm r s) key ↔
        (Der.integerPair r s).length ≠ 64 ∨
          ∀ point, decodePoint? key = some point → Coincides message r s point := by
  have hfixed := decodeSignature?_fixedForm range
  have read_iff : decodeSignature? (Der.integerPair r s) = decodeSignature? (fixedForm r s) ↔
      (Der.integerPair r s).length ≠ 64 := by
    rw [hfixed]
    constructor
    · intro read hlength
      have same := (decodeSignature?_eq_some_iff.mp read).1
      rw [if_pos hlength] at same
      exact halves_integerPair_ne range hlength same
    · exact decodeSignature?_integerPair range
  refine ⟨read_iff, fun message key => ?_⟩
  by_cases hlength : (Der.integerPair r s).length = 64
  · cases hkey : decodePoint? key with
    | none => simp [p256Verifier, verify, hkey, hlength]
    | some point =>
      simp only [hlength, ne_eq, not_true_eq_false, false_or, Option.some.injEq, forall_eq']
      exact verify_integerPair_iff range hlength hkey message
  · exact iff_of_true (verify_congr (read_iff.mpr hlength) message key) (.inl hlength)

theorem forms_agree_of_wide_numbers :
    let r := p256.gx
    let s := p256.order - 1
    InRange r s ∧ ∀ message key, p256Verifier.verify message (Der.integerPair r s) key =
      p256Verifier.verify message (fixedForm r s) key := by
  refine ⟨by decide, fun message key => ?_⟩
  exact ((forms_agree_iff (by decide)).2 message key).mpr (.inl (by decide +kernel))

/-- A signature that is accepted in one form and not in the other. -/
theorem forms_disagree :
    let message := Utf8.encode "cart|123".toList
    let key := 0x02 ::
      Bytes.ofNat 32 0xb37ec12f62c04eb4e87283363eeda18f049aaa10ca329abf33de924193e287d8
    let r := 0x62d9779dbee9b0534042742d3ab54cadc1d238980fce97dbb4dd9dc1db6fb393
    let s := 0x100000000000000000000000000000000000000000000000001
    InRange r s ∧ p256Verifier.verify message (fixedForm r s) key = .ok () ∧
      p256Verifier.verify message (Der.integerPair r s) key = .error .mismatch := by
  decide +kernel

end PaymentTrust.EcdsaP256
