import PaymentTrust.Bytes.Der
import PaymentTrust.Proofs.Bytes.Basic

/-! What is read as an element is what is written for it, and nothing else: a length has its shortest
form, and so has an integer. The one limit is that lengths of more than four bytes are not read. -/
namespace PaymentTrust.Der

variable {tag : UInt8} {bytes content rest : Bytes} {m n : Nat}

theorem encodeLength_long {n : Nat} (long : 128 ≤ n) (small : n < 256 ^ 4) :
    ∃ b, encodeLength n = b :: Bytes.minimal n ∧ b.toNat = 128 + (Bytes.minimal n).length ∧
      0 < (Bytes.minimal n).length ∧ (Bytes.minimal n).length ≤ 4 := by
  have hcount : (Bytes.minimal n).length ≤ 4 := Bytes.length_minimal_le_iff.mpr small
  have some : ¬(Bytes.minimal n).length ≤ 0 := fun none => by
    have := Bytes.length_minimal_le_iff.mp none
    omega
  rw [encodeLength, if_neg (Nat.not_lt.mpr long)]
  exact ⟨_, rfl, UInt8.toNat_ofNat_of_lt (show _ < 256 by omega), by omega, hcount⟩

theorem length?_eq_some_iff :
    length? bytes = some (n, rest) ↔ bytes = encodeLength n ++ rest ∧ n < 256 ^ 4 := by
  constructor
  · intro h
    cases bytes with
    | nil => cases h
    | cons b tail =>
      rw [length?] at h
      split at h
      · rename_i short
        obtain ⟨rfl, rfl⟩ := Prod.mk.inj (Option.some.inj h)
        have hb : b.toNat < 128 := short
        rw [encodeLength, if_pos hb, UInt8.ofNat_toNat]
        exact ⟨rfl, by omega⟩
      · dsimp only at h
        generalize b.toNat - 128 = count at h
        split at h
        · cases h
        split at h
        · rename_i fits shortest
          obtain ⟨rfl, rfl⟩ := Prod.mk.inj (Option.some.inj h)
          have hcount : (tail.take count).length ≤ 4 := by
            rw [List.length_take]
            omega
          rw [shortest, List.cons_append, List.take_append_drop]
          exact ⟨rfl, Nat.lt_of_lt_of_le (Bytes.toNat_lt _) (Nat.pow_le_pow_right (by decide) hcount)⟩
        · cases h
  · rintro ⟨rfl, small⟩
    rcases Nat.lt_or_ge n 128 with short | long
    · have hn : (UInt8.ofNat n).toNat = n := UInt8.toNat_ofNat_of_lt (show _ < 256 by omega)
      have hb : UInt8.ofNat n < 0x80 := UInt8.lt_iff_toNat_lt.mpr (hn.symm ▸ short)
      rw [encodeLength, if_pos short, List.singleton_append, length?, if_pos hb, hn]
    · obtain ⟨b, shortest, hb, some, hcount⟩ := encodeLength_long long small
      have high : ¬b < 0x80 := by
        rw [UInt8.lt_iff_toNat_lt, hb]
        simp
      have hdigits : b.toNat - 128 = (Bytes.minimal n).length := by omega
      have fits : ¬((Bytes.minimal n).length = 0 ∨ 4 < (Bytes.minimal n).length ∨
          (Bytes.minimal n ++ rest).length < (Bytes.minimal n).length) := by
        rw [List.length_append]
        omega
      rw [shortest, List.cons_append, length?, if_neg high]
      dsimp only
      rw [hdigits, if_neg fits, List.take_left, List.drop_left, Bytes.toNat_minimal, if_pos shortest]

theorem read?_eq_some_iff : read? tag bytes = some (content, rest) ↔
    bytes = element tag content ++ rest ∧ content.length < 256 ^ 4 := by
  unfold element
  cases bytes with
  | nil => simp [read?]
  | cons b bytes =>
    rw [read?]
    by_cases hb : b = tag
    · subst hb
      simp only [if_true, Option.bind_eq_bind, Option.bind_eq_some_iff, Prod.exists,
        length?_eq_some_iff, Option.ite_none_right_eq_some, Option.some.injEq, Prod.mk.injEq,
        List.cons_append, List.cons.injEq, true_and, List.append_assoc]
      constructor
      · rintro ⟨n, tail, ⟨rfl, small⟩, fits, rfl, rfl⟩
        rw [List.length_take, Nat.min_eq_left fits, List.take_append_drop]
        exact ⟨rfl, small⟩
      · rintro ⟨rfl, small⟩
        exact ⟨_, _, ⟨rfl, small⟩, by simp, List.take_left, List.drop_left⟩
    · simp [hb]

theorem length_le_element (tag : UInt8) (content : Bytes) :
    content.length ≤ (element tag content).length := by
  simp only [element, List.length_cons, List.length_append]
  omega

theorem length_element_of_short (tag : UInt8) (short : content.length < 128) :
    (element tag content).length = content.length + 2 := by
  rw [element, encodeLength, if_pos short]
  rfl

theorem length_encodeLength_le (small : n < 256 ^ 4) : (encodeLength n).length ≤ 5 := by
  rcases Nat.lt_or_ge n 128 with short | long
  · rw [encodeLength, if_pos short, List.length_singleton]
    decide
  · obtain ⟨b, shortest, -, -, hcount⟩ := encodeLength_long long small
    rw [shortest, List.length_cons]
    omega

theorem length_element_le (tag : UInt8) (small : content.length < 256 ^ 4) :
    (element tag content).length ≤ content.length + 6 := by
  have hlength := length_encodeLength_le small
  simp only [element, List.length_cons, List.length_append]
  omega

theorem element_append_inj {content' rest' : Bytes} (small : content.length < 256 ^ 4)
    (small' : content'.length < 256 ^ 4)
    (h : element tag content ++ rest = element tag content' ++ rest') :
    content = content' ∧ rest = rest' := by
  have read : read? tag (element tag content ++ rest) = some (content, rest) :=
    read?_eq_some_iff.mpr ⟨rfl, small⟩
  rw [read?_eq_some_iff.mpr ⟨h, small'⟩] at read
  exact (Prod.mk.inj (Option.some.inj read)).imp Eq.symm Eq.symm

theorem element_inj {content' : Bytes} (small : (element tag content).length < 256 ^ 4)
    (h : element tag content = element tag content') : content = content' := by
  have short := length_le_element tag content
  have short' := length_le_element tag content'
  rw [← h] at short'
  rw [← List.append_nil (element tag content), ← List.append_nil (element tag content')] at h
  exact (element_append_inj (by omega) (by omega) h).1

theorem only?_eq_some_iff :
    only? tag bytes = some content ↔ bytes = element tag content ∧ content.length < 256 ^ 4 := by
  rw [← List.append_nil (element tag content), ← read?_eq_some_iff, only?]
  split
  · rename_i found
    simp [found]
  · rename_i other
    simp only [reduceCtorEq, false_iff]
    exact fun h => other content h

theorem toNat_zero_cons (bytes : Bytes) : Bytes.toNat (0 :: bytes) = Bytes.toNat bytes := by
  simp [Bytes.toNat_cons]

theorem encodeUnsigned_of_minimal {b : UInt8} (h : Bytes.minimal n = b :: rest) :
    encodeUnsigned n = if b < 0x80 then b :: rest else 0 :: b :: rest := by
  rw [encodeUnsigned, h]

theorem encodeUnsigned_zero : encodeUnsigned 0 = [0] := by
  rw [encodeUnsigned, Bytes.minimal_zero]

theorem length_encodeUnsigned_le (n : Nat) :
    (encodeUnsigned n).length ≤ (Bytes.minimal n).length + 1 := by
  cases digits : Bytes.minimal n with
  | nil => simp [encodeUnsigned, digits]
  | cons b rest =>
    rw [encodeUnsigned_of_minimal digits]
    split <;> simp

@[simp] theorem toNat_encodeUnsigned (n : Nat) : Bytes.toNat (encodeUnsigned n) = n := by
  cases digits : Bytes.minimal n with
  | nil =>
    obtain rfl : 0 = n := (Bytes.minimal_eq_iff.mp digits).1
    rw [encodeUnsigned_zero]
    rfl
  | cons b rest =>
    have hn := (Bytes.minimal_eq_iff.mp digits).1
    rw [encodeUnsigned_of_minimal digits]
    split
    · exact hn
    · rw [toNat_zero_cons, hn]

theorem lt_pow_length_encodeUnsigned (n : Nat) : n < 256 ^ (encodeUnsigned n).length := by
  simpa using Bytes.toNat_lt (encodeUnsigned n)

theorem unsigned?_encodeUnsigned (n : Nat) : unsigned? (encodeUnsigned n) = some n := by
  obtain ⟨digits, hdigits⟩ : ∃ digits, Bytes.minimal n = digits := ⟨_, rfl⟩
  obtain ⟨hn, front⟩ := Bytes.minimal_eq_iff.mp hdigits
  cases digits with
  | nil =>
    obtain rfl : 0 = n := hn
    rw [encodeUnsigned_zero, unsigned?]
  | cons b rest =>
    have hb : b ≠ 0 := fun zero => front (congrArg some zero)
    rw [encodeUnsigned_of_minimal hdigits]
    by_cases low : b < 0x80
    · rw [if_pos low, unsigned?, if_neg (UInt8.not_le.mpr low), if_neg fun padded => hb padded.1, hn]
      exact fun zero _ => hb zero
    · rw [if_neg low, unsigned?, if_neg (by decide), if_neg fun padded => low padded.2,
        toNat_zero_cons, hn]
      exact fun _ => nofun

theorem eq_encodeUnsigned (h : unsigned? content = some n) : content = encodeUnsigned n := by
  unfold unsigned? at h
  split at h
  · cases h
  · obtain rfl := Option.some.inj h
    rw [encodeUnsigned_zero]
  · rename_i b rest other
    split at h
    · cases h
    split at h
    · cases h
    rename_i low padded
    obtain rfl := Option.some.inj h
    by_cases zero : b = 0
    · -- The byte in front is there for the sign of the next one.
      subst zero
      cases rest with
      | nil => exact absurd rfl (other rfl)
      | cons c rest =>
        have high : ¬c < 0x80 := fun low => padded ⟨rfl, low⟩
        have digits : Bytes.minimal (Bytes.toNat (c :: rest)) = c :: rest := by
          refine Bytes.minimal_eq_iff.mpr ⟨rfl, fun h => high ?_⟩
          obtain rfl := Option.some.inj h
          decide
        rw [toNat_zero_cons, encodeUnsigned_of_minimal digits, if_neg high]
    · have digits : Bytes.minimal (Bytes.toNat (b :: rest)) = b :: rest :=
        Bytes.minimal_eq_iff.mpr ⟨rfl, fun h => zero (Option.some.inj h)⟩
      rw [encodeUnsigned_of_minimal digits, if_pos (UInt8.not_le.mp low)]

theorem unsigned?_eq_some_iff : unsigned? content = some n ↔ content = encodeUnsigned n :=
  ⟨eq_encodeUnsigned, fun h => h ▸ unsigned?_encodeUnsigned n⟩

theorem integer?_eq_some_iff : integer? bytes = some (n, rest) ↔
    bytes = integer n ++ rest ∧ (encodeUnsigned n).length < 256 ^ 4 := by
  simp only [integer?, Option.bind_eq_bind, Option.bind_eq_some_iff, Prod.exists,
    read?_eq_some_iff, unsigned?_eq_some_iff, Option.some.injEq, Prod.mk.injEq]
  constructor
  · rintro ⟨content, _, ⟨rfl, short⟩, m, rfl, rfl, rfl⟩
    exact ⟨rfl, short⟩
  · rintro ⟨rfl, short⟩
    exact ⟨_, _, ⟨rfl, short⟩, n, rfl, rfl, rfl⟩

theorem integerPair?_eq_some_iff : integerPair? bytes = some (m, n) ↔
    bytes = integerPair m n ∧ (integer m ++ integer n).length < 256 ^ 4 := by
  simp only [integerPair?, Option.bind_eq_bind, Option.bind_eq_some_iff, Prod.exists,
    only?_eq_some_iff, integer?_eq_some_iff, Option.ite_none_right_eq_some, Option.some.injEq,
    Prod.mk.injEq]
  constructor
  · rintro ⟨_, ⟨rfl, short⟩, m, _, ⟨rfl, -⟩, n, _, ⟨rfl, -⟩, rfl, rfl, rfl⟩
    rw [List.append_nil] at short ⊢
    exact ⟨rfl, short⟩
  · rintro ⟨rfl, short⟩
    have hm : (encodeUnsigned m).length ≤ (integer m).length := length_le_element _ _
    have hn : (encodeUnsigned n).length ≤ (integer n).length := length_le_element _ _
    have hpair : (integer m ++ integer n).length = (integer m).length + (integer n).length :=
      List.length_append
    exact ⟨_, ⟨rfl, short⟩, m, integer n, ⟨rfl, by omega⟩, n, [],
      ⟨(List.append_nil _).symm, by omega⟩, rfl, rfl, rfl⟩

end PaymentTrust.Der
