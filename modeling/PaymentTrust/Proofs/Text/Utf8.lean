import Mathlib.Tactic.IntervalCases
import PaymentTrust.Text.Utf8

/-! Reading UTF-8 undoes writing it: the machine gives each character back from its bytes, and then is
ready for the next. -/
namespace PaymentTrust.Utf8

@[simp] theorem encode_append (text more : List Char) :
    encode (text ++ more) = encode text ++ encode more :=
  List.flatMap_append

theorem encode_cons (c : Char) (text : List Char) :
    encode (c :: text) = String.utf8EncodeChar c ++ encode text :=
  List.flatMap_cons

theorem utf8EncodeChar_of_ascii {c : Char} (ascii : c.toNat < 0x80) :
    String.utf8EncodeChar c = [UInt8.ofNat c.toNat] := by
  unfold String.utf8EncodeChar
  exact if_pos (Nat.le_of_lt_succ ascii)

theorem length_encode_of_ascii {text : List Char} (ascii : ∀ c ∈ text, c.toNat < 0x80) :
    (encode text).length = text.length := by
  induction text with
  | nil => rfl
  | cons c text ih =>
    obtain ⟨hc, hrest⟩ := List.forall_mem_cons.mp ascii
    rw [encode_cons, utf8EncodeChar_of_ascii hc, List.singleton_append, List.length_cons, ih hrest,
      List.length_cons]

theorem le_toNat_of_mem_utf8EncodeChar {c : Char} (beyond : 0x80 ≤ c.toNat) :
    ∀ b ∈ String.utf8EncodeChar c, 0x80 ≤ b.toNat := by
  have hhigh {n : Nat} (low : 0x80 ≤ n) (high : n < 0x100) : 0x80 ≤ (UInt8.ofNat n).toNat := by
    have hn : (UInt8.ofNat n).toNat = n := UInt8.toNat_ofNat_of_lt high
    rwa [hn]
  have hvalid : c.val.toNat < 0xd800 ∨ 0xdfff < c.val.toNat ∧ c.val.toNat < 0x110000 := c.valid
  unfold String.utf8EncodeChar
  change 0x80 ≤ c.val.toNat at beyond
  generalize c.val.toNat = v at beyond hvalid
  dsimp only
  split_ifs with one two three
  · omega
  all_goals
    simp only [List.forall_mem_cons, List.not_mem_nil, false_implies, implies_true, and_true]
  · exact ⟨hhigh (by omega) (by omega), hhigh (by omega) (by omega)⟩
  · exact ⟨hhigh (by omega) (by omega), hhigh (by omega) (by omega), hhigh (by omega) (by omega)⟩
  · exact ⟨hhigh (by omega) (by omega), hhigh (by omega) (by omega), hhigh (by omega) (by omega),
      hhigh (by omega) (by omega)⟩

theorem exists_utf8EncodeChar_eq_cons {c : Char} (beyond : 0x80 ≤ c.toNat) :
    ∃ b more, String.utf8EncodeChar c = b :: more ∧ 0x80 ≤ b.toNat := by
  have nonempty : String.utf8EncodeChar c ≠ [] := String.utf8EncodeChar_ne_nil
  obtain ⟨b, more, spelled⟩ := List.exists_cons_of_ne_nil nonempty
  have high := le_toNat_of_mem_utf8EncodeChar beyond b (spelled ▸ List.mem_cons_self)
  exact ⟨b, more, spelled, high⟩

theorem exists_of_encode_eq_cons {text : List Char} {b : UInt8} {rest : Bytes}
    (ascii : b.toNat < 0x80) (h : encode text = b :: rest) :
    ∃ more, text = Char.ofNat b.toNat :: more ∧ encode more = rest := by
  cases text with
  | nil => cases h
  | cons c text =>
    rw [encode_cons] at h
    rcases Nat.lt_or_ge c.toNat 0x80 with low | beyond
    · rw [utf8EncodeChar_of_ascii low, List.singleton_append, List.cons.injEq] at h
      obtain ⟨rfl, rfl⟩ := h
      have hc : (UInt8.ofNat c.toNat).toNat = c.toNat :=
        UInt8.toNat_ofNat_of_lt (by simp only [UInt8.size]; omega)
      exact ⟨text, by rw [hc, Char.ofNat_toNat], rfl⟩
    · obtain ⟨b', more, spelled, high⟩ := exists_utf8EncodeChar_eq_cons beyond
      rw [spelled, List.cons_append, List.cons.injEq] at h
      rw [h.1] at high
      omega

theorem start_one {n : Nat} (h : n ≤ 127) : start (UInt8.ofNat n) = .whole (Char.ofNat n) := by
  have hn : (UInt8.ofNat n).toNat = n := UInt8.toNat_ofNat_of_lt (by simp only [UInt8.size]; omega)
  have hlt : UInt8.ofNat n < 0x80 := by
    rw [UInt8.lt_iff_toNat_lt, hn]
    exact Nat.lt_succ_of_le h
  unfold start
  rw [if_pos hlt, hn]

theorem start_two {n : Nat} (low : 2 ≤ n) (high : n < 32) :
    start (UInt8.ofNat (n % 32 + 192)) = .begun ⟨n, 1, 0x80, 0xbf⟩ := by
  interval_cases n <;> rfl

/-- The second byte is kept from overlong forms and from surrogates. -/
theorem start_three {n : Nat} (high : n < 16) :
    start (UInt8.ofNat (n % 16 + 224)) =
      .begun ⟨n, 2, if n = 0 then 0xa0 else 0x80, if n = 13 then 0x9f else 0xbf⟩ := by
  interval_cases n <;> rfl

/-- The second byte is kept from overlong forms and from numbers beyond the last character. -/
theorem start_four {n : Nat} (high : n ≤ 4) :
    start (UInt8.ofNat (n % 8 + 240)) =
      .begun ⟨n, 3, if n = 0 then 0x90 else 0x80, if n = 4 then 0x8f else 0xbf⟩ := by
  interval_cases n <;> rfl

theorem pieces_begun {b : UInt8} {p : Pending} (h : start b = .begun p) (rest : Bytes) :
    pieces none (b :: rest) = pieces (some p) rest := by
  simp only [pieces, h]

/-- A byte with the next six bits, in the range that is asked for; after it any six bits may follow.
-/
theorem pieces_more {bits owed n : Nat} {low high : UInt8} (rest : Bytes)
    (hlow : low.toNat ≤ n % 64 + 128) (hhigh : n % 64 + 128 ≤ high.toNat) :
    pieces (some ⟨bits, owed + 2, low, high⟩) (UInt8.ofNat (n % 64 + 128) :: rest) =
      pieces (some ⟨bits * 64 + n % 64, owed + 1, 0x80, 0xbf⟩) rest := by
  have hn : (UInt8.ofNat (n % 64 + 128)).toNat = n % 64 + 128 :=
    UInt8.toNat_ofNat_of_lt (by simp only [UInt8.size]; omega)
  have hbits : (n % 64 + 128) % 64 = n % 64 := by omega
  have howed : ¬owed + 2 ≤ 1 := by omega
  simp only [pieces, UInt8.le_iff_toNat_le, hn, hlow, hhigh, and_self, if_true, hbits, howed,
    if_false]
  rfl

theorem pieces_last {bits n : Nat} (rest : Bytes) :
    pieces (some ⟨bits, 1, 0x80, 0xbf⟩) (UInt8.ofNat (n % 64 + 128) :: rest) =
      some (Char.ofNat (bits * 64 + n % 64)) :: pieces none rest := by
  have hn : (UInt8.ofNat (n % 64 + 128)).toNat = n % 64 + 128 :=
    UInt8.toNat_ofNat_of_lt (by simp only [UInt8.size]; omega)
  have hbits : (n % 64 + 128) % 64 = n % 64 := by omega
  have hrange : 128 ≤ n % 64 + 128 ∧ n % 64 + 128 ≤ 191 := by omega
  simp only [pieces, UInt8.le_iff_toNat_le, hn, UInt8.reduceToNat, hrange, and_self, if_true, hbits,
    Nat.le_refl]

theorem pieces_utf8EncodeChar (c : Char) (rest : Bytes) :
    pieces none (String.utf8EncodeChar c ++ rest) = some c :: pieces none rest := by
  have hc : Char.ofNat c.val.toNat = c := Char.ofNat_toNat c
  have hvalid : c.val.toNat < 0xd800 ∨ 0xdfff < c.val.toNat ∧ c.val.toNat < 0x110000 := c.valid
  unfold String.utf8EncodeChar
  generalize c.val.toNat = v at hc hvalid
  have hv : v / 64 * 64 + v % 64 = v := by omega
  dsimp only
  -- One case for each number of bytes; the bits that they carry make up the character's number.
  split_ifs with one two three
  · rw [List.singleton_append, pieces, start_one one, hc]
  · rw [List.cons_append, pieces_begun (start_two (by omega) (by omega)), List.singleton_append,
      pieces_last, hv, hc]
  · have hsecond : v / 4096 * 64 + v / 64 % 64 = v / 64 := by omega
    rw [List.cons_append, pieces_begun (start_three (by omega)), List.cons_append, pieces_more,
      hsecond, List.singleton_append, pieces_last, hv, hc]
    all_goals
      split <;> simp only [UInt8.reduceToNat] <;> omega
  · have hsecond : v / 262144 * 64 + v / 4096 % 64 = v / 4096 := by omega
    have hthird : v / 4096 * 64 + v / 64 % 64 = v / 64 := by omega
    rw [List.cons_append, pieces_begun (start_four (by omega)), List.cons_append, pieces_more,
      hsecond, List.cons_append, pieces_more, hthird, List.singleton_append, pieces_last, hv, hc]
    · exact Nat.le_add_left 128 _
    · exact (by omega : v / 64 % 64 + 128 ≤ 191)
    all_goals
      split <;> simp only [UInt8.reduceToNat] <;> omega

theorem pieces_encode (text : List Char) : pieces none (encode text) = text.map some := by
  induction text with
  | nil => rfl
  | cons c text ih =>
    rw [encode_cons, pieces_utf8EncodeChar, ih, List.map_cons]

@[simp] theorem decode?_encode (text : List Char) : decode? (encode text) = some text := by
  unfold decode?
  rw [pieces_encode, List.mapM_map]
  induction text with
  | nil => rfl
  | cons c text ih =>
    rw [List.mapM_cons, ih]
    rfl

theorem encode_injective {text text' : List Char} (h : encode text = encode text') :
    text = text' := by
  have decoded := congrArg decode? h
  rwa [decode?_encode, decode?_encode, Option.some.injEq] at decoded

theorem encode_map_ofNat {bytes : Bytes} (ascii : ∀ b ∈ bytes, b.toNat < 0x80) :
    encode (bytes.map fun b => Char.ofNat b.toNat) = bytes := by
  induction bytes with
  | nil => rfl
  | cons b bytes ih =>
    obtain ⟨hb, hrest⟩ := List.forall_mem_cons.mp ascii
    have hc : (Char.ofNat b.toNat).toNat = b.toNat := by
      rw [Char.ofNat, dif_pos (Or.inl (by omega))]
      rfl
    rw [List.map_cons, encode_cons, utf8EncodeChar_of_ascii (by omega), hc, ih hrest,
      UInt8.ofNat_toNat, List.singleton_append]

end PaymentTrust.Utf8
