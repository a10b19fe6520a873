import PaymentTrust.Text.Numeral

/-! Decimal numerals of words are read back as they were written, and all that is read are decimal
digits, maybe with a plus sign before them. -/
namespace PaymentTrust.Numeral

theorem digits?_toDigits (n : Nat) : digits? (Nat.toDigits 10 n) = some n := by
  have digits : (Nat.toDigits 10 n).all Char.isDigit = true := by
    rw [List.all_eq_true]
    exact fun c mem => Nat.isDigit_of_mem_toDigits (by decide) (by decide) mem
  unfold digits?
  split
  · rename_i empty
    exact absurd empty Nat.toDigits_ne_nil
  · rw [if_pos digits, Nat.ofDigitChars_ten_toDigits]

theorem digits?_eq_some_iff {text : List Char} {n : Nat} :
    digits? text = some n ↔
      text ≠ [] ∧ (∀ c ∈ text, c.isDigit = true) ∧ Nat.ofDigitChars 10 text 0 = n := by
  cases text with
  | nil => simp [digits?]
  | cons c text =>
    rw [digits?, Option.ite_none_right_eq_some, List.all_eq_true, Option.some.injEq]
    · exact ⟨fun h => ⟨List.cons_ne_nil c text, h⟩, And.right⟩
    · exact List.cons_ne_nil c text

/-- The text is one digit at least of a decimal numeral of the number, maybe after a plus sign. -/
def Denotes (text : List Char) (n : UInt64) : Prop :=
  ∃ digits, (text = digits ∨ text = '+' :: digits) ∧ digits ≠ [] ∧
    (∀ c ∈ digits, c.isDigit = true) ∧ Nat.ofDigitChars 10 digits 0 = n.toNat

theorem Denotes.getLast? {text : List Char} {n : UInt64} (denotes : Denotes text n) :
    ∃ c, text.getLast? = some c ∧ c.isDigit = true := by
  obtain ⟨digits, rfl | rfl, nonempty, isDigit, -⟩ := denotes
  · exact ⟨_, List.getLast?_eq_some_getLast nonempty, isDigit _ (List.getLast_mem nonempty)⟩
  · refine ⟨_, ?_, isDigit _ (List.getLast_mem nonempty)⟩
    rw [List.getLast?_cons_of_ne_nil nonempty, List.getLast?_eq_some_getLast nonempty]

theorem word_eq_some_iff {number : Option Nat} {n : UInt64} :
    (match number with
      | some m => if m < UInt64.size then some (UInt64.ofNat m) else none
      | none => none) = some n ↔ number = some n.toNat := by
  cases number with
  | none => simp
  | some m =>
    rw [Option.ite_none_right_eq_some, Option.some.injEq, Option.some.injEq]
    constructor
    · rintro ⟨hm, rfl⟩
      rw [UInt64.toNat_ofNat_of_lt' hm]
    · rintro rfl
      exact ⟨n.toNat_lt_size, UInt64.ofNat_toNat⟩

theorem read?_eq_some_iff {text : List Char} {n : UInt64} :
    read? text = some n ↔ Denotes text n := by
  unfold read? Denotes
  split
  · rename_i digits
    refine (word_eq_some_iff.trans digits?_eq_some_iff).trans ⟨fun h => ⟨digits, .inr rfl, h⟩, ?_⟩
    rintro ⟨_, rfl | h, denotes⟩
    · -- A plus sign is no digit.
      exact absurd (denotes.2.1 '+' List.mem_cons_self) (by decide)
    · obtain rfl := (List.cons.inj h).2
      exact denotes
  · rename_i unsigned
    refine (word_eq_some_iff.trans digits?_eq_some_iff).trans ⟨fun h => ⟨text, .inl rfl, h⟩, ?_⟩
    rintro ⟨digits, rfl | rfl, denotes⟩
    · exact denotes
    · exact absurd rfl (unsigned digits)

theorem isDigit_of_mem_write {n : UInt64} {c : Char} (mem : c ∈ (write n).toList) :
    c.isDigit = true := by
  rw [write, Nat.toList_repr] at mem
  exact Nat.isDigit_of_mem_toDigits (by decide) (by decide) mem

theorem read?_write (n : UInt64) : read? (write n).toList = some n := by
  -- A numeral that is written begins with a digit, so there is no sign to drop.
  have unsigned : ∀ rest, (write n).toList ≠ '+' :: rest := by
    intro rest h
    have digit : Char.isDigit '+' = true := isDigit_of_mem_write (h ▸ List.mem_cons_self)
    cases digit
  unfold read?
  split
  · rename_i rest h
    exact absurd h (unsigned rest)
  · rw [write, Nat.toList_repr]
    simp [digits?_toDigits, n.toNat_lt_size]

end PaymentTrust.Numeral
