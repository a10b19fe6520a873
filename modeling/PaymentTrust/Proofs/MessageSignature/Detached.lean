import PaymentTrust.MessageSignature.Detached
import PaymentTrust.Proofs.Bytes.Base64Reading
import PaymentTrust.Proofs.MessageSignature.Header
import PaymentTrust.Proofs.Text.Utf8

/-! Which headers carry a signature. The text between the colons is the base64 text of the bytes, and
blanks around it count for nothing; a text of blanks alone is not empty, but no bytes are read from it.
-/
namespace PaymentTrust

theorem Base64.isBlank_ofNat :
    ∀ n < 0x80, isBlank (UInt8.ofNat n) = Text.isAsciiBlank (Char.ofNat n) := by
  decide

theorem Text.toNat_of_isAsciiBlank {c : Char} (h : isAsciiBlank c = true) : c.toNat < 0x80 := by
  simp only [isAsciiBlank, Bool.or_eq_true, beq_iff_eq] at h
  rcases h with (((rfl | rfl) | rfl) | rfl) | rfl <;> decide

theorem Base64.forall_isBlank_char_iff {c : Char} :
    (∀ b ∈ String.utf8EncodeChar c, isBlank b = true) ↔ Text.isAsciiBlank c = true := by
  by_cases ascii : c.toNat < 0x80
  · rw [Utf8.utf8EncodeChar_of_ascii ascii, List.forall_mem_singleton, isBlank_ofNat _ ascii,
      Char.ofNat_toNat]
  · obtain ⟨b, more, spelled, high⟩ :=
      Utf8.exists_utf8EncodeChar_eq_cons (Nat.not_lt.mp ascii)
    refine ⟨fun blank => ?_, fun blank => absurd (Text.toNat_of_isAsciiBlank blank) ascii⟩
    have hb := blank b (spelled ▸ List.mem_cons_self)
    simp only [isBlank, Bool.or_eq_true, decide_eq_true_eq] at hb
    rcases hb with (((rfl | rfl) | rfl) | rfl) | rfl <;> exact absurd high (by decide)

theorem Base64.forall_isBlank_encode_iff {text : List Char} :
    (∀ b ∈ Utf8.encode text, isBlank b = true) ↔ ∀ c ∈ text, Text.isAsciiBlank c = true := by
  rw [Utf8.encode, List.forall_mem_flatMap]
  exact forall₂_congr fun c _ => forall_isBlank_char_iff

namespace DetachedSignature

theorem betweenColons?_eq_some_iff {value text : List Char} :
    betweenColons? value = some text ↔ value = ':' :: (text ++ [':']) ∧ text ≠ [] := by
  unfold betweenColons?
  constructor
  · intro h
    split at h
    · rename_i rest
      split at h
      · rename_i closed
        obtain ⟨inner, rfl⟩ := List.getLast?_eq_some_iff.mp closed.1
        obtain rfl := Option.some.inj h
        rw [List.dropLast_concat] at closed ⊢
        exact ⟨rfl, closed.2⟩
      · cases h
    · cases h
  · rintro ⟨rfl, nonempty⟩
    simp [nonempty]

def IsSplit (header label : String) (text : List Char) : Prop :=
  Text.trim header.toList = label.toList ++ '=' :: ':' :: (text ++ [':']) ∧ Label.IsValid label

/-- The header is the label with a base64 text of the bytes. -/
def Carries (header label : String) (bytes : Bytes) : Prop :=
  ∃ text, IsSplit header label text ∧ Base64.Spells (Utf8.encode text) bytes

def CarriesBlanks (header label : String) : Prop :=
  ∃ text, IsSplit header label text ∧ text ≠ [] ∧ ∀ c ∈ text, Text.isAsciiBlank c = true

theorem parse_eq_ok_iff {header : String} {s : DetachedSignature} :
    parse header = .ok s ↔
      ∃ text, IsSplit header s.label text ∧ text ≠ [] ∧ Base64.Spells (Utf8.encode text) s.bytes := by
  obtain ⟨label, bytes⟩ := s
  unfold parse IsSplit
  simp only [Outcome.bind_eq_ok, Outcome.mapError_eq_ok, Prod.exists, Label.split_eq_ok_iff]
  constructor
  · rintro ⟨label, value, ⟨split, valid⟩, h⟩
    cases hvalue : betweenColons? value with
    | none =>
      rw [hvalue] at h
      cases h
    | some text =>
      rw [hvalue] at h
      obtain ⟨rfl, nonempty⟩ := betweenColons?_eq_some_iff.mp hvalue
      simp only [Outcome.bind_eq_ok, Outcome.mapError_eq_ok, Base64.decodeEither_eq_ok_iff] at h
      obtain ⟨bytes, spells, made⟩ := h
      obtain ⟨rfl, rfl⟩ := DetachedSignature.mk.inj (Except.ok.inj made)
      exact ⟨text, ⟨split, valid⟩, nonempty, spells⟩
  · rintro ⟨text, ⟨split, valid⟩, nonempty, spells⟩
    refine ⟨label, _, ⟨split, valid⟩, ?_⟩
    rw [betweenColons?_eq_some_iff.mpr ⟨rfl, nonempty⟩]
    simp only [Outcome.bind_eq_ok, Outcome.mapError_eq_ok, Base64.decodeEither_eq_ok_iff]
    exact ⟨bytes, spells, rfl⟩

theorem carriesBlanks_iff {header label : String} :
    CarriesBlanks header label ↔
      ∃ text, IsSplit header label text ∧ text ≠ [] ∧ Base64.Spells (Utf8.encode text) [] := by
  simp only [CarriesBlanks, Base64.spells_nil_iff, Base64.forall_isBlank_encode_iff]

theorem parse_eq_ok_iff_carries {header : String} {s : DetachedSignature} :
    parse header = .ok s ↔
      (Carries header s.label s.bytes ∧ s.bytes ≠ []) ∨
        (CarriesBlanks header s.label ∧ s.bytes = []) := by
  obtain ⟨label, bytes⟩ := s
  rw [parse_eq_ok_iff, carriesBlanks_iff, Carries]
  by_cases empty : bytes = []
  · subst empty
    simp
  · -- No text at all is the text of no bytes.
    have nonempty : ∀ text, Base64.Spells (Utf8.encode text) bytes → text ≠ [] := by
      rintro _ spells rfl
      exact empty (spells.unique (Base64.spells_nil_iff.mpr nofun))
    simp only [empty, and_false, or_false, ne_eq, not_false_eq_true, and_true]
    exact exists_congr fun text => and_congr_right fun _ => and_iff_right_of_imp (nonempty text)

/-- A header is read as a label and bytes exactly if it carries them and there are any bytes, unless it
has blanks and nothing else between its colons: then it is read with no bytes. -/
theorem parse_carries_iff (header : String) :
    ((∀ s, parse header = .ok s ↔ Carries header s.label s.bytes ∧ s.bytes ≠ []) ↔
      ∀ label, ¬CarriesBlanks header label) ∧
    ∀ label, parse header = .ok ⟨label, []⟩ ↔ CarriesBlanks header label := by
  have blanks : ∀ label, parse header = .ok ⟨label, []⟩ ↔ CarriesBlanks header label := by
    intro label
    simp [parse_eq_ok_iff_carries]
  refine ⟨⟨fun reads label found => ?_, fun other s => ?_⟩, blanks⟩
  · exact ((reads _).mp ((blanks label).mpr found)).2 rfl
  · rw [parse_eq_ok_iff_carries]
    exact or_iff_left fun found => other s.label found.1

/-- A blank between the colons is read as a signature of no bytes. -/
theorem parse_blank : parse "sig2=: :" = .ok ⟨"sig2", []⟩ := by
  decide +kernel

end DetachedSignature

end PaymentTrust
