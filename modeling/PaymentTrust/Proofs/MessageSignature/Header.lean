import PaymentTrust.Proofs.MessageSignature.Parameter

/-! The header of a signature input. An input is read from it exactly if it falls into the input's label,
a list of its components and segments that spell its parameters. -/
namespace PaymentTrust

namespace Label

def IsValid (label : String) : Prop :=
  label ≠ "" ∧ ∀ c ∈ label.toList, c.isAlphanum = true ∨ c ∈ ['-', '_', '.', '*']

theorem isLabelChar_iff (c : Char) :
    isLabelChar c = true ↔ c.isAlphanum = true ∨ c ∈ ['-', '_', '.', '*'] := by
  simp [isLabelChar, or_assoc]

theorem isValid_iff (label : String) :
    IsValid label ↔ label.toList ≠ [] ∧ label.toList.all isLabelChar = true := by
  simp only [IsValid, ← isLabelChar_iff, List.all_eq_true, ne_eq, String.toList_eq_nil_iff]

instance (label : String) : Decidable (IsValid label) :=
  decidable_of_iff _ (isValid_iff label).symm

theorem IsValid.equals_not_mem {label : String} (valid : IsValid label) : '=' ∉ label.toList := by
  intro mem
  have allowed := valid.2 '=' mem
  revert allowed
  decide

theorem isBlank_eq_false {c : Char} (h : c.isAlphanum = true ∨ c ∈ ['-', '_', '.', '*']) :
    Text.isBlank c = false := by
  rcases h with h | h
  · unfold Char.isAlphanum Char.isAlpha Char.isUpper Char.isLower Char.isDigit at h
    simp only [UInt32.le_iff_toNat_le, Bool.or_eq_true, Bool.and_eq_true, decide_eq_true_eq,
      ge_iff_le] at h
    have ranges : (65 ≤ c.toNat ∧ c.toNat ≤ 90 ∨ 97 ≤ c.toNat ∧ c.toNat ≤ 122) ∨
        48 ≤ c.toNat ∧ c.toNat ≤ 57 := h
    simp only [Text.isBlank, Bool.or_eq_false_iff, Bool.and_eq_false_imp, decide_eq_true_eq,
      decide_eq_false_iff_not, Nat.not_le, beq_eq_false_iff_ne, ne_eq]
    omega
  · simp only [List.mem_cons, List.not_mem_nil, or_false] at h
    rcases h with rfl | rfl | rfl | rfl <;> rfl

theorem IsValid.exists_cons {label : String} (valid : IsValid label) :
    ∃ first rest, label.toList = first :: rest ∧ Text.isBlank first = false := by
  obtain ⟨first, rest, hlabel⟩ := List.exists_cons_of_ne_nil
    (mt String.toList_eq_nil_iff.mp valid.1)
  exact ⟨first, rest, hlabel, isBlank_eq_false (valid.2 first (hlabel ▸ List.mem_cons_self))⟩

theorem split_eq_ok_iff {header label : String} {value : List Char} :
    split header = .ok (label, value) ↔
      Text.trim header.toList = label.toList ++ '=' :: value ∧ IsValid label := by
  unfold split
  rw [isValid_iff]
  constructor
  · cases hsplit : Text.splitFirst '=' (Text.trim header.toList) with
    | none => nofun
    | some parts =>
      dsimp only
      split
      · rename_i valid
        rintro ⟨⟩
        rw [String.toList_ofList]
        exact ⟨(Text.splitFirst_eq_some_iff.mp hsplit).2, valid⟩
      · nofun
  · rintro ⟨text, valid⟩
    have unmarked := ((isValid_iff label).mpr valid).equals_not_mem
    rw [text, Text.splitFirst_eq_some_iff.mpr ⟨unmarked, rfl⟩]
    dsimp only
    rw [if_pos valid, String.ofList_toList]

end Label

namespace SignatureInput

theorem readComponent_eq_ok_iff {item : List Char} {name : String} :
    (match unquote? item with
      | some name => if name = "" then .error (.badComponent (String.ofList item)) else .ok name
      | none => .error (.badComponent (String.ofList item)) : Except SignatureInputFault String) =
        .ok name ↔
      item = (quote name).toList ∧ name ≠ "" ∧ Avoids ['"', '\\'] name := by
  rw [and_left_comm, ← unquote?_eq_some_iff]
  cases unquote? item with
  | none => simp
  | some read =>
    by_cases hread : read = ""
    · subst hread
      simp [eq_comm]
    · simp only [if_neg hread, Except.ok.injEq, Option.some.injEq]
      exact ⟨fun h => ⟨h ▸ hread, h⟩, And.right⟩

theorem parseComponents_eq_ok_iff {list : List Char} {names : List String} :
    parseComponents list = .ok names ↔
      Text.words list = names.map (fun name => (quote name).toList) ∧
        ∀ name ∈ names, name ≠ "" ∧ Avoids ['"', '\\'] name :=
  Outcome.mapM_eq_ok_iff fun _ _ => readComponent_eq_ok_iff

theorem require_eq_ok_iff {α : Type} {name : String} {place : Option α} {a : α} :
    Parameters.require name place = .ok a ↔ place = some a := by
  cases place <;> simp [Parameters.require]

theorem bind_segments_eq_ok {parameters : List Char}
    {rest : List (List Char) → Except SignatureInputFault SignatureInput} {i : SignatureInput} :
    (match parameters with
      | [] => pure [] >>= rest
      | ';' :: text => pure (Text.splitAll (· = ';') text) >>= rest
      | _ => throw SignatureInputFault.afterList >>= rest) = .ok i ↔
      ∃ segments, parameters = segments.flatMap (';' :: ·) ∧ (∀ segment ∈ segments, ';' ∉ segment) ∧
        rest segments = .ok i := by
  constructor
  · intro h
    split at h
    · exact ⟨[], rfl, nofun, h⟩
    · rename_i text
      rw [pure_bind] at h
      cases hsplit : Text.splitAll (· = ';') text with
      | nil => exact absurd hsplit (Text.splitAll_ne_nil _ text)
      | cons first more =>
        obtain ⟨rfl, unbroken⟩ := Text.splitAll_eq_cons_iff.mp hsplit
        exact ⟨first :: more, rfl, unbroken, hsplit ▸ h⟩
    · cases h
  · rintro ⟨segments, rfl, unbroken, h⟩
    cases segments with
    | nil => exact h
    | cons first more =>
      have hsplit := Text.splitAll_eq_cons_iff.mpr ⟨rfl, unbroken⟩
      rw [List.flatMap_cons, List.cons_append]
      change rest (Text.splitAll (· = ';') (first ++ more.flatMap (';' :: ·))) = .ok i
      rw [hsplit]
      exact h

def toParameters (i : SignatureInput) : Parameters :=
  ⟨some i.created, some i.expires, some i.keyId, some i.algorithm, some i.nonce, some i.tag⟩

/-- The parts that the text of a header falls into when the input is read from it. -/
structure IsReadFrom (i : SignatureInput) (text list : List Char) (segments : List (List Char)) :
    Prop where
  text_eq : text =
    i.label.toList ++ '=' :: '(' :: (list ++ ')' :: segments.flatMap (';' :: ·))
  label : Label.IsValid i.label
  unclosed : ')' ∉ list
  unbroken : ∀ segment ∈ segments, ';' ∉ segment
  components : parseComponents list = .ok i.components
  parameters : segments.foldlM Parameters.add .empty = .ok i.toParameters

theorem parse_eq_ok_iff {header : String} {i : SignatureInput} :
    parse header = .ok i ↔
      ∃ list segments, i.IsReadFrom (Text.trim header.toList) list segments := by
  unfold parse
  simp only [Outcome.bind_eq_ok, Outcome.mapError_eq_ok, Prod.exists, Label.split_eq_ok_iff]
  constructor
  · rintro ⟨label, value, ⟨text, valid⟩, h⟩
    -- A list that is not opened or not closed is refused.
    split at h
    case h_2 => cases h
    split at h
    case h_2 => cases h
    rename_i list parameters hsplit
    obtain ⟨unclosed, rfl⟩ := Text.splitFirst_eq_some_iff.mp hsplit
    obtain ⟨segments, rfl, unbroken, h⟩ := bind_segments_eq_ok.mp h
    simp only [Outcome.bind_eq_ok, require_eq_ok_iff, Outcome.pure_eq_ok] at h
    obtain ⟨⟨_, _, _, _, _, _⟩, parameters, names, components, _, rfl, _, rfl, _, rfl, _, rfl, _,
      rfl, _, rfl, rfl⟩ := h
    exact ⟨list, segments, text, valid, unclosed, unbroken, components, parameters⟩
  · rintro ⟨list, segments, read⟩
    refine ⟨i.label, _, ⟨read.text_eq, read.label⟩, ?_⟩
    simp only [Text.splitFirst_eq_some_iff.mpr ⟨read.unclosed, rfl⟩]
    refine bind_segments_eq_ok.mpr ⟨segments, rfl, read.unbroken, ?_⟩
    simp only [Outcome.bind_eq_ok, require_eq_ok_iff, Outcome.pure_eq_ok]
    exact ⟨_, read.parameters, _, read.components, _, rfl, _, rfl, _, rfl, _, rfl, _, rfl, _, rfl,
      rfl⟩

end SignatureInput

end PaymentTrust
