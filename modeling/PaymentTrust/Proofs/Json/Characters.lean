import Mathlib.Data.List.Perm.Basic
import PaymentTrust.Proofs.Json.Reordering
import PaymentTrust.Proofs.Text.Split

/-! Which characters a text has. Whatever is no printable ASCII in it comes from a character of a key or a
string, so what is written for these characters decides how far a text goes beyond that. -/
namespace PaymentTrust.Json

mutual

def strings : Json → List String
  | .string s => [s]
  | .array items => itemStrings items
  | .object members => memberStrings members
  | _ => []

def itemStrings : List Json → List String
  | [] => []
  | v :: rest => v.strings ++ itemStrings rest

def memberStrings : List (String × Json) → List String
  | [] => []
  | (k, v) :: rest => k :: (v.strings ++ memberStrings rest)

end

theorem itemStrings_eq_flatMap (items : List Json) : itemStrings items = items.flatMap strings := by
  induction items with
  | nil => rfl
  | cons v items ih => rw [itemStrings, ih, List.flatMap_cons]

theorem memberStrings_eq_flatMap (members : List (String × Json)) :
    memberStrings members = members.flatMap fun member => member.1 :: member.2.strings := by
  induction members with
  | nil => rfl
  | cons member members ih => rw [memberStrings, ih, List.flatMap_cons, List.cons_append]

theorem perm_strings_sorted (v : Json) (h : v.IsUnambiguous) : v.sorted.strings.Perm v.strings := by
  induction v using Json.induction with
  | array items ih =>
    rw [isUnambiguous_array] at h
    rw [sorted, strings, strings, itemStrings_eq_flatMap, itemStrings_eq_flatMap,
      sortedItems_eq_map, List.flatMap_map]
    exact .flatMap_left items fun v mem => ih v mem (h v mem)
  | object members ih =>
    rw [isUnambiguous_object] at h
    have inside : ((sortedMembers members).flatMap fun member => member.1 :: member.2.strings).Perm
        (members.flatMap fun member => member.1 :: member.2.strings) := by
      rw [sortedMembers_eq_map, List.flatMap_map]
      exact .flatMap_left members fun member mem => (ih member mem (h.2 member mem)).cons member.1
    rw [sorted, strings, strings, memberStrings_eq_flatMap, memberStrings_eq_flatMap]
    exact ((perm_sortMembers (haveDistinctKeys_sortedMembers.mpr h.1)).flatMap_right _).trans inside
  | _ => exact .refl _

section

variable (plain : Char → List Char)

def writeMember (member : String × Json) : List Char :=
  writeString plain member.1 ++ ':' :: write plain member.2

theorem writeItems_eq_intercalate (items : List Json) :
    writeItems plain items = [','].intercalate (items.map (write plain)) := by
  induction items with
  | nil => rfl
  | cons v items ih =>
    cases items with
    | nil => rw [writeItems, List.map_cons, List.map_nil, List.intercalate_singleton]
    | cons w items =>
      rw [writeItems, ih]
      · simp [List.intercalate_cons_cons]
      · exact List.cons_ne_nil w items

theorem writeMembers_eq_intercalate (members : List (String × Json)) :
    writeMembers plain members = [','].intercalate (members.map (writeMember plain)) := by
  induction members with
  | nil => rfl
  | cons member members ih =>
    cases members with
    | nil => rw [writeMembers, List.map_cons, List.map_nil, List.intercalate_singleton, writeMember]
    | cons next members =>
      rw [writeMembers, ih]
      · simp [List.intercalate_cons_cons, writeMember]
      · exact List.cons_ne_nil next members

end

theorem write_congr {plain plain' : Char → List Char} (v : Json)
    (h : ∀ s ∈ v.strings, ∀ c ∈ s.toList, escape plain c = escape plain' c) :
    write plain v = write plain' v := by
  have string : ∀ s : String, (∀ c ∈ s.toList, escape plain c = escape plain' c) →
      writeString plain s = writeString plain' s := by
    intro s h
    rw [writeString, writeString, List.flatMap_congr h]
  induction v using Json.induction with
  | string s =>
    rw [strings, List.forall_mem_singleton] at h
    rw [write, write, string s h]
  | array items ih =>
    rw [strings, itemStrings_eq_flatMap, List.forall_mem_flatMap] at h
    rw [write, write, writeItems_eq_intercalate, writeItems_eq_intercalate,
      List.map_congr_left fun v mem => ih v mem (h v mem)]
  | object members ih =>
    rw [strings, memberStrings_eq_flatMap, List.forall_mem_flatMap] at h
    have hmembers : ∀ member ∈ members, writeMember plain member = writeMember plain' member := by
      intro member mem
      obtain ⟨hkey, hvalue⟩ := List.forall_mem_cons.mp (h member mem)
      rw [writeMember, writeMember, string member.1 hkey, ih member mem hvalue]
    rw [write, write, writeMembers_eq_intercalate, writeMembers_eq_intercalate,
      List.map_congr_left hmembers]
  | bool b => cases b <;> rfl
  | _ => rfl

def IsPrintable (c : Char) : Prop :=
  0x20 ≤ c.toNat ∧ c.toNat ≤ 0x7e

instance (c : Char) : Decidable (IsPrintable c) :=
  inferInstanceAs (Decidable (_ ∧ _))

theorem isPrintable_digitChar {n : Nat} (h : n < 16) : IsPrintable (Nat.digitChar n) := by
  interval_cases n <;> decide

theorem isPrintable_of_mem_unitEscape {n : Nat} (h : n < 0x10000) {c : Char}
    (mem : c ∈ unitEscape n) : IsPrintable c := by
  rw [unitEscape_eq h] at mem
  simp only [List.mem_cons, List.not_mem_nil, or_false] at mem
  rcases mem with rfl | rfl | rfl | rfl | rfl | rfl
  · decide
  · decide
  all_goals exact isPrintable_digitChar (by omega)

theorem isPrintable_of_mem_writeInt {n : Int} {c : Char} (mem : c ∈ Numeral.writeInt n) :
    IsPrintable c := by
  have digit : ∀ c ∈ Nat.toDigits 10 n.natAbs, IsPrintable c := by
    intro c mem
    obtain ⟨_, low, high⟩ := Numeral.toNat_of_isDigit (Numeral.isDigit_toDigits mem)
    exact ⟨by omega, by omega⟩
  unfold Numeral.writeInt at mem
  split at mem
  · rcases List.mem_cons.mp mem with rfl | mem
    · decide
    · exact digit c mem
  · exact digit c mem

section

variable {plain : Char → List Char} {c : Char} (unprintable : ¬IsPrintable c)

include unprintable

theorem ne_of_isPrintable {d : Char} (h : IsPrintable d) : c ≠ d :=
  fun same => unprintable (same ▸ h)

theorem mem_writeString_iff (s : String) :
    c ∈ writeString plain s ↔ ∃ d ∈ s.toList, c ∈ escape plain d := by
  have quote : c ≠ '"' := ne_of_isPrintable unprintable (by decide)
  simp [writeString, quote]

theorem mem_writeItems_iff (items : List Json) :
    c ∈ writeItems plain items ↔ ∃ v ∈ items, c ∈ write plain v := by
  have comma : c ≠ ',' := ne_of_isPrintable unprintable (by decide)
  simp [writeItems_eq_intercalate, Text.mem_intercalate_iff comma]

theorem mem_writeMembers_iff (members : List (String × Json)) :
    c ∈ writeMembers plain members ↔ ∃ member ∈ members,
      (∃ d ∈ member.1.toList, c ∈ escape plain d) ∨ c ∈ write plain member.2 := by
  have comma : c ≠ ',' := ne_of_isPrintable unprintable (by decide)
  have colon : c ≠ ':' := ne_of_isPrintable unprintable (by decide)
  simp [writeMembers_eq_intercalate, Text.mem_intercalate_iff comma, writeMember, colon,
    mem_writeString_iff unprintable]

theorem mem_write_iff (v : Json) (h : v.IsIntegral) :
    c ∈ write plain v ↔ ∃ s ∈ v.strings, ∃ d ∈ s.toList, c ∈ escape plain d := by
  have literal : ∀ text : List Char, (text.all fun d => IsPrintable d) = true → c ∉ text :=
    fun text printable mem => unprintable (of_decide_eq_true (List.all_eq_true.mp printable c mem))
  have numeral : ∀ n, c ∉ Numeral.writeInt n :=
    fun n mem => unprintable (isPrintable_of_mem_writeInt mem)
  induction v using Json.induction with
  | null => simp [strings, write, literal ['n', 'u', 'l', 'l'] (by decide)]
  | bool b =>
    cases b
    · simp [strings, write, literal ['f', 'a', 'l', 's', 'e'] (by decide)]
    · simp [strings, write, literal ['t', 'r', 'u', 'e'] (by decide)]
  | number n =>
    cases n with
    | integer n => simp [strings, write, Number.write, numeral n]
    | real x =>
      rw [IsIntegral] at h
      exact h.elim
  | string s => simp [strings, write, mem_writeString_iff unprintable]
  | array items ih =>
    rw [IsIntegral, areIntegral_iff] at h
    have opening : c ≠ '[' := ne_of_isPrintable unprintable (by decide)
    have closing : c ≠ ']' := ne_of_isPrintable unprintable (by decide)
    have inside : c ∈ write plain (.array items) ↔ ∃ v ∈ items, c ∈ write plain v := by
      simp [write, mem_writeItems_iff unprintable, opening, closing]
    rw [inside, strings, itemStrings_eq_flatMap]
    simp only [List.mem_flatMap]
    constructor
    · rintro ⟨v, mem, hc⟩
      obtain ⟨s, hs, inner⟩ := (ih v mem (h v mem)).mp hc
      exact ⟨s, ⟨v, mem, hs⟩, inner⟩
    · rintro ⟨s, ⟨v, mem, hs⟩, inner⟩
      exact ⟨v, mem, (ih v mem (h v mem)).mpr ⟨s, hs, inner⟩⟩
  | object members ih =>
    rw [IsIntegral, membersAreIntegral_iff] at h
    have opening : c ≠ '\x7b' := ne_of_isPrintable unprintable (by decide)
    have closing : c ≠ '\x7d' := ne_of_isPrintable unprintable (by decide)
    have inside : c ∈ write plain (.object members) ↔ ∃ member ∈ members,
        (∃ d ∈ member.1.toList, c ∈ escape plain d) ∨ c ∈ write plain member.2 := by
      simp [write, mem_writeMembers_iff unprintable, opening, closing]
    rw [inside, strings, memberStrings_eq_flatMap]
    simp only [List.mem_flatMap]
    constructor
    · rintro ⟨member, mem, inner | hc⟩
      · exact ⟨member.1, ⟨member, mem, List.mem_cons_self⟩, inner⟩
      · obtain ⟨s, hs, inner⟩ := (ih member mem (h member mem)).mp hc
        exact ⟨s, ⟨member, mem, List.mem_cons_of_mem _ hs⟩, inner⟩
    · rintro ⟨s, ⟨member, mem, hs⟩, inner⟩
      rcases List.mem_cons.mp hs with rfl | hs
      · exact ⟨member, mem, .inl inner⟩
      · exact ⟨member, mem, .inr ((ih member mem (h member mem)).mpr ⟨s, hs, inner⟩)⟩

end

end PaymentTrust.Json
