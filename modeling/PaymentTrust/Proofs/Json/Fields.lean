import PaymentTrust.Proofs.Json.Record

/-! What an object that a record is read from looks like: no two of its members stand for the same
field, and the fields that the record cannot be made without are there. In a closed record, each member
stands for a field. -/
namespace PaymentTrust.Json

namespace Draft

theorem mem_ofMembers {members : List (String × Json)} {member : Option String × Draft} :
    member ∈ ofMembers members ↔ ∃ m ∈ members, (some m.1, ofJson m.2) = member := by
  induction members with
  | nil => simp [ofMembers]
  | cons m members ih => simp [ofMembers, ih, eq_comm]

end Draft

namespace Decoder

variable {α : Type} {decoder : Decoder α}

theorem of_eachItem {items : List Json} {values : List α}
    (h : decoder.eachItem (Draft.ofJsons items) = .ok values) :
    ∀ v ∈ items, ∃ a, decoder (Draft.ofJson v) = .ok a := by
  induction items generalizing values with
  | nil => nofun
  | cons v items ih =>
    obtain ⟨a, first, h⟩ := (Outcome.bind_eq_ok _ _ _).mp h
    obtain ⟨rest, later, -⟩ := (Outcome.bind_eq_ok _ _ _).mp h
    exact List.forall_mem_cons.mpr ⟨⟨a, first⟩, ih later⟩

end Decoder

namespace Record

variable {α β : Type}

/-- Whether the record is made only where there are values for the fields of these names. -/
class Requires (r : Record α) (names : outParam (List String)) : Prop where
  isSome_of_build {find : String → Option Draft} {absent : String → Fault} {a : α} :
    r.build find absent = .ok a → ∀ name ∈ names, (find name).isSome

instance (name : String) (aliases : List String) (byteCount : Option Nat) (decoder : Decoder α) :
    (field name aliases byteCount decoder none).Requires [name] where
  isSome_of_build {find absent a} h := by
    rw [List.forall_mem_singleton]
    simp only [field] at h
    cases hfind : find name with
    | none => simp [hfind] at h
    | some d => rfl

instance (name : String) (decoder : Decoder α) : (required name decoder).Requires [name] :=
  inferInstanceAs ((field name [] none decoder none).Requires [name])

instance (name : String) (aliases : List String) (decoder : Decoder α) :
    (requiredAs name aliases decoder).Requires [name] :=
  inferInstanceAs ((field name aliases none decoder none).Requires [name])

instance (name : String) (decoder : Decoder α) : (Record.optional name decoder).Requires [] where
  isSome_of_build _ := nofun

instance (name : String) (decoder : Decoder α) (default : α) :
    (withDefault name decoder default).Requires [] where
  isSome_of_build _ := nofun

instance (r : Record (α → β)) (s : Record α) (names names' : List String) [hr : r.Requires names]
    [hs : s.Requires names'] : (r <*> s).Requires (names ++ names') where
  isSome_of_build h := by
    rw [build_seq, Outcome.bind_eq_ok] at h
    obtain ⟨g, first, h⟩ := h
    obtain ⟨a, second, -⟩ := (Outcome.bind_eq_ok _ _ _).mp h
    rw [List.forall_mem_append]
    exact ⟨hr.isSome_of_build first, hs.isSome_of_build second⟩

instance (g : α → β) (r : Record α) (names : List String) [hr : r.Requires names] :
    (g <$> r).Requires names where
  isSome_of_build h := by
    rw [build_map, Outcome.bind_eq_ok] at h
    obtain ⟨a, made, -⟩ := h
    exact hr.isSome_of_build made

section

variable {r : Record α} {closed : Bool}

/-- A member that is accepted is the first to stand for its field, or it is passed over. -/
theorem scan_cons_eq_ok {seen : List String} {key : String} {d : Draft}
    {rest : List (Option String × Draft)}
    (h : r.scan closed seen ((some key, d) :: rest) = .ok ()) :
    (∃ f ∈ r.fields, key ∈ f.keys ∧ f.name ∉ seen ∧ f.check d = .ok () ∧
        r.scan closed (f.name :: seen) rest = .ok ()) ∨
      key ∉ r.keys ∧ closed = false ∧ r.scan closed seen rest = .ok () := by
  rw [scan] at h
  cases hfind : r.fields.find? (·.answersTo key) with
  | some f =>
    simp only [hfind] at h
    have answers := List.find?_some hfind
    split at h
    · cases h
    · rename_i fresh
      obtain ⟨checked, later⟩ := (Outcome.check_bind_eq_ok _ _ _).mp h
      exact .inl ⟨f, List.mem_of_find?_eq_some hfind, Field.answersTo_iff.mp answers,
        by simpa using fresh, checked, later⟩
  | none =>
    simp only [hfind] at h
    have unknown : key ∉ r.keys := by
      intro mem
      obtain ⟨f, hf, answers⟩ := List.mem_flatMap.mp mem
      exact List.find?_eq_none.mp hfind f hf (Field.answersTo_iff.mpr answers)
    split at h
    · cases h
    · rename_i opened
      split at h
      · exact .inr ⟨unknown, by simpa using opened, h⟩
      · cases h

theorem mem_keys_of_scan {seen : List String} {members : List (String × Json)}
    (h : r.scan true seen (Draft.ofMembers members) = .ok ()) :
    ∀ member ∈ members, member.1 ∈ r.keys := by
  induction members generalizing seen with
  | nil => nofun
  | cons member members ih =>
    rcases scan_cons_eq_ok h with ⟨f, hf, answers, -, -, later⟩ | ⟨-, opened, -⟩
    · exact List.forall_mem_cons.mpr ⟨List.mem_flatMap.mpr ⟨f, hf, answers⟩, ih later⟩
    · cases opened

section

variable (proper : r.keys.Nodup) {f : Field} (mem : f ∈ r.fields)

include proper mem

theorem notMem_keys_of_seen {seen : List String} {members : List (String × Json)}
    (h : r.scan closed seen (Draft.ofMembers members) = .ok ()) (met : f.name ∈ seen) :
    ∀ member ∈ members, member.1 ∉ f.keys := by
  induction members generalizing seen with
  | nil => nofun
  | cons member members ih =>
    rw [List.forall_mem_cons]
    rcases scan_cons_eq_ok h with ⟨g, hg, answers, fresh, -, later⟩ | ⟨unknown, -, later⟩
    · refine ⟨fun own => fresh ?_, ih later (List.mem_cons_of_mem _ met)⟩
      exact field_eq_of_mem_keys proper mem hg own answers ▸ met
    · exact ⟨fun own => unknown (List.mem_flatMap.mpr ⟨f, mem, own⟩), ih later met⟩

theorem eq_of_scan {seen : List String} {members : List (String × Json)}
    (h : r.scan closed seen (Draft.ofMembers members) = .ok ()) {key key' : String}
    (own : key ∈ f.keys) (own' : key' ∈ f.keys) (present : key ∈ members.map Prod.fst)
    (present' : key' ∈ members.map Prod.fst) : key = key' := by
  induction members generalizing seen with
  | nil => cases present
  | cons member members ih =>
    obtain ⟨k, v⟩ := member
    rw [List.map_cons, List.mem_cons] at present present'
    -- Where the first member stands for the field, no later one does.
    have alone {other : String} (first : k ∈ f.keys) (mem' : other ∈ members.map Prod.fst)
        (hother : other ∈ f.keys) : False := by
      obtain ⟨member, hmember, rfl⟩ := List.mem_map.mp mem'
      rcases scan_cons_eq_ok h with ⟨g, hg, answers, -, -, later⟩ | ⟨unknown, -, -⟩
      · obtain rfl := field_eq_of_mem_keys proper mem hg first answers
        exact notMem_keys_of_seen proper mem later List.mem_cons_self member hmember hother
      · exact unknown (List.mem_flatMap.mpr ⟨f, mem, first⟩)
    rcases present with rfl | present
    · rcases present' with rfl | present'
      · rfl
      · exact (alone own present' own').elim
    · rcases present' with rfl | present'
      · exact (alone own' present own).elim
      · rcases scan_cons_eq_ok h with ⟨_, -, -, -, -, later⟩ | ⟨-, -, later⟩
        · exact ih later present present'
        · exact ih later present present'

end

end

def StandsUnderOne (names : List String) (members : List (String × Json)) : Prop :=
  ∃! key, key ∈ names ∧ key ∈ members.map Prod.fst

theorem standsUnderOne_of_lookup {key : String} {members : List (String × Json)} {v : Json}
    (found : members.lookup key = some v) : StandsUnderOne [key] members := by
  obtain ⟨front, back, rfl, -⟩ := List.lookup_eq_some_iff.mp found
  exact ⟨key, ⟨List.mem_cons_self, by simp⟩, fun other h => List.mem_singleton.mp h.1⟩

theorem exists_key_of_lookup {r : Record α} {f : Field} {members : List (String × Json)}
    (proper : r.keys.Nodup) (mem : f ∈ r.fields)
    (found : (r.lookup (Draft.ofMembers members) f.name).isSome) :
    ∃ key ∈ f.keys, key ∈ members.map Prod.fst := by
  obtain ⟨d, found⟩ := Option.isSome_iff_exists.mp found
  simp only [lookup, find?_name proper mem, Option.map_eq_some_iff] at found
  obtain ⟨member, found, -⟩ := found
  obtain ⟨m, hm, rfl⟩ := Draft.mem_ofMembers.mp (List.mem_of_find?_eq_some found)
  have answers := List.find?_some found
  exact ⟨m.1, Field.answersTo_iff.mp (by simpa using answers), List.mem_map_of_mem hm⟩

theorem standsUnderOne_of_decodeMembers {r : Record α} {closed : Bool} {names : List String}
    [needs : r.Requires names] (proper : r.keys.Nodup) {members : List (String × Json)} {a : α}
    (h : r.decodeMembers closed (Draft.ofMembers members) = .ok a) {f : Field} (mem : f ∈ r.fields)
    (required : f.name ∈ names) : StandsUnderOne f.keys members := by
  obtain ⟨scanned, built⟩ := (Outcome.check_bind_eq_ok _ _ _).mp h
  obtain ⟨key, own, present⟩ :=
    exists_key_of_lookup proper mem (needs.isSome_of_build built f.name required)
  exact ⟨key, ⟨own, present⟩, fun key' h' => eq_of_scan proper mem scanned h'.1 own h'.2 present⟩

theorem standsUnderOne_of_mem_required {r : Record α} {closed : Bool} {names : List String}
    [needs : r.Requires names] (proper : r.keys.Nodup) {members : List (String × Json)} {a : α}
    (h : r.decodeMembers closed (Draft.ofMembers members) = .ok a) :
    ∀ keys ∈ (r.fields.filter (names.contains ·.name)).map Field.keys,
      StandsUnderOne keys members := by
  rw [List.forall_mem_map]
  intro f mem
  obtain ⟨mem, required⟩ := List.mem_filter.mp mem
  exact standsUnderOne_of_decodeMembers proper h mem (by simpa using required)

theorem check_of_decodeMembers {r : Record α} [r.Lawful] (plain : r.keys = r.names)
    (proper : r.keys.Nodup) {members : List (String × Json)} {a : α}
    (h : r.decodeMembers false (Draft.ofMembers members) = .ok a) {f : Field} (mem : f ∈ r.fields)
    {v : Json} (found : members.lookup f.name = some v) : f.check (Draft.ofJson v) = .ok () := by
  obtain ⟨-, built⟩ := (Outcome.check_bind_eq_ok _ _ _).mp h
  apply Lawful.check_of_build built f mem
  rw [lookup_ofMembers proper (admits_of_plain plain members) mem, found]
  rfl

theorem mem_keys_of_strict {r : Record α} {members : List (String × Json)} {a : α}
    (h : r.strict (Draft.ofJson (.object members)) = .ok a) :
    ∀ member ∈ members, member.1 ∈ r.keys :=
  mem_keys_of_scan ((Outcome.check_bind_eq_ok _ _ _).mp h).1

end Record

end PaymentTrust.Json
