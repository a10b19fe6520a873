import PaymentTrust.Json.Record
import PaymentTrust.Proofs.Json.Induction
import PaymentTrust.Proofs.Json.Members
import PaymentTrust.Proofs.Text.Numeral
import PaymentTrust.Proofs.Verdict

/-! Reading a record from the members of an object, whatever their order. -/
namespace PaymentTrust.Json

namespace Draft

theorem areWhole_ofJsons {items : List Json} (h : ∀ v ∈ items, (ofJson v).isWhole = true) :
    areWhole (ofJsons items) = true := by
  induction items with
  | nil => rfl
  | cons v items ih =>
    obtain ⟨hfirst, hrest⟩ := List.forall_mem_cons.mp h
    rw [ofJsons, areWhole, hfirst, ih hrest, Bool.and_self]

theorem membersAreWhole_ofMembers {members : List (String × Json)}
    (h : ∀ member ∈ members, (ofJson member.2).isWhole = true) :
    membersAreWhole (ofMembers members) = true := by
  induction members with
  | nil => rfl
  | cons member members ih =>
    obtain ⟨hfirst, hrest⟩ := List.forall_mem_cons.mp h
    rw [ofMembers, membersAreWhole, hfirst, ih hrest, Bool.and_self]

@[simp] theorem isWhole_ofJson (v : Json) : (ofJson v).isWhole = true := by
  induction v using Json.induction with
  | array items ih => rw [ofJson, isWhole, areWhole_ofJsons ih]
  | object members ih => rw [ofJson, isWhole, membersAreWhole_ofMembers ih]
  | _ => rfl

end Draft

namespace Decoder

theorem amount_integer (n : UInt64) : amount (.number (some (.integer n.toNat))) = .ok n := by
  have hrange : 0 ≤ (n.toNat : Int) ∧ (n.toNat : Int) < UInt64.size :=
    ⟨Int.natCast_nonneg _, Int.ofNat_lt.mpr n.toNat_lt_size⟩
  change (below UInt64.size (.number (some (.integer n.toNat)))).map UInt64.ofNat = .ok n
  rw [below, if_pos hrange, Except.map, Int.toNat_natCast, UInt64.ofNat_toNat]

theorem amount_write (n : UInt64) : amount (.string (some (Numeral.write n))) = .ok n := by
  simp only [amount, Numeral.read?_write]

theorem word32_integer (n : UInt32) : word32 (.number (some (.integer n.toNat))) = .ok n := by
  have hrange : 0 ≤ (n.toNat : Int) ∧ (n.toNat : Int) < UInt32.size :=
    ⟨Int.natCast_nonneg _, Int.ofNat_lt.mpr n.toNat_lt_size⟩
  rw [word32, below, if_pos hrange, Except.map, Int.toNat_natCast, UInt32.ofNat_toNat]

end Decoder

def Field.keys (f : Field) : List String := f.name :: f.aliases

theorem Field.answersTo_iff {f : Field} {key : String} :
    f.answersTo key = true ↔ key ∈ f.keys := by
  simp [answersTo, keys]

namespace Record

variable {α β : Type}

def keys (r : Record α) : List String := r.fields.flatMap Field.keys

def names (r : Record α) : List String := r.fields.map (·.name)

/-- A record is made of the values of its fields and of nothing else, and where it is made, each
value that was used passes the test of its field. -/
class Lawful (r : Record α) : Prop where
  build_congr {find find' : String → Option Draft} (absent : String → Fault) :
    (∀ f ∈ r.fields, find f.name = find' f.name) → r.build find absent = r.build find' absent
  check_of_build {find : String → Option Draft} {absent : String → Fault} {a : α} :
    r.build find absent = .ok a → ∀ f ∈ r.fields, ∀ d, find f.name = some d → f.check d = .ok ()

instance (name : String) (aliases : List String) (byteCount : Option Nat) (decoder : Decoder α)
    (default? : Option α) : (field name aliases byteCount decoder default?).Lawful where
  build_congr absent h := by
    have hname := h _ (List.mem_singleton_self _)
    simp only [field] at hname ⊢
    rw [hname]
  check_of_build {find absent a} h f mem d found := by
    obtain rfl := List.mem_singleton.mp mem
    simp only [field] at h found ⊢
    rw [found] at h
    simp only at h
    rw [h]
    rfl

instance (name : String) (decoder : Decoder α) : (required name decoder).Lawful :=
  inferInstanceAs (field name [] none decoder none).Lawful

instance (name : String) (aliases : List String) (decoder : Decoder α) :
    (requiredAs name aliases decoder).Lawful :=
  inferInstanceAs (field name aliases none decoder none).Lawful

instance (name : String) (decoder : Decoder α) : (Record.optional name decoder).Lawful :=
  inferInstanceAs (field name [] none decoder.nullable (some none)).Lawful

instance (name : String) (decoder : Decoder α) (default : α) :
    (withDefault name decoder default).Lawful :=
  inferInstanceAs (field name [] none decoder (some default)).Lawful

theorem build_seq (r : Record (α → β)) (s : Record α) (find : String → Option Draft)
    (absent : String → Fault) : (r <*> s).build find absent = (do
      let g ← r.build find absent
      let a ← s.build find absent
      return g a) :=
  rfl

theorem fields_seq (r : Record (α → β)) (s : Record α) : (r <*> s).fields = r.fields ++ s.fields :=
  rfl

theorem build_map (g : α → β) (r : Record α) (find : String → Option Draft)
    (absent : String → Fault) : (g <$> r).build find absent = (do
      let a ← r.build find absent
      return g a) :=
  rfl

theorem fields_map (g : α → β) (r : Record α) : (g <$> r).fields = r.fields :=
  rfl

instance (r : Record (α → β)) (s : Record α) [r.Lawful] [s.Lawful] : (r <*> s).Lawful where
  build_congr absent h := by
    rw [fields_seq, List.forall_mem_append] at h
    rw [build_seq, build_seq, Lawful.build_congr absent h.1, Lawful.build_congr absent h.2]
  check_of_build h := by
    rw [build_seq, Outcome.bind_eq_ok] at h
    obtain ⟨g, hr, h⟩ := h
    obtain ⟨a, hs, -⟩ := (Outcome.bind_eq_ok _ _ _).mp h
    rw [fields_seq, List.forall_mem_append]
    exact ⟨Lawful.check_of_build hr, Lawful.check_of_build hs⟩

instance (g : α → β) (r : Record α) [r.Lawful] : (g <$> r).Lawful where
  build_congr absent h := by
    rw [fields_map] at h
    rw [build_map, build_map, Lawful.build_congr absent h]
  check_of_build h := by
    rw [build_map, Outcome.bind_eq_ok] at h
    obtain ⟨a, hr, -⟩ := h
    rw [fields_map]
    exact Lawful.check_of_build hr

def Makes (r : Record α) (find : String → Option Draft) (a : α) : Prop :=
  ∀ absent, r.build find absent = .ok a

section

variable {find : String → Option Draft}

theorem Makes.seq {r : Record (α → β)} {s : Record α} {g : α → β} {a : α} (hr : r.Makes find g)
    (hs : s.Makes find a) : (r <*> s).Makes find (g a) := by
  intro absent
  rw [build_seq, hr, hs]
  rfl

theorem Makes.map {r : Record α} {a : α} (g : α → β) (h : r.Makes find a) :
    (g <$> r).Makes find (g a) := by
  intro absent
  rw [build_map, h]
  rfl

variable {name : String} {decoder : Decoder α} {d : Draft} {a : α}

theorem makes_required (found : find name = some d) (reads : decoder d = .ok a) :
    (required name decoder).Makes find a := by
  intro absent
  simp only [required, field, found, reads]

theorem makes_requiredAs {aliases : List String} (found : find name = some d)
    (reads : decoder d = .ok a) : (requiredAs name aliases decoder).Makes find a := by
  intro absent
  simp only [requiredAs, field, found, reads]

theorem makes_withDefault {default : α} (found : find name = some d) (reads : decoder d = .ok a) :
    (withDefault name decoder default).Makes find a := by
  intro absent
  simp only [withDefault, field, found, reads]

theorem makes_optional (found : find name = some d) (reads : decoder.nullable d = .ok (some a)) :
    (Record.optional name decoder).Makes find (some a) := by
  intro absent
  simp only [Record.optional, field, found, reads]

theorem makes_absent (absent : find name = none) :
    (Record.optional name decoder).Makes find none := by
  intro _
  simp only [Record.optional, field, absent]

theorem makes_optionalText {value : Option String}
    (found : find name = value.map fun s => .string (some s)) :
    (Record.optional name .text).Makes find value := by
  cases value with
  | none => exact makes_absent found
  | some s => exact makes_optional found rfl

end

theorem find?_eq_some {fields : List Field} (proper : (fields.flatMap Field.keys).Nodup)
    {p : Field → Bool} {f : Field} (mem : f ∈ fields) (own : p f = true)
    (shared : ∀ g ∈ fields, p g = true → ∃ key ∈ g.keys, key ∈ f.keys) :
    fields.find? p = some f := by
  induction fields with
  | nil => exact absurd mem List.not_mem_nil
  | cons g fields ih =>
    rw [List.flatMap_cons, List.nodup_append] at proper
    obtain ⟨-, hrest, hdisjoint⟩ := proper
    rcases List.mem_cons.mp mem with rfl | mem
    · exact List.find?_cons_of_pos own
    · have hother : ¬p g = true := by
        intro hg
        obtain ⟨key, hkey, hkey'⟩ := shared g List.mem_cons_self hg
        exact hdisjoint key hkey key (List.mem_flatMap.mpr ⟨f, mem, hkey'⟩) rfl
      rw [List.find?_cons_of_neg hother]
      exact ih hrest mem fun g mem => shared g (List.mem_cons_of_mem _ mem)

section

variable {r : Record α} (proper : r.keys.Nodup) {f : Field} (mem : f ∈ r.fields)

include proper mem

theorem find?_answersTo {key : String} (answers : key ∈ f.keys) :
    r.fields.find? (·.answersTo key) = some f := by
  apply find?_eq_some proper mem (Field.answersTo_iff.mpr answers)
  intro g _ hg
  exact ⟨key, Field.answersTo_iff.mp hg, answers⟩

theorem field_eq_of_mem_keys {g : Field} (mem' : g ∈ r.fields) {key : String}
    (answers : key ∈ f.keys) (answers' : key ∈ g.keys) : f = g :=
  Option.some.inj
    ((find?_answersTo proper mem answers).symm.trans (find?_answersTo proper mem' answers'))

theorem find?_name : r.fields.find? (·.name == f.name) = some f := by
  apply find?_eq_some proper mem (beq_self_eq_true f.name)
  intro g _ hg
  exact ⟨f.name, eq_of_beq hg ▸ List.mem_cons_self, List.mem_cons_self⟩

theorem eq_name_of_mem_keys {key : String} (answers : key ∈ f.keys) (named : key ∈ r.names) :
    key = f.name := by
  obtain ⟨g, hg, rfl⟩ := List.mem_map.mp named
  rw [field_eq_of_mem_keys proper mem hg answers List.mem_cons_self]

end

theorem names_sublist_keys (r : Record α) : r.names.Sublist r.keys := by
  have h (fields : List Field) : (fields.map (·.name)).Sublist (fields.flatMap Field.keys) := by
    induction fields with
    | nil => exact List.Sublist.refl []
    | cons f fields ih =>
      rw [List.map_cons, List.flatMap_cons, Field.keys, List.cons_append]
      exact (ih.trans (List.sublist_append_right _ _)).cons_cons f.name
  exact h r.fields

theorem haveDistinctKeys_of_sublist {r : Record α} (proper : r.keys.Nodup)
    {members : List (String × Json)} (keys : (members.map Prod.fst).Sublist r.names) :
    HaveDistinctKeys members :=
  proper.sublist (keys.trans r.names_sublist_keys)

/-- Each member stands under the name of a field, or else it is no field's and such members are
passed over. -/
def Admits (r : Record α) (closed : Bool) (members : List (String × Json)) : Prop :=
  ∀ member ∈ members, member.1 ∈ r.names ∨ closed = false ∧ member.1 ∉ r.keys

theorem admits_of_plain {r : Record α} (plain : r.keys = r.names)
    (members : List (String × Json)) : r.Admits false members := by
  intro member _
  rw [plain]
  exact (em (member.1 ∈ r.names)).imp_right fun unknown => ⟨rfl, unknown⟩

section

variable {r : Record α} {closed : Bool} {members : List (String × Json)}
  (proper : r.keys.Nodup) (admits : r.Admits closed members)

include proper admits

theorem scan_ofMembers {seen : List String} (distinct : HaveDistinctKeys members)
    (fresh : ∀ member ∈ members, member.1 ∉ seen)
    (check : ∀ f ∈ r.fields, ∀ member ∈ members, f.name = member.1 →
      f.check (Draft.ofJson member.2) = .ok ()) :
    r.scan closed seen (Draft.ofMembers members) = .ok () := by
  induction members generalizing seen with
  | nil => rfl
  | cons member members ih =>
    obtain ⟨hadmits, admits⟩ := List.forall_mem_cons.mp admits
    obtain ⟨hnew, distinct⟩ := haveDistinctKeys_cons.mp distinct
    obtain ⟨hfresh, fresh⟩ := List.forall_mem_cons.mp fresh
    have hcheck : ∀ f ∈ r.fields, ∀ member ∈ members, f.name = member.1 →
        f.check (Draft.ofJson member.2) = .ok () :=
      fun f hf other mem => check f hf other (List.mem_cons_of_mem member mem)
    -- The names in `seen` are those of the members before this one.
    rw [Draft.ofMembers, scan]
    rcases hadmits with hname | ⟨hopen, hunknown⟩
    · obtain ⟨f, hf, hname⟩ := List.mem_map.mp hname
      have hfound : r.fields.find? (·.answersTo member.1) = some f :=
        find?_answersTo proper hf (hname ▸ List.mem_cons_self)
      have hseen : seen.contains f.name = false := by simpa [hname] using hfresh
      have hvalue := check f hf member List.mem_cons_self hname
      have hlater : ∀ other ∈ members, other.1 ∉ f.name :: seen := by
        intro other mem
        rw [List.mem_cons, not_or, hname]
        exact ⟨hnew other mem, fresh other mem⟩
      simp only [hfound, hseen, hvalue]
      exact ih admits distinct hlater hcheck
    · have hfound : r.fields.find? (·.answersTo member.1) = none := by
        rw [List.find?_eq_none]
        intro f hf answers
        exact hunknown (List.mem_flatMap.mpr ⟨f, hf, Field.answersTo_iff.mp answers⟩)
      simpa [hfound, hopen] using ih admits distinct fresh hcheck

theorem lookup_ofMembers {f : Field} (mem : f ∈ r.fields) :
    r.lookup (Draft.ofMembers members) f.name = (members.lookup f.name).map Draft.ofJson := by
  unfold lookup
  simp only [find?_name proper mem]
  induction members with
  | nil => rfl
  | cons member members ih =>
    obtain ⟨hadmits, hmore⟩ := List.forall_mem_cons.mp admits
    cases member with
    | mk k v =>
      have hanswers : f.answersTo k = true ↔ f.name = k := by
        rw [Field.answersTo_iff]
        refine ⟨fun answers => ?_, fun h => h ▸ List.mem_cons_self⟩
        rcases hadmits with hname | ⟨-, hunknown⟩
        · exact (eq_name_of_mem_keys proper mem answers hname).symm
        · exact absurd (List.mem_flatMap.mpr ⟨f, mem, answers⟩) hunknown
      rw [Draft.ofMembers, lookup_cons, List.find?_cons]
      by_cases hk : f.name = k
      · rw [if_pos hk]
        simp [hanswers.mpr hk]
      · rw [if_neg hk, ← ih hmore]
        simp [mt hanswers.mp hk]

/-- A record is read from members if it is made of what they hold under its names. -/
theorem decodeMembers_ofMembers [r.Lawful] (distinct : HaveDistinctKeys members) {a : α}
    (h : r.Makes (fun name => (members.lookup name).map Draft.ofJson) a) :
    r.decodeMembers closed (Draft.ofMembers members) = .ok a := by
  have hscan : r.scan closed [] (Draft.ofMembers members) = .ok () := by
    apply scan_ofMembers proper admits distinct (fun _ _ => List.not_mem_nil)
    intro f hf member mem hname
    apply Lawful.check_of_build (h .missing) f hf
    rw [hname, (mem_iff_lookup distinct).mp mem, Option.map_some]
  have hbuild : r.build (r.lookup (Draft.ofMembers members)) .missing =
      r.build (fun name => (members.lookup name).map Draft.ofJson) .missing :=
    Lawful.build_congr _ fun f hf => lookup_ofMembers proper admits hf
  rw [decodeMembers, Outcome.check_bind_eq_ok, hbuild]
  exact ⟨hscan, h .missing⟩

end

theorem lenient_ofJson {r : Record α} [r.Lawful] (plain : r.keys = r.names)
    (proper : r.keys.Nodup) {members : List (String × Json)}
    (keys : (members.map Prod.fst).Sublist r.names) {a : α}
    (h : r.Makes (fun name => (members.lookup name).map Draft.ofJson) a) :
    r.lenient (Draft.ofJson (.object members)) = .ok a :=
  decodeMembers_ofMembers proper (admits_of_plain plain members)
    (haveDistinctKeys_of_sublist proper keys) h

end Record

end PaymentTrust.Json
