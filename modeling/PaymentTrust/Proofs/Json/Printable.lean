import PaymentTrust.Proofs.Json.Characters

/-! The text of a value in printable ASCII alone, with the members of objects by ascending key. The
canonical text is this one as long as no key and no string holds the delete character, which is the one
character of ASCII that is neither printable nor escaped. -/
namespace PaymentTrust.Json

def letterEscapes : List (Char × Char) :=
  [('"', '"'), ('\\', '\\'), ('\x08', 'b'), ('\x0c', 'f'), ('\n', 'n'), ('\r', 'r'), ('\t', 't')]

def utf16 (c : Char) : List Nat :=
  if c.toNat < 0x10000 then [c.toNat]
  else [0xd800 + (c.toNat - 0x10000) / 0x400, 0xdc00 + (c.toNat - 0x10000) % 0x400]

def unitText (n : Nat) : List Char :=
  '\\' :: 'u' :: [n / 4096 % 16, n / 256 % 16, n / 16 % 16, n % 16].map Nat.digitChar

def printableOnly (c : Char) : List Char :=
  if IsPrintable c then [c] else (utf16 c).flatMap unitText

def printableEscape (c : Char) : List Char :=
  match letterEscapes.lookup c with
  | some letter => ['\\', letter]
  | none => printableOnly c

def printableString (s : String) : List Char :=
  '"' :: s.toList.flatMap printableEscape ++ ['"']

section

variable (real : Float → List Char)

mutual

/-- How other numbers than integers are written is a parameter. -/
def printableChars : Json → List Char
  | .null => ['n', 'u', 'l', 'l']
  | .bool true => ['t', 'r', 'u', 'e']
  | .bool false => ['f', 'a', 'l', 's', 'e']
  | .number (.integer n) => (toString n).toList
  | .number (.real x) => real x
  | .string s => printableString s
  | .array items => '[' :: [','].intercalate (printableItems items) ++ [']']
  | .object members =>
    let ascending := (printableMembers members).mergeSort fun a b => a.1 ≤ b.1
    '\x7b' :: [','].intercalate (ascending.map fun (k, text) => printableString k ++ ':' :: text) ++
      ['\x7d']

def printableItems : List Json → List (List Char)
  | [] => []
  | v :: rest => printableChars v :: printableItems rest

def printableMembers : List (String × Json) → List (String × List Char)
  | [] => []
  | (k, v) :: rest => (k, printableChars v) :: printableMembers rest

end

def printable (v : Json) : String :=
  String.ofList (printableChars real v)

theorem printableItems_eq_map (items : List Json) :
    printableItems real items = items.map (printableChars real) := by
  induction items with
  | nil => rfl
  | cons v items ih => rw [printableItems, ih, List.map_cons]

theorem printableMembers_eq_map (members : List (String × Json)) :
    printableMembers real members =
      members.map fun member => (member.1, printableChars real member.2) := by
  induction members with
  | nil => rfl
  | cons member members ih => rw [printableMembers, ih, List.map_cons]

end

theorem toList_toString_int (n : Int) : (toString n).toList = Numeral.writeInt n := by
  cases n with
  | ofNat n =>
    rw [Numeral.writeInt, if_neg (show ¬Int.ofNat n < 0 from not_lt.mpr (Int.natCast_nonneg n))]
    exact String.toList_ofList
  | negSucc n =>
    rw [Numeral.writeInt, if_pos (Int.negSucc_lt_zero n)]
    exact (String.toList_append).trans (congrArg ('-' :: ·) String.toList_ofList)

theorem unitEscape_eq_unitText {n : Nat} (h : n < 0x10000) : unitEscape n = unitText n := by
  rw [unitEscape_eq h, unitText, Nat.mod_eq_of_lt (show n / 4096 < 16 by omega)]
  rfl

theorem printableOnly_of_toNat_lt {c : Char} (unprintable : ¬IsPrintable c)
    (h : c.toNat < 0x10000) : printableOnly c = unitEscape c.toNat := by
  rw [printableOnly, if_neg unprintable, utf16, if_pos h, List.flatMap_singleton,
    unitEscape_eq_unitText h]

theorem escape_printableOnly (c : Char) : escape printableOnly c = printableEscape c := by
  by_cases letter : c ∈ letterEscapes.map Prod.fst
  · simp only [letterEscapes, List.map_cons, List.map_nil, List.mem_cons, List.not_mem_nil,
      or_false] at letter
    rcases letter with rfl | rfl | rfl | rfl | rfl | rfl | rfl <;> rfl
  · have none : letterEscapes.lookup c = none := by
      rw [List.lookup_eq_none_iff]
      intro entry mem
      exact bne_iff_ne.mpr fun same => letter (List.mem_map.mpr ⟨entry, mem, same.symm⟩)
    rw [printableEscape, none]
    simp only [letterEscapes, List.map_cons, List.map_nil, List.mem_cons, List.not_mem_nil,
      or_false, not_or] at letter
    simp only [escape, letter, if_false]
    split_ifs with control
    · exact (printableOnly_of_toNat_lt (fun h => absurd h.1 (by omega)) (by omega)).symm
    · rfl

theorem asciiOnly_eq_printableOnly {c : Char} (low : 0x20 ≤ c.toNat) (other : c ≠ '\x7f') :
    asciiOnly c = printableOnly c := by
  have hother : c.toNat ≠ 0x7f := fun h => other (Char.toNat_inj.mp h)
  have hvalid : c.toNat < 0xd800 ∨ 0xdfff < c.toNat ∧ c.toNat < 0x110000 := c.valid
  unfold asciiOnly
  dsimp only
  split_ifs with ascii basic
  · exact (if_pos ⟨low, by omega⟩).symm
  · exact (printableOnly_of_toNat_lt (fun h => absurd h.2 (by omega)) basic).symm
  · have unprintable : ¬IsPrintable c := fun h => absurd h.2 (by omega)
    rw [printableOnly, if_neg unprintable, utf16, if_neg basic, unitEscape_eq_unitText (by omega),
      unitEscape_eq_unitText (by omega)]
    simp

theorem escape_asciiOnly_eq {c : Char} (other : c ≠ '\x7f') :
    escape asciiOnly c = escape printableOnly c := by
  unfold escape
  split_ifs with _ _ _ _ _ _ _ control
  all_goals first | rfl | exact asciiOnly_eq_printableOnly (not_lt.mp control) other

theorem writeString_printableOnly (s : String) :
    writeString printableOnly s = printableString s := by
  rw [writeString, printableString, funext escape_printableOnly]

theorem writeMember_printableOnly (member : String × Json) : writeMember printableOnly member =
    printableString member.1 ++ ':' :: write printableOnly member.2 := by
  rw [writeMember, writeString_printableOnly]

theorem isPrintable_of_mem_printableOnly {c d : Char} (mem : c ∈ printableOnly d) :
    IsPrintable c := by
  have hvalid : d.toNat < 0xd800 ∨ 0xdfff < d.toNat ∧ d.toNat < 0x110000 := d.valid
  have units : ∀ n ∈ utf16 d, n < 0x10000 := by
    unfold utf16
    split_ifs with basic
    · exact List.forall_mem_singleton.mpr basic
    · exact List.forall_mem_cons.mpr ⟨by omega, List.forall_mem_singleton.mpr (by omega)⟩
  unfold printableOnly at mem
  split_ifs at mem with printable
  · exact List.mem_singleton.mp mem ▸ printable
  · obtain ⟨n, hn, mem⟩ := List.mem_flatMap.mp mem
    rw [← unitEscape_eq_unitText (units n hn)] at mem
    exact isPrintable_of_mem_unitEscape (units n hn) mem

theorem isPrintable_of_mem_printableEscape {c d : Char} (mem : c ∈ printableEscape d) :
    IsPrintable c := by
  have letters : ∀ entry ∈ letterEscapes, IsPrintable entry.2 := by decide
  unfold printableEscape at mem
  split at mem
  · next letter found =>
    obtain ⟨front, back, hsplit, _⟩ := List.lookup_eq_some_iff.mp found
    rcases List.mem_cons.mp mem with rfl | mem
    · decide
    · rw [List.mem_singleton.mp mem]
      exact letters (d, letter) (hsplit ▸ List.mem_append_right front List.mem_cons_self)
  · exact isPrintable_of_mem_printableOnly mem

theorem mergeSort_map_eq {α β : Type} (f : α → β) {members : List (String × α)}
    (distinct : HaveDistinctKeys members) :
    (members.map fun member => (member.1, f member.2)).mergeSort (fun a b => a.1 ≤ b.1) =
      (sortMembers members).map fun member => (member.1, f member.2) := by
  rw [← mergeSort_eq_sortMembers distinct]
  refine (List.map_mergeSort ?_).symm
  exact fun _ _ _ _ => rfl

theorem printableChars_eq_write (real : Float → List Char) (v : Json) (integral : v.IsIntegral)
    (unambiguous : v.IsUnambiguous) :
    printableChars real v = write printableOnly v.sorted := by
  induction v using Json.induction with
  | null => rfl
  | bool b => cases b <;> rfl
  | number n =>
    cases n with
    | integer n => exact toList_toString_int n
    | real x =>
      rw [IsIntegral] at integral
      exact integral.elim
  | string s => exact (writeString_printableOnly s).symm
  | array items ih =>
    rw [IsIntegral, areIntegral_iff] at integral
    rw [isUnambiguous_array] at unambiguous
    have hitems : items.map (printableChars real) = items.map (write printableOnly ∘ sorted) :=
      List.map_congr_left fun v mem => ih v mem (integral v mem) (unambiguous v mem)
    rw [printableChars, printableItems_eq_map, hitems, sorted, write, sortedItems_eq_map,
      writeItems_eq_intercalate, List.map_map]
  | object members ih =>
    rw [IsIntegral, membersAreIntegral_iff] at integral
    rw [isUnambiguous_object] at unambiguous
    have hmembers : printableMembers real members = (sortedMembers members).map
        fun member => (member.1, write printableOnly member.2) := by
      rw [printableMembers_eq_map, sortedMembers_eq_map, List.map_map]
      refine List.map_congr_left fun member mem => ?_
      rw [ih member mem (integral member mem) (unambiguous.2 member mem)]
      rfl
    rw [printableChars, hmembers,
      mergeSort_map_eq _ (haveDistinctKeys_sortedMembers.mpr unambiguous.1), sorted, write,
      writeMembers_eq_intercalate, List.map_map]
    simp only [funext writeMember_printableOnly, Function.comp_def]

/-- The canonical text is the printable one exactly where no key and no string holds the delete
character. -/
theorem canonical_eq_printable_iff (real : Float → List Char) {v : Json} (integral : v.IsIntegral)
    (unambiguous : v.IsUnambiguous) :
    v.canonical = v.printable real ↔ ∀ s ∈ v.strings, '\x7f' ∉ s.toList := by
  have strings := perm_strings_sorted v unambiguous
  rw [canonical, printable, String.ofList_inj, printableChars_eq_write real v integral unambiguous]
  constructor
  · intro same s hs delete
    have mem : '\x7f' ∈ write asciiOnly v.sorted :=
      (mem_write_iff (by decide) _ (isIntegral_sorted v integral)).mpr
        ⟨s, strings.mem_iff.mpr hs, '\x7f', delete, by decide⟩
    rw [same, mem_write_iff (by decide) _ (isIntegral_sorted v integral)] at mem
    obtain ⟨_, _, d, _, mem⟩ := mem
    rw [escape_printableOnly] at mem
    exact absurd (isPrintable_of_mem_printableEscape mem) (by decide)
  · intro h
    refine write_congr _ fun s hs c hc => escape_asciiOnly_eq ?_
    rintro rfl
    exact h s (strings.mem_iff.mp hs) hc

def Sample.note : Json :=
  .object [("na\u00efve", .string "\"caf\u00e9\" \\ \x1b\u20ac~"), ("\x08", nat 7),
    ("list", .array [.number (.integer (-40)), .bool false, .string "\t\x0c\n\r\x00😀"])]

theorem canonical_eq_printable_sample :
    Sample.note.IsIntegral ∧ Sample.note.IsUnambiguous ∧
      (∀ s ∈ Sample.note.strings, '\x7f' ∉ s.toList) ∧
      Sample.note.canonical = Sample.note.printable Real.write := by
  have integral : Sample.note.IsIntegral := by
    simp [Sample.note, nat, IsIntegral, AreIntegral, MembersAreIntegral]
  have unambiguous : Sample.note.IsUnambiguous := by
    simp [Sample.note, nat, IsUnambiguous, AreUnambiguous, MembersAreUnambiguous, HaveDistinctKeys]
  have without : ∀ s ∈ Sample.note.strings, '\x7f' ∉ s.toList := by decide +kernel
  exact ⟨integral, unambiguous, without,
    (canonical_eq_printable_iff Real.write integral unambiguous).mpr without⟩

/-- The delete character stands in the canonical text as it is. -/
theorem canonical_delete :
    (string "\x7f").IsIntegral ∧ (string "\x7f").IsUnambiguous ∧
      (string "\x7f").canonical = "\"\x7f\"" ∧
      ∀ real, (string "\x7f").printable real = "\"\\u007f\"" := by
  refine ⟨trivial, trivial, by decide +kernel, fun real => ?_⟩
  have text : printableString "\x7f" = "\"\\u007f\"".toList := by decide +kernel
  rw [printable, printableChars, text, String.ofList_toList]

end PaymentTrust.Json
