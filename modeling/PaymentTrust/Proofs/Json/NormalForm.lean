import PaymentTrust.Proofs.Json.Printable

/-! Canonical text as a normal form. It is ASCII, it is read back as the value it was written for, and
values have one canonical text exactly if they differ in nothing but the order of members. -/
namespace PaymentTrust.Json

mutual

def depth : Json → Nat
  | .array items => itemsDepth items + 1
  | .object members => membersDepth members + 1
  | _ => 0

def itemsDepth : List Json → Nat
  | [] => 0
  | v :: rest => max v.depth (itemsDepth rest)

def membersDepth : List (String × Json) → Nat
  | [] => 0
  | (_, v) :: rest => max v.depth (membersDepth rest)

end

theorem itemsDepth_le_iff {items : List Json} {n : Nat} :
    itemsDepth items ≤ n ↔ ∀ v ∈ items, v.depth ≤ n := by
  induction items with
  | nil => simp [itemsDepth]
  | cons v items ih => rw [itemsDepth, Nat.max_le, ih, List.forall_mem_cons]

theorem membersDepth_le_iff {members : List (String × Json)} {n : Nat} :
    membersDepth members ≤ n ↔ ∀ member ∈ members, member.2.depth ≤ n := by
  induction members with
  | nil => simp [membersDepth]
  | cons member members ih => rw [membersDepth, Nat.max_le, ih, List.forall_mem_cons]

theorem depth_array_le_succ {items : List Json} {n : Nat} :
    (array items).depth ≤ n + 1 ↔ ∀ v ∈ items, v.depth ≤ n := by
  rw [depth, Nat.add_le_add_iff_right, itemsDepth_le_iff]

theorem depth_object_le_succ {members : List (String × Json)} {n : Nat} :
    (object members).depth ≤ n + 1 ↔ ∀ member ∈ members, member.2.depth ≤ n := by
  rw [depth, Nat.add_le_add_iff_right, membersDepth_le_iff]

theorem depth_sorted_le (v : Json) {n : Nat} (h : v.depth ≤ n) : v.sorted.depth ≤ n := by
  induction v using Json.induction generalizing n with
  | array items ih =>
    cases n with
    | zero => exact absurd h (Nat.not_succ_le_zero _)
    | succ n =>
      rw [depth_array_le_succ] at h
      rw [sorted, depth_array_le_succ, sortedItems_eq_map, List.forall_mem_map]
      exact fun v mem => ih v mem (h v mem)
  | object members ih =>
    cases n with
    | zero => exact absurd h (Nat.not_succ_le_zero _)
    | succ n =>
      rw [depth_object_le_succ] at h
      rw [sorted, depth_object_le_succ]
      exact forall_mem_sorted fun member mem => ih member mem (h member mem)
  | _ => exact h

namespace Draft

theorem toJsons?_ofJsons {items : List Json} {n : Nat}
    (h : ∀ v ∈ items, (ofJson v).toJson? n = some v.sorted) :
    toJsons? n (ofJsons items) = some (sortedItems items) := by
  induction items with
  | nil => rfl
  | cons v items ih =>
    obtain ⟨hfirst, hrest⟩ := List.forall_mem_cons.mp h
    simp only [ofJsons, toJsons?, hfirst, ih hrest, sortedItems]

theorem toMembers?_ofMembers {members : List (String × Json)} {n : Nat}
    (h : ∀ member ∈ members, (ofJson member.2).toJson? n = some member.2.sorted) :
    toMembers? n (ofMembers members) = some (sortedMembers members) := by
  induction members with
  | nil => rfl
  | cons member members ih =>
    obtain ⟨hfirst, hrest⟩ := List.forall_mem_cons.mp h
    simp only [ofMembers, toMembers?, hfirst, ih hrest, sortedMembers]

theorem toJson?_ofJson (v : Json) {n : Nat} (h : v.depth ≤ n) :
    (ofJson v).toJson? n = some v.sorted := by
  induction v using Json.induction generalizing n with
  | array items ih =>
    cases n with
    | zero => exact absurd h (Nat.not_succ_le_zero _)
    | succ n =>
      rw [depth_array_le_succ] at h
      rw [ofJson, toJson?, toJsons?_ofJsons fun v mem => ih v mem (h v mem), Option.map_some, sorted]
  | object members ih =>
    cases n with
    | zero => exact absurd h (Nat.not_succ_le_zero _)
    | succ n =>
      rw [depth_object_le_succ] at h
      rw [ofJson, toJson?, toMembers?_ofMembers fun member mem => ih member mem (h member mem),
        Option.map_some, sorted]
  | _ => rfl

end Draft

/-- A value that a text can hold: its numbers are integers of 64 bits, no object has a key twice, and it
does not nest deeper than is read. -/
structure Exchangeable (v : Json) : Prop where
  integral : v.IsIntegral
  unambiguous : v.IsUnambiguous
  shallow : v.depth ≤ maxDepth

variable {v w : Json}

theorem toNat_lt_of_mem_canonical (h : v.IsIntegral) {c : Char} (mem : c ∈ v.canonical.toList) :
    c.toNat < 0x80 := by
  rw [canonical, String.toList_ofList] at mem
  by_cases printable : IsPrintable c
  · exact Nat.lt_succ_of_le (Nat.le_succ_of_le printable.2)
  · obtain ⟨s, _, d, _, mem⟩ := (mem_write_iff printable _ (isIntegral_sorted v h)).mp mem
    by_cases last : d = '\x7f'
    · rw [last] at mem
      obtain rfl : c = '\x7f' := List.mem_singleton.mp mem
      decide
    · rw [escape_asciiOnly_eq last, escape_printableOnly] at mem
      exact absurd (isPrintable_of_mem_printableEscape mem) printable

theorem readText?_canonical (h : v.Exchangeable) : readText? v.canonical = some v.sorted := by
  have hread := Draft.read_write Token.faithful_asciiOnly (isIntegral_sorted v h.integral)
  have hvalue := Draft.toJson?_ofJson v.sorted (depth_sorted_le v h.shallow)
  rw [sorted_sorted] at hvalue
  rw [readText?, read?, canonical, String.toList_ofList, hread]
  exact hvalue

theorem readText?_render (h : v.Exchangeable) : readText? v.render = some v.sorted := by
  have hread := Draft.read_write Token.faithful_self h.integral
  rw [readText?, read?, render, String.toList_ofList, hread]
  exact Draft.toJson?_ofJson v h.shallow

/-- The canonical text of a value is ASCII and is read back as the value, with its members in another
order at most; and values have one canonical text if and only if they are the same up to the order of
members at every level. -/
theorem canonical_normalizes (hv : v.Exchangeable) (hw : w.Exchangeable) :
    (∀ c ∈ v.canonical.toList, c.toNat < 0x80) ∧
    (∃ u, readText? v.canonical = some u ∧ v.Reordered u) ∧
    (v.canonical = w.canonical ↔ v.Reordered w) := by
  refine ⟨fun c mem => toNat_lt_of_mem_canonical hv.integral mem,
    ⟨v.sorted, readText?_canonical hv, reordered_sorted hv.unambiguous⟩, ?_⟩
  rw [canonical_eq_iff hv.integral hw.integral,
    reordered_iff_sorted_eq hv.unambiguous hw.unambiguous, eq_comm]

namespace Sample

def receipt : Json :=
  .object [("shop", .string "caf\u00e9\n"),
    ("items", .array [nat 2, .object [("to", .null), ("of", .bool true)]])]

def sameReceipt : Json :=
  .object [("items", .array [nat 2, .object [("of", .bool true), ("to", .null)]]),
    ("shop", .string "caf\u00e9\n")]

def otherReceipt : Json :=
  .object [("shop", .string "caf\u00e9\n"),
    ("items", .array [.object [("to", .null), ("of", .bool true)], nat 2])]

end Sample

theorem canonical_normalizes_sample :
    Sample.receipt.Exchangeable ∧ Sample.sameReceipt.Exchangeable ∧
      Sample.otherReceipt.Exchangeable ∧
      (∃ u, readText? Sample.receipt.canonical = some u ∧ Sample.receipt.Reordered u) ∧
      Sample.receipt.canonical = Sample.sameReceipt.canonical ∧
      ¬Sample.receipt.Reordered Sample.otherReceipt := by
  obtain ⟨receipt, same, other⟩ : Sample.receipt.Exchangeable ∧ Sample.sameReceipt.Exchangeable ∧
      Sample.otherReceipt.Exchangeable := by
    refine ⟨?_, ?_, ?_⟩ <;> constructor <;> simp [Sample.receipt, Sample.sameReceipt,
      Sample.otherReceipt, nat, IsIntegral, AreIntegral, MembersAreIntegral, IsUnambiguous,
      AreUnambiguous, MembersAreUnambiguous, HaveDistinctKeys, depth, itemsDepth, membersDepth,
      maxDepth]
  have reordered : Sample.receipt.Reordered Sample.sameReceipt :=
    (reordered_iff_sorted_eq receipt.unambiguous same.unambiguous).mpr rfl
  have different : Sample.receipt.canonical ≠ Sample.otherReceipt.canonical := by decide +kernel
  obtain ⟨_, read, agree⟩ := canonical_normalizes receipt same
  exact ⟨receipt, same, other, read, agree.mpr reordered,
    fun h => different ((canonical_normalizes receipt other).2.2.mpr h)⟩

end PaymentTrust.Json
