import Mathlib.Data.List.Induction
import Mathlib.Data.List.Nodup
import Mathlib.Data.String.Basic
import PaymentTrust.Json.Basic

/-! Members in the order of their keys. Sorting keeps the last member of each key and leaves members
alone that are in order, so that sorting again changes nothing. -/
namespace PaymentTrust.Json

variable {α : Type}

def InOrder (members : List (String × α)) : Prop :=
  members.Pairwise fun first later => first.1 < later.1

theorem lookup_cons (key other : String) (value : α) (members : List (String × α)) :
    ((key, value) :: members).lookup other =
      if other = key then some value else members.lookup other := by
  by_cases same : other = key
  · rw [if_pos same, same, List.lookup_cons_self]
  · rw [if_neg same, List.lookup_cons, beq_false_of_ne same]

theorem lookup_putSorted (key other : String) (value : α) (members : List (String × α)) :
    (putSorted key value members).lookup other =
      if other = key then some value else members.lookup other := by
  induction members with
  | nil => exact lookup_cons key other value []
  | cons member members ih =>
    cases member with
    | mk k v =>
      rw [putSorted]
      by_cases equal : key = k
      · rw [if_pos equal, lookup_cons, lookup_cons, equal]
        split <;> rfl
      · rw [if_neg equal]
        by_cases before : key < k
        · rw [if_pos before, lookup_cons]
        · rw [if_neg before, lookup_cons, lookup_cons, ih]
          by_cases same : other = k
          · rw [if_pos same, if_neg (same ▸ Ne.symm equal), if_pos same]
          · rw [if_neg same, if_neg same]

theorem sortMembers_append_singleton (members : List (String × α)) (key : String) (value : α) :
    sortMembers (members ++ [(key, value)]) = putSorted key value (sortMembers members) :=
  List.foldl_append

theorem lookup_sortMembers (members : List (String × α)) (key : String) :
    (sortMembers members).lookup key = members.reverse.lookup key := by
  induction members using List.reverseRecOn with
  | nil => rfl
  | append_singleton members member ih =>
    rw [sortMembers_append_singleton, lookup_putSorted, ih, List.reverse_append,
      List.reverse_singleton, List.singleton_append, lookup_cons]

theorem mem_putSorted {key : String} {value : α} {members : List (String × α)}
    {member : String × α} (mem : member ∈ putSorted key value members) :
    member = (key, value) ∨ member ∈ members := by
  induction members with
  | nil => exact .inl (List.mem_singleton.mp mem)
  | cons first members ih =>
    cases first with
    | mk k v =>
      rw [putSorted] at mem
      split_ifs at mem with equal before
      · exact (List.mem_cons.mp mem).imp_right (List.mem_cons_of_mem (k, v))
      · exact List.mem_cons.mp mem
      · cases List.mem_cons.mp mem with
        | inl first => exact .inr (first ▸ List.mem_cons_self)
        | inr later => exact (ih later).imp_right (List.mem_cons_of_mem (k, v))

theorem mem_sortMembers {members : List (String × α)} {member : String × α}
    (mem : member ∈ sortMembers members) : member ∈ members := by
  induction members using List.reverseRecOn with
  | nil => exact mem
  | append_singleton members last ih =>
    rw [sortMembers_append_singleton] at mem
    cases mem_putSorted mem with
    | inl new => exact List.mem_append_right members (List.mem_singleton.mpr new)
    | inr old => exact List.mem_append_left [last] (ih old)

theorem inOrder_putSorted (key : String) (value : α) {members : List (String × α)}
    (h : InOrder members) : InOrder (putSorted key value members) := by
  induction members with
  | nil => exact List.pairwise_singleton _ _
  | cons member members ih =>
    cases member with
    | mk k v =>
      obtain ⟨hmember, hmembers⟩ := List.pairwise_cons.mp h
      rw [putSorted]
      split_ifs with equal before
      · rw [equal]
        exact List.pairwise_cons.mpr ⟨hmember, hmembers⟩
      · refine List.pairwise_cons.mpr ⟨?_, h⟩
        intro later mem
        cases List.mem_cons.mp mem with
        | inl first => exact first ▸ before
        | inr later => exact lt_trans before (hmember _ later)
      · refine List.pairwise_cons.mpr ⟨?_, ih hmembers⟩
        intro later mem
        cases mem_putSorted mem with
        | inl new => exact new ▸ lt_of_le_of_ne (not_lt.mp before) (Ne.symm equal)
        | inr old => exact hmember later old

theorem inOrder_sortMembers (members : List (String × α)) : InOrder (sortMembers members) := by
  induction members using List.reverseRecOn with
  | nil => exact List.Pairwise.nil
  | append_singleton members member ih =>
    rw [sortMembers_append_singleton]
    exact inOrder_putSorted member.1 member.2 ih

theorem putSorted_of_last {key : String} (value : α) {members : List (String × α)}
    (last : ∀ member ∈ members, member.1 < key) :
    putSorted key value members = members ++ [(key, value)] := by
  induction members with
  | nil => rfl
  | cons member members ih =>
    have hlt := last member List.mem_cons_self
    cases member with
    | mk k v =>
      rw [putSorted, if_neg (ne_of_gt hlt), if_neg (not_lt.mpr (le_of_lt hlt)),
        ih fun m mem => last m (List.mem_cons_of_mem _ mem), List.cons_append]

theorem sortMembers_of_inOrder {members : List (String × α)} (h : InOrder members) :
    sortMembers members = members := by
  induction members using List.reverseRecOn with
  | nil => rfl
  | append_singleton members member ih =>
    obtain ⟨hmembers, _, last⟩ := List.pairwise_append.mp h
    rw [sortMembers_append_singleton, ih hmembers]
    exact putSorted_of_last member.2 fun first mem => last first mem member (List.mem_singleton_self _)

theorem sortMembers_sortMembers (members : List (String × α)) :
    sortMembers (sortMembers members) = sortMembers members :=
  sortMembers_of_inOrder (inOrder_sortMembers members)

def HaveDistinctKeys (members : List (String × α)) : Prop :=
  (members.map Prod.fst).Nodup

theorem haveDistinctKeys_cons {member : String × α} {members : List (String × α)} :
    HaveDistinctKeys (member :: members) ↔
      (∀ other ∈ members, other.1 ≠ member.1) ∧ HaveDistinctKeys members := by
  unfold HaveDistinctKeys
  rw [List.map_cons, List.nodup_cons, List.mem_map, not_exists]
  simp only [not_and, ne_eq]

theorem HaveDistinctKeys.of_perm {members members' : List (String × α)}
    (distinct : HaveDistinctKeys members) (perm : members.Perm members') :
    HaveDistinctKeys members' :=
  (perm.map Prod.fst).nodup_iff.mp distinct

theorem mem_iff_lookup {members : List (String × α)} (distinct : HaveDistinctKeys members)
    {key : String} {value : α} : (key, value) ∈ members ↔ members.lookup key = some value := by
  induction members with
  | nil => simp
  | cons member members ih =>
    obtain ⟨new, rest⟩ := haveDistinctKeys_cons.mp distinct
    cases member with
    | mk k v =>
      rw [List.mem_cons, ih rest, lookup_cons]
      by_cases same : key = k
      · have absent : members.lookup key ≠ some value := fun found =>
          new (key, value) ((ih rest).mpr found) same
        rw [if_pos same, or_iff_left absent, Option.some.injEq, Prod.mk.injEq, and_iff_right same,
          eq_comm]
      · rw [if_neg same, or_iff_right fun first => same (Prod.mk.inj first).1]

theorem perm_iff_lookup {members members' : List (String × α)}
    (distinct : HaveDistinctKeys members) (distinct' : HaveDistinctKeys members') :
    members.Perm members' ↔ ∀ key, members.lookup key = members'.lookup key := by
  rw [List.perm_ext_iff_of_nodup (List.Nodup.of_map _ distinct) (List.Nodup.of_map _ distinct'),
    Prod.forall]
  simp only [mem_iff_lookup distinct, mem_iff_lookup distinct']
  exact forall_congr' fun key => Option.ext_iff.symm

theorem lookup_filter (keep : String → Bool) (members : List (String × α)) (key : String) :
    (members.filter fun member => keep member.1).lookup key =
      if keep key then members.lookup key else none := by
  induction members with
  | nil => simp
  | cons member members ih =>
    cases member with
    | mk k v =>
      rw [List.filter_cons, lookup_cons]
      cases kept : keep k with
      | false =>
        rw [if_neg Bool.false_ne_true, ih]
        by_cases same : key = k
        · rw [same, kept, if_neg Bool.false_ne_true, if_neg Bool.false_ne_true]
        · rw [if_neg same]
      | true =>
        rw [if_pos rfl, lookup_cons, ih]
        by_cases same : key = k
        · rw [if_pos same, if_pos same, same, kept, if_pos rfl]
        · rw [if_neg same, if_neg same]

theorem HaveDistinctKeys.filter {members : List (String × α)} (distinct : HaveDistinctKeys members)
    (keep : String × α → Bool) : HaveDistinctKeys (members.filter keep) :=
  distinct.sublist (List.filter_sublist.map Prod.fst)

theorem InOrder.haveDistinctKeys {members : List (String × α)} (h : InOrder members) :
    HaveDistinctKeys members :=
  List.pairwise_map.mpr (h.imp ne_of_lt)

theorem perm_putSorted {key : String} (value : α) {members : List (String × α)}
    (new : ∀ member ∈ members, member.1 ≠ key) :
    (putSorted key value members).Perm ((key, value) :: members) := by
  induction members with
  | nil => exact .refl _
  | cons member members ih =>
    obtain ⟨first, rest⟩ := List.forall_mem_cons.mp new
    cases member with
    | mk k v =>
      rw [putSorted, if_neg (Ne.symm first)]
      split_ifs with before
      · exact .refl _
      · exact ((ih rest).cons (k, v)).trans (.swap (key, value) (k, v) members)

theorem perm_sortMembers {members : List (String × α)} (distinct : HaveDistinctKeys members) :
    (sortMembers members).Perm members := by
  induction members using List.reverseRecOn with
  | nil => exact .refl _
  | append_singleton members member ih =>
    have reversed := distinct.of_perm (List.perm_append_singleton member members)
    obtain ⟨new, rest⟩ := haveDistinctKeys_cons.mp reversed
    rw [sortMembers_append_singleton]
    have hput := perm_putSorted member.2 fun other mem => new other (mem_sortMembers mem)
    exact hput.trans (((ih rest).cons member).trans (List.perm_append_singleton member members).symm)

theorem eq_of_perm_of_inOrder {members members' : List (String × α)} (h : InOrder members)
    (h' : InOrder members') (perm : members.Perm members') : members = members' :=
  perm.eq_of_pairwise (fun _ _ _ _ before after => absurd after (lt_asymm before)) h h'

/-- Members have one order by keys, in whatever order they stand. -/
theorem sortMembers_eq_iff_perm {members members' : List (String × α)}
    (distinct : HaveDistinctKeys members) (distinct' : HaveDistinctKeys members') :
    sortMembers members = sortMembers members' ↔ members.Perm members' := by
  have hperm := perm_sortMembers distinct
  have hperm' := perm_sortMembers distinct'
  constructor
  · intro h
    exact hperm.symm.trans (h ▸ hperm')
  · intro h
    exact eq_of_perm_of_inOrder (inOrder_sortMembers members) (inOrder_sortMembers members')
      (hperm.trans (h.trans hperm'.symm))

theorem mergeSort_eq_sortMembers {members : List (String × α)} (distinct : HaveDistinctKeys members) :
    members.mergeSort (fun a b => a.1 ≤ b.1) = sortMembers members := by
  have hperm := List.mergeSort_perm members fun a b => a.1 ≤ b.1
  have ascending : (members.mergeSort fun a b => a.1 ≤ b.1).Pairwise fun a b => a.1 ≤ b.1 := by
    have h := @List.pairwise_mergeSort (String × α) (fun a b => a.1 ≤ b.1)
      (fun a b c hab hbc => by simpa using le_trans (of_decide_eq_true hab) (of_decide_eq_true hbc))
      (fun a b => by simpa using le_total a.1 b.1) members
    simpa using h
  have different : (members.mergeSort fun a b => a.1 ≤ b.1).Pairwise fun a b => a.1 ≠ b.1 :=
    List.pairwise_map.mp (distinct.of_perm hperm.symm)
  have inOrder : InOrder (members.mergeSort fun a b => a.1 ≤ b.1) :=
    (ascending.and different).imp fun h => lt_of_le_of_ne h.1 h.2
  exact eq_of_perm_of_inOrder inOrder (inOrder_sortMembers members)
    (hperm.trans (perm_sortMembers distinct).symm)

theorem lookup_member? (name key : String) (value : Option Json) :
    (member? name value).lookup key = if key = name then value else none := by
  cases value with
  | none => exact (ite_self none).symm
  | some value => exact lookup_cons name key value []

theorem forall_mem_member? {P : String × Json → Prop} {name : String} {value : Option Json}
    (h : ∀ v, value = some v → P (name, v)) : ∀ member ∈ member? name value, P member := by
  cases value with
  | none => exact List.forall_mem_nil P
  | some v => exact List.forall_mem_singleton.mpr (h v rfl)

theorem keys_member?_sublist (name : String) (value : Option Json) :
    ((member? name value).map Prod.fst).Sublist [name] := by
  cases value with
  | none => exact List.nil_sublist [name]
  | some value => exact List.Sublist.refl [name]

theorem lookup_reverse_member? (name key : String) (value : Option Json) :
    (member? name value).reverse.lookup key = if key = name then value else none := by
  rw [← lookup_member?]
  cases value <;> rfl

end PaymentTrust.Json
