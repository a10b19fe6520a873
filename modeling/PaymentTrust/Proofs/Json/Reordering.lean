import PaymentTrust.Proofs.Json.Canonical

/-! Values that differ only in the order of members, at any level. Where no object has a key twice, these
are the values that are the same once their members are sorted. -/
namespace PaymentTrust.Json

mutual

def IsUnambiguous : Json → Prop
  | .array items => AreUnambiguous items
  | .object members => HaveDistinctKeys members ∧ MembersAreUnambiguous members
  | _ => True

def AreUnambiguous : List Json → Prop
  | [] => True
  | v :: rest => v.IsUnambiguous ∧ AreUnambiguous rest

def MembersAreUnambiguous : List (String × Json) → Prop
  | [] => True
  | (_, v) :: rest => v.IsUnambiguous ∧ MembersAreUnambiguous rest

end

mutual

/-- The second value is the first with the members of objects in another order. -/
def Reordered : Json → Json → Prop
  | .array items, w => ∃ items', w = .array items' ∧ ItemsReordered items items'
  | .object members, w => ∃ members', w = .object members' ∧ MembersReordered members members'
  | v, w => w = v

def ItemsReordered : List Json → List Json → Prop
  | [], items' => items' = []
  | v :: rest, items' => ∃ w rest', items' = w :: rest' ∧ v.Reordered w ∧ ItemsReordered rest rest'

/-- The partner of a member may stand anywhere. -/
def MembersReordered : List (String × Json) → List (String × Json) → Prop
  | [], members' => members' = []
  | (k, v) :: rest, members' => ∃ front w back, members' = front ++ (k, w) :: back ∧
      v.Reordered w ∧ MembersReordered rest (front ++ back)

end

theorem areUnambiguous_iff {items : List Json} :
    AreUnambiguous items ↔ ∀ v ∈ items, v.IsUnambiguous := by
  induction items with
  | nil => simp [AreUnambiguous]
  | cons v items ih => rw [AreUnambiguous, ih, List.forall_mem_cons]

theorem membersAreUnambiguous_iff {members : List (String × Json)} :
    MembersAreUnambiguous members ↔ ∀ member ∈ members, member.2.IsUnambiguous := by
  induction members with
  | nil => simp [MembersAreUnambiguous]
  | cons member members ih => rw [MembersAreUnambiguous, ih, List.forall_mem_cons]

theorem isUnambiguous_array {items : List Json} :
    (array items).IsUnambiguous ↔ ∀ v ∈ items, v.IsUnambiguous := by
  rw [IsUnambiguous, areUnambiguous_iff]

theorem isUnambiguous_object {members : List (String × Json)} :
    (object members).IsUnambiguous ↔
      HaveDistinctKeys members ∧ ∀ member ∈ members, member.2.IsUnambiguous := by
  rw [IsUnambiguous, membersAreUnambiguous_iff]

theorem haveDistinctKeys_sortedMembers {members : List (String × Json)} :
    HaveDistinctKeys (sortedMembers members) ↔ HaveDistinctKeys members := by
  unfold HaveDistinctKeys
  rw [sortedMembers_eq_map, List.map_map]
  rfl

theorem isUnambiguous_sorted (v : Json) (h : v.IsUnambiguous) : v.sorted.IsUnambiguous := by
  induction v using Json.induction with
  | array items ih =>
    rw [isUnambiguous_array] at h
    rw [sorted, isUnambiguous_array, sortedItems_eq_map, List.forall_mem_map]
    exact fun v mem => ih v mem (h v mem)
  | object members ih =>
    rw [isUnambiguous_object] at h
    rw [sorted, isUnambiguous_object]
    exact ⟨(inOrder_sortMembers _).haveDistinctKeys,
      forall_mem_sorted fun member mem => ih member mem (h.2 member mem)⟩
  | _ => exact h

theorem isUnambiguous_without (key : String) {v : Json} (h : v.IsUnambiguous) :
    (v.without key).IsUnambiguous := by
  cases v with
  | object members =>
    rw [isUnambiguous_object] at h
    rw [without, isUnambiguous_object]
    exact ⟨h.1.filter _, fun member mem => h.2 member (List.mem_of_mem_filter mem)⟩
  | _ => exact h

theorem sorted_sorted (v : Json) : v.sorted.sorted = v.sorted := by
  induction v using Json.induction with
  | array items ih =>
    simp only [sorted, sortedItems_eq_map, List.map_map]
    exact congrArg Json.array (List.map_congr_left ih)
  | object members ih =>
    have inner : ∀ member ∈ sortMembers (sortedMembers members), member.2.sorted = member.2 :=
      forall_mem_sorted ih
    rw [sorted, sorted, sortedMembers_eq inner, sortMembers_sortMembers]
  | _ => rfl

section

variable {members members' : List (String × Json)}

theorem perm_sortedMembers_middle (front : List (String × Json)) (k : String) (w : Json)
    (back : List (String × Json)) : (sortedMembers (front ++ (k, w) :: back)).Perm
      ((k, w.sorted) :: sortedMembers (front ++ back)) := by
  simp only [sortedMembers_eq_map, List.map_append, List.map_cons]
  exact List.perm_middle

theorem itemsReordered_iff {items items' : List Json}
    (ih : ∀ v ∈ items, ∀ w ∈ items', v.Reordered w ↔ w.sorted = v.sorted) :
    ItemsReordered items items' ↔ sortedItems items' = sortedItems items := by
  induction items generalizing items' with
  | nil => cases items' <;> simp [ItemsReordered, sortedItems]
  | cons v items rest =>
    rw [ItemsReordered]
    cases items' with
    | nil => simp [sortedItems]
    | cons w items' =>
      have hfirst := ih v List.mem_cons_self w List.mem_cons_self
      have hrest := rest fun v hv w hw =>
        ih v (List.mem_cons_of_mem _ hv) w (List.mem_cons_of_mem _ hw)
      simp only [sortedItems, List.cons.injEq, ← hfirst, ← hrest]
      constructor
      · rintro ⟨w, items', ⟨rfl, rfl⟩, h⟩
        exact h
      · intro h
        exact ⟨w, items', ⟨rfl, rfl⟩, h⟩

theorem membersReordered_iff
    (ih : ∀ v ∈ members, ∀ w ∈ members', v.2.Reordered w.2 ↔ w.2.sorted = v.2.sorted) :
    MembersReordered members members' ↔
      (sortedMembers members').Perm (sortedMembers members) := by
  induction members generalizing members' with
  | nil =>
    rw [MembersReordered, sortedMembers_eq_map, sortedMembers, List.perm_nil, List.map_eq_nil_iff]
  | cons member members rest =>
    obtain ⟨k, v⟩ := member
    have others : ∀ {front back : List (String × Json)} {w : Json},
        members' = front ++ (k, w) :: back → (MembersReordered members (front ++ back) ↔
          (sortedMembers (front ++ back)).Perm (sortedMembers members)) := by
      rintro front back w rfl
      refine rest fun v hv w hw => ih v (List.mem_cons_of_mem _ hv) w ?_
      rw [List.mem_append, List.mem_cons]
      exact (List.mem_append.mp hw).imp_right .inr
    rw [MembersReordered, sortedMembers]
    constructor
    · rintro ⟨front, w, back, hsplit, hfirst, hrest⟩
      have hw : (k, w) ∈ members' := hsplit ▸ List.mem_append_right front List.mem_cons_self
      have perm := ((others hsplit).mp hrest).cons (k, v.sorted)
      rw [← (ih (k, v) List.mem_cons_self (k, w) hw).mp hfirst] at perm ⊢
      rw [hsplit]
      exact (perm_sortedMembers_middle front k w back).trans perm
    · intro perm
      -- The member that comes first, once all are sorted inside, shows the partner.
      have mem := perm.mem_iff.mpr List.mem_cons_self
      rw [sortedMembers_eq_map] at mem
      obtain ⟨⟨key, w⟩, hw, hsame⟩ := List.mem_map.mp mem
      obtain ⟨hkey, hsorted⟩ := Prod.mk.inj hsame
      obtain rfl : key = k := hkey
      obtain ⟨front, back, hsplit⟩ := List.append_of_mem hw
      have hmiddle := perm_sortedMembers_middle front key w back
      rw [hsorted, ← hsplit] at hmiddle
      exact ⟨front, w, back, hsplit, (ih (key, v) List.mem_cons_self (key, w) hw).mpr hsorted,
        (others hsplit).mpr (hmiddle.symm.trans perm).cons_inv⟩

end

theorem reordered_iff_sorted_eq {v w : Json} (hv : v.IsUnambiguous) (hw : w.IsUnambiguous) :
    v.Reordered w ↔ w.sorted = v.sorted := by
  induction v using Json.induction generalizing w with
  | array items ih =>
    rw [Reordered]
    cases w with
    | array items' =>
      rw [isUnambiguous_array] at hv hw
      have hitems := itemsReordered_iff fun v mem w mem' => ih v mem (hv v mem) (hw w mem')
      simp [sorted, hitems]
    | _ => simp [sorted]
  | object members ih =>
    rw [Reordered]
    cases w with
    | object members' =>
      rw [isUnambiguous_object] at hv hw
      have hmembers := membersReordered_iff fun v mem w mem' => ih v mem (hv.2 v mem) (hw.2 w mem')
      have hsorted := sortMembers_eq_iff_perm (haveDistinctKeys_sortedMembers.mpr hw.1)
        (haveDistinctKeys_sortedMembers.mpr hv.1)
      simp [sorted, hmembers, hsorted]
    | _ => simp [sorted]
  | _ => cases w <;> simp [sorted, Reordered]

theorem reordered_sorted {v : Json} (h : v.IsUnambiguous) : v.Reordered v.sorted :=
  (reordered_iff_sorted_eq h (isUnambiguous_sorted v h)).mpr (sorted_sorted v)

theorem lookup_sortedMembers (members : List (String × Json)) (key : String) :
    (sortedMembers members).lookup key = (members.lookup key).map sorted := by
  induction members with
  | nil => rfl
  | cons member members ih =>
    cases member with
    | mk k v =>
      rw [sortedMembers, lookup_cons, lookup_cons, ih]
      split <;> rfl

theorem sorted_object_eq_iff {members members' : List (String × Json)}
    (h : (object members).IsUnambiguous) (h' : (object members').IsUnambiguous) :
    (object members).sorted = (object members').sorted ↔
      ∀ key, Option.Rel Reordered (members.lookup key) (members'.lookup key) := by
  rw [isUnambiguous_object] at h h'
  have distinct := haveDistinctKeys_sortedMembers.mpr h.1
  have distinct' := haveDistinctKeys_sortedMembers.mpr h'.1
  rw [sorted, sorted, object.injEq, sortMembers_eq_iff_perm distinct distinct',
    perm_iff_lookup distinct distinct']
  refine forall_congr' fun key => ?_
  rw [lookup_sortedMembers, lookup_sortedMembers]
  cases found : members.lookup key with
  | none => cases members'.lookup key <;> simp
  | some v =>
    cases found' : members'.lookup key with
    | none => simp
    | some w =>
      have hv := h.2 (key, v) ((mem_iff_lookup h.1).mpr found)
      have hw := h'.2 (key, w) ((mem_iff_lookup h'.1).mpr found')
      rw [Option.rel_some_some, reordered_iff_sorted_eq hv hw, Option.map_some, Option.map_some,
        Option.some.injEq, eq_comm]

/-- The canonical text of an object without one member tells all the others, up to the order of members
further inside. -/
theorem canonical_without_eq_iff (key : String) {members members' : List (String × Json)}
    (integral : (object members).IsIntegral) (integral' : (object members').IsIntegral)
    (unambiguous : (object members).IsUnambiguous)
    (unambiguous' : (object members').IsUnambiguous) :
    ((object members).without key).canonical = ((object members').without key).canonical ↔
      ∀ other ≠ key, Option.Rel Reordered (members.lookup other) (members'.lookup other) := by
  rw [canonical_eq_iff (isIntegral_without key integral) (isIntegral_without key integral'),
    without, without, sorted_object_eq_iff (isUnambiguous_without key unambiguous)
      (isUnambiguous_without key unambiguous')]
  refine forall_congr' fun other => ?_
  have hlookup (members : List (String × Json)) :=
    lookup_filter (fun name => decide (name ≠ key)) members other
  rw [hlookup, hlookup]
  by_cases removed : other = key
  · simp [removed]
  · simp [removed]

end PaymentTrust.Json
