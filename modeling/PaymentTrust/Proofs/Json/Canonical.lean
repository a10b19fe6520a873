import PaymentTrust.Proofs.Json.Induction
import PaymentTrust.Proofs.Json.Members
import PaymentTrust.Proofs.Json.Reading

/-! What the canonical text and the fingerprint tell. Values have one canonical text exactly if they are
the same once their members are sorted; if they have one fingerprint, either their canonical texts are
the same or SHA-256 does not tell these apart. -/
namespace PaymentTrust

theorem Hex.digitChar_inj {m n : Nat} (hm : m < 16) (hn : n < 16)
    (h : Nat.digitChar m = Nat.digitChar n) : m = n := by
  interval_cases m <;> interval_cases n <;> first | rfl | cases h

theorem Hex.encode_injective {a b : Bytes} (h : Hex.encode a = Hex.encode b) : a = b := by
  have hdigits := String.ofList_injective h
  clear h
  induction a generalizing b with
  | nil =>
    cases b with
    | nil => rfl
    | cons y b => cases hdigits
  | cons x a ih =>
    cases b with
    | nil => cases hdigits
    | cons y b =>
      have hx : x.toNat < 256 := x.toNat_lt
      have hy : y.toNat < 256 := y.toNat_lt
      obtain ⟨hhigh, hrest⟩ := List.cons.inj hdigits
      obtain ⟨hlow, hrest⟩ := List.cons.inj hrest
      have high := Hex.digitChar_inj (by omega) (by omega) hhigh
      have low := Hex.digitChar_inj (by omega) (by omega) hlow
      have hbyte : x = y := UInt8.toNat_inj.mp (by omega)
      rw [hbyte, ih hrest]

namespace Json

theorem membersAreIntegral_iff {members : List (String × Json)} :
    MembersAreIntegral members ↔ ∀ member ∈ members, member.2.IsIntegral := by
  induction members with
  | nil => simp [MembersAreIntegral]
  | cons member members ih => rw [MembersAreIntegral, ih, List.forall_mem_cons]

theorem areIntegral_iff {items : List Json} :
    AreIntegral items ↔ ∀ v ∈ items, v.IsIntegral := by
  induction items with
  | nil => simp [AreIntegral]
  | cons v items ih => rw [AreIntegral, ih, List.forall_mem_cons]

theorem forall_mem_sorted {members : List (String × Json)} {P : String × Json → Prop}
    (h : ∀ member ∈ members, P (member.1, member.2.sorted)) :
    ∀ member ∈ sortMembers (sortedMembers members), P member := by
  intro member mem
  have inner := mem_sortMembers mem
  rw [sortedMembers_eq_map] at inner
  obtain ⟨original, horiginal, rfl⟩ := List.mem_map.mp inner
  exact h original horiginal

theorem isIntegral_sorted (v : Json) (h : v.IsIntegral) : v.sorted.IsIntegral := by
  induction v using Json.induction with
  | array items ih =>
    rw [IsIntegral, areIntegral_iff] at h
    rw [sorted, IsIntegral, areIntegral_iff, sortedItems_eq_map, List.forall_mem_map]
    exact fun v mem => ih v mem (h v mem)
  | object members ih =>
    rw [IsIntegral, membersAreIntegral_iff] at h
    rw [sorted, IsIntegral, membersAreIntegral_iff]
    exact forall_mem_sorted fun member mem => ih member mem (h member mem)
  | _ => exact h

theorem isIntegral_without (key : String) {v : Json} (h : v.IsIntegral) :
    (v.without key).IsIntegral := by
  cases v with
  | object members =>
    rw [IsIntegral, membersAreIntegral_iff] at h
    rw [without, IsIntegral, membersAreIntegral_iff]
    exact fun member mem => h member (List.mem_of_mem_filter mem)
  | _ => exact h

theorem sortedMembers_eq {members : List (String × Json)}
    (h : ∀ member ∈ members, member.2.sorted = member.2) : sortedMembers members = members := by
  induction members with
  | nil => rfl
  | cons member members ih =>
    obtain ⟨hmember, hmembers⟩ := List.forall_mem_cons.mp h
    rw [sortedMembers, hmember, ih hmembers]

/-- Their canonical texts are different and have one SHA-256 digest. -/
def Collide (v w : Json) : Prop :=
  v.canonical ≠ w.canonical ∧
    Digest.sha256 (Utf8.encode v.canonical.toList) = Digest.sha256 (Utf8.encode w.canonical.toList)

variable {v w : Json} (hv : v.IsIntegral) (hw : w.IsIntegral)

include hv hw

theorem canonical_eq_iff : v.canonical = w.canonical ↔ v.sorted = w.sorted := by
  unfold canonical
  constructor
  · intro h
    exact write_injective Token.faithful_asciiOnly (isIntegral_sorted v hv)
      (isIntegral_sorted w hw) (String.ofList_injective h)
  · intro h
    rw [h]

theorem sorted_eq_or_collide (h : v.fingerprint = w.fingerprint) :
    v.sorted = w.sorted ∨ Collide v w := by
  by_cases same : v.canonical = w.canonical
  · exact .inl ((canonical_eq_iff hv hw).mp same)
  · exact .inr ⟨same, Hex.encode_injective h⟩

end Json

end PaymentTrust
