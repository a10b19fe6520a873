import Mathlib.Data.List.Nodup
import PaymentTrust.Proofs.Ledger.Basic

/-! What is live in a ledger from an instant on. No key ever has two records, so a sweep changes
nothing about it, and of the other operations each changes it for its own key only. -/
namespace PaymentTrust.Ledger

variable {α : Type}

def Distinct (l : Ledger α) : Prop := (l.entries.map (·.key)).Nodup

inductive Reachable : Ledger α → Prop
  | empty (bound : Nat) : Reachable (.empty bound)
  | claim {l : Ledger α} (key : String) (expires now : Timestamp) (content : α) (h : Reachable l) :
    Reachable (l.claim key expires now content).2
  | erase {l : Ledger α} (key : String) (h : Reachable l) : Reachable (l.erase key)
  | sweep {l : Ledger α} (now : Timestamp) (h : Reachable l) : Reachable (l.sweep now)

section Distinct

variable {l : Ledger α} (distinct : l.Distinct) (key : String) (now : Timestamp)

include distinct

theorem Distinct.filter (p : Entry α → Bool) :
    Distinct { l with entries := l.entries.filter p } :=
  List.Nodup.sublist (List.filter_sublist.map _) distinct

theorem Distinct.erase : (l.erase key).Distinct :=
  distinct.filter _

theorem Distinct.sweep : (l.sweep now).Distinct :=
  distinct.filter _

theorem Distinct.makeRoom : (l.makeRoom key now).Distinct := by
  unfold Ledger.makeRoom
  split
  · exact distinct.sweep now
  · exact distinct

theorem Distinct.put (e : Entry α) : (l.put e).Distinct := by
  have absent : e.key ∉ (l.erase e.key).entries.map (·.key) := by
    simp [Ledger.erase]
  exact List.nodup_cons.mpr ⟨absent, distinct.erase e.key⟩

theorem Distinct.claim (expires : Timestamp) (content : α) :
    (l.claim key expires now content).2.Distinct := by
  have room := distinct.makeRoom key now
  cases live : l.isLive key now with
  | true =>
    rw [l.claim_of_isLive key now expires content live]
    exact room
  | false =>
    rw [l.claim_of_free key now expires content live]
    exact room.put _

end Distinct

theorem Reachable.distinct {l : Ledger α} (reachable : l.Reachable) : l.Distinct := by
  induction reachable with
  | empty bound => exact List.nodup_nil
  | claim key expires now content _ ih => exact ih.claim key now expires content
  | erase key _ ih => exact ih.erase key
  | sweep now _ ih => exact ih.sweep now

variable (l : Ledger α) (key : String) (now t : Timestamp)

theorem find?_eq_some_iff_mem {l : Ledger α} (distinct : l.Distinct) {key : String} {e : Entry α} :
    l.find? key = some e ↔ e ∈ l.entries ∧ e.key = key := by
  constructor
  · exact mem_of_find?
  · rintro ⟨mem, rfl⟩
    have present : (l.find? e.key).isSome = true :=
      List.find?_isSome.mpr ⟨e, mem, decide_eq_true rfl⟩
    obtain ⟨x, found⟩ := Option.isSome_iff_exists.mp present
    obtain ⟨mem', hkey⟩ := mem_of_find? found
    rw [found, List.inj_on_of_nodup_map distinct mem' mem hkey]

theorem live?_eq_some_iff {c : α} :
    l.live? key t = some c ↔ ∃ e, l.find? key = some e ∧ t < e.expires ∧ e.content = c := by
  unfold live?
  simp only [Option.map_eq_some_iff, Option.filter_eq_some_iff, Entry.isLive_iff, and_assoc]

theorem live?_of_find? {e : Entry α} (found : l.find? key = some e) :
    l.live? key t = if t < e.expires then some e.content else none := by
  unfold live?
  rw [found]
  by_cases live : t < e.expires <;> simp [Option.filter, live]

theorem live?_eq_of_find? {l' : Ledger α} (same : l'.find? key = l.find? key) :
    l'.live? key t = l.live? key t := by
  simp only [live?, same]

theorem live?_of_isLive_eq_false (free : l.isLive key now = false) (ordered : now ≤ t) :
    l.live? key t = none := by
  by_contra present
  obtain ⟨c, live⟩ := Option.ne_none_iff_exists'.mp present
  obtain ⟨e, found, early, _⟩ := (l.live?_eq_some_iff key t).mp live
  have expired := (l.isLive_eq_false key now).mp free e found
  exact absurd early (not_lt.mpr (le_trans expired ordered))

theorem live?_sweep (distinct : l.Distinct) (ordered : now ≤ t) :
    (l.sweep now).live? key t = l.live? key t := by
  apply Option.ext
  intro c
  simp only [live?_eq_some_iff, find?_eq_some_iff_mem distinct,
    find?_eq_some_iff_mem (distinct.sweep now)]
  constructor
  · rintro ⟨e, ⟨mem, hkey⟩, early, hc⟩
    exact ⟨e, ⟨(List.mem_filter.mp mem).1, hkey⟩, early, hc⟩
  · rintro ⟨e, ⟨mem, hkey⟩, early, hc⟩
    have kept : e ∈ (l.sweep now).entries :=
      List.mem_filter.mpr ⟨mem, (e.isLive_iff now).mpr (lt_of_le_of_lt ordered early)⟩
    exact ⟨e, ⟨kept, hkey⟩, early, hc⟩

theorem live?_makeRoom (distinct : l.Distinct) (newKey : String) (ordered : now ≤ t) :
    (l.makeRoom newKey now).live? key t = l.live? key t := by
  unfold makeRoom
  split
  · exact l.live?_sweep key now t distinct ordered
  · rfl

theorem live?_put_self (e : Entry α) :
    (l.put e).live? e.key t = if t < e.expires then some e.content else none :=
  (l.put e).live?_of_find? e.key t (l.find?_put_self e)

theorem live?_put_of_ne (e : Entry α) (other : key ≠ e.key) :
    (l.put e).live? key t = l.live? key t :=
  l.live?_eq_of_find? key t (l.find?_put_of_ne e other)

@[simp] theorem find?_erase_self : (l.erase key).find? key = none := by
  simp [erase, find?]

theorem live?_erase_self : (l.erase key).live? key t = none := by
  simp [live?]

theorem live?_erase_of_ne {erased : String} (other : key ≠ erased) :
    (l.erase erased).live? key t = l.live? key t :=
  l.live?_eq_of_find? key t (l.find?_erase_of_ne other)

section claim

variable {l now t} (distinct : l.Distinct) {claimed : String} (expires : Timestamp) (content : α)

include distinct

theorem live?_claim_of_isLive (live : l.isLive claimed now = true) (ordered : now ≤ t) :
    (l.claim claimed expires now content).2.live? key t = l.live? key t := by
  rw [l.claim_of_isLive claimed now expires content live]
  exact l.live?_makeRoom key now t distinct claimed ordered

theorem live?_claim_of_ne (other : key ≠ claimed) (ordered : now ≤ t) :
    (l.claim claimed expires now content).2.live? key t = l.live? key t := by
  cases live : l.isLive claimed now with
  | true => exact live?_claim_of_isLive key distinct expires content live ordered
  | false =>
    rw [l.claim_of_free claimed now expires content live, live?_put_of_ne _ _ _ _ other]
    exact l.live?_makeRoom key now t distinct claimed ordered

omit distinct in
theorem live?_claim_self (free : l.isLive claimed now = false) :
    (l.claim claimed expires now content).2.live? claimed t =
      if t < expires then some content else none := by
  rw [l.claim_of_free claimed now expires content free]
  exact live?_put_self _ t ⟨claimed, expires, content⟩

end claim

end PaymentTrust.Ledger
