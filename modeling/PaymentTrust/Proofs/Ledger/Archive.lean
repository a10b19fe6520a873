import Mathlib.Data.List.AList
import PaymentTrust.Proofs.Ledger.Live

/-! A ledger against a map that forgets nothing. What a ledger drops has expired, and the clock does
not go back, so no answer tells the two apart: neither the bound of a ledger nor its sweeps can be
seen. -/
namespace PaymentTrust

/-- The last expiry and content recorded under each key, however long ago that was. -/
abbrev Archive (α : Type) := AList fun _ : String => Timestamp × α

namespace Archive

variable {α : Type}

def live? (a : Archive α) (key : String) (now : Timestamp) : Option α :=
  ((a.lookup key).filter (now < ·.1)).map (·.2)

def isLive (a : Archive α) (key : String) (now : Timestamp) : Bool :=
  (a.live? key now).isSome

def claim (a : Archive α) (key : String) (expires now : Timestamp) (content : α) :
    Bool × Archive α :=
  if a.isLive key now then (false, a) else (true, a.insert key (expires, content))

def active (a : Archive α) (now : Timestamp) : Nat :=
  a.entries.countP (now < ·.2.1)

end Archive

/-- Nothing is ever removed, so a sweep finds nothing to remove. -/
instance : ReplayStore (Archive Unit) where
  record := fun a key expires now =>
    let (recorded, a) := a.claim key expires now ()
    (.ok recorded, a)
  contains := Archive.isLive
  sweep := fun a _ => (0, a)
  stats := fun a now =>
    ⟨a.entries.length, a.active now, a.entries.length - a.active now⟩

namespace Archive

variable {α : Type} (a : Archive α) (key : String) (now t : Timestamp)

theorem live?_eq_some_iff {c : α} :
    a.live? key t = some c ↔ ∃ expires, ⟨key, expires, c⟩ ∈ a.entries ∧ t < expires := by
  unfold live?
  simp only [Option.map_eq_some_iff, Option.filter_eq_some_iff, decide_eq_true_eq, ← AList.mem_lookup_iff,
    Option.mem_def, Prod.exists]
  constructor
  · rintro ⟨expires, _, ⟨found, early⟩, rfl⟩
    exact ⟨expires, found, early⟩
  · rintro ⟨expires, found, early⟩
    exact ⟨expires, c, ⟨found, early⟩, rfl⟩

theorem live?_insert_self (expires : Timestamp) (content : α) :
    Archive.live? (a.insert key (expires, content)) key t =
      if t < expires then some content else none := by
  unfold live?
  rw [AList.lookup_insert]
  by_cases early : t < expires <;> simp [Option.filter, early]

theorem live?_insert_of_ne {other : String} (h : key ≠ other) (r : Timestamp × α) :
    Archive.live? (a.insert other r) key t = a.live? key t := by
  unfold live?
  rw [AList.lookup_insert_ne h]

end Archive

namespace Ledger

variable {α : Type}

/-- From `now` on, what is live in the ledger is what is live in the archive. -/
structure Reflects (l : Ledger α) (a : Archive α) (now : Timestamp) : Prop where
  distinct : l.Distinct
  live : ∀ key t, now ≤ t → l.live? key t = a.live? key t

theorem reflects_empty (bound : Nat) (now : Timestamp) :
    (Ledger.empty bound : Ledger α).Reflects ∅ now where
  distinct := Reachable.empty bound |>.distinct
  live := fun _ _ _ => rfl

namespace Reflects

variable {l : Ledger α} {a : Archive α} {now : Timestamp} (reflects : l.Reflects a now)

include reflects

theorem later {later : Timestamp} (ordered : now ≤ later) : l.Reflects a later :=
  ⟨reflects.distinct, fun key t h => reflects.live key t (le_trans ordered h)⟩

theorem isLive (key : String) (t : Timestamp) (ordered : now ≤ t) :
    l.isLive key t = a.isLive key t := by
  unfold Ledger.isLive Archive.isLive
  rw [reflects.live key t ordered]

theorem sweep : (l.sweep now).Reflects a now where
  distinct := reflects.distinct.sweep now
  live := fun key t ordered => by
    rw [l.live?_sweep key now t reflects.distinct ordered, reflects.live key t ordered]

theorem claim (key : String) (expires : Timestamp) (content : α) :
    (l.claim key expires now content).1 = (a.claim key expires now content).1 ∧
      (l.claim key expires now content).2.Reflects (a.claim key expires now content).2 now := by
  have hlive := reflects.isLive key now le_rfl
  have distinct := reflects.distinct
  unfold Archive.claim
  rw [← hlive]
  cases live : l.isLive key now with
  | true =>
    simp only [if_true]
    refine ⟨by rw [l.claim_of_isLive key now expires content live], distinct.claim .., ?_⟩
    intro other t ordered
    rw [live?_claim_of_isLive other distinct expires content live ordered]
    exact reflects.live other t ordered
  | false =>
    simp only [Bool.false_eq_true, if_false]
    refine ⟨by rw [l.claim_of_free key now expires content live], distinct.claim .., ?_⟩
    intro other t ordered
    by_cases same : other = key
    · rw [same, live?_claim_self expires content live, Archive.live?_insert_self]
    · rw [live?_claim_of_ne other distinct expires content same ordered,
        Archive.live?_insert_of_ne a other t same]
      exact reflects.live other t ordered

theorem perm_keys (t : Timestamp) (ordered : now ≤ t) :
    ((l.entries.filter (·.isLive t)).map (·.key)).Perm
      ((a.entries.filter (t < ·.2.1)).map Sigma.fst) := by
  have hledger : ((l.entries.filter (·.isLive t)).map (·.key)).Nodup := reflects.distinct.filter _
  have harchive : ((a.entries.filter (t < ·.2.1)).map Sigma.fst).Nodup :=
    List.Nodup.sublist (List.filter_sublist.map _) a.keys_nodup
  rw [List.perm_ext_iff_of_nodup hledger harchive]
  intro key
  have hlive : (∃ c, l.live? key t = some c) ↔ ∃ c, a.live? key t = some c := by
    rw [reflects.live key t ordered]
  simp only [Ledger.live?_eq_some_iff, find?_eq_some_iff_mem reflects.distinct,
    Archive.live?_eq_some_iff] at hlive
  simp only [List.mem_map, List.mem_filter, Entry.isLive_iff, decide_eq_true_eq]
  constructor
  · rintro ⟨e, ⟨mem, early⟩, hkey⟩
    obtain ⟨c, expires, mem', early'⟩ := hlive.mp ⟨e.content, e, ⟨mem, hkey⟩, early, rfl⟩
    exact ⟨⟨key, expires, c⟩, ⟨mem', early'⟩, rfl⟩
  · rintro ⟨⟨_, expires, c⟩, ⟨mem, early⟩, rfl⟩
    obtain ⟨_, e, ⟨mem', hkey⟩, early', _⟩ := hlive.mpr ⟨c, expires, mem, early⟩
    exact ⟨e, ⟨mem', early'⟩, hkey⟩

theorem countP_isLive (t : Timestamp) (ordered : now ≤ t) :
    l.entries.countP (·.isLive t) = a.active t := by
  have hlength := (reflects.perm_keys t ordered).length_eq
  simpa only [List.length_map, ← List.countP_eq_length_filter, Archive.active] using hlength

end Reflects

end Ledger

end PaymentTrust
