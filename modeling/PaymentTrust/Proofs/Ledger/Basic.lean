import PaymentTrust.Ledger.Consumed
import PaymentTrust.Ledger.Replay
import PaymentTrust.Proofs.Timestamp

/-! A ledger forgets no live record: whatever is claimed or swept, a record that is live at that
time stays as it is. A claim succeeds exactly where its key has no live record. -/
namespace PaymentTrust.Ledger

variable {α : Type} (l : Ledger α) (key : String) (now : Timestamp)

@[simp] theorem Entry.isLive_iff (e : Entry α) : e.isLive now = true ↔ now < e.expires :=
  decide_eq_true_iff

theorem mem_of_find? {l : Ledger α} {key : String} {e : Entry α} (found : l.find? key = some e) :
    e ∈ l.entries ∧ e.key = key :=
  ⟨List.mem_of_find?_eq_some found, by simpa using List.find?_some found⟩

theorem isLive_iff : l.isLive key now = true ↔ ∃ e, l.find? key = some e ∧ now < e.expires := by
  unfold isLive live?
  cases l.find? key <;> simp [Option.filter, apply_ite]

theorem isLive_eq_false :
    l.isLive key now = false ↔ ∀ e, l.find? key = some e → e.expires ≤ now := by
  rw [← Bool.not_eq_true, isLive_iff]
  simp

theorem find?_erase_of_ne {key other : String} (h : other ≠ key) :
    (l.erase key).find? other = l.find? other := by
  unfold erase find?
  rw [List.find?_filter]
  congr 1
  funext e
  by_cases he : e.key = other <;> simp [he, h]

@[simp] theorem find?_put_self (e : Entry α) : (l.put e).find? e.key = some e := by
  simp [put, find?]

theorem find?_put_of_ne (e : Entry α) {other : String} (h : other ≠ e.key) :
    (l.put e).find? other = l.find? other := by
  rw [← find?_erase_of_ne l h]
  simp [put, find?, h.symm]

theorem find?_sweep_of_live {e : Entry α} (found : l.find? key = some e) (live : now < e.expires) :
    (l.sweep now).find? key = some e := by
  unfold find? at found
  obtain ⟨hkey, before, after, hl, hbefore⟩ := List.find?_eq_some_iff_append.mp found
  unfold sweep find?
  rw [hl]
  simp only [List.filter_append, List.find?_append]
  have hnone : (before.filter (·.isLive now)).find? (·.key = key) = none := by
    rw [List.find?_eq_none]
    intro x hx
    simpa using hbefore x (List.mem_filter.mp hx).1
  rw [hnone]
  simp only [Option.none_or, List.filter_cons, Entry.isLive_iff, live, if_true, List.find?_cons,
    hkey]

theorem find?_sweep_of_none (absent : l.find? key = none) : (l.sweep now).find? key = none := by
  unfold find? at absent
  unfold sweep find?
  rw [List.find?_eq_none] at absent ⊢
  intro e he
  exact absent e (List.mem_filter.mp he).1

/-- Room is made only for new keys, so it changes nothing about the key it is made for. -/
@[simp] theorem find?_makeRoom : (l.makeRoom key now).find? key = l.find? key := by
  unfold makeRoom
  split
  · rename_i h
    have absent : l.find? key = none := by simpa using h.2
    rw [find?_sweep_of_none l key now absent, absent]
  · rfl

theorem isLive_makeRoom (at_ : Timestamp) :
    (l.makeRoom key now).isLive key at_ = l.isLive key at_ := by
  simp only [isLive, live?, find?_makeRoom]

theorem claim_of_isLive (expires : Timestamp) (content : α) (live : l.isLive key now = true) :
    l.claim key expires now content = (false, l.makeRoom key now) := by
  unfold claim
  simp only [isLive_makeRoom, live, if_true]

theorem claim_of_free (expires : Timestamp) (content : α) (free : l.isLive key now = false) :
    l.claim key expires now content =
      (true, (l.makeRoom key now).put ⟨key, expires, content⟩) := by
  unfold claim
  simp only [isLive_makeRoom, free, Bool.false_eq_true, if_false]

theorem find?_claim_self (expires : Timestamp) (content : α) (free : l.isLive key now = false) :
    (l.claim key expires now content).2.find? key = some ⟨key, expires, content⟩ := by
  rw [l.claim_of_free key now expires content free]
  exact find?_put_self _ ⟨key, expires, content⟩

/-- Every record that is live at `now` in the first ledger is in the second, as it was. -/
def Retains (l l' : Ledger α) (now : Timestamp) : Prop :=
  ∀ key e, l.find? key = some e → now < e.expires → l'.find? key = some e

theorem retains_refl : l.Retains l now :=
  fun _ _ found _ => found

theorem Retains.trans {l l' l'' : Ledger α} {now later : Timestamp} (first : l.Retains l' now)
    (second : l'.Retains l'' later) (ordered : now ≤ later) : l.Retains l'' later :=
  fun key e found live => second key e (first key e found (lt_of_le_of_lt ordered live)) live

theorem retains_sweep : l.Retains (l.sweep now) now :=
  fun key _ found live => find?_sweep_of_live l key now found live

theorem retains_makeRoom : l.Retains (l.makeRoom key now) now := by
  unfold makeRoom
  split
  · exact retains_sweep l now
  · exact retains_refl l now

theorem retains_put (e : Entry α) (free : l.isLive e.key now = false) :
    l.Retains (l.put e) now := by
  intro other x found live
  have hne : other ≠ e.key := by
    rintro rfl
    exact absurd ((isLive_eq_false l e.key now).mp free x found) (not_le.mpr live)
  rw [find?_put_of_ne l e hne, found]

theorem retains_makeRoom_put (e : Entry α) (free : l.isLive e.key now = false) :
    l.Retains ((l.makeRoom e.key now).put e) now :=
  (retains_makeRoom l e.key now).trans (retains_put _ now e (by rw [isLive_makeRoom, free])) le_rfl

theorem retains_claim (expires : Timestamp) (content : α) :
    l.Retains (l.claim key expires now content).2 now := by
  cases live : l.isLive key now with
  | true =>
    rw [l.claim_of_isLive key now expires content live]
    exact l.retains_makeRoom key now
  | false =>
    rw [l.claim_of_free key now expires content live]
    exact l.retains_makeRoom_put now ⟨key, expires, content⟩ live

theorem Retains.erase {l l' : Ledger α} {now : Timestamp} (retains : l.Retains l' now)
    {key : String} (free : l.isLive key now = false) : l.Retains (l'.erase key) now := by
  intro other e found live
  have hne : other ≠ key := by
    rintro rfl
    exact absurd ((isLive_eq_false l other now).mp free e found) (not_le.mpr live)
  rw [find?_erase_of_ne l' hne, retains other e found live]

theorem mem_makeRoom {e : Entry α} (mem : e ∈ (l.makeRoom key now).entries) : e ∈ l.entries := by
  unfold makeRoom at mem
  split at mem
  · exact (List.mem_filter.mp mem).1
  · exact mem

theorem mem_claim {expires : Timestamp} {content : α} {e : Entry α}
    (mem : e ∈ (l.claim key expires now content).2.entries) :
    e ∈ l.entries ∨ l.isLive key now = false ∧ e = ⟨key, expires, content⟩ := by
  cases live : l.isLive key now with
  | true =>
    rw [l.claim_of_isLive key now expires content live] at mem
    exact .inl (l.mem_makeRoom key now mem)
  | false =>
    rw [l.claim_of_free key now expires content live] at mem
    cases List.mem_cons.mp mem with
    | inl new => exact .inr ⟨rfl, new⟩
    | inr old => exact .inl (l.mem_makeRoom key now (List.mem_filter.mp old).1)

end PaymentTrust.Ledger

namespace PaymentTrust.ConsumedLedger

variable {α : Type} (l : ConsumedLedger α) (fingerprint : String) (now : Timestamp)

theorem consume_fst (content : α) (ttl : Option UInt64) :
    (l.consume fingerprint content ttl now).1 = !l.isConsumed fingerprint now := by
  unfold consume isConsumed
  cases h : l.ledger.isLive fingerprint now with
  | true => rw [Ledger.claim_of_isLive _ _ _ _ _ h, Bool.not_true]
  | false => rw [Ledger.claim_of_free _ _ _ _ _ h, Bool.not_false]

theorem get_fst : (l.get fingerprint now).1 = l.ledger.live? fingerprint now := by
  unfold get
  cases l.ledger.live? fingerprint now <;> rfl

theorem get_ledger : (l.get fingerprint now).2.ledger = l.ledger := by
  unfold get
  cases l.ledger.live? fingerprint now <;> rfl

theorem consume_ledger (content : α) (ttl : Option UInt64) :
    (l.consume fingerprint content ttl now).2.ledger =
      (l.ledger.claim fingerprint (now.later (ttl.getD l.defaultTtl)) now content).2 :=
  rfl

end PaymentTrust.ConsumedLedger
