import Mathlib.Data.Set.Insert
import PaymentTrust.Proofs.Mandate.Reachable

/-! What a verdict leaves in the stores, by what they answer from then on. A rejection leaves nothing
at all, also where content was taken up and given back. An acceptance leaves one identifier and, if
content is tracked, one fingerprint, each live until the mandate expires. -/
namespace PaymentTrust

namespace ConsumedLedger

variable {α : Type} (l : ConsumedLedger α) (fingerprint : String) (now t : Timestamp) (content : α)
  (ttl : Option UInt64)

theorem isConsumed_eq : l.isConsumed fingerprint t = (l.ledger.live? fingerprint t).isSome := rfl

/-- Content that is taken up and given back leaves nothing, not even what had expired under its
fingerprint. -/
theorem live?_revoke_consume (distinct : l.ledger.Distinct)
    (unconsumed : l.isConsumed fingerprint now = false) (other : String) (ordered : now ≤ t) :
    ((l.consume fingerprint content ttl now).2.revoke fingerprint).2.ledger.live? other t =
      l.ledger.live? other t := by
  unfold revoke
  rw [consume_ledger]
  by_cases same : other = fingerprint
  · rw [same, Ledger.live?_erase_self,
      l.ledger.live?_of_isLive_eq_false fingerprint now t unconsumed ordered]
  · rw [Ledger.live?_erase_of_ne _ _ _ same]
    exact Ledger.live?_claim_of_ne other distinct _ content same ordered

end ConsumedLedger

/-- No call ever records anything: each is refused or fails. -/
def ReplayStore.NeverRecords (σ : Type) [ReplayStore σ] : Prop :=
  ∀ (s : σ) (key : String) (expires now : Timestamp),
    (ReplayStore.record s key expires now).1 ≠ .ok true

namespace MandateStores

/-- What there is to learn of a fingerprint at `t`, if content is tracked: whether it is consumed, and
the content that a look-up finds. -/
def contentAt {σ : Type} (s : MandateStores σ) (fingerprint : String) (t : Timestamp) :
    Option (Bool × Option Json) :=
  s.consumed.map fun ledger => (ledger.isConsumed fingerprint t, (ledger.get fingerprint t).1)

theorem contentAt_eq {σ : Type} (s : MandateStores σ) (fingerprint : String) (t : Timestamp) :
    s.contentAt fingerprint t = s.consumed.map fun ledger =>
      ((ledger.ledger.live? fingerprint t).isSome, ledger.ledger.live? fingerprint t) := by
  simp only [contentAt, ConsumedLedger.isConsumed_eq, ConsumedLedger.get_fst]

/-- From `now` on, the stores answer as before about all other identifiers and fingerprints. -/
structure SameExcept (s s' : MandateStores ReplayLedger) (now : Timestamp)
    (ids fingerprints : Set String) : Prop where
  id : ∀ id ∉ ids, ∀ t, now ≤ t →
    ReplayStore.contains s'.replay id t = ReplayStore.contains s.replay id t
  content : ∀ fingerprint ∉ fingerprints, ∀ t, now ≤ t →
    s'.contentAt fingerprint t = s.contentAt fingerprint t

def RecordsId (s : MandateStores ReplayLedger) (h : MandateHeader) : Prop :=
  ∀ t, ReplayStore.contains s.replay h.id t = decide (t < h.expires)

/-- If content is tracked, that of the payment is consumed until it expires and no longer. -/
def RecordsContent (s : MandateStores ReplayLedger) (p : PaymentMandate) : Prop :=
  ∀ t, s.contentAt p.content.fingerprint t = s.consumed.map fun _ =>
    (decide (t < p.header.expires), if t < p.header.expires then some p.content else none)

variable {s : MandateStores ReplayLedger} {now : Timestamp}

theorem SameExcept.refl (s : MandateStores ReplayLedger) (now : Timestamp)
    (ids fingerprints : Set String) : s.SameExcept s now ids fingerprints :=
  ⟨fun _ _ _ _ => rfl, fun _ _ _ _ => rfl⟩

theorem contains_eq {l l' : ReplayLedger} {id : String} {t : Timestamp}
    (h : l'.live? id t = l.live? id t) :
    ReplayStore.contains l' id t = ReplayStore.contains l id t := by
  simp only [ReplayStore.contains, Ledger.isLive, h]

theorem contentAt_of_tracked {σ : Type} {s : MandateStores σ} {ledger : ConsumedLedger Json}
    (tracked : s.consumed = some ledger) (fingerprint : String) (t : Timestamp) :
    s.contentAt fingerprint t =
      some ((ledger.ledger.live? fingerprint t).isSome, ledger.ledger.live? fingerprint t) := by
  rw [contentAt_eq, tracked, Option.map_some]

end MandateStores

namespace MandateVerifier

open MandateStores

variable {s : MandateStores ReplayLedger} (reachable : s.Reachable) (h : MandateHeader)
  (p : PaymentMandate) {now : Timestamp}

include reachable

theorem sameExcept_recordId_of_isLive (live : s.replay.isLive h.id now = true) :
    s.SameExcept (recordId s h now).2 now ∅ ∅ := by
  constructor
  · intro id _ t ordered
    rw [recordId_replay]
    exact contains_eq
      (Ledger.live?_claim_of_isLive id reachable.replay.distinct h.expires () live ordered)
  · intro fingerprint _ t _
    simp only [contentAt, recordId_consumed]

theorem sameExcept_recordId : s.SameExcept (recordId s h now).2 now {h.id} ∅ := by
  constructor
  · intro id other t ordered
    rw [recordId_replay]
    exact contains_eq
      (Ledger.live?_claim_of_ne id reachable.replay.distinct h.expires () other ordered)
  · intro fingerprint _ t _
    simp only [contentAt, recordId_consumed]

theorem sameExcept_recordPayment_of_ne_ok (failed : (recordPayment s p now).1 ≠ .ok ()) :
    s.SameExcept (recordPayment s p now).2 now ∅ ∅ := by
  cases tracked : s.consumed with
  | none =>
    rw [recordPayment_of_untracked p now tracked] at failed ⊢
    rw [Ne, recordId_eq_ok, Bool.not_eq_false] at failed
    exact sameExcept_recordId_of_isLive reachable p.header failed
  | some ledger =>
    have distinct := (reachable.consumed ledger tracked).distinct
    cases hcontent : ledger.isConsumed p.content.fingerprint now with
    | true =>
      rw [recordPayment_of_consumed p now tracked hcontent]
      refine ⟨fun _ _ _ _ => rfl, ?_⟩
      intro fingerprint _ t ordered
      rw [contentAt_of_tracked tracked, contentAt_of_tracked rfl,
        PaymentMandate.consumeIn_ledger,
        Ledger.live?_claim_of_isLive fingerprint distinct _ _ hcontent ordered]
    | false =>
      cases hlive : s.replay.isLive p.header.id now with
      | false => exact absurd (by rw [recordPayment_of_free p now tracked hcontent hlive]) failed
      | true =>
        -- The content was free, so it was taken up before the identifier was turned down.
        rw [recordPayment_of_isLive p now tracked hcontent hlive]
        constructor
        · intro id _ t ordered
          exact contains_eq
            (Ledger.live?_makeRoom _ id now t reachable.replay.distinct p.header.id ordered)
        · intro fingerprint _ t ordered
          rw [contentAt_of_tracked tracked, contentAt_of_tracked rfl, PaymentMandate.consumeIn,
            ConsumedLedger.live?_revoke_consume _ _ _ _ _ _ distinct hcontent _ ordered]

theorem sameExcept_recordPayment_of_fresh (fresh : s.Fresh p now) :
    s.SameExcept (recordPayment s p now).2 now {p.header.id} {p.content.fingerprint} := by
  constructor
  · intro id other t ordered
    rw [recordPayment_replay p now fresh.content]
    exact contains_eq
      (Ledger.live?_claim_of_ne id reachable.replay.distinct p.header.expires () other ordered)
  · intro fingerprint other t ordered
    cases tracked : s.consumed with
    | none =>
      rw [recordPayment_of_untracked p now tracked]
      simp only [contentAt, recordId_consumed]
    | some ledger =>
      have distinct := (reachable.consumed ledger tracked).distinct
      rw [recordPayment_of_free p now tracked (fresh.content ledger tracked) fresh.id,
        contentAt_of_tracked tracked, contentAt_of_tracked rfl, PaymentMandate.consumeIn_ledger,
        Ledger.live?_claim_of_ne fingerprint distinct _ _ other ordered]

omit reachable

theorem recordsId_of_recorded (recorded : s.replay.find? h.id = some ⟨h.id, h.expires, ()⟩) :
    s.RecordsId h := by
  intro t
  simp only [ReplayStore.contains, Ledger.isLive, s.replay.live?_of_find? h.id t recorded]
  by_cases early : t < h.expires <;> simp [early]

theorem recordsContent_recordPayment (fresh : s.Fresh p now) (unexpired : now < p.header.expires) :
    (recordPayment s p now).2.RecordsContent p := by
  intro t
  cases tracked : s.consumed with
  | none =>
    rw [recordPayment_of_untracked p now tracked]
    simp only [contentAt, recordId_consumed, tracked, Option.map_none]
  | some ledger =>
    have free := fresh.content ledger tracked
    rw [recordPayment_of_free p now tracked free fresh.id, contentAt_of_tracked rfl,
      p.consumeIn_ledger_of_unexpired ledger unexpired, Ledger.live?_claim_self _ _ free]
    by_cases early : t < p.header.expires <;> simp [early]

section

variable (now : Timestamp) {σ : Type} [ReplayStore σ] (never : ReplayStore.NeverRecords σ)
  (s : MandateStores σ)

include never

theorem recordId_of_neverRecords :
    (recordId s h now).1.isOk = false ∧ (recordId s h now).2.consumed = s.consumed := by
  have refused := never s.replay h.id h.expires now
  unfold recordId
  cases recorded : ReplayStore.record s.replay h.id h.expires now with
  | mk outcome replay =>
    rw [recorded] at refused
    cases outcome with
    | error e => exact ⟨rfl, rfl⟩
    | ok first =>
      cases first with
      | false => exact ⟨rfl, rfl⟩
      | true => exact absurd rfl refused

theorem recordPayment_of_neverRecords
    (reachable : ∀ ledger ∈ s.consumed, ledger.ledger.Reachable) :
    (recordPayment s p now).1.isOk = false ∧ ∀ fingerprint t, now ≤ t →
      (recordPayment s p now).2.contentAt fingerprint t = s.contentAt fingerprint t := by
  cases tracked : s.consumed with
  | none =>
    obtain ⟨refused, kept⟩ := recordId_of_neverRecords p.header now never s
    rw [recordPayment_of_untracked p now tracked]
    refine ⟨refused, ?_⟩
    intro fingerprint t _
    simp only [contentAt, kept]
  | some ledger =>
    have distinct := (reachable ledger tracked).distinct
    cases hcontent : ledger.isConsumed p.content.fingerprint now with
    | true =>
      rw [recordPayment_of_consumed p now tracked hcontent]
      refine ⟨rfl, ?_⟩
      intro fingerprint t ordered
      rw [contentAt_of_tracked tracked, contentAt_of_tracked rfl,
        PaymentMandate.consumeIn_ledger,
        Ledger.live?_claim_of_isLive fingerprint distinct _ _ hcontent ordered]
    | false =>
      obtain ⟨refused, _⟩ := recordId_of_neverRecords p.header now never
        { s with consumed := some (p.consumeIn ledger now).2 }
      cases recorded :
          recordId { s with consumed := some (p.consumeIn ledger now).2 } p.header now with
      | mk outcome s' =>
        rw [recorded] at refused
        rw [recordPayment_of_unconsumed p now tracked hcontent recorded, refused,
          if_neg Bool.false_ne_true]
        refine ⟨rfl, ?_⟩
        intro fingerprint t ordered
        rw [contentAt_of_tracked tracked, contentAt_of_tracked rfl, PaymentMandate.consumeIn,
          ConsumedLedger.live?_revoke_consume _ _ _ _ _ _ distinct hcontent _ ordered]

end

variable (v : MandateVerifier)

theorem sameExcept_verifyBundle_of_rejected (s : MandateStores ReplayLedger)
    (reachable : s.Reachable) (b : MandateBundle) (now : Timestamp)
    (rejected : (v.verifyBundle s b now).1.isAccepted = false) :
    s.SameExcept (v.verifyBundle s b now).2 now ∅ ∅ := by
  unfold verifyBundle at rejected ⊢
  cases checked : v.checkBundle b now (ReplayStore.contains s.replay b.payment.header.id now) with
  | error e => exact SameExcept.refl s now ∅ ∅
  | ok =>
    rw [checked] at rejected
    apply sameExcept_recordPayment_of_ne_ok reachable b.payment
    intro recorded
    simp [recorded, Except.map, Verdict.ofExcept, Verdict.isAccepted] at rejected

theorem footprint_of_isAccepted (reachable : s.Reachable) {b : MandateBundle} {now : Timestamp}
    (accepted : (v.verifyBundle s b now).1.isAccepted = true) :
    s.SameExcept (v.verifyBundle s b now).2 now {b.payment.header.id}
        {b.payment.content.fingerprint} ∧
      (v.verifyBundle s b now).2.RecordsId b.payment.header ∧
      (v.verifyBundle s b now).2.RecordsContent b.payment := by
  obtain ⟨c, accepted⟩ := (Verdict.isAccepted_iff _).mp accepted
  obtain ⟨_, uses⟩ := v.verifyBundle_uses accepted
  have fresh := (recordPayment_eq_ok s b.payment now).mp
    ((v.verifyBundle_eq_accepted s b c now).mp accepted).1.2
  have recorded := recordsId_of_recorded b.payment.header uses.recorded
  rw [v.verifyBundle_stores accepted] at recorded ⊢
  exact ⟨sameExcept_recordPayment_of_fresh reachable b.payment fresh, recorded,
    recordsContent_recordPayment b.payment fresh uses.unexpired⟩

theorem sameExcept_verify_of_rejected (s : MandateStores ReplayLedger)
    (reachable : s.Reachable) (m : Mandate) (now : Timestamp)
    (rejected : (v.verify s m now).1.isAccepted = false) :
    s.SameExcept (v.verify s m now).2 now ∅ ∅ := by
  unfold verify at rejected ⊢
  cases checked : v.checkMandate m now (ReplayStore.contains s.replay m.header.id now) with
  | error e => exact SameExcept.refl s now ∅ ∅
  | ok =>
    rw [checked] at rejected
    have live : s.replay.isLive m.header.id now = true := by
      rw [← Bool.not_eq_false, ← recordId_eq_ok]
      intro recorded
      simp [recorded, Verdict.ofExcept, Verdict.isAccepted] at rejected
    exact sameExcept_recordId_of_isLive reachable m.header live

theorem verifyBundle_of_neverRecords {σ : Type} [ReplayStore σ] (never : ReplayStore.NeverRecords σ)
    (s : MandateStores σ) (reachable : ∀ ledger ∈ s.consumed, ledger.ledger.Reachable)
    (b : MandateBundle) (now : Timestamp) :
    (v.verifyBundle s b now).1.isAccepted = false ∧ ∀ fingerprint t, now ≤ t →
      (v.verifyBundle s b now).2.contentAt fingerprint t = s.contentAt fingerprint t := by
  obtain ⟨refused, kept⟩ := recordPayment_of_neverRecords b.payment now never s reachable
  unfold verifyBundle
  cases v.checkBundle b now (ReplayStore.contains s.replay b.payment.header.id now) with
  | error e => exact ⟨rfl, fun _ _ _ => rfl⟩
  | ok =>
    refine ⟨?_, kept⟩
    cases outcome : (recordPayment s b.payment now).1 with
    | error e =>
      simp only [outcome]
      rfl
    | ok =>
      rw [outcome] at refused
      cases refused

/-- From the time of a verdict on, all that the stores answer otherwise is about what was accepted:
the identifier, and the content of a payment if that is tracked, each live until the expiry. Where
identifiers cannot be recorded, no bundle is accepted and no content is consumed. -/
theorem verdict_footprint (v : MandateVerifier) :
    (∀ s : MandateStores ReplayLedger, s.Reachable → ∀ now : Timestamp,
      (∀ m : Mandate,
        ((v.verify s m now).1.isAccepted = false →
          s.SameExcept (v.verify s m now).2 now ∅ ∅) ∧
        ((v.verify s m now).1.isAccepted = true →
          s.SameExcept (v.verify s m now).2 now {m.header.id} ∅ ∧
            (v.verify s m now).2.RecordsId m.header)) ∧
      ∀ b : MandateBundle,
        ((v.verifyBundle s b now).1.isAccepted = false →
          s.SameExcept (v.verifyBundle s b now).2 now ∅ ∅) ∧
        ((v.verifyBundle s b now).1.isAccepted = true →
          s.SameExcept (v.verifyBundle s b now).2 now {b.payment.header.id}
              {b.payment.content.fingerprint} ∧
            (v.verifyBundle s b now).2.RecordsId b.payment.header ∧
            (v.verifyBundle s b now).2.RecordsContent b.payment)) ∧
    ∀ (σ : Type) [ReplayStore σ], ReplayStore.NeverRecords σ → ∀ s : MandateStores σ,
      (∀ ledger ∈ s.consumed, ledger.ledger.Reachable) → ∀ (b : MandateBundle) (now : Timestamp),
        (v.verifyBundle s b now).1.isAccepted = false ∧ ∀ fingerprint t, now ≤ t →
          (v.verifyBundle s b now).2.contentAt fingerprint t = s.contentAt fingerprint t := by
  refine ⟨?_, fun σ _ never s reachable b now =>
    v.verifyBundle_of_neverRecords never s reachable b now⟩
  intro s reachable now
  constructor
  · intro m
    refine ⟨v.sameExcept_verify_of_rejected s reachable m now, ?_⟩
    intro accepted
    obtain ⟨_, accepted⟩ := (Verdict.isAccepted_iff _).mp accepted
    have uses := v.verify_uses accepted
    refine ⟨?_, recordsId_of_recorded m.header uses.recorded⟩
    rw [v.verify_stores accepted]
    exact sameExcept_recordId reachable m.header
  · intro b
    exact ⟨v.sameExcept_verifyBundle_of_rejected s reachable b now,
      v.footprint_of_isAccepted reachable⟩

end MandateVerifier

namespace Sample

theorem isAccepted_bundle_tracked :
    (verifier.verifyBundle stores bundle ⟨1000⟩).1.isAccepted = true := by
  decide +kernel

def contested : MandateStores ContestedStore := ⟨⟨⟩, some (.empty .default)⟩

end Sample

theorem MandateVerifier.verdict_footprint_sample :
    (Sample.stores.Reachable ∧
      (Sample.verifier.verifyBundle Sample.stores Sample.bundle ⟨1000⟩).1.isAccepted = true ∧
      (Sample.verifier.verifyBundle Sample.stores Sample.bundle ⟨1000⟩).2.RecordsContent
        Sample.bundle.payment) ∧
    (Sample.retried.Reachable ∧
      (Sample.verifier.verifyBundle Sample.retried Sample.bundle ⟨1999⟩).1.isAccepted = false ∧
      Sample.retried.SameExcept
        (Sample.verifier.verifyBundle Sample.retried Sample.bundle ⟨1999⟩).2 ⟨1999⟩ ∅ ∅) ∧
    ReplayStore.NeverRecords ContestedStore ∧
      (∀ ledger ∈ Sample.contested.consumed, ledger.ledger.Reachable) ∧
      ∀ fingerprint t, (⟨1000⟩ : Timestamp) ≤ t →
        (Sample.verifier.verifyBundle Sample.contested Sample.bundle ⟨1000⟩).2.contentAt
          fingerprint t = Sample.contested.contentAt fingerprint t := by
  obtain ⟨inMemory, refusing⟩ := verdict_footprint Sample.verifier
  have reachable : Sample.stores.Reachable := MandateStores.reachable_empty 1 (some .default)
  have accepted := Sample.isAccepted_bundle_tracked
  have after : Sample.retried.Reachable := reachable_storesAfter Sample.verifier reachable _
  have rejected : (Sample.verifier.verifyBundle Sample.retried Sample.bundle
      ⟨1999⟩).1.isAccepted = false := by
    decide +kernel
  have never : ReplayStore.NeverRecords ContestedStore := fun _ _ _ _ => nofun
  have tracked : ∀ ledger ∈ Sample.contested.consumed, ledger.ledger.Reachable := by
    rintro _ ⟨⟩
    exact .empty _
  refine ⟨⟨reachable, accepted, ?_⟩, ⟨after, rejected, ?_⟩, never, tracked, ?_⟩
  · exact (((inMemory Sample.stores reachable ⟨1000⟩).2 Sample.bundle).2 accepted).2.2
  · exact ((inMemory Sample.retried after ⟨1999⟩).2 Sample.bundle).1 rejected
  · exact (refusing ContestedStore never Sample.contested tracked Sample.bundle ⟨1000⟩).2

end PaymentTrust
