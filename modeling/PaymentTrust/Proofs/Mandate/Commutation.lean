import PaymentTrust.Proofs.Mandate.ContentRun
import PaymentTrust.Proofs.Mandate.Footprint

/-! Payments that share neither identifier nor tracked content do not meet in the stores. Each verdict
is made of what the stores answer about its own payment, and an order of two verdicts can be told
neither from them nor from the stores that they leave. -/
namespace PaymentTrust

namespace MandateStores

/-- From `now` on, the stores answer alike about what the payment would use up. -/
structure AgreeOn (s s' : MandateStores ReplayLedger) (p : PaymentMandate) (now : Timestamp) :
    Prop where
  id : ∀ t, now ≤ t →
    ReplayStore.contains s'.replay p.header.id t = ReplayStore.contains s.replay p.header.id t
  content : ∀ t, now ≤ t →
    s'.contentAt p.content.fingerprint t = s.contentAt p.content.fingerprint t

structure Independent (s : MandateStores ReplayLedger) (p q : PaymentMandate) : Prop where
  id : p.header.id ≠ q.header.id
  content : s.consumed.isSome = true → p.content.fingerprint ≠ q.content.fingerprint

variable {s s' s'' : MandateStores ReplayLedger} {p q : PaymentMandate} {now : Timestamp}

theorem AgreeOn.symm (agree : s.AgreeOn s' p now) : s'.AgreeOn s p now :=
  ⟨fun t ordered => (agree.id t ordered).symm, fun t ordered => (agree.content t ordered).symm⟩

theorem AgreeOn.trans (first : s.AgreeOn s' p now) (second : s'.AgreeOn s'' p now) :
    s.AgreeOn s'' p now :=
  ⟨fun t ordered => (second.id t ordered).trans (first.id t ordered),
    fun t ordered => (second.content t ordered).trans (first.content t ordered)⟩

theorem Independent.symm (independent : s.Independent p q) : s.Independent q p :=
  ⟨independent.id.symm, fun tracked => (independent.content tracked).symm⟩

theorem isSome_contentAt (fingerprint : String) (t : Timestamp) :
    (s.contentAt fingerprint t).isSome = s.consumed.isSome :=
  Option.isSome_map

theorem AgreeOn.isSome_consumed (agree : s.AgreeOn s' p now) :
    s'.consumed.isSome = s.consumed.isSome := by
  rw [← isSome_contentAt p.content.fingerprint now, agree.content now le_rfl, isSome_contentAt]

end MandateStores

namespace MandateVerifier

open MandateStores

section

variable (s : MandateStores ReplayLedger) (p : PaymentMandate) (now : Timestamp)

theorem recordPayment_fst : (recordPayment s p now).1 =
    if (s.contentAt p.content.fingerprint now).any (·.1) then
      .error (.contentReplayed p.content.fingerprint)
    else if ReplayStore.contains s.replay p.header.id now then .error (.replayed p.header.id)
    else .ok () := by
  cases tracked : s.consumed with
  | none =>
    rw [recordPayment_of_untracked p now tracked]
    cases live : s.replay.isLive p.header.id now with
    | true => simp [recordId_of_isLive s p.header now live, contentAt, tracked, ReplayStore.contains, live]
    | false => simp [recordId_of_free s p.header now live, contentAt, tracked, ReplayStore.contains, live]
  | some ledger =>
    cases consumed : ledger.isConsumed p.content.fingerprint now with
    | true => simp [recordPayment_of_consumed p now tracked consumed, contentAt, tracked, consumed]
    | false =>
      cases live : s.replay.isLive p.header.id now with
      | true =>
        simp [recordPayment_of_isLive p now tracked consumed live, contentAt, tracked, consumed,
          ReplayStore.contains, live]
      | false =>
        simp [recordPayment_of_free p now tracked consumed live, contentAt, tracked, consumed,
          ReplayStore.contains, live]

theorem isSome_consumed_recordPayment :
    (recordPayment s p now).2.consumed.isSome = s.consumed.isSome := by
  cases tracked : s.consumed with
  | none => rw [recordPayment_of_untracked p now tracked, recordId_consumed, tracked]
  | some ledger =>
    cases consumed : ledger.isConsumed p.content.fingerprint now with
    | true => rw [recordPayment_of_consumed p now tracked consumed]; rfl
    | false =>
      cases live : s.replay.isLive p.header.id now with
      | true => rw [recordPayment_of_isLive p now tracked consumed live]; rfl
      | false => rw [recordPayment_of_free p now tracked consumed live]; rfl

end

variable (v : MandateVerifier) {s s' : MandateStores ReplayLedger} (b : MandateBundle)
  (now : Timestamp)

theorem isSome_consumed_verifyBundle :
    (v.verifyBundle s b now).2.consumed.isSome = s.consumed.isSome := by
  unfold verifyBundle
  cases v.checkBundle b now (ReplayStore.contains s.replay b.payment.header.id now) with
  | error e => rfl
  | ok => exact isSome_consumed_recordPayment s b.payment now

/-- Of the stores, a verdict depends on what they answer about the payment at its time. -/
theorem verifyBundle_fst_of_agreeOn (agree : s.AgreeOn s' b.payment now) :
    (v.verifyBundle s' b now).1 = (v.verifyBundle s b now).1 := by
  have outcome : (recordPayment s' b.payment now).1 = (recordPayment s b.payment now).1 := by
    rw [recordPayment_fst, recordPayment_fst, agree.id now le_rfl, agree.content now le_rfl]
  unfold verifyBundle
  rw [agree.id now le_rfl]
  cases v.checkBundle b now (ReplayStore.contains s.replay b.payment.header.id now) with
  | error e => rfl
  | ok => simp only [outcome]

section

variable (reachable : s.Reachable)

include reachable

theorem sameExcept_verifyBundle :
    s.SameExcept (v.verifyBundle s b now).2 now {b.payment.header.id}
      {b.payment.content.fingerprint} := by
  cases accepted : (v.verifyBundle s b now).1.isAccepted with
  | true => exact (v.footprint_of_isAccepted reachable accepted).1
  | false =>
    have same := v.sameExcept_verifyBundle_of_rejected s reachable b now accepted
    exact ⟨fun id _ => same.id id (Set.notMem_empty id),
      fun fingerprint _ => same.content fingerprint (Set.notMem_empty fingerprint)⟩

theorem agreeOn_verifyBundle {p : PaymentMandate} (independent : s.Independent b.payment p) :
    s.AgreeOn (v.verifyBundle s b now).2 p now := by
  have same := v.sameExcept_verifyBundle b now reachable
  refine ⟨same.id p.header.id independent.id.symm, ?_⟩
  intro t ordered
  cases tracked : s.consumed.isSome with
  | true => exact same.content _ (independent.content tracked).symm t ordered
  | false =>
    have untracked : s.consumed = none := by simpa using tracked
    have untracked' : (v.verifyBundle s b now).2.consumed = none := by
      simpa [untracked] using v.isSome_consumed_verifyBundle (s := s) b now
    rw [contentAt, contentAt, untracked, untracked']

theorem verifyBundle_snd_of_agreeOn (reachable' : s'.Reachable) (agree : s.AgreeOn s' b.payment now) :
    (v.verifyBundle s b now).2.AgreeOn (v.verifyBundle s' b now).2 b.payment now := by
  have verdict := v.verifyBundle_fst_of_agreeOn b now agree
  cases accepted : (v.verifyBundle s b now).1.isAccepted with
  | true =>
    obtain ⟨_, id, content⟩ := v.footprint_of_isAccepted reachable accepted
    obtain ⟨_, id', content'⟩ := v.footprint_of_isAccepted reachable' (verdict ▸ accepted)
    refine ⟨fun t _ => (id' t).trans (id t).symm, fun t _ => ?_⟩
    have tracked : (v.verifyBundle s' b now).2.consumed.isSome =
        (v.verifyBundle s b now).2.consumed.isSome := by
      rw [isSome_consumed_verifyBundle, isSome_consumed_verifyBundle, agree.isSome_consumed]
    rw [content t, content' t]
    cases h : (v.verifyBundle s b now).2.consumed <;>
      cases h' : (v.verifyBundle s' b now).2.consumed <;> simp [h, h'] at tracked ⊢
  | false =>
    have same := v.sameExcept_verifyBundle_of_rejected s reachable b now accepted
    have same' :=
      v.sameExcept_verifyBundle_of_rejected s' reachable' b now (verdict ▸ accepted)
    have unmoved : s.AgreeOn (v.verifyBundle s b now).2 b.payment now :=
      ⟨same.id _ (Set.notMem_empty _), same.content _ (Set.notMem_empty _)⟩
    have unmoved' : s'.AgreeOn (v.verifyBundle s' b now).2 b.payment now :=
      ⟨same'.id _ (Set.notMem_empty _), same'.content _ (Set.notMem_empty _)⟩
    exact unmoved.symm.trans (agree.trans unmoved')

/-- In both orders the stores come to answer alike about the first payment: the second verdict leaves
it alone where it comes last, and its own verdict was the same where it comes first. -/
theorem agreeOn_of_order {c : MandateBundle} (independent : s.Independent b.payment c.payment) :
    (v.verifyBundle (v.verifyBundle s b now).2 c now).2.AgreeOn
      (v.verifyBundle (v.verifyBundle s c now).2 b now).2 b.payment now := by
  have afterB := reachable_verifyBundle reachable now v b
  have afterC := reachable_verifyBundle reachable now v c
  have still : (v.verifyBundle s b now).2.Independent c.payment b.payment :=
    ⟨independent.id.symm, fun tracked =>
      (independent.content (v.isSome_consumed_verifyBundle b now ▸ tracked)).symm⟩
  have last := v.agreeOn_verifyBundle c now afterB still
  have first := v.verifyBundle_snd_of_agreeOn b now reachable afterC
    (v.agreeOn_verifyBundle c now reachable independent.symm)
  exact last.symm.trans first

end

/-- Bundles whose payments are independent get the verdicts that each would get alone, in whichever
order they are shown, and leave stores that answer alike. -/
theorem verifyBundle_comm (v : MandateVerifier) (s : MandateStores ReplayLedger)
    (reachable : s.Reachable) (now : Timestamp) (b c : MandateBundle)
    (independent : s.Independent b.payment c.payment) :
    (v.verifyBundle (v.verifyBundle s c now).2 b now).1 = (v.verifyBundle s b now).1 ∧
      (v.verifyBundle (v.verifyBundle s b now).2 c now).1 = (v.verifyBundle s c now).1 ∧
      (v.verifyBundle (v.verifyBundle s b now).2 c now).2.SameExcept
        (v.verifyBundle (v.verifyBundle s c now).2 b now).2 now ∅ ∅ := by
  have afterB := reachable_verifyBundle reachable now v b
  have afterC := reachable_verifyBundle reachable now v c
  have onB := v.agreeOn_of_order b now reachable independent
  have onC := (v.agreeOn_of_order c now reachable independent.symm).symm
  have toB := v.sameExcept_verifyBundle b now reachable
  have toC := v.sameExcept_verifyBundle c now reachable
  have toBC := v.sameExcept_verifyBundle c now afterB
  have toCB := v.sameExcept_verifyBundle b now afterC
  refine ⟨v.verifyBundle_fst_of_agreeOn b now (v.agreeOn_verifyBundle c now reachable independent.symm),
    v.verifyBundle_fst_of_agreeOn c now (v.agreeOn_verifyBundle b now reachable independent), ?_, ?_⟩
  · intro id _ t ordered
    by_cases isB : id = b.payment.header.id
    · exact isB ▸ onB.id t ordered
    by_cases isC : id = c.payment.header.id
    · exact isC ▸ onC.id t ordered
    rw [toCB.id id isB t ordered, toC.id id isC t ordered, toBC.id id isC t ordered,
      toB.id id isB t ordered]
  · intro fingerprint _ t ordered
    by_cases isB : fingerprint = b.payment.content.fingerprint
    · exact isB ▸ onB.content t ordered
    by_cases isC : fingerprint = c.payment.content.fingerprint
    · exact isC ▸ onC.content t ordered
    rw [toCB.content _ isB t ordered, toC.content _ isC t ordered, toBC.content _ isC t ordered,
      toB.content _ isB t ordered]

end MandateVerifier

namespace Sample

def diverted : MandateBundle :=
  { bundle with payment := { bundle.payment with
    header := header .payment "pm-3" ⟨3000⟩ "Eg==", destination := "0xbb" } }

def occupied : MandateStores ReplayLedger :=
  verifier.storesAfter (.tracking 1 ⟨3600, 1⟩) purchase

end Sample

/-- The first payment has just expired, so whichever verdict comes first sweeps its records. -/
theorem MandateVerifier.verifyBundle_comm_occupied :
    (Sample.occupied.Reachable ∧
      Sample.occupied.Independent Sample.renewed.payment Sample.diverted.payment) ∧
    (Sample.verifier.verifyBundle (Sample.verifier.verifyBundle Sample.occupied Sample.renewed
      ⟨2000⟩).2 Sample.diverted ⟨2000⟩).1 =
        (Sample.verifier.verifyBundle Sample.occupied Sample.diverted ⟨2000⟩).1 ∧
    (Sample.verifier.verifyBundle (Sample.verifier.verifyBundle Sample.occupied Sample.renewed
        ⟨2000⟩).2 Sample.diverted ⟨2000⟩).2.SameExcept
      (Sample.verifier.verifyBundle (Sample.verifier.verifyBundle Sample.occupied Sample.diverted
        ⟨2000⟩).2 Sample.renewed ⟨2000⟩).2 ⟨2000⟩ ∅ ∅ := by
  have reachable : Sample.occupied.Reachable :=
    reachable_storesAfter Sample.verifier (MandateStores.reachable_empty 1 (some ⟨3600, 1⟩)) _
  have independent : Sample.occupied.Independent Sample.renewed.payment Sample.diverted.payment :=
    ⟨by decide, fun _ => by
      rw [PaymentMandate.fingerprint_content, PaymentMandate.fingerprint_content]
      decide +kernel⟩
  exact ⟨⟨reachable, independent⟩, (verifyBundle_comm Sample.verifier Sample.occupied reachable
    ⟨2000⟩ Sample.renewed Sample.diverted independent).2⟩

end PaymentTrust
