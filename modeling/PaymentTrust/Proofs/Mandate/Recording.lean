import PaymentTrust.Mandate.Verifier
import PaymentTrust.Proofs.Ledger.Basic

/-! What recording does to the stores: the identifier is recorded if it has no live record, and with
it the content of a payment. Whether or not it succeeds, every live record of an identifier stays.
-/
namespace PaymentTrust

/-- Neither the payment's identifier nor, if content is tracked, its content has a live record. -/
structure MandateStores.Fresh (s : MandateStores ReplayLedger) (p : PaymentMandate)
    (now : Timestamp) : Prop where
  id : s.replay.isLive p.header.id now = false
  content : ∀ ledger ∈ s.consumed, ledger.isConsumed p.content.fingerprint now = false

def PaymentMandate.consumeIn (p : PaymentMandate) (ledger : ConsumedLedger Json)
    (now : Timestamp) : Bool × ConsumedLedger Json :=
  ledger.consume p.content.fingerprint p.content (some (p.header.expires.since now)) now

theorem PaymentMandate.consumeIn_ledger (p : PaymentMandate) (ledger : ConsumedLedger Json)
    (now : Timestamp) :
    (p.consumeIn ledger now).2.ledger = (ledger.ledger.claim p.content.fingerprint
      (now.later (p.header.expires.since now)) now p.content).2 :=
  rfl

theorem PaymentMandate.consumeIn_ledger_of_unexpired (p : PaymentMandate)
    (ledger : ConsumedLedger Json) {now : Timestamp} (unexpired : now < p.header.expires) :
    (p.consumeIn ledger now).2.ledger =
      (ledger.ledger.claim p.content.fingerprint p.header.expires now p.content).2 := by
  rw [consumeIn_ledger, Timestamp.later_since (le_of_lt unexpired)]

namespace MandateVerifier

section

variable {σ : Type} [ReplayStore σ] {s : MandateStores σ} {ledger : ConsumedLedger Json}
  (p : PaymentMandate) (now : Timestamp)

theorem recordPayment_of_untracked (untracked : s.consumed = none) :
    recordPayment s p now = recordId s p.header now := by
  unfold recordPayment
  rw [untracked]

theorem recordPayment_of_consumed (tracked : s.consumed = some ledger)
    (consumed : ledger.isConsumed p.content.fingerprint now = true) :
    recordPayment s p now = (.error (.contentReplayed p.content.fingerprint),
      { s with consumed := some (p.consumeIn ledger now).2 }) := by
  have hfirst : (p.consumeIn ledger now).1 = false := by
    rw [PaymentMandate.consumeIn, ConsumedLedger.consume_fst, consumed, Bool.not_true]
  unfold PaymentMandate.consumeIn at hfirst ⊢
  unfold recordPayment
  rw [tracked]
  simp only [hfirst, Bool.false_eq_true, if_false]

/-- Content is taken up before the identifier is recorded, and given back if that fails. -/
theorem recordPayment_of_unconsumed (tracked : s.consumed = some ledger)
    (unconsumed : ledger.isConsumed p.content.fingerprint now = false)
    {outcome : Except MandateError Unit} {s' : MandateStores σ}
    (recorded : recordId { s with consumed := some (p.consumeIn ledger now).2 } p.header now =
      (outcome, s')) :
    recordPayment s p now = (outcome, if outcome.isOk then s' else { s' with
      consumed := some ((p.consumeIn ledger now).2.revoke p.content.fingerprint).2 }) := by
  have hfirst : (p.consumeIn ledger now).1 = true := by
    rw [PaymentMandate.consumeIn, ConsumedLedger.consume_fst, unconsumed, Bool.not_false]
  unfold PaymentMandate.consumeIn at hfirst recorded ⊢
  unfold recordPayment
  rw [tracked]
  simp only [hfirst, if_true, recorded]
  cases outcome <;> rfl

end

variable (s : MandateStores ReplayLedger) (h : MandateHeader) (p : PaymentMandate)
  (now : Timestamp)

theorem recordId_of_isLive (live : s.replay.isLive h.id now = true) :
    recordId s h now =
      (.error (.replayed h.id), { s with replay := s.replay.makeRoom h.id now }) := by
  unfold recordId
  simp only [ReplayStore.record, ReplayLedger.record,
    Ledger.claim_of_isLive s.replay h.id now h.expires () live]

theorem recordId_of_free (free : s.replay.isLive h.id now = false) :
    recordId s h now = (.ok (),
      { s with replay := (s.replay.makeRoom h.id now).put ⟨h.id, h.expires, ()⟩ }) := by
  unfold recordId
  simp only [ReplayStore.record, ReplayLedger.record,
    Ledger.claim_of_free s.replay h.id now h.expires () free]

theorem recordId_replay :
    (recordId s h now).2.replay = (s.replay.claim h.id h.expires now ()).2 := by
  unfold recordId
  simp only [ReplayStore.record, ReplayLedger.record]
  cases (s.replay.claim h.id h.expires now ()).1 <;> rfl

theorem recordId_consumed : (recordId s h now).2.consumed = s.consumed := by
  unfold recordId
  simp only [ReplayStore.record, ReplayLedger.record]
  cases (s.replay.claim h.id h.expires now ()).1 <;> rfl

variable {s} {ledger : ConsumedLedger Json}

theorem recordPayment_of_isLive (tracked : s.consumed = some ledger)
    (unconsumed : ledger.isConsumed p.content.fingerprint now = false)
    (live : s.replay.isLive p.header.id now = true) :
    recordPayment s p now = (.error (.replayed p.header.id),
      ⟨s.replay.makeRoom p.header.id now,
        some ((p.consumeIn ledger now).2.revoke p.content.fingerprint).2⟩) :=
  recordPayment_of_unconsumed p now tracked unconsumed (recordId_of_isLive _ _ _ live)

theorem recordPayment_of_free (tracked : s.consumed = some ledger)
    (unconsumed : ledger.isConsumed p.content.fingerprint now = false)
    (free : s.replay.isLive p.header.id now = false) :
    recordPayment s p now = (.ok (),
      ⟨(s.replay.makeRoom p.header.id now).put ⟨p.header.id, p.header.expires, ()⟩,
        some (p.consumeIn ledger now).2⟩) :=
  recordPayment_of_unconsumed p now tracked unconsumed (recordId_of_free _ _ _ free)

theorem recordPayment_replay
    (unconsumed : ∀ ledger ∈ s.consumed, ledger.isConsumed p.content.fingerprint now = false) :
    (recordPayment s p now).2.replay =
      (s.replay.claim p.header.id p.header.expires now ()).2 := by
  cases tracked : s.consumed with
  | none => rw [recordPayment_of_untracked p now tracked, recordId_replay]
  | some ledger =>
    have hcontent := unconsumed ledger tracked
    cases live : s.replay.isLive p.header.id now with
    | true =>
      rw [recordPayment_of_isLive p now tracked hcontent live,
        Ledger.claim_of_isLive _ _ _ _ _ live]
    | false =>
      rw [recordPayment_of_free p now tracked hcontent live, Ledger.claim_of_free _ _ _ _ _ live]

variable (s)

theorem recordId_eq_ok : (recordId s h now).1 = .ok () ↔ s.replay.isLive h.id now = false := by
  cases hlive : s.replay.isLive h.id now with
  | true => simp [recordId_of_isLive s h now hlive]
  | false => simp [recordId_of_free s h now hlive]

theorem recordPayment_eq_ok : (recordPayment s p now).1 = .ok () ↔ s.Fresh p now := by
  cases tracked : s.consumed with
  | none =>
    rw [recordPayment_of_untracked p now tracked, recordId_eq_ok]
    exact ⟨fun id => ⟨id, by simp [tracked]⟩, fun fresh => fresh.id⟩
  | some ledger =>
    cases hcontent : ledger.isConsumed p.content.fingerprint now with
    | true =>
      rw [recordPayment_of_consumed p now tracked hcontent]
      refine ⟨nofun, fun fresh => ?_⟩
      simpa [hcontent] using fresh.content ledger tracked
    | false =>
      have hfresh : s.Fresh p now ↔ s.replay.isLive p.header.id now = false :=
        ⟨fun fresh => fresh.id, fun id => ⟨id, by simpa [tracked] using hcontent⟩⟩
      cases hlive : s.replay.isLive p.header.id now with
      | true => simp [recordPayment_of_isLive p now tracked hcontent hlive, hfresh, hlive]
      | false => simp [recordPayment_of_free p now tracked hcontent hlive, hfresh, hlive]

theorem recordId_retains : s.replay.Retains (recordId s h now).2.replay now := by
  rw [recordId_replay]
  exact s.replay.retains_claim h.id now h.expires ()

theorem recordPayment_retains : s.replay.Retains (recordPayment s p now).2.replay now := by
  by_cases unconsumed :
      ∀ ledger ∈ s.consumed, ledger.isConsumed p.content.fingerprint now = false
  · rw [recordPayment_replay p now unconsumed]
    exact s.replay.retains_claim p.header.id now p.header.expires ()
  · simp only [Classical.not_forall, Bool.not_eq_false] at unconsumed
    obtain ⟨ledger, tracked, consumed⟩ := unconsumed
    rw [recordPayment_of_consumed p now tracked consumed]
    exact s.replay.retains_refl now

variable {s}

theorem find?_recordId (free : s.replay.isLive h.id now = false) :
    (recordId s h now).2.replay.find? h.id = some ⟨h.id, h.expires, ()⟩ := by
  rw [recordId_replay]
  exact s.replay.find?_claim_self h.id now h.expires () free

theorem find?_recordPayment (fresh : s.Fresh p now) :
    (recordPayment s p now).2.replay.find? p.header.id =
      some ⟨p.header.id, p.header.expires, ()⟩ := by
  rw [recordPayment_replay p now fresh.content]
  exact s.replay.find?_claim_self p.header.id now p.header.expires () fresh.id

end MandateVerifier

end PaymentTrust
