import PaymentTrust.Proofs.Ledger.Live
import PaymentTrust.Proofs.Mandate.Run

/-! Which stores there can be: those that the operations of both ledgers make of empty ones. A verifier
works on the stores by these operations alone, so every run of it stays among them. -/
namespace PaymentTrust

structure MandateStores.Reachable (s : MandateStores ReplayLedger) : Prop where
  replay : s.replay.Reachable
  consumed : ∀ ledger ∈ s.consumed, ledger.ledger.Reachable

theorem MandateStores.reachable_empty (bound : Nat) (settings : Option ConsumedSettings) :
    (⟨.empty bound, settings.map .empty⟩ : MandateStores ReplayLedger).Reachable where
  replay := .empty bound
  consumed := by
    intro ledger mem
    obtain ⟨settings, _, rfl⟩ := Option.map_eq_some_iff.mp mem
    exact .empty settings.bound

namespace MandateVerifier

variable {s : MandateStores ReplayLedger} (reachable : s.Reachable) (h : MandateHeader)
  (p : PaymentMandate) (now : Timestamp)

include reachable

theorem reachable_recordId : (recordId s h now).2.Reachable where
  replay := by
    rw [recordId_replay]
    exact reachable.replay.claim h.id h.expires now ()
  consumed := by
    rw [recordId_consumed]
    exact reachable.consumed

theorem reachable_recordPayment : (recordPayment s p now).2.Reachable := by
  cases tracked : s.consumed with
  | none =>
    rw [recordPayment_of_untracked p now tracked]
    exact reachable_recordId reachable p.header now
  | some ledger =>
    -- Taking content up is a claim, whether or not it succeeds; giving it back erases a record.
    have taken : (p.consumeIn ledger now).2.ledger.Reachable :=
      (reachable.consumed ledger tracked).claim ..
    have stores : { s with consumed := some (p.consumeIn ledger now).2 }.Reachable := by
      refine ⟨reachable.replay, ?_⟩
      rintro _ ⟨⟩
      exact taken
    cases hcontent : ledger.isConsumed p.content.fingerprint now with
    | true =>
      rw [recordPayment_of_consumed p now tracked hcontent]
      exact stores
    | false =>
      have after := reachable_recordId stores p.header now
      cases recorded :
          recordId { s with consumed := some (p.consumeIn ledger now).2 } p.header now with
      | mk outcome s' =>
        rw [recorded] at after
        rw [recordPayment_of_unconsumed p now tracked hcontent recorded]
        cases outcome with
        | ok => exact after
        | error e =>
          refine ⟨after.replay, ?_⟩
          rintro _ ⟨⟩
          exact taken.erase p.content.fingerprint

variable (v : MandateVerifier)

theorem reachable_verifyBundle (b : MandateBundle) : (v.verifyBundle s b now).2.Reachable := by
  unfold verifyBundle
  cases v.checkBundle b now (ReplayStore.contains s.replay b.payment.header.id now) with
  | error e => exact reachable
  | ok => exact reachable_recordPayment reachable b.payment now

theorem reachable_perform (call : MandateCall) : (v.perform s call now).2.Reachable := by
  cases call with
  | mandate m =>
    simp only [perform, verify]
    cases v.checkMandate m now (ReplayStore.contains s.replay m.header.id now) with
    | error e => exact reachable
    | ok => exact reachable_recordId reachable m.header now
  | bundle b => exact reachable_verifyBundle reachable now v b
  | text text =>
    simp only [perform, verifyText]
    cases MandateBundle.ofText text with
    | error fault => exact reachable
    | ok b => exact reachable_verifyBundle reachable now v b
  | sweep => exact ⟨reachable.replay.sweep now, reachable.consumed⟩
  | contains | stats | isConsumed => exact reachable
  | consumedContent fingerprint =>
    refine ⟨reachable.replay, ?_⟩
    intro ledger mem
    obtain ⟨before, tracked, rfl⟩ := Option.map_eq_some_iff.mp mem
    rw [ConsumedLedger.get_ledger]
    exact reachable.consumed before tracked
  | sweepConsumed =>
    refine ⟨reachable.replay, ?_⟩
    intro ledger mem
    obtain ⟨before, tracked, rfl⟩ := Option.map_eq_some_iff.mp mem
    exact (reachable.consumed before tracked).sweep now

omit reachable

theorem reachable_storesAfter {s : MandateStores ReplayLedger} (reachable : s.Reachable)
    (calls : List (Timed MandateCall)) : (v.storesAfter s calls).Reachable := by
  induction calls generalizing s with
  | nil => exact reachable
  | cons call calls ih => exact ih (reachable_perform reachable call.now v call.what)

end MandateVerifier

end PaymentTrust
