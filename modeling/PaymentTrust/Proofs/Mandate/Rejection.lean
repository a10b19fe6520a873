import PaymentTrust.Proofs.Mandate.Acceptance

/-! Which errors come from the stores. The checks of a bundle raise none of these but that of a used
identifier, so what is rejected for its content was turned down by the ledger of content. -/
namespace PaymentTrust

def MandateError.isOfStores : MandateError → Bool
  | .replayed _ | .contentReplayed _ | .store _ => true
  | _ => false

theorem MandateError.eq_contentReplayed_of_reason {e : MandateError}
    (h : Explained.reason e = "mandate_content_replayed") :
    ∃ fingerprint, e = .contentReplayed fingerprint := by
  cases e with
  | contentReplayed fingerprint => exact ⟨fingerprint, rfl⟩
  | identity e => cases e <;> simp [Explained.reason] at h
  | _ => simp [Explained.reason] at h

theorem MandateError.eq_replayed_of_reason {e : MandateError}
    (h : Explained.reason e = "mandate_replayed") : ∃ id, e = .replayed id := by
  cases e with
  | replayed id => exact ⟨id, rfl⟩
  | identity e => cases e <;> simp [Explained.reason] at h
  | _ => simp [Explained.reason] at h

namespace MandateVerifier

open Outcome

variable (v : MandateVerifier)

theorem raisesOnly_require {P : MandateError → Prop} {e : MandateError} (condition : Bool)
    (h : P e) : RaisesOnly P (require condition e) := by
  cases condition with
  | true => exact raisesOnly_ok P ()
  | false => exact raisesOnly_error h

theorem raisesOnly_checkProof (m : Mandate) :
    RaisesOnly (·.isOfStores = false) (v.checkProof m) := by
  unfold checkProof
  refine RaisesOnly.bind (raisesOnly_mapError _ fun _ => rfl) fun key => ?_
  refine RaisesOnly.bind (raisesOnly_mapError _ fun _ => rfl) fun signature => ?_
  exact raisesOnly_mapError _ fun _ => rfl

theorem raisesOnly_checkMandate (m : Mandate) (now : Timestamp) (used : Bool) :
    RaisesOnly (fun e => e.isOfStores = false ∨ used = true ∧ e = .replayed m.header.id)
      (v.checkMandate m now used) := by
  unfold checkMandate
  refine RaisesOnly.bind (raisesOnly_require _ (.inl rfl)) fun _ => ?_
  refine RaisesOnly.bind (raisesOnly_require _ (.inl rfl)) fun _ => ?_
  refine RaisesOnly.bind ?_ fun _ => ?_
  · cases used with
    | true => exact raisesOnly_require _ (.inr ⟨rfl, rfl⟩)
    | false => exact raisesOnly_ok _ ()
  intro e h
  exact .inl (v.raisesOnly_checkProof m e h)

theorem raisesOnly_checkSlot (m : Mandate) :
    RaisesOnly (·.isOfStores = false) (v.checkSlot m) := by
  unfold checkSlot
  refine RaisesOnly.bind (raisesOnly_require _ rfl) fun _ => ?_
  exact raisesOnly_require _ rfl

theorem raisesOnly_checkBinding (b : MandateBundle) :
    RaisesOnly (·.isOfStores = false) (v.checkBinding b) := by
  unfold checkBinding
  cases b.payment.merchantDomain <;> cases b.payment.agentPresence <;>
    cases b.payment.modality <;> cases b.intent.requestedAmount
  -- In each case the rules are a sequence of checks, every one with an error of its own.
  all_goals
    repeat first
      | exact raisesOnly_ok _ ()
      | exact raisesOnly_require _ rfl
      | refine RaisesOnly.bind (raisesOnly_require _ rfl) fun _ => ?_
      | refine RaisesOnly.bind (raisesOnly_error rfl) fun _ => ?_

theorem raisesOnly_checkBundle (b : MandateBundle) (now : Timestamp) (used : Bool) :
    RaisesOnly (fun e => e.isOfStores = false ∨ used = true ∧ e = .replayed b.payment.header.id)
      (v.checkBundle b now used) := by
  have unused (m : Mandate) : RaisesOnly (·.isOfStores = false) (v.checkMandate m now false) :=
    fun e h => (v.raisesOnly_checkMandate m now false e h).resolve_right
      fun used => Bool.false_ne_true used.1
  have slot (m : Mandate) := v.raisesOnly_checkSlot m
  have binding := v.raisesOnly_checkBinding b
  unfold checkBundle
  refine RaisesOnly.bind (fun e h => .inl (unused _ e h)) fun _ => ?_
  refine RaisesOnly.bind (fun e h => .inl (unused _ e h)) fun _ => ?_
  refine RaisesOnly.bind (v.raisesOnly_checkMandate (.payment b.payment) now used) fun _ => ?_
  refine RaisesOnly.bind (fun e h => .inl (slot _ e h)) fun _ => ?_
  refine RaisesOnly.bind (fun e h => .inl (slot _ e h)) fun _ => ?_
  refine RaisesOnly.bind (fun e h => .inl (slot _ e h)) fun _ => ?_
  exact fun e h => .inl (binding e h)

variable {s : MandateStores ReplayLedger} {now : Timestamp} {e : MandateError}

theorem recordId_eq_error {h : MandateHeader} (failed : (recordId s h now).1 = .error e) :
    s.replay.isLive h.id now = true ∧ e = .replayed h.id := by
  cases live : s.replay.isLive h.id now with
  | true =>
    rw [recordId_of_isLive s h now live] at failed
    exact ⟨rfl, (Except.error.inj failed).symm⟩
  | false =>
    rw [recordId_of_free s h now live] at failed
    cases failed

theorem recordPayment_eq_error {p : PaymentMandate}
    (failed : (recordPayment s p now).1 = .error e) :
    (s.replay.isLive p.header.id now = true ∧ e = .replayed p.header.id) ∨
      ∃ ledger, s.consumed = some ledger ∧
        ledger.isConsumed p.content.fingerprint now = true ∧
        e = .contentReplayed p.content.fingerprint := by
  cases tracked : s.consumed with
  | none =>
    rw [recordPayment_of_untracked p now tracked] at failed
    exact .inl (recordId_eq_error failed)
  | some ledger =>
    cases hcontent : ledger.isConsumed p.content.fingerprint now with
    | true =>
      rw [recordPayment_of_consumed p now tracked hcontent] at failed
      exact .inr ⟨ledger, rfl, hcontent, (Except.error.inj failed).symm⟩
    | false =>
      cases live : s.replay.isLive p.header.id now with
      | true =>
        rw [recordPayment_of_isLive p now tracked hcontent live] at failed
        exact .inl ⟨rfl, (Except.error.inj failed).symm⟩
      | false =>
        rw [recordPayment_of_free p now tracked hcontent live] at failed
        cases failed

theorem verifyBundle_of_isConsumed {b : MandateBundle} {ledger : ConsumedLedger Json}
    (checked : v.checkBundle b now (ReplayStore.contains s.replay b.payment.header.id now) = .ok ())
    (tracked : s.consumed = some ledger)
    (consumed : ledger.isConsumed b.payment.content.fingerprint now = true) :
    (v.verifyBundle s b now).1 =
      .rejected (.ofError (MandateError.contentReplayed b.payment.content.fingerprint)) := by
  unfold verifyBundle
  rw [checked]
  simp only [recordPayment_of_consumed b.payment now tracked consumed]
  rfl

theorem isConsumed_of_contentReplayed {b : MandateBundle} {r : Rejection}
    (rejected : (v.verifyBundle s b now).1 = .rejected r)
    (reason : r.reason = "mandate_content_replayed") :
    ∃ ledger, s.consumed = some ledger ∧
      ledger.isConsumed b.payment.content.fingerprint now = true := by
  unfold verifyBundle at rejected
  cases checked : v.checkBundle b now (ReplayStore.contains s.replay b.payment.header.id now) with
  | error e =>
    rw [checked] at rejected
    obtain rfl : Rejection.ofError e = r := Verdict.rejected.inj rejected
    obtain ⟨fingerprint, rfl⟩ := MandateError.eq_contentReplayed_of_reason reason
    rcases v.raisesOnly_checkBundle b now _ _ checked with check | ⟨_, used⟩
    · cases check
    · cases used
  | ok =>
    rw [checked] at rejected
    cases outcome : (recordPayment s b.payment now).1 with
    | ok =>
      simp only [outcome] at rejected
      cases rejected
    | error e =>
      simp only [outcome] at rejected
      obtain rfl : Rejection.ofError e = r := Verdict.rejected.inj rejected
      obtain ⟨fingerprint, rfl⟩ := MandateError.eq_contentReplayed_of_reason reason
      rcases recordPayment_eq_error outcome with ⟨_, used⟩ | ⟨ledger, tracked, consumed, _⟩
      · cases used
      · exact ⟨ledger, tracked, consumed⟩

end MandateVerifier

end PaymentTrust
