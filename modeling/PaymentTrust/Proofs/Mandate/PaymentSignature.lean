import PaymentTrust.Proofs.Mandate.Run
import PaymentTrust.Proofs.Mandate.SigningInput

/-! What the signature of a payment authorizes. Merchant and expiry are not signed, so it holds for
one payment until the expiry that was shown with it, and to the merchant whose cart was shown with
it. -/
namespace PaymentTrust

namespace PaymentMandate

def SeparatorFree (p : PaymentMandate) : Prop :=
  ∀ t ∈ (Mandate.payment p).plainTexts, '|' ∉ t.toList

instance (p : PaymentMandate) : Decidable p.SeparatorFree :=
  inferInstanceAs (Decidable (∀ t ∈ (Mandate.payment p).plainTexts, '|' ∉ t.toList))

theorem SameSigned.symm {p q : PaymentMandate} (same : p.SameSigned q) : q.SameSigned p :=
  ⟨same.context.symm, same.amount.symm, same.token.symm, same.chain.symm, same.destination.symm,
    same.auditHash.symm⟩

theorem SameSigned.id {p q : PaymentMandate} (same : p.SameSigned q) :
    p.header.id = q.header.id := by
  have hcontext := same.context
  simp only [MandateHeader.context, List.cons.injEq] at hcontext
  exact hcontext.2.2.2.1

theorem sameSigned_of_separatorFree {p q : PaymentMandate}
    (free : p.SeparatorFree ∨ q.SeparatorFree)
    (h : (Mandate.payment p).signingInput = (Mandate.payment q).signingInput) :
    p.SameSigned q := by
  rcases free with free | free
  · exact p.sameSigned_of_signingInput_eq q free h
  · exact (q.sameSigned_of_signingInput_eq p free h.symm).symm

end PaymentMandate

namespace MandateVerifier

variable (v : MandateVerifier) {s : MandateStores ReplayLedger}

theorem unexpired_of_mem_acceptances {calls : List (Timed MandateCall)} {t : Timed Mandate}
    (accepted : t ∈ v.acceptances s calls) : t.now < t.what.header.expires := by
  have unexpired : ∀ t ∈ Timed.yields v.perform s calls, t.now < t.what.header.expires :=
    Timed.forall_mem_yields (fun _ _ _ _ used => (v.perform_uses used).unexpired) calls
  exact unexpired t (v.acceptances_eq_yields calls ▸ accepted)

theorem merchantDomain_of_isAccepted {b : MandateBundle} {now : Timestamp}
    (accepted : (v.verifyBundle s b now).1.isAccepted = true) :
    b.payment.merchantDomain = some b.cart.merchantDomain := by
  have checked := v.checkBundle_of_isAccepted accepted
  have hbinding := ((v.checkBundle_eq_ok b now _).mp checked).2.2.2.2
  exact ((v.checkBinding_eq_ok b).mp hbinding).2.1

/-- While a payment that was accepted has not expired, no other with the signature's text is
accepted. A merchant gets what the text says only for a cart that names it. -/
theorem payment_signature_binds (v : MandateVerifier) :
    (∀ (s : MandateStores ReplayLedger) (calls : List (Timed MandateCall)), Timed.Ordered calls →
      (v.acceptances s calls).Pairwise fun first later => ∀ p q : PaymentMandate,
        first.what = .payment p → later.what = .payment q → p.SeparatorFree ∨ q.SeparatorFree →
        (Mandate.payment p).signingInput = (Mandate.payment q).signingInput →
        p.SameSigned q ∧ p.header.expires ≤ later.now ∧ later.now < q.header.expires) ∧
    ∀ (s s' : MandateStores ReplayLedger) (b b' : MandateBundle) (now now' : Timestamp),
      (v.verifyBundle s b now).1.isAccepted = true →
      (v.verifyBundle s' b' now').1.isAccepted = true →
      b.payment.SeparatorFree ∨ b'.payment.SeparatorFree →
      (Mandate.payment b.payment).signingInput = (Mandate.payment b'.payment).signingInput →
      b.payment.SameSigned b'.payment ∧
        b.payment.merchantDomain = some b.cart.merchantDomain ∧
        b'.payment.merchantDomain = some b'.cart.merchantDomain := by
  constructor
  · intro s calls ordered
    have unexpired : ∀ t ∈ v.acceptances s calls, t.now < t.what.header.expires :=
      fun t accepted => v.unexpired_of_mem_acceptances accepted
    refine (v.acceptances_id_ne s calls ordered).imp_of_mem ?_
    intro first later _ accepted once p q hp hq free h
    have same := PaymentMandate.sameSigned_of_separatorFree free h
    have hlater := unexpired later accepted
    rw [hp, hq] at once
    rw [hq] at hlater
    exact ⟨same, not_lt.mp fun early => once early same.id.symm, hlater⟩
  · intro s s' b b' now now' accepted accepted' free h
    exact ⟨PaymentMandate.sameSigned_of_separatorFree free h,
      v.merchantDomain_of_isAccepted accepted, v.merchantDomain_of_isAccepted accepted'⟩

end MandateVerifier

namespace Sample

/-- The payment of the sample, shown again for the cart of another merchant and with a later expiry.
-/
def rebilled : MandateBundle where
  intent := bundle.intent
  cart := { bundle.cart with
    header := header .cart "cm-1" ⟨4000⟩ "0Q==", merchantDomain := "other.example" }
  payment := { bundle.payment with
    header := header .payment "pm-1" ⟨4000⟩ "Dg==", merchantDomain := some "other.example" }

def rebilling : List (Timed MandateCall) := [⟨⟨1000⟩, .bundle bundle⟩, ⟨⟨3000⟩, .bundle rebilled⟩]

theorem acceptances_rebilling :
    verifier.acceptances untracked rebilling =
      [⟨⟨1000⟩, .payment bundle.payment⟩, ⟨⟨3000⟩, .payment rebilled.payment⟩] := by
  decide +kernel

theorem isAccepted_bundle :
    (verifier.verifyBundle untracked bundle ⟨1000⟩).1.isAccepted = true := by
  decide +kernel

theorem isAccepted_rebilled :
    (verifier.verifyBundle untracked rebilled ⟨3000⟩).1.isAccepted = true := by
  decide +kernel

theorem signingInput_rebilled :
    (Mandate.payment bundle.payment).signingInput =
      (Mandate.payment rebilled.payment).signingInput := by
  decide +kernel

end Sample

namespace MandateVerifier

theorem payment_signature_binds_sample :
    Sample.bundle.payment.SameSigned Sample.rebilled.payment ∧
      Sample.bundle.payment.header.expires ≤ ⟨3000⟩ ∧
      Sample.rebilled.payment.merchantDomain = some Sample.rebilled.cart.merchantDomain := by
  have free : Sample.bundle.payment.SeparatorFree ∨ Sample.rebilled.payment.SeparatorFree :=
    .inl (by decide +kernel)
  have run := (payment_signature_binds Sample.verifier).1 Sample.untracked Sample.rebilling
    (by decide)
  rw [Sample.acceptances_rebilling] at run
  have once := List.pairwise_pair.mp run _ _ rfl rfl free Sample.signingInput_rebilled
  have alone := (payment_signature_binds Sample.verifier).2 Sample.untracked Sample.untracked
    Sample.bundle Sample.rebilled ⟨1000⟩ ⟨3000⟩ Sample.isAccepted_bundle
    Sample.isAccepted_rebilled free Sample.signingInput_rebilled
  exact ⟨alone.1, once.2.1, alone.2.2⟩

/-- One signature pays two merchants: the second when the payment of the first has expired, or at a
verifier whose stores are its own. -/
theorem payment_signature_reused :
    Sample.bundle.payment.header.proof = Sample.rebilled.payment.header.proof ∧
      (Mandate.payment Sample.bundle.payment).signingInput =
        (Mandate.payment Sample.rebilled.payment).signingInput ∧
      (Timed.Ordered Sample.rebilling ∧
        Sample.verifier.acceptances Sample.untracked Sample.rebilling =
          [⟨⟨1000⟩, .payment Sample.bundle.payment⟩,
            ⟨⟨3000⟩, .payment Sample.rebilled.payment⟩]) ∧
      ((Sample.verifier.verifyBundle Sample.untracked Sample.bundle ⟨1000⟩).1.isAccepted = true ∧
        (Sample.verifier.verifyBundle Sample.untracked Sample.rebilled ⟨3000⟩).1.isAccepted =
          true) ∧
      Sample.bundle.payment.merchantDomain ≠ Sample.rebilled.payment.merchantDomain ∧
      Sample.bundle.payment.header.expires ≠ Sample.rebilled.payment.header.expires :=
  ⟨by decide, Sample.signingInput_rebilled, ⟨by decide, Sample.acceptances_rebilling⟩,
    ⟨Sample.isAccepted_bundle, Sample.isAccepted_rebilled⟩, by decide, by decide⟩

end MandateVerifier

end PaymentTrust
