import PaymentTrust.Proofs.Mandate.Acceptance

/-! Which amount an accepted bundle moves. It is the cart's total and within the intent's ceiling,
but a total that does not fit in 64 bits counts as the largest amount, which a payment may have.
-/
namespace PaymentTrust.MandateVerifier

theorem toNat_cartTotal_eq_min (c : CartMandate) :
    (cartTotal c).toNat = min (c.subtotal.toNat + c.taxes.toNat) (UInt64.size - 1) := by
  by_cases fits : c.subtotal.toNat + c.taxes.toNat < UInt64.size
  · rw [toNat_cartTotal c fits]
    omega
  · have hlargest : (UInt64.ofNat (UInt64.size - 1)).toNat = UInt64.size - 1 :=
      UInt64.toNat_ofNat_of_lt (by decide)
    simp only [cartTotal, CartMandate.total?, if_neg fits, Option.getD_none, hlargest]
    omega

variable {σ : Type} [ReplayStore σ] (v : MandateVerifier)

/-- The amount of an accepted bundle is within the intent's ceiling. It is the cart's total exactly
if that fits in 64 bits, and the largest amount otherwise. -/
theorem amount_exact_iff_total_fits (s : MandateStores σ) (b : MandateBundle) (now : Timestamp)
    (accepted : (v.verifyBundle s b now).1.isAccepted = true) :
    (b.payment.amount.toNat = b.cart.subtotal.toNat + b.cart.taxes.toNat ↔
        b.cart.subtotal.toNat + b.cart.taxes.toNat < UInt64.size) ∧
      b.payment.amount.toNat =
        min (b.cart.subtotal.toNat + b.cart.taxes.toNat) (UInt64.size - 1) ∧
      ∀ requested ∈ b.intent.requestedAmount, b.payment.amount.toNat ≤ requested.toNat := by
  have checked := v.checkBundle_of_isAccepted accepted
  obtain ⟨_, _, _, _, binding⟩ := (v.checkBundle_eq_ok b now _).mp checked
  obtain ⟨_, _, _, _, total, ceiling⟩ := (v.checkBinding_eq_ok b).mp binding
  have hamount : b.payment.amount.toNat =
      min (b.cart.subtotal.toNat + b.cart.taxes.toNat) (UInt64.size - 1) := by
    rw [total, toNat_cartTotal_eq_min]
  refine ⟨?exact, hamount, ?ceiling⟩
  case exact =>
    have hpos : 0 < UInt64.size := by decide
    omega
  case ceiling =>
    intro requested mem
    exact UInt64.le_iff_toNat_le.mp (ceiling requested mem)

end PaymentTrust.MandateVerifier

namespace PaymentTrust

namespace Sample

/-- A cart whose total is one more than the largest amount, and a payment of the largest amount. -/
def overflowing : MandateBundle where
  intent := ⟨header .intent "im-1" ⟨4000⟩ "yg==", ["purchase"], some 18446744073709551615⟩
  cart := ⟨header .cart "cm-1" ⟨4000⟩ "qA==", [⟨"sku-1", "Mug", 1, 18446744073709551615⟩],
    "shop.example", "USD", 18446744073709551615, 1⟩
  payment := ⟨header .payment "pm-1" ⟨2000⟩ "XA==", "base", "USDC", 18446744073709551615, "0xaa",
    "deadbeef", some "shop.example", some "present", none⟩

end Sample

namespace MandateVerifier

theorem amount_exact_of_sample :
    (Sample.verifier.verifyBundle Sample.untracked Sample.bundle ⟨1000⟩).1.isAccepted =
        true ∧
      Sample.bundle.payment.amount.toNat =
        Sample.bundle.cart.subtotal.toNat + Sample.bundle.cart.taxes.toNat ∧
      ∀ requested ∈ Sample.bundle.intent.requestedAmount,
        Sample.bundle.payment.amount.toNat ≤ requested.toNat := by
  have accepted : (Sample.verifier.verifyBundle Sample.untracked Sample.bundle
      ⟨1000⟩).1.isAccepted = true := by
    decide +kernel
  obtain ⟨exact, _, ceiling⟩ :=
    Sample.verifier.amount_exact_iff_total_fits Sample.untracked Sample.bundle ⟨1000⟩ accepted
  exact ⟨accepted, exact.mpr (by decide), ceiling⟩

/-- A payment of one unit less than the cart's total is accepted. -/
theorem amount_ne_total_of_overflowing :
    (Sample.verifier.verifyBundle Sample.untracked Sample.overflowing ⟨1000⟩).1.isAccepted =
        true ∧
      Sample.overflowing.payment.amount.toNat ≠
        Sample.overflowing.cart.subtotal.toNat + Sample.overflowing.cart.taxes.toNat :=
  ⟨by decide +kernel, by decide⟩

end MandateVerifier

end PaymentTrust
