import PaymentTrust.Proofs.Mandate.Recording
import PaymentTrust.Proofs.Verdict

/-! Which bundles are accepted. Every check is described apart from its code, and a bundle is
accepted exactly if all of them hold of its mandates, of the rules between them and of the stores.
-/
namespace PaymentTrust

namespace MandateVerifier

variable (v : MandateVerifier)

def ProofHolds (m : Mandate) : Prop :=
  ∃ key signature, v.signers.resolve m.header.proof.verificationMethod = .ok key ∧
    Base64.decodeEither (Utf8.encode m.header.proof.value.toList) = .ok signature ∧
    v.verifiers.verify key (Utf8.encode m.signingInput.toList) signature = .ok ()

/-- What a mandate must meet by itself in its slot of a bundle. -/
structure Admits (m : Mandate) (now : Timestamp) : Prop where
  unexpired : now < m.header.expires
  domain : m.header.domain ∈ v.policy.domains
  kind : m.header.kind = m.kind
  purpose : m.header.purpose = v.policy.purposes.ofKind m.kind
  proof : v.ProofHolds m

/-- What binds the mandates of a bundle to each other. The cart's total is the exact sum. -/
structure Binds (b : MandateBundle) : Prop where
  intentSubject : b.intent.header.subject = b.cart.header.subject
  paymentSubject : b.payment.header.subject = b.cart.header.subject
  merchant : b.payment.merchantDomain = some b.cart.merchantDomain
  presence : ∀ presence ∈ b.payment.agentPresence, presence ∈ v.policy.agentPresence
  modality : ∀ modality ∈ b.payment.modality, modality ∈ v.policy.modalities
  total : b.payment.amount.toNat = b.cart.subtotal.toNat + b.cart.taxes.toNat
  ceiling : ∀ requested ∈ b.intent.requestedAmount, b.payment.amount ≤ requested

@[simp] theorem require_eq_ok (condition : Bool) (e : MandateError) :
    require condition e = .ok () ↔ condition = true := by
  cases condition <;> simp [require]

theorem checkProof_eq_ok (m : Mandate) : v.checkProof m = .ok () ↔ v.ProofHolds m := by
  unfold checkProof ProofHolds
  simp only [Outcome.bind_eq_ok, Outcome.mapError_eq_ok]
  constructor
  · rintro ⟨key, hkey, signature, hsignature, hverify⟩
    exact ⟨key, signature, hkey, hsignature, hverify⟩
  · rintro ⟨key, signature, hkey, hsignature, hverify⟩
    exact ⟨key, hkey, signature, hsignature, hverify⟩

theorem checkMandate_eq_ok (m : Mandate) (now : Timestamp) (used : Bool) :
    v.checkMandate m now used = .ok () ↔
      now < m.header.expires ∧ m.header.domain ∈ v.policy.domains ∧ used = false ∧
        v.ProofHolds m := by
  unfold checkMandate
  simp [MandateHeader.isExpired, checkProof_eq_ok]

theorem checkSlot_eq_ok (m : Mandate) :
    v.checkSlot m = .ok () ↔
      m.header.kind = m.kind ∧ m.header.purpose = v.policy.purposes.ofKind m.kind := by
  unfold checkSlot
  simp

theorem admits_iff (m : Mandate) (now : Timestamp) (used : Bool) :
    v.checkMandate m now used = .ok () ∧ v.checkSlot m = .ok () ↔
      v.Admits m now ∧ used = false := by
  rw [checkMandate_eq_ok, checkSlot_eq_ok]
  constructor
  · rintro ⟨⟨unexpired, domain, unused, proof⟩, kind, purpose⟩
    exact ⟨⟨unexpired, domain, kind, purpose, proof⟩, unused⟩
  · rintro ⟨⟨unexpired, domain, kind, purpose, proof⟩, unused⟩
    exact ⟨⟨unexpired, domain, unused, proof⟩, kind, purpose⟩

theorem toNat_cartTotal (c : CartMandate)
    (fits : c.subtotal.toNat + c.taxes.toNat < UInt64.size) :
    (cartTotal c).toNat = c.subtotal.toNat + c.taxes.toNat := by
  simp only [cartTotal, CartMandate.total?, if_pos fits, Option.getD_some]
  exact UInt64.toNat_ofNat_of_lt fits

theorem checkBinding_eq_ok (b : MandateBundle) :
    v.checkBinding b = .ok () ↔
      (b.intent.header.subject = b.cart.header.subject ∧
        b.cart.header.subject = b.payment.header.subject) ∧
      b.payment.merchantDomain = some b.cart.merchantDomain ∧
      (∀ presence ∈ b.payment.agentPresence, presence ∈ v.policy.agentPresence) ∧
      (∀ modality ∈ b.payment.modality, modality ∈ v.policy.modalities) ∧
      b.payment.amount = cartTotal b.cart ∧
      ∀ requested ∈ b.intent.requestedAmount, b.payment.amount ≤ requested := by
  unfold checkBinding
  cases b.payment.merchantDomain with
  | none => simp
  | some merchant =>
    cases b.payment.agentPresence <;> cases b.payment.modality <;>
      cases b.intent.requestedAmount <;> simp [@eq_comm _ merchant]

theorem checkBinding_eq_ok_iff_binds (b : MandateBundle)
    (fits : b.cart.subtotal.toNat + b.cart.taxes.toNat < UInt64.size) :
    v.checkBinding b = .ok () ↔ v.Binds b := by
  have htotal : b.payment.amount = cartTotal b.cart ↔
      b.payment.amount.toNat = b.cart.subtotal.toNat + b.cart.taxes.toNat := by
    rw [← UInt64.toNat_inj, toNat_cartTotal b.cart fits]
  rw [checkBinding_eq_ok, htotal]
  constructor
  · rintro ⟨⟨hintent, hpayment⟩, merchant, presence, modality, total, ceiling⟩
    exact ⟨hintent, hpayment.symm, merchant, presence, modality, total, ceiling⟩
  · rintro ⟨hintent, hpayment, merchant, presence, modality, total, ceiling⟩
    exact ⟨⟨hintent, hpayment.symm⟩, merchant, presence, modality, total, ceiling⟩

theorem checkBundle_eq_ok (b : MandateBundle) (now : Timestamp) (used : Bool) :
    v.checkBundle b now used = .ok () ↔
      v.Admits (.intent b.intent) now ∧ v.Admits (.cart b.cart) now ∧
        v.Admits (.payment b.payment) now ∧ used = false ∧ v.checkBinding b = .ok () := by
  have hintent := v.admits_iff (.intent b.intent) now false
  have hcart := v.admits_iff (.cart b.cart) now false
  have hpayment := v.admits_iff (.payment b.payment) now used
  unfold checkBundle
  simp only [Outcome.check_bind_eq_ok]
  -- The code has all three checks of mandates before the first check of a slot.
  constructor
  · rintro ⟨intent, cart, payment, intentSlot, cartSlot, paymentSlot, binding⟩
    obtain ⟨admitted, unused⟩ := hpayment.mp ⟨payment, paymentSlot⟩
    exact ⟨(hintent.mp ⟨intent, intentSlot⟩).1, (hcart.mp ⟨cart, cartSlot⟩).1, admitted, unused,
      binding⟩
  · rintro ⟨intent, cart, payment, unused, binding⟩
    obtain ⟨intent, intentSlot⟩ := hintent.mpr ⟨intent, rfl⟩
    obtain ⟨cart, cartSlot⟩ := hcart.mpr ⟨cart, rfl⟩
    obtain ⟨payment, paymentSlot⟩ := hpayment.mpr ⟨payment, unused⟩
    exact ⟨intent, cart, payment, intentSlot, cartSlot, paymentSlot, binding⟩

/-- Whatever the store of identifiers does, nothing is accepted that fails a check. -/
theorem checkBundle_of_isAccepted {σ : Type} [ReplayStore σ] {s : MandateStores σ}
    {b : MandateBundle} {now : Timestamp}
    (accepted : (v.verifyBundle s b now).1.isAccepted = true) :
    v.checkBundle b now (ReplayStore.contains s.replay b.payment.header.id now) = .ok () := by
  unfold verifyBundle at accepted
  cases checked : v.checkBundle b now (ReplayStore.contains s.replay b.payment.header.id now) with
  | error e =>
    rw [checked] at accepted
    cases accepted
  | ok => rfl

variable (s : MandateStores ReplayLedger)

theorem verifyBundle_eq_accepted (b c : MandateBundle) (now : Timestamp) :
    (v.verifyBundle s b now).1 = .accepted c ↔
      (v.checkBundle b now (s.replay.isLive b.payment.header.id now) = .ok () ∧
        (recordPayment s b.payment now).1 = .ok ()) ∧ b = c := by
  unfold verifyBundle
  simp only [ReplayStore.contains]
  cases v.checkBundle b now (s.replay.isLive b.payment.header.id now) with
  | error e => simp
  | ok =>
    simp only [Verdict.ofExcept_eq_accepted]
    cases (recordPayment s b.payment now).1 <;> simp [Except.map]

theorem verify_eq_accepted (m : Mandate) (now : Timestamp) :
    (v.verify s m now).1 = .accepted () ↔
      v.checkMandate m now (s.replay.isLive m.header.id now) = .ok () ∧
        (recordId s m.header now).1 = .ok () := by
  unfold verify
  simp only [ReplayStore.contains]
  cases v.checkMandate m now (s.replay.isLive m.header.id now) with
  | error e => simp
  | ok => simp

/-- A bundle whose cart's total fits in 64 bits is accepted exactly if each of its mandates is
admitted, the rules between them hold, and the payment is fresh in the stores. -/
theorem verifyBundle_isAccepted_iff (b : MandateBundle) (now : Timestamp)
    (fits : b.cart.subtotal.toNat + b.cart.taxes.toNat < UInt64.size) :
    (v.verifyBundle s b now).1.isAccepted = true ↔
      (v.Admits (.intent b.intent) now ∧ v.Admits (.cart b.cart) now ∧
        v.Admits (.payment b.payment) now) ∧ v.Binds b ∧ s.Fresh b.payment now := by
  simp only [Verdict.isAccepted_iff, verifyBundle_eq_accepted, exists_eq_right',
    checkBundle_eq_ok, recordPayment_eq_ok, v.checkBinding_eq_ok_iff_binds b fits]
  constructor
  · rintro ⟨⟨intent, cart, payment, _, binds⟩, fresh⟩
    exact ⟨⟨intent, cart, payment⟩, binds, fresh⟩
  · rintro ⟨⟨intent, cart, payment⟩, binds, fresh⟩
    exact ⟨⟨intent, cart, payment, fresh.id, binds⟩, fresh⟩

end MandateVerifier

namespace Sample

/-- For this verifier the sum of a message's bytes is its signature. -/
def checksum : Verifier where
  algorithm := .ed25519
  verify := fun message signature _ =>
    if signature = [message.foldl (· + ·) 0] then .ok () else .error .mismatch

def verifier : MandateVerifier :=
  ⟨.withDomains ["shop.example"], ⟨.development, none⟩, .register .empty checksum⟩

def header (kind : MandateKind) (id : String) (expires : Timestamp) (signature : String) :
    MandateHeader :=
  ⟨id, kind, "alice", "alice", expires, "n-1",
    ⟨"alice#ed25519:00", ⟨0⟩, "authentication", signature⟩, "shop.example",
    SlotPurposes.default.ofKind kind⟩

def bundle : MandateBundle where
  intent := ⟨header .intent "im-1" ⟨4000⟩ "eA==", ["purchase"], some 5000⟩
  cart := ⟨header .cart "cm-1" ⟨4000⟩ "aQ==", [⟨"sku-1", "Mug", 2, 1500⟩], "shop.example", "USD",
    3000, 240⟩
  payment := ⟨header .payment "pm-1" ⟨2000⟩ "Dg==", "base", "USDC", 3240, "0xaa", "deadbeef",
    some "shop.example", some "present", none⟩

def stores : MandateStores ReplayLedger := ⟨.empty 1, some (.empty .default)⟩

def untracked : MandateStores ReplayLedger := ⟨.empty 1, none⟩

end Sample

theorem MandateVerifier.verifyBundle_accepts_sample :
    Sample.bundle.cart.subtotal.toNat + Sample.bundle.cart.taxes.toNat < UInt64.size ∧
      (Sample.verifier.verifyBundle Sample.stores Sample.bundle ⟨1000⟩).1.isAccepted = true := by
  have fits : Sample.bundle.cart.subtotal.toNat + Sample.bundle.cart.taxes.toNat < UInt64.size := by
    decide
  -- Whether a check of a proof succeeds is a boolean, which the kernel evaluates.
  have proof : ∀ m, (Sample.verifier.checkProof m).isOk = true → Sample.verifier.ProofHolds m :=
    fun m h => (Sample.verifier.checkProof_eq_ok m).mp ((Outcome.eq_ok_iff_isOk _).mpr h)
  refine ⟨fits, (verifyBundle_isAccepted_iff _ _ Sample.bundle ⟨1000⟩ fits).mpr
    ⟨⟨?intent, ?cart, ?payment⟩, ?binds, ?fresh⟩⟩
  case intent => exact ⟨by decide, by decide, rfl, rfl, proof _ (by decide +kernel)⟩
  case cart => exact ⟨by decide, by decide, rfl, rfl, proof _ (by decide +kernel)⟩
  case payment => exact ⟨by decide, by decide, rfl, rfl, proof _ (by decide +kernel)⟩
  case binds =>
    have ceiling : ∀ requested ∈ some (5000 : UInt64), 3240 ≤ requested := by
      rintro _ ⟨⟩
      decide
    exact ⟨rfl, rfl, rfl, by decide, by decide, rfl, ceiling⟩
  case fresh =>
    refine ⟨rfl, ?_⟩
    rintro _ ⟨⟩
    rfl

end PaymentTrust
