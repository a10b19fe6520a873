import Mathlib.Tactic.MkIffOfInductiveProp
import PaymentTrust.Paywall.Verifier
import PaymentTrust.Proofs.Paywall.Header
import PaymentTrust.Proofs.Timestamp
import PaymentTrust.Proofs.Verdict

/-! A challenge from its issue to the last answer to it. The payer reads it from the header, and the
payloads that repeat it are accepted until it expires, each if its signature verifies or is not
looked at. -/
namespace PaymentTrust

@[mk_iff] structure PaymentPayload.Repeats (p : PaymentPayload) (c : PaymentChallenge) : Prop where
  id : p.id = c.id
  nonce : p.nonce = c.nonce
  amount : p.amount = c.terms.amount

namespace PaymentChallenge

theorem decode_encode (c : PaymentChallenge) : header.decode (header.encode c) = .ok c := by
  have read : header.decode ("" ++ header.encode c ++ "") = .ok c :=
    header.decode_encode c.isIntegral_toJson c.lenient_ofJson (List.all_eq_true.mp rfl)
      (List.all_eq_true.mp rfl)
  rwa [String.empty_append, String.append_empty] at read

variable (c : PaymentChallenge) (p : PaymentPayload) (now : Timestamp)

theorem checkPayload_eq_ok (verifier : Option PaymentVerifier) :
    c.checkPayload p verifier now = .ok () ↔
      now < c.expires ∧ p.Repeats c ∧ ∀ verify ∈ verifier, verify p c = .ok true := by
  unfold checkPayload isExpired
  simp only [Outcome.refuse_bind_eq_ok, Bool.not_eq_true, Timestamp.isReached_eq_false, not_not,
    PaymentPayload.repeats_iff, and_assoc, and_congr_right_iff]
  intro _ _ _ _
  cases verifier with
  | none => simp
  | some verify =>
    simp only [Option.mem_some_iff, forall_eq']
    generalize verify p c = outcome
    rcases outcome with e | _ | _ <;> simp

theorem checkPayload_none_eq_ok :
    c.checkPayload p none now = .ok () ↔ now < c.expires ∧ p.Repeats c := by
  simp [checkPayload_eq_ok]

theorem checkPayload_some_eq_ok (verify : PaymentVerifier) :
    c.checkPayload p (some verify) now = .ok () ↔
      c.checkPayload p none now = .ok () ∧ verify p c = .ok true := by
  simp [checkPayload_eq_ok, and_assoc]

end PaymentChallenge

namespace PaywallPolicy

/-- Each challenge is read back from its header. It accepts the payloads that repeat identifier,
nonce and amount until its seconds are over or the clock is at its last instant, and with a verifier
those of them that it finds signed. -/
theorem accepts_issued_iff (policy : PaywallPolicy) (terms : PaymentTerms) (ttl : Option UInt64)
    (issued : Timestamp) (id nonce : Bytes) :
    ∃ c, PaymentChallenge.header.decode (policy.issue terms ttl issued id nonce).header = .ok c ∧
      c = (policy.issue terms ttl issued id nonce).challenge ∧
      c.id = Hex.encode id ∧ c.nonce = Hex.encode nonce ∧ c.terms = terms ∧
      ∀ (p : PaymentPayload) (now : Timestamp),
        ((Verdict.ofExcept (c.checkPayload p none now)).isAccepted = true ↔
          p.Repeats c ∧ now.seconds.toNat <
            min (issued.seconds.toNat + (ttl.getD policy.challengeTtl).toNat) (2 ^ 64 - 1)) ∧
        ∀ verify : PaymentVerifier,
          (Verdict.ofExcept (c.checkPayload p (some verify) now)).isAccepted = true ↔
            (Verdict.ofExcept (c.checkPayload p none now)).isAccepted = true ∧
              verify p c = .ok true := by
  refine ⟨_, PaymentChallenge.decode_encode _, rfl, rfl, rfl, rfl, fun p now => ?_⟩
  simp only [Verdict.isAccepted_ofExcept_iff]
  constructor
  · rw [PaymentChallenge.checkPayload_none_eq_ok, and_comm, Timestamp.lt_iff_toNat,
      Timestamp.toNat_later]
    rfl
  · exact PaymentChallenge.checkPayload_some_eq_ok _ p now

end PaywallPolicy

end PaymentTrust
