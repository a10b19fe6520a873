import PaymentTrust.Proofs.Mandate.Rejection
import PaymentTrust.Proofs.Mandate.Run
import PaymentTrust.Proofs.MessageSignature.Acceptance
import PaymentTrust.Proofs.MessageSignature.RoundTrip
import PaymentTrust.Proofs.Run

/-! Mandates and message signatures in one store of identifiers. A nonce is stored under a mark, and
the identifier of a mandate as it is. So the two are told apart exactly where no mandate is named
like a marked nonce. -/
namespace PaymentTrust

/-- A call of either protocol. Each may have its own policy, and a bundle its own ledger of content;
they share the store of identifiers. -/
inductive SharedCall where
  | mandate (v : MandateVerifier) (m : Mandate)
  | bundle (v : MandateVerifier) (consumed : Option (ConsumedLedger Json)) (b : MandateBundle)
  | message (v : MessageValidator) (input signature : String) (request : RequestComponents)

inductive Identifier where
  | mandate (id : String)
  | nonce (nonce : String)
  deriving DecidableEq, Repr

namespace Identifier

def key : Identifier → String
  | mandate id => id
  | nonce text => MessageValidator.nonceKey text

/-- A mandate is named by one of these texts, and a nonce by what a header can hold. -/
def IsAmong (ids : Set String) : Identifier → Prop
  | mandate id => id ∈ ids
  | nonce text => SignatureInput.Avoids ['"', '\\', ';'] text

theorem nonceKey_injective {text text' : String}
    (h : MessageValidator.nonceKey text = MessageValidator.nonceKey text') : text = text' := by
  have characters := congrArg String.toList h
  simp only [MessageValidator.nonceKey, String.toList_append, List.append_cancel_left_eq]
    at characters
  exact String.toList_injective characters

theorem key_injective {ids : Set String}
    (unmarked : ∀ text, SignatureInput.Avoids ['"', '\\', ';'] text →
      MessageValidator.nonceKey text ∉ ids)
    {i j : Identifier} (hi : i.IsAmong ids) (hj : j.IsAmong ids) (same : i.key = j.key) :
    i = j := by
  cases i with
  | mandate id =>
    cases j with
    | mandate id' => exact congrArg mandate same
    | nonce text =>
      have named : id = MessageValidator.nonceKey text := same
      exact absurd (named ▸ hi) (unmarked text hj)
  | nonce text =>
    cases j with
    | mandate id =>
      have named : MessageValidator.nonceKey text = id := same
      exact absurd (named ▸ hj) (unmarked text hi)
    | nonce text' => exact congrArg nonce (nonceKey_injective same)

end Identifier

namespace Verdict

variable {α β : Type} {verdict : Verdict α} {f : α → β}

theorem map_eq_accepted {b : β} :
    verdict.map f = .accepted b ↔ ∃ a, verdict = .accepted a ∧ f a = b := by
  cases verdict <;> simp [map]

theorem rejection?_eq_some {r : Rejection} :
    verdict.rejection? = some r ↔ verdict = .rejected r := by
  cases verdict <;> simp [rejection?]

theorem map_eq_rejected {r : Rejection} : verdict.map f = .rejected r ↔ verdict = .rejected r := by
  cases verdict <;> simp [map]

end Verdict

theorem MessageValidator.check_of_used (v : MessageValidator) {input signature : String}
    {request : RequestComponents} {now : Timestamp} {used : String → Bool} {i : SignatureInput}
    {s : DetachedSignature} (headers : readHeaders input signature = .ok (i, s))
    (parameters : v.checkParameters i now = .ok ()) (spent : used i.nonce = true) :
    v.check input signature request now used = .error (.nonceReplayed i.nonce) := by
  unfold check
  rw [headers]
  simp only [bind, Except.bind, parameters, if_pos spent]
  rfl

theorem MessageError.eq_nonceReplayed_of_reason {e : MessageError}
    (h : Explained.reason e = "tap_nonce_replayed") : ∃ nonce, e = .nonceReplayed nonce := by
  cases e with
  | nonceReplayed nonce => exact ⟨nonce, rfl⟩
  | store e => cases e; simp [Explained.reason] at h
  | _ => simp [Explained.reason] at h

namespace SharedCall

def identifier? : SharedCall → Option Identifier
  | mandate _ m => some (.mandate m.header.id)
  | bundle _ _ b => some (.mandate b.payment.header.id)
  | message _ input _ _ =>
    (SignatureInput.parse input).toOption.map fun i => .nonce i.nonce

def replayReason : SharedCall → String
  | message .. => "tap_nonce_replayed"
  | _ => "mandate_replayed"

def answer (l : ReplayLedger) (call : SharedCall) (now : Timestamp) :
    Verdict Identifier × ReplayLedger :=
  match call with
  | mandate v m =>
    let (verdict, s) := v.verify ⟨l, none⟩ m now
    (verdict.map fun () => .mandate m.header.id, s.replay)
  | bundle v consumed b =>
    let (verdict, s) := v.verifyBundle ⟨l, consumed⟩ b now
    (verdict.map fun b => .mandate b.payment.header.id, s.replay)
  | message v input signature request =>
    let (verdict, store) := v.validate (some l) input signature request now
    (verdict.map fun m => .nonce m.input.nonce, store.getD l)

def perform (l : ReplayLedger) (call : SharedCall) (now : Timestamp) :
    Option Identifier × ReplayLedger :=
  ((answer l call now).1.value?, (answer l call now).2)

/-- Whatever is called in whatever order, if these texts name all the mandates, what is rejected as
used up was used up by an earlier acceptance of the same protocol. -/
def Separates (ids : Set String) : Prop :=
  ∀ (bound : Nat) (run : List (Timed SharedCall)) (last : Timed SharedCall),
    Timed.Ordered (run ++ [last]) →
    (∀ call ∈ run ++ [last], ∀ id, call.what.identifier? = some (.mandate id) → id ∈ ids) →
    ∀ r, (answer (Timed.after perform (.empty bound) run) last.what last.now).1 = .rejected r →
      r.reason = last.what.replayReason →
        ∃ earlier ∈ Timed.yields perform (.empty bound) run,
          last.what.identifier? = some earlier.what

structure Accepts (l l' : ReplayLedger) (call : SharedCall) (i : Identifier) : Prop where
  own : call.identifier? = some i
  new : ∀ e ∈ l'.entries, e ∈ l.entries ∨ e.key = i.key

structure Rejects (l l' : ReplayLedger) (call : SharedCall) (now : Timestamp) (r : Rejection) :
    Prop where
  old : ∀ e ∈ l'.entries, e ∈ l.entries
  replayed : r.reason = call.replayReason →
    ∃ i, call.identifier? = some i ∧ l.isLive i.key now = true

section

variable {l : ReplayLedger} {now : Timestamp} {r : Rejection}

section mandate

variable {v : MandateVerifier} {m : Mandate}

theorem accepts_mandate (accepted : (v.verify ⟨l, none⟩ m now).1 = .accepted ()) :
    Accepts l (v.verify ⟨l, none⟩ m now).2.replay (.mandate v m) (.mandate m.header.id) := by
  refine ⟨rfl, fun e mem => ?_⟩
  rw [v.verify_stores accepted, MandateVerifier.recordId_replay] at mem
  exact (l.mem_claim m.header.id now mem).imp_right fun new => congrArg (·.key) new.2

theorem rejects_mandate (rejected : (v.verify ⟨l, none⟩ m now).1 = .rejected r) :
    Rejects l (v.verify ⟨l, none⟩ m now).2.replay (.mandate v m) now r := by
  unfold MandateVerifier.verify at rejected ⊢
  simp only [ReplayStore.contains] at rejected ⊢
  cases checked : v.checkMandate m now (l.isLive m.header.id now) with
  | error e =>
    rw [checked] at rejected
    obtain rfl : Rejection.ofError e = r := Verdict.rejected.inj rejected
    refine ⟨fun _ mem => mem, fun reason => ?_⟩
    obtain ⟨id, rfl⟩ := MandateError.eq_replayed_of_reason reason
    rcases v.raisesOnly_checkMandate m now _ _ checked with check | ⟨used, _⟩
    · cases check
    · exact ⟨_, rfl, used⟩
  | ok =>
    -- What passes the checks is free, so it is recorded.
    obtain ⟨_, _, free, _⟩ := (v.checkMandate_eq_ok m now _).mp checked
    rw [checked, MandateVerifier.recordId_of_free ⟨l, none⟩ m.header now free] at rejected
    cases rejected

end mandate

section bundle

variable {v : MandateVerifier} {consumed : Option (ConsumedLedger Json)} {b c : MandateBundle}

theorem accepts_bundle (accepted : (v.verifyBundle ⟨l, consumed⟩ b now).1 = .accepted c) :
    Accepts l (v.verifyBundle ⟨l, consumed⟩ b now).2.replay (.bundle v consumed b)
      (.mandate c.payment.header.id) := by
  obtain ⟨⟨_, recorded⟩, rfl⟩ := (v.verifyBundle_eq_accepted _ b c now).mp accepted
  have fresh := (MandateVerifier.recordPayment_eq_ok _ b.payment now).mp recorded
  refine ⟨rfl, fun e mem => ?_⟩
  rw [v.verifyBundle_stores accepted,
    MandateVerifier.recordPayment_replay b.payment now fresh.content] at mem
  exact (l.mem_claim b.payment.header.id now mem).imp_right fun new => congrArg (·.key) new.2

theorem rejects_bundle (rejected : (v.verifyBundle ⟨l, consumed⟩ b now).1 = .rejected r) :
    Rejects l (v.verifyBundle ⟨l, consumed⟩ b now).2.replay (.bundle v consumed b) now r := by
  unfold MandateVerifier.verifyBundle at rejected ⊢
  simp only [ReplayStore.contains] at rejected ⊢
  cases checked : v.checkBundle b now (l.isLive b.payment.header.id now) with
  | error e =>
    rw [checked] at rejected
    obtain rfl : Rejection.ofError e = r := Verdict.rejected.inj rejected
    refine ⟨fun _ mem => mem, fun reason => ?_⟩
    obtain ⟨id, rfl⟩ := MandateError.eq_replayed_of_reason reason
    rcases v.raisesOnly_checkBundle b now _ _ checked with check | ⟨used, _⟩
    · cases check
    · exact ⟨_, rfl, used⟩
  | ok =>
    -- What passes the checks is free, so it is turned down for nothing but its content.
    obtain ⟨_, _, _, free, _⟩ := (v.checkBundle_eq_ok b now _).mp checked
    rw [checked] at rejected
    cases outcome : (MandateVerifier.recordPayment ⟨l, consumed⟩ b.payment now).1 with
    | ok =>
      simp only [outcome] at rejected
      cases rejected
    | error e =>
      simp only [outcome] at rejected ⊢
      obtain rfl : Rejection.ofError e = r := Verdict.rejected.inj rejected
      rcases MandateVerifier.recordPayment_eq_error outcome with
        ⟨used, _⟩ | ⟨ledger, tracked, content, rfl⟩
      · rw [free] at used
        cases used
      · rw [MandateVerifier.recordPayment_of_consumed b.payment now tracked content]
        refine ⟨fun _ mem => mem, fun reason => ?_⟩
        exact absurd reason (by simp [Rejection.ofError, Explained.reason, replayReason])

end bundle

section message

variable {v : MessageValidator} {input signature : String} {request : RequestComponents}

theorem accepts_message {m : AcceptedMessage}
    (accepted : (v.validate (some l) input signature request now).1 = .accepted m) :
    Accepts l ((v.validate (some l) input signature request now).2.getD l)
      (.message v input signature request) (.nonce m.input.nonce) := by
  obtain ⟨_, parsed, _⟩ := v.check_eq_ok.mp (MessageValidator.check_of_accepted accepted)
  refine ⟨?_, fun e mem => ?_⟩
  · rw [identifier?, parsed]
    rfl
  rw [MessageValidator.store_of_accepted accepted] at mem
  exact (l.mem_claim _ now mem).imp_right fun new => congrArg (·.key) new.2

theorem rejects_message
    (rejected : (v.validate (some l) input signature request now).1 = .rejected r) :
    Rejects l ((v.validate (some l) input signature request now).2.getD l)
      (.message v input signature request) now r := by
  rw [MessageValidator.validate_eq] at rejected ⊢
  cases checked : v.check input signature request now (MessageValidator.isSpent (some l) now) with
  | ok m =>
    rw [checked] at rejected
    cases rejected
  | error e =>
    rw [checked] at rejected
    obtain rfl : Rejection.ofError e = r := Verdict.rejected.inj rejected
    refine ⟨fun _ mem => mem, fun reason => ?_⟩
    obtain ⟨nonce, rfl⟩ := MessageError.eq_nonceReplayed_of_reason reason
    rcases v.raisesOnly_check input signature request now _ _ checked with other | ⟨i, parsed, used⟩
    · exact absurd rfl (other nonce)
    · refine ⟨.nonce i.nonce, ?_, used⟩
      rw [identifier?, parsed]
      rfl

end message

theorem accepts_of_accepted {call : SharedCall} {i : Identifier}
    (accepted : (answer l call now).1 = .accepted i) : Accepts l (answer l call now).2 call i := by
  cases call with
  | mandate v m =>
    obtain ⟨_, verdict, rfl⟩ := Verdict.map_eq_accepted.mp accepted
    exact accepts_mandate verdict
  | bundle v consumed b =>
    obtain ⟨c, verdict, rfl⟩ := Verdict.map_eq_accepted.mp accepted
    exact accepts_bundle verdict
  | message v input signature request =>
    obtain ⟨m, verdict, rfl⟩ := Verdict.map_eq_accepted.mp accepted
    exact accepts_message verdict

theorem rejects_of_rejected {call : SharedCall}
    (rejected : (answer l call now).1 = .rejected r) :
    Rejects l (answer l call now).2 call now r := by
  cases call with
  | mandate v m => exact rejects_mandate (Verdict.map_eq_rejected.mp rejected)
  | bundle v consumed b => exact rejects_bundle (Verdict.map_eq_rejected.mp rejected)
  | message v input signature request => exact rejects_message (Verdict.map_eq_rejected.mp rejected)

end

/-- Every record of a run comes from an acceptance in it. -/
theorem exists_yield_of_mem_after {l : ReplayLedger} (run : List (Timed SharedCall))
    {e : Ledger.Entry Unit} (mem : e ∈ (Timed.after perform l run).entries) :
    e ∈ l.entries ∨ ∃ earlier ∈ Timed.yields perform l run, e.key = earlier.what.key := by
  refine Timed.mem_after (fun (l : ReplayLedger) (e : Ledger.Entry Unit) => e ∈ l.entries)
    (fun (i : Identifier) e => e.key = i.key) ?_ run mem
  intro l call now e mem
  change e ∈ (answer l call now).2.entries at mem
  cases verdict : (answer l call now).1 with
  | accepted i =>
    refine ((accepts_of_accepted verdict).new e mem).imp_right fun key => ⟨i, ?_, key⟩
    rw [perform, verdict]
    rfl
  | rejected r => exact .inl ((rejects_of_rejected verdict).old e mem)

theorem identifier?_message_ne_mandate (v : MessageValidator) (input signature id : String)
    (request : RequestComponents) :
    (message v input signature request).identifier? ≠ some (.mandate id) := by
  rw [identifier?, Ne, Option.map_eq_some_iff]
  rintro ⟨i, _, ⟨⟩⟩

theorem identifier?_of_mem_yields {l : ReplayLedger} {run : List (Timed SharedCall)}
    {earlier : Timed Identifier} (yielded : earlier ∈ Timed.yields perform l run) :
    ∃ call ∈ run, call.what.identifier? = some earlier.what := by
  obtain ⟨call, mem, _, l', accepted⟩ := Timed.exists_call_of_mem_yields yielded
  exact ⟨call, mem, (accepts_of_accepted ((Verdict.value?_eq_some _ _).mp accepted)).own⟩

theorem isAmong_of_identifier? {ids : Set String} {call : SharedCall} {i : Identifier}
    (named : ∀ id, call.identifier? = some (.mandate id) → id ∈ ids)
    (own : call.identifier? = some i) : i.IsAmong ids := by
  cases i with
  | mandate id => exact named id own
  | nonce text =>
    cases call with
    | mandate v m => cases own
    | bundle v consumed b => cases own
    | message v input signature request =>
      obtain ⟨i, parsed, rfl⟩ : ∃ i, SignatureInput.parse input = .ok i ∧ i.nonce = text := by
        cases parsed : SignatureInput.parse input with
        | error e => simp [identifier?, parsed, Except.toOption] at own
        | ok i => exact ⟨i, rfl, by simpa [identifier?, parsed, Except.toOption] using own⟩
      obtain ⟨list, segments, read⟩ := SignatureInput.parse_eq_ok_iff.mp parsed
      exact (SignatureInput.wellFormed_of_isReadFrom read).nonce

end SharedCall

namespace Sample

def lenient : MandateVerifier where
  policy := .withDomains ["shop.example"]
  signers := ⟨.development, none⟩
  verifiers := .register .empty ⟨.ed25519, fun _ _ _ => .ok ()⟩

def named (id : String) : Mandate :=
  .payment { bundle.payment with header := header .payment id ⟨2000⟩ "" }

def visited (nonce : String) : SignatureInput :=
  ⟨"sig2", [], ⟨100⟩, ⟨580⟩, "k", "EdDSA", nonce, "agent-payer-auth"⟩

def naming (id : String) : SharedCall := .mandate lenient (named id)

def visiting (nonce : String) : SharedCall :=
  .message validator (visited nonce).header signatureHeader request

theorem accepted_named (l : ReplayLedger) (id : String) (free : l.isLive id ⟨100⟩ = false) :
    (lenient.verify ⟨l, none⟩ (named id) ⟨100⟩).1 = .accepted () := by
  have signer : lenient.signers.resolve "alice#ed25519:00" = .ok ⟨.ed25519, [0]⟩ := by
    decide +kernel
  have signature : Base64.decodeEither (Utf8.encode "".toList) = .ok [] := by decide +kernel
  have proof : lenient.ProofHolds (named id) := ⟨⟨.ed25519, [0]⟩, [], signer, signature, rfl⟩
  have early : (⟨100⟩ : Timestamp) < ⟨2000⟩ := by decide
  have allowed : "shop.example" ∈ lenient.policy.domains := List.mem_singleton_self _
  exact (lenient.verify_eq_accepted _ _ _).mpr
    ⟨(lenient.checkMandate_eq_ok _ _ _).mpr ⟨early, allowed, free, proof⟩,
      (MandateVerifier.recordId_eq_ok _ _ _).mpr free⟩

theorem wellFormed_visited {nonce : String} (plain : SignatureInput.Avoids ['"', '\\', ';'] nonce) :
    (visited nonce).WellFormed := by
  have label : Label.IsValid "sig2" := by decide
  have others : ∀ s ∈ ["k", "EdDSA", "agent-payer-auth"],
      SignatureInput.Avoids ['"', '\\', ';'] s := by
    decide
  have keyId := others "k" (by simp)
  have algorithm := others "EdDSA" (by simp)
  have tag := others "agent-payer-auth" (by simp)
  exact ⟨label, nofun, keyId, algorithm, plain, tag⟩

theorem checkParameters_visited (nonce : String) :
    validator.checkParameters (visited nonce) ⟨100⟩ = .ok () := by
  have tag : "agent-payer-auth" ∈ validator.policy.tags := by decide
  have algorithm : Algorithm.ofName? "EdDSA" = some validator.policy.algorithm := by decide +kernel
  have created : (⟨100⟩ : Timestamp) ≤ ⟨100⟩ := le_rfl
  have unexpired : (⟨100⟩ : Timestamp) < ⟨580⟩ := by decide
  have window : (580 : UInt64).toNat - (100 : UInt64).toNat ≤ validator.policy.maxWindow.toNat := by
    decide
  exact (validator.checkParameters_eq_ok _ _).mpr ⟨tag, algorithm, created, unexpired, window⟩

theorem rejected_visiting {l : ReplayLedger} {nonce : String}
    (plain : SignatureInput.Avoids ['"', '\\', ';'] nonce)
    (used : l.isLive (MessageValidator.nonceKey nonce) ⟨100⟩ = true) :
    (SharedCall.answer l (visiting nonce) ⟨100⟩).1 =
      .rejected (.ofError (MessageError.nonceReplayed nonce)) := by
  have read := (wellFormed_visited plain).parse_eq_ok
  have signature : DetachedSignature.parse signatureHeader = .ok ⟨"sig2", [1, 2]⟩ := by
    decide +kernel
  have headers : MessageValidator.readHeaders (visited nonce).header signatureHeader =
      .ok (visited nonce, ⟨"sig2", [1, 2]⟩) :=
    MessageValidator.readHeaders_eq_ok.mpr ⟨read, signature, rfl⟩
  have spent : MessageValidator.isSpent (some l) ⟨100⟩ (visited nonce).nonce = true := used
  have checked : validator.check (visited nonce).header signatureHeader request ⟨100⟩
      (MessageValidator.isSpent (some l) ⟨100⟩) = .error (.nonceReplayed nonce) :=
    validator.check_of_used headers (checkParameters_visited nonce) spent
  simp only [SharedCall.answer, visiting, MessageValidator.validate_eq, checked, Verdict.map]

end Sample

namespace SharedCall

theorem unmarked_of_separates {ids : Set String} (separates : Separates ids) {nonce : String}
    (plain : SignatureInput.Avoids ['"', '\\', ';'] nonce) :
    MessageValidator.nonceKey nonce ∉ ids := by
  intro allowed
  let first : Timed SharedCall := ⟨⟨100⟩, Sample.naming (MessageValidator.nonceKey nonce)⟩
  let last : Timed SharedCall := ⟨⟨100⟩, Sample.visiting nonce⟩
  have ordered : Timed.Ordered [first, last] := List.pairwise_pair.mpr le_rfl
  have named : ∀ call ∈ [first, last], ∀ id,
      call.what.identifier? = some (.mandate id) → id ∈ ids := by
    intro call mem id own
    rcases List.mem_pair.mp mem with rfl | rfl
    · obtain rfl := Identifier.mandate.inj (Option.some.inj own)
      exact allowed
    · exact absurd own (identifier?_message_ne_mandate _ _ _ _ _)
  have live : (Timed.after perform (.empty 1) [first]).isLive (MessageValidator.nonceKey nonce)
      ⟨100⟩ = true := by
    have accepted := Sample.accepted_named (.empty 1) (MessageValidator.nonceKey nonce) rfl
    have early : (⟨100⟩ : Timestamp) < ⟨2000⟩ := by decide
    exact (Ledger.isLive_iff _ _ _).mpr ⟨_, (Sample.lenient.verify_uses accepted).recorded, early⟩
  obtain ⟨earlier, yielded, own⟩ :=
    separates 1 [first] last ordered named _ (Sample.rejected_visiting plain live) rfl
  -- What was accepted before is the mandate, which no message has the identifier of.
  obtain ⟨call, mem, own'⟩ := identifier?_of_mem_yields yielded
  obtain rfl := List.mem_singleton.mp mem
  exact identifier?_message_ne_mandate _ _ _ _ _ (own.trans own'.symm)

/-- Mandates and messages do not use up each other's identifiers exactly if no mandate is named by
the mark followed by what a header can hold as a nonce. -/
theorem separates_iff (ids : Set String) :
    Separates ids ↔ ∀ nonce, SignatureInput.Avoids ['"', '\\', ';'] nonce →
      MessageValidator.nonceKey nonce ∉ ids := by
  refine ⟨fun separates nonce plain => unmarked_of_separates separates plain, ?_⟩
  intro unmarked bound run last _ named r rejected reason
  obtain ⟨i, own, live⟩ := (rejects_of_rejected rejected).replayed reason
  obtain ⟨e, found, _⟩ := (Ledger.isLive_iff _ _ _).mp live
  obtain ⟨recorded, key⟩ := Ledger.mem_of_find? found
  rcases exists_yield_of_mem_after run recorded with old | ⟨earlier, yielded, origin⟩
  · cases old
  -- The record comes from an acceptance that has the key of what is rejected.
  obtain ⟨call, mem, own'⟩ := identifier?_of_mem_yields yielded
  have among : i.IsAmong ids :=
    isAmong_of_identifier? (named last (List.mem_append_right run List.mem_cons_self)) own
  have among' : earlier.what.IsAmong ids :=
    isAmong_of_identifier? (named call (List.mem_append_left _ mem)) own'
  obtain rfl := Identifier.key_injective unmarked among among' (key.symm.trans origin)
  exact ⟨earlier, yielded, own⟩

end SharedCall

namespace Sample

def posing : Mandate :=
  .payment { bundle.payment with header := header .payment "tap-nonce:n-1" ⟨2000⟩ "Xg==" }

def encounter : List (Timed SharedCall) := [⟨⟨300⟩, .mandate verifier posing⟩]

def visit : SharedCall := .message validator inputHeader signatureHeader request

end Sample

/-- The nonce is rejected as used, and no message was accepted. -/
theorem SharedCall.nonce_replayed_unused :
    (Timed.yields perform (.empty 1) Sample.encounter).map (·.what) = [.mandate "tap-nonce:n-1"] ∧
      (answer (Timed.after perform (.empty 1) Sample.encounter) Sample.visit
        ⟨300⟩).1.rejection?.map (·.reason) = some "tap_nonce_replayed" ∧
      ¬Separates Set.univ := by
  have accepted : (Timed.yields perform (.empty 1) Sample.encounter).map (·.what) =
      [.mandate "tap-nonce:n-1"] := by
    decide +kernel
  have replayed : (answer (Timed.after perform (.empty 1) Sample.encounter) Sample.visit
      ⟨300⟩).1.rejection?.map (·.reason) = some "tap_nonce_replayed" := by
    decide +kernel
  refine ⟨accepted, replayed, fun separates => ?_⟩
  obtain ⟨r, rejected, reason⟩ := Option.map_eq_some_iff.mp replayed
  obtain ⟨earlier, yielded, own⟩ := separates 1 Sample.encounter ⟨⟨300⟩, Sample.visit⟩ (by decide)
    (fun _ _ _ _ => trivial) r (Verdict.rejection?_eq_some.mp rejected) reason
  have mem := List.mem_map_of_mem (f := (·.what)) yielded
  rw [accepted, List.mem_singleton] at mem
  exact identifier?_message_ne_mandate _ _ _ _ _ (own.trans (congrArg some mem))

end PaymentTrust
