import PaymentTrust.Proofs.Mandate.Content
import PaymentTrust.Proofs.Mandate.Reachable
import PaymentTrust.Proofs.Mandate.Rejection

/-! Runs in which content is tracked. The content of an accepted payment stays consumed until that
payment expires, and nothing else is ever consumed. -/
namespace PaymentTrust

def MandateStores.content {σ : Type} (s : MandateStores σ) : Option (Ledger Json) :=
  s.consumed.map (·.ledger)

def PaymentMandate.contentEntry (p : PaymentMandate) : Ledger.Entry Json :=
  ⟨p.content.fingerprint, p.header.expires, p.content⟩

def MandateCall.bundle? : MandateCall → Option MandateBundle
  | .bundle b => some b
  | .text json => (MandateBundle.ofText json).toOption
  | _ => none

structure Ledger.Consumes (l l' : Ledger Json) (used : Option PaymentMandate) (now : Timestamp) :
    Prop where
  retains : l.Retains l' now
  new : ∀ e ∈ l'.entries, e ∈ l.entries ∨ ∃ p ∈ used, e = p.contentEntry
  free : ∀ p ∈ used, l.isLive p.content.fingerprint now = false
  recorded : ∀ p ∈ used, l'.find? p.content.fingerprint = some p.contentEntry

namespace Ledger

theorem Consumes.of_retains {l l' : Ledger Json} {now : Timestamp}
    (retains : l.Retains l' now) (old : ∀ e ∈ l'.entries, e ∈ l.entries) :
    l.Consumes l' none now where
  retains := retains
  new := fun e mem => .inl (old e mem)
  free := nofun
  recorded := nofun

section claim

variable (l : Ledger Json) (p : PaymentMandate) (now : Timestamp)

theorem consumes_claim_of_isLive (live : l.isLive p.content.fingerprint now = true) :
    l.Consumes (l.claim p.content.fingerprint p.header.expires now p.content).2 none now := by
  refine .of_retains (l.retains_claim _ now p.header.expires p.content) ?_
  intro e mem
  rcases l.mem_claim _ now mem with old | ⟨free, _⟩
  · exact old
  · rw [live] at free
    cases free

variable (free : l.isLive p.content.fingerprint now = false)

include free

theorem consumes_claim :
    l.Consumes (l.claim p.content.fingerprint p.header.expires now p.content).2 (some p) now where
  retains := l.retains_claim _ now p.header.expires p.content
  new := fun e mem =>
    (l.mem_claim _ now mem).imp_right fun new => ⟨p, rfl, new.2⟩
  free := by
    rintro _ ⟨⟩
    exact free
  recorded := by
    rintro _ ⟨⟩
    exact l.find?_claim_self _ now p.header.expires p.content free

theorem consumes_claim_erase :
    l.Consumes ((l.claim p.content.fingerprint p.header.expires now p.content).2.erase
      p.content.fingerprint) none now := by
  refine .of_retains ((l.retains_claim _ now p.header.expires p.content).erase free) ?_
  intro e mem
  obtain ⟨mem, other⟩ := List.mem_filter.mp mem
  rcases l.mem_claim _ now mem with old | ⟨_, rfl⟩
  · exact old
  · simp at other

end claim

end Ledger

namespace MandateVerifier

variable (v : MandateVerifier) (s : MandateStores ReplayLedger)

def payment? (call : MandateCall) (now : Timestamp) : Option PaymentMandate :=
  call.bundle?.bind fun b => (v.verifyBundle s b now).1.value?.map (·.payment)

def performPayment (s : MandateStores ReplayLedger) (call : MandateCall) (now : Timestamp) :
    Option PaymentMandate × MandateStores ReplayLedger :=
  (v.payment? s call now, (v.perform s call now).2)

def payments (s : MandateStores ReplayLedger) (calls : List (Timed MandateCall)) :
    List (Timed PaymentMandate) :=
  Timed.yields v.performPayment s calls

variable {s} {l : Ledger Json} (tracked : s.content = some l) {now : Timestamp}

include tracked

theorem recordPayment_consumes (p : PaymentMandate) (unexpired : now < p.header.expires) :
    ∃ l', (recordPayment s p now).2.content = some l' ∧
      l.Consumes l' (if (recordPayment s p now).1.isOk then some p else none) now := by
  obtain ⟨ledger, hledger, rfl⟩ := Option.map_eq_some_iff.mp tracked
  have hclaim := p.consumeIn_ledger_of_unexpired ledger unexpired
  cases hcontent : ledger.isConsumed p.content.fingerprint now with
  | true =>
    rw [recordPayment_of_consumed p now hledger hcontent]
    refine ⟨(p.consumeIn ledger now).2.ledger, rfl, ?_⟩
    rw [hclaim]
    exact ledger.ledger.consumes_claim_of_isLive p now hcontent
  | false =>
    cases live : s.replay.isLive p.header.id now with
    | true =>
      rw [recordPayment_of_isLive p now hledger hcontent live]
      refine ⟨(p.consumeIn ledger now).2.ledger.erase p.content.fingerprint, rfl, ?_⟩
      rw [hclaim]
      exact ledger.ledger.consumes_claim_erase p now hcontent
    | false =>
      rw [recordPayment_of_free p now hledger hcontent live]
      refine ⟨(p.consumeIn ledger now).2.ledger, rfl, ?_⟩
      rw [hclaim]
      exact ledger.ledger.consumes_claim p now hcontent

theorem verifyBundle_consumes (b : MandateBundle) :
    ∃ l', (v.verifyBundle s b now).2.content = some l' ∧
      l.Consumes l' ((v.verifyBundle s b now).1.value?.map (·.payment)) now := by
  unfold verifyBundle
  cases checked : v.checkBundle b now (ReplayStore.contains s.replay b.payment.header.id now) with
  | error e => exact ⟨l, tracked, .of_retains (l.retains_refl now) fun _ mem => mem⟩
  | ok =>
    have admitted := ((v.checkBundle_eq_ok b now _).mp checked).2.2.1
    obtain ⟨l', hcontent, consumes⟩ :=
      recordPayment_consumes tracked b.payment admitted.unexpired
    refine ⟨l', hcontent, ?_⟩
    cases outcome : (recordPayment s b.payment now).1 with
    | error e =>
      rw [outcome] at consumes
      simp only [outcome]
      exact consumes
    | ok =>
      rw [outcome] at consumes
      simp only [outcome]
      exact consumes

theorem perform_content_of_no_bundle (now : Timestamp) {call : MandateCall}
    (none : call.bundle? = none) :
    (v.perform s call now).2.content = some l ∨
      (v.perform s call now).2.content = some (l.sweep now) := by
  obtain ⟨ledger, hledger, rfl⟩ := Option.map_eq_some_iff.mp tracked
  cases call with
  | bundle b => cases none
  | text json =>
    left
    simp only [perform, verifyText]
    cases read : MandateBundle.ofText json with
    | error fault => exact tracked
    | ok b =>
      rw [MandateCall.bundle?, read] at none
      cases none
  | mandate m =>
    left
    simp only [perform, verify]
    cases v.checkMandate m now (ReplayStore.contains s.replay m.header.id now) with
    | error e => exact tracked
    | ok =>
      simp only [MandateStores.content, recordId_consumed]
      exact tracked
  | consumedContent fingerprint =>
    left
    simp only [perform, MandateStores.content, hledger, Option.map_some,
      ConsumedLedger.get_ledger]
  | sweepConsumed =>
    right
    simp only [perform, MandateStores.content, hledger, Option.map_some]
    rfl
  | contains | sweep | stats | isConsumed => exact .inl tracked

omit tracked in
theorem perform_of_bundle {call : MandateCall} {b : MandateBundle} (h : call.bundle? = some b) :
    (v.perform s call now).2 = (v.verifyBundle s b now).2 := by
  cases call with
  | bundle b' =>
    obtain rfl : b' = b := Option.some.inj h
    rfl
  | text json =>
    simp only [perform, verifyText]
    cases read : MandateBundle.ofText json with
    | error fault =>
      rw [MandateCall.bundle?, read] at h
      cases h
    | ok b' =>
      rw [MandateCall.bundle?, read] at h
      obtain rfl : b' = b := Option.some.inj h
      rfl
  | mandate | contains | sweep | stats | isConsumed | consumedContent | sweepConsumed => cases h

theorem perform_consumes (call : MandateCall) (now : Timestamp) :
    ∃ l', (v.perform s call now).2.content = some l' ∧
      l.Consumes l' (v.payment? s call now) now := by
  unfold payment?
  cases hbundle : call.bundle? with
  | some b =>
    rw [v.perform_of_bundle hbundle]
    exact v.verifyBundle_consumes tracked b
  | none =>
    rcases v.perform_content_of_no_bundle tracked now hbundle with same | swept
    · exact ⟨l, same, .of_retains (l.retains_refl now) fun _ mem => mem⟩
    · exact ⟨l.sweep now, swept, .of_retains (l.retains_sweep now)
        fun _ mem => (List.mem_filter.mp mem).1⟩

omit tracked

/-- Content is recorded when a payment that has it is accepted, and refused while it is. -/
theorem performPayment_guards :
    Timed.Guards v.performPayment (fun s => ∃ l, s.content = some l)
      (fun s fingerprint t =>
        ∃ l e, s.content = some l ∧ l.find? fingerprint = some e ∧ e.expires = t)
      (·.content.fingerprint) (·.header.expires) where
  holds := by
    rintro s call now ⟨l, tracked⟩
    obtain ⟨l', tracked', _⟩ := v.perform_consumes tracked call now
    exact ⟨l', tracked'⟩
  keeps := by
    rintro s call now fingerprint _ - ⟨l, e, tracked, found, rfl⟩ live
    obtain ⟨l', tracked', consumes⟩ := v.perform_consumes tracked call now
    exact ⟨l', e, tracked', consumes.retains fingerprint e found live, rfl⟩
  refuses := by
    rintro s call now p _ - used ⟨l, e, tracked, found, rfl⟩
    obtain ⟨l', _, consumes⟩ := v.perform_consumes tracked call now
    exact (l.isLive_eq_false _ now).mp (consumes.free p used) e found
  records := by
    rintro s call now p ⟨l, tracked⟩ used
    obtain ⟨l', tracked', consumes⟩ := v.perform_consumes tracked call now
    exact ⟨l', p.contentEntry, tracked', consumes.recorded p used, rfl⟩

theorem mem_content_storesAfter (tracked : s.content = some l) (calls : List (Timed MandateCall)) :
    ∃ l', (v.storesAfter s calls).content = some l' ∧ ∀ e ∈ l'.entries, e ∈ l.entries ∨
      ∃ first ∈ v.payments s calls, e = first.what.contentEntry := by
  induction calls generalizing s l with
  | nil => exact ⟨l, tracked, fun e mem => .inl mem⟩
  | cons call calls ih =>
    obtain ⟨l₁, tracked₁, consumes⟩ := v.perform_consumes tracked call.what call.now
    obtain ⟨l', tracked', hentries⟩ := ih tracked₁
    refine ⟨l', tracked', ?_⟩
    intro e mem
    rcases hentries e mem with earlier | ⟨first, later, rfl⟩
    · rcases consumes.new e earlier with old | ⟨p, used, rfl⟩
      · exact .inl old
      · exact .inr ⟨⟨call.now, p⟩, Timed.mem_yields_cons.mpr (.inl ⟨rfl, used⟩), rfl⟩
    · exact .inr ⟨first, Timed.mem_yields_cons.mpr (.inr later), rfl⟩

end MandateVerifier

def MandateStores.tracking (bound : Nat) (settings : ConsumedSettings) :
    MandateStores ReplayLedger :=
  ⟨.empty bound, some (.empty settings)⟩

namespace MandateVerifier

/-- Of the payments that a run accepts from empty stores, a later one has the content of an earlier
one only when that has expired. A bundle is rejected for its content only while an earlier payment of
the same content is unexpired, unless the two contents collide. -/
theorem content_accepted_once (v : MandateVerifier) (bound : Nat) (settings : ConsumedSettings)
    (calls : List (Timed MandateCall)) :
    (Timed.Ordered calls →
      (v.payments (.tracking bound settings) calls).Pairwise fun first later =>
        first.what.SameContent later.what → first.what.header.expires ≤ later.now) ∧
    ∀ (b : MandateBundle) (now : Timestamp) (r : Rejection),
      (v.verifyBundle (v.storesAfter (.tracking bound settings) calls) b now).1 = .rejected r →
      r.reason = "mandate_content_replayed" →
        ∃ first ∈ v.payments (.tracking bound settings) calls,
          now < first.what.header.expires ∧
            (first.what.SameContent b.payment ∨
              Json.Collide first.what.content b.payment.content) := by
  have tracked : (MandateStores.tracking bound settings).content =
      some (.empty settings.bound) := rfl
  constructor
  · intro ordered
    refine (v.performPayment_guards.pairwise_key_ne ⟨_, tracked⟩ ordered).imp ?_
    intro first later differ same
    by_contra early
    -- The same content has one fingerprint, which is kept out until the first payment expires.
    exact differ (not_le.mp early)
      (congrArg Json.fingerprint (PaymentMandate.content_eq_of_sameContent same)).symm
  · intro b now r rejected reason
    obtain ⟨ledger, hledger, consumed⟩ := v.isConsumed_of_contentReplayed rejected reason
    obtain ⟨l', tracked', hentries⟩ := v.mem_content_storesAfter tracked calls
    obtain rfl : ledger.ledger = l' := by
      rw [MandateStores.content, hledger] at tracked'
      exact Option.some.inj tracked'
    obtain ⟨e, found, live⟩ := (ledger.ledger.isLive_iff _ now).mp consumed
    obtain ⟨mem, hkey⟩ := Ledger.mem_of_find? found
    rcases hentries e mem with old | ⟨first, accepted, rfl⟩
    · cases old
    · exact ⟨first, accepted, live, PaymentMandate.sameContent_or_collide hkey⟩

end MandateVerifier

namespace Sample

def renewed : MandateBundle :=
  { bundle with payment := { bundle.payment with
    header := { header .payment "pm-2" ⟨3000⟩ "EA==" with nonce := "n-2" } } }

def purchase : List (Timed MandateCall) := [⟨⟨1000⟩, .bundle bundle⟩]

/-- When the first payment has expired its record is swept, and the renewed one is shown. -/
def renewals : List (Timed MandateCall) :=
  purchase ++ [⟨⟨2000⟩, .sweepConsumed⟩, ⟨⟨2000⟩, .bundle renewed⟩]

theorem sameContent_renewed : bundle.payment.SameContent renewed.payment := by
  decide

theorem renewed_contentReplayed :
    (verifier.verifyBundle (verifier.storesAfter (.tracking 1 .default) purchase) renewed
      ⟨1999⟩).1 =
        .rejected (.ofError (MandateError.contentReplayed renewed.payment.content.fingerprint)) := by
  have tracked : (MandateStores.tracking 1 .default).content = some (.empty _) := rfl
  obtain ⟨l, tracked', consumes⟩ :=
    verifier.perform_consumes tracked (.bundle bundle) ⟨1000⟩
  obtain ⟨ledger, hledger, rfl⟩ := Option.map_eq_some_iff.mp tracked'
  have found := consumes.recorded bundle.payment (by decide +kernel)
  rw [PaymentMandate.content_eq_of_sameContent sameContent_renewed] at found
  have live : (⟨1999⟩ : Timestamp) < bundle.payment.header.expires := by decide +kernel
  have after : verifier.storesAfter (.tracking 1 .default) purchase =
      (verifier.perform (.tracking 1 .default) (.bundle bundle) ⟨1000⟩).2 := by
    rw [MandateVerifier.storesAfter, purchase, List.foldl_cons, List.foldl_nil]
  rw [← after] at hledger
  exact verifier.verifyBundle_of_isConsumed (by decide +kernel) hledger
    ((ledger.ledger.isLive_iff _ _).mpr ⟨_, found, live⟩)

end Sample

theorem MandateVerifier.content_accepted_once_renewals :
    (Timed.Ordered Sample.renewals ∧
      Sample.verifier.payments (.tracking 1 .default) Sample.renewals =
        [⟨⟨1000⟩, Sample.bundle.payment⟩, ⟨⟨2000⟩, Sample.renewed.payment⟩] ∧
      Sample.bundle.payment.SameContent Sample.renewed.payment ∧
      Sample.bundle.payment.header.expires ≤ ⟨2000⟩) ∧
    ∃ r : Rejection, r.reason = "mandate_content_replayed" ∧
      (Sample.verifier.verifyBundle (Sample.verifier.storesAfter (.tracking 1 .default)
        Sample.purchase) Sample.renewed ⟨1999⟩).1 = .rejected r ∧
      ∃ first ∈ Sample.verifier.payments (.tracking 1 .default) Sample.purchase,
        ⟨1999⟩ < first.what.header.expires ∧
          (first.what.SameContent Sample.renewed.payment ∨
            Json.Collide first.what.content Sample.renewed.payment.content) := by
  obtain ⟨once, _⟩ := content_accepted_once Sample.verifier 1 .default Sample.renewals
  obtain ⟨_, only⟩ := content_accepted_once Sample.verifier 1 .default Sample.purchase
  have ordered : Timed.Ordered Sample.renewals := by decide
  have accepted : Sample.verifier.payments (.tracking 1 .default) Sample.renewals =
      [⟨⟨1000⟩, Sample.bundle.payment⟩, ⟨⟨2000⟩, Sample.renewed.payment⟩] := by
    decide +kernel
  have apart := once ordered
  rw [accepted, List.pairwise_pair] at apart
  refine ⟨⟨ordered, accepted, Sample.sameContent_renewed, apart Sample.sameContent_renewed⟩, ?_⟩
  exact ⟨_, rfl, Sample.renewed_contentReplayed,
    only Sample.renewed ⟨1999⟩ _ Sample.renewed_contentReplayed rfl⟩

end PaymentTrust
