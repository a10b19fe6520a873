import PaymentTrust.Proofs.Mandate.Acceptance
import PaymentTrust.Proofs.Run

/-! Runs of calls on one verifier. What is accepted stays recorded until it expires, whatever is
called in between, so an identifier that was accepted is not accepted again before that. -/
namespace PaymentTrust

inductive MandateCall where
  | mandate (m : Mandate)
  | bundle (b : MandateBundle)
  | text (text : String)
  | contains (id : String)
  | sweep
  | stats
  | isConsumed (fingerprint : String)
  | consumedContent (fingerprint : String)
  | sweepConsumed

namespace MandateVerifier

variable (v : MandateVerifier) (s : MandateStores ReplayLedger)

def perform (call : MandateCall) (now : Timestamp) : Option Mandate × MandateStores ReplayLedger :=
  match call with
  | .mandate m =>
    let (verdict, s) := v.verify s m now
    (verdict.value?.map fun () => m, s)
  | .bundle b =>
    let (verdict, s) := v.verifyBundle s b now
    (verdict.value?.map fun b => .payment b.payment, s)
  | .text text =>
    let (verdict, s) := v.verifyText s text now
    (verdict.value?.map fun b => .payment b.payment, s)
  | .contains _ | .stats | .isConsumed _ => (none, s)
  | .sweep => (none, { s with replay := (ReplayStore.sweep s.replay now).2 })
  | .consumedContent fingerprint =>
    (none, { s with consumed := s.consumed.map fun ledger => (ledger.get fingerprint now).2 })
  | .sweepConsumed =>
    (none, { s with consumed := s.consumed.map fun ledger => (ledger.sweep now).2 })

def acceptances (s : MandateStores ReplayLedger) :
    List (Timed MandateCall) → List (Timed Mandate)
  | [] => []
  | ⟨now, call⟩ :: calls =>
    let (used, s) := v.perform s call now
    (used.map (Timed.mk now)).toList ++ acceptances s calls

def storesAfter (s : MandateStores ReplayLedger) (calls : List (Timed MandateCall)) :
    MandateStores ReplayLedger :=
  calls.foldl (fun s call => (v.perform s call.what call.now).2) s

/-- An unexpired mandate whose identifier had no live record is now recorded until it expires. -/
structure Uses (s s' : MandateStores ReplayLedger) (m : Mandate) (now : Timestamp) : Prop where
  unexpired : now < m.header.expires
  free : s.replay.isLive m.header.id now = false
  recorded : s'.replay.find? m.header.id = some ⟨m.header.id, m.header.expires, ()⟩

variable {s}

theorem verify_stores {m : Mandate} {now : Timestamp}
    (accepted : (v.verify s m now).1 = .accepted ()) :
    (v.verify s m now).2 = (recordId s m.header now).2 := by
  obtain ⟨checked, _⟩ := (v.verify_eq_accepted s m now).mp accepted
  unfold verify
  simp only [ReplayStore.contains, checked]

theorem verifyBundle_stores {b c : MandateBundle} {now : Timestamp}
    (accepted : (v.verifyBundle s b now).1 = .accepted c) :
    (v.verifyBundle s b now).2 = (recordPayment s b.payment now).2 := by
  obtain ⟨⟨checked, _⟩, _⟩ := (v.verifyBundle_eq_accepted s b c now).mp accepted
  unfold verifyBundle
  simp only [ReplayStore.contains, checked]

theorem verify_uses {m : Mandate} {now : Timestamp}
    (accepted : (v.verify s m now).1 = .accepted ()) : Uses s (v.verify s m now).2 m now := by
  obtain ⟨checked, recorded⟩ := (v.verify_eq_accepted s m now).mp accepted
  have free := (recordId_eq_ok s m.header now).mp recorded
  rw [v.verify_stores accepted]
  exact ⟨((v.checkMandate_eq_ok m now _).mp checked).1, free, find?_recordId m.header now free⟩

theorem verifyBundle_uses {b c : MandateBundle} {now : Timestamp}
    (accepted : (v.verifyBundle s b now).1 = .accepted c) :
    b = c ∧ Uses s (v.verifyBundle s b now).2 (.payment b.payment) now := by
  obtain ⟨⟨checked, recorded⟩, rfl⟩ := (v.verifyBundle_eq_accepted s b c now).mp accepted
  have fresh := (recordPayment_eq_ok s b.payment now).mp recorded
  rw [v.verifyBundle_stores accepted]
  have admitted := ((v.checkBundle_eq_ok b now _).mp checked).2.2.1
  exact ⟨rfl, admitted.unexpired, fresh.id, find?_recordPayment b.payment now fresh⟩

theorem verify_retains (m : Mandate) (now : Timestamp) :
    s.replay.Retains (v.verify s m now).2.replay now := by
  unfold verify
  cases v.checkMandate m now (ReplayStore.contains s.replay m.header.id now) with
  | error e => exact s.replay.retains_refl now
  | ok => exact recordId_retains s m.header now

theorem verifyBundle_retains (b : MandateBundle) (now : Timestamp) :
    s.replay.Retains (v.verifyBundle s b now).2.replay now := by
  unfold verifyBundle
  cases v.checkBundle b now (ReplayStore.contains s.replay b.payment.header.id now) with
  | error e => exact s.replay.retains_refl now
  | ok => exact recordPayment_retains s b.payment now

theorem perform_retains (call : MandateCall) (now : Timestamp) :
    s.replay.Retains (v.perform s call now).2.replay now := by
  cases call with
  | mandate m => exact v.verify_retains m now
  | bundle b => exact v.verifyBundle_retains b now
  | text text =>
    simp only [perform, verifyText]
    cases MandateBundle.ofText text with
    | error fault => exact s.replay.retains_refl now
    | ok b => exact v.verifyBundle_retains b now
  | sweep => exact s.replay.retains_sweep now
  | contains | stats | isConsumed | consumedContent | sweepConsumed =>
    exact s.replay.retains_refl now

theorem perform_bundle_uses {b : MandateBundle} {now : Timestamp} {m : Mandate}
    (used : (v.perform s (.bundle b) now).1 = some m) :
    Uses s (v.perform s (.bundle b) now).2 m now := by
  simp only [perform] at used ⊢
  cases accepted : (v.verifyBundle s b now).1 with
  | rejected r => simp [accepted, Verdict.value?] at used
  | accepted c =>
    obtain ⟨rfl, uses⟩ := v.verifyBundle_uses accepted
    obtain rfl : Mandate.payment b.payment = m := by simpa [accepted, Verdict.value?] using used
    exact uses

theorem perform_uses {call : MandateCall} {now : Timestamp} {m : Mandate}
    (used : (v.perform s call now).1 = some m) : Uses s (v.perform s call now).2 m now := by
  cases call with
  | mandate m' =>
    simp only [perform] at used ⊢
    cases accepted : (v.verify s m' now).1 with
    | rejected r => simp [accepted, Verdict.value?] at used
    | accepted =>
      obtain rfl : m' = m := by simpa [accepted, Verdict.value?] using used
      exact v.verify_uses accepted
  | bundle b => exact v.perform_bundle_uses used
  | text text =>
    simp only [perform, verifyText] at used ⊢
    cases read : MandateBundle.ofText text with
    | error fault => simp [read, Verdict.value?] at used
    | ok b =>
      simp only [read] at used ⊢
      exact v.perform_bundle_uses used
  | contains | sweep | stats | isConsumed | consumedContent | sweepConsumed => cases used

/-- An identifier is recorded when a mandate that has it is accepted, and refused while it is. -/
theorem perform_guards :
    Timed.Guards v.perform (fun _ => True)
      (fun s id t => ∃ e, s.replay.find? id = some e ∧ e.expires = t) (·.header.id)
      (·.header.expires) where
  holds := fun _ => trivial
  keeps := by
    rintro s call now id _ - ⟨e, found, rfl⟩ live
    exact ⟨e, v.perform_retains call now id e found live, rfl⟩
  refuses := by
    rintro s call now m _ - used ⟨e, found, rfl⟩
    exact (Ledger.isLive_eq_false _ _ _).mp (v.perform_uses used).free e found
  records := fun _ used => ⟨_, (v.perform_uses used).recorded, rfl⟩

theorem acceptances_eq_yields (calls : List (Timed MandateCall)) :
    v.acceptances s calls = Timed.yields v.perform s calls := by
  induction calls generalizing s with
  | nil => rfl
  | cons call calls ih => exact congrArg _ ih

theorem mem_acceptances_cons {now : Timestamp} {call : MandateCall}
    {calls : List (Timed MandateCall)} {t : Timed Mandate} :
    t ∈ v.acceptances s (⟨now, call⟩ :: calls) ↔
      (t.now = now ∧ (v.perform s call now).1 = some t.what) ∨
        t ∈ v.acceptances (v.perform s call now).2 calls := by
  simp only [acceptances_eq_yields]
  exact Timed.mem_yields_cons

theorem id_ne_of_recorded {calls : List (Timed MandateCall)} (ordered : Timed.Ordered calls)
    {id : String} {e : Ledger.Entry Unit} (recorded : s.replay.find? id = some e)
    {t : Timed Mandate} (accepted : t ∈ v.acceptances s calls) (early : t.now < e.expires) :
    t.what.header.id ≠ id := by
  rw [acceptances_eq_yields] at accepted
  exact v.perform_guards.key_ne_of_recorded trivial ordered ⟨e, recorded, rfl⟩ accepted early

theorem mem_acceptances_append {before after : List (Timed MandateCall)} {t : Timed Mandate}
    (accepted : t ∈ v.acceptances (v.storesAfter s before) after) :
    t ∈ v.acceptances s (before ++ after) := by
  rw [acceptances_eq_yields] at accepted ⊢
  exact Timed.mem_yields_append accepted

theorem acceptances_id_ne (s : MandateStores ReplayLedger) (calls : List (Timed MandateCall))
    (ordered : Timed.Ordered calls) :
    (v.acceptances s calls).Pairwise fun first later =>
      later.now < first.what.header.expires → later.what.header.id ≠ first.what.header.id := by
  rw [acceptances_eq_yields]
  exact v.perform_guards.pairwise_key_ne trivial ordered

/-- Once a call accepts a mandate, no later one accepts a mandate with its identifier until it
expires: whatever kind that has, and whatever is called before and in between. -/
theorem perform_id_ne_of_accepted (v : MandateVerifier) (s : MandateStores ReplayLedger)
    (before between : List (Timed MandateCall)) (call later : Timed MandateCall)
    (ordered : Timed.Ordered (before ++ call :: (between ++ [later]))) (m : Mandate)
    (used : (v.perform (v.storesAfter s before) call.what call.now).1 = some m)
    (early : later.now < m.header.expires) :
    ∀ m',
      (v.perform (v.storesAfter s (before ++ call :: between)) later.what later.now).1 = some m' →
      m'.header.id ≠ m.header.id := by
  intro m' used'
  obtain ⟨_, ordered, _⟩ := List.pairwise_append.mp ordered
  obtain ⟨_, ordered⟩ := List.pairwise_cons.mp ordered
  have recorded := (v.perform_uses used).recorded
  rw [storesAfter, List.foldl_append, List.foldl_cons] at used'
  have last : ⟨later.now, m'⟩ ∈ v.acceptances (v.storesAfter
      (v.perform (v.storesAfter s before) call.what call.now).2 between) [later] :=
    v.mem_acceptances_cons.mpr (.inl ⟨rfl, used'⟩)
  exact v.id_ne_of_recorded ordered recorded (v.mem_acceptances_append last) early

end MandateVerifier

namespace Sample

/-- The bundle again, its payment alone, and a sweep, all while the payment is recorded. -/
def retries : List (Timed MandateCall) :=
  [⟨⟨1500⟩, .bundle bundle⟩, ⟨⟨1999⟩, .mandate (.payment bundle.payment)⟩, ⟨⟨1999⟩, .sweep⟩]

def retried : MandateStores ReplayLedger :=
  verifier.storesAfter stores (⟨⟨1000⟩, .bundle bundle⟩ :: retries)

end Sample

theorem MandateVerifier.perform_cart_after_payment :
    (Sample.verifier.perform Sample.retried (.mandate (.cart Sample.bundle.cart)) ⟨1999⟩).1 =
        some (.cart Sample.bundle.cart) ∧
      (Mandate.cart Sample.bundle.cart).header.id ≠
        (Mandate.payment Sample.bundle.payment).header.id := by
  have accepted : (Sample.verifier.perform Sample.retried
      (.mandate (.cart Sample.bundle.cart)) ⟨1999⟩).1 = some (.cart Sample.bundle.cart) := by
    decide +kernel
  exact ⟨accepted, perform_id_ne_of_accepted Sample.verifier Sample.stores [] Sample.retries
    ⟨⟨1000⟩, .bundle Sample.bundle⟩ ⟨⟨1999⟩, .mandate (.cart Sample.bundle.cart)⟩ (by decide)
    (.payment Sample.bundle.payment) (by decide +kernel) (by decide) _ accepted⟩

end PaymentTrust
