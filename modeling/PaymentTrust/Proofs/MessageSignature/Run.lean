import PaymentTrust.Proofs.MessageSignature.Acceptance
import PaymentTrust.Proofs.Run

/-! Runs of validations on one store of nonces. A nonce stays recorded until the signature it came with
expires, and headers that have expired are not accepted, so no headers are accepted twice. -/
namespace PaymentTrust

/-- Validations may differ in their policy; they share the store. -/
inductive MessageCall where
  | validate (v : MessageValidator) (input signature : String) (request : RequestComponents)
  | sweep

structure HeaderAcceptance where
  header : String
  message : AcceptedMessage

namespace HeaderAcceptance

def nonce (a : HeaderAcceptance) : String := a.message.input.nonce

def expires (a : HeaderAcceptance) : Timestamp := a.message.input.expires

end HeaderAcceptance

namespace MessageCall

open MessageValidator

def perform (l : ReplayLedger) (call : MessageCall) (now : Timestamp) :
    Option HeaderAcceptance × ReplayLedger :=
  match call with
  | .validate v input signature request =>
    let (verdict, store) := v.validate (some l) input signature request now
    (verdict.value?.map fun m => ⟨input, m⟩, store.getD l)
  | .sweep => (none, (ReplayStore.sweep l now).2)

/-- The header was unexpired and its nonce free; now the nonce is recorded until the header expires. -/
structure Accepts (l l' : ReplayLedger) (a : HeaderAcceptance) (now : Timestamp) : Prop where
  parsed : SignatureInput.parse a.header = .ok a.message.input
  unexpired : now < a.expires
  free : l.isLive (nonceKey a.nonce) now = false
  recorded : l'.find? (nonceKey a.nonce) = some ⟨nonceKey a.nonce, a.expires, ()⟩

variable {l : ReplayLedger} {call : MessageCall} {now : Timestamp}

theorem perform_accepts {a : HeaderAcceptance} (accepted : (perform l call now).1 = some a) :
    Accepts l (perform l call now).2 a now := by
  cases call with
  | sweep => cases accepted
  | validate v input signature request =>
    obtain ⟨m, hm, rfl⟩ := Option.map_eq_some_iff.mp accepted
    have verdict : (v.validate (some l) input signature request now).1 = .accepted m :=
      (Verdict.value?_eq_some _ m).mp hm
    obtain ⟨s, parsed, _, admits, free, _⟩ := v.check_eq_ok.mp (check_of_accepted verdict)
    refine ⟨parsed, admits.unexpired, free, ?_⟩
    simp only [perform, store_of_accepted verdict]
    exact l.find?_claim_self _ now m.input.expires () free

theorem perform_retains (l : ReplayLedger) (call : MessageCall) (now : Timestamp) :
    l.Retains (perform l call now).2 now := by
  cases call with
  | sweep => exact l.retains_sweep now
  | validate v input signature request =>
    simp only [perform, validate_eq]
    cases v.check input signature request now (isSpent (some l) now) with
    | error e => exact l.retains_refl now
    | ok m => exact l.retains_claim (nonceKey m.input.nonce) now m.input.expires ()

theorem perform_guards :
    Timed.Guards perform (fun _ => True)
      (fun l nonce t => ∃ e, l.find? (nonceKey nonce) = some e ∧ e.expires = t)
      HeaderAcceptance.nonce HeaderAcceptance.expires where
  holds := fun _ => trivial
  keeps := by
    rintro l call now nonce _ - ⟨e, found, rfl⟩ live
    exact ⟨e, perform_retains l call now _ e found live, rfl⟩
  refuses := by
    rintro l call now a _ - accepted ⟨e, found, rfl⟩
    exact (l.isLive_eq_false _ now).mp (perform_accepts accepted).free e found
  records := fun _ accepted => ⟨_, (perform_accepts accepted).recorded, rfl⟩

/-- Whatever is validated by whichever policies, no header is accepted twice, and a nonce is accepted
again only when the header that it came with before has expired. -/
theorem header_accepted_once (l : ReplayLedger) (run : List (Timed MessageCall))
    (ordered : Timed.Ordered run) :
    ((Timed.yields perform l run).map (·.what.header)).Nodup ∧
      (Timed.yields perform l run).Pairwise fun first later =>
        later.what.nonce = first.what.nonce → first.what.expires ≤ later.now := by
  have accepts : ∀ t ∈ Timed.yields perform l run,
      SignatureInput.parse t.what.header = .ok t.what.message.input ∧ t.now < t.what.expires :=
    Timed.forall_mem_yields (fun _ _ _ _ accepted =>
      ⟨(perform_accepts accepted).parsed, (perform_accepts accepted).unexpired⟩) run
  have apart := perform_guards.pairwise_key_ne (s := l) trivial ordered
  constructor
  · rw [List.Nodup, List.pairwise_map]
    refine apart.imp_of_mem ?_
    intro first later hfirst hlater differ same
    obtain ⟨parsed, _⟩ := accepts first hfirst
    obtain ⟨parsed', unexpired⟩ := accepts later hlater
    -- One header has one nonce and one expiry, which the later acceptance comes before.
    rw [same, parsed'] at parsed
    have inputs : later.what.message.input = first.what.message.input := Except.ok.inj parsed
    have early : later.now < first.what.expires := by
      rw [HeaderAcceptance.expires, ← inputs]
      exact unexpired
    exact differ early (congrArg SignatureInput.nonce inputs)
  · exact apart.imp fun differ same => not_lt.mp fun early => differ early same

end MessageCall

namespace Sample

/-- Under another policy, the header of another agent with the same nonce. -/
def latecomer : MessageCall :=
  .validate ⟨⟨["agent-browser-auth"], .ed25519, 60⟩, .empty⟩
    ("sig1=();created=579;keyid=\"k-2\";alg=\"ed25519\";expires=639;nonce=\"n-1\";" ++
      "tag=\"agent-browser-auth\"") "sig1=:AQI=:" .empty

def visits : List (Timed MessageCall) :=
  [⟨⟨300⟩, .validate validator inputHeader signatureHeader request⟩,
    ⟨⟨579⟩, .validate validator inputHeader signatureHeader request⟩, ⟨⟨579⟩, latecomer⟩,
    ⟨⟨580⟩, .sweep⟩, ⟨⟨580⟩, latecomer⟩]

end Sample

theorem MessageCall.header_accepted_once_visits :
    Timed.Ordered Sample.visits ∧
      (Timed.yields perform (.empty 1) Sample.visits).map (fun t => (t.now, t.what.nonce)) =
        [(⟨300⟩, "n-1"), (⟨580⟩, "n-1")] ∧
      ((Timed.yields perform (.empty 1) Sample.visits).map (·.what.header)).Nodup := by
  have ordered : Timed.Ordered Sample.visits := by decide
  have twice : (Timed.yields perform (.empty 1) Sample.visits).map
      (fun t => (t.now, t.what.nonce)) = [(⟨300⟩, "n-1"), (⟨580⟩, "n-1")] := by
    decide +kernel
  exact ⟨ordered, twice, (header_accepted_once (.empty 1) Sample.visits ordered).1⟩

end PaymentTrust
