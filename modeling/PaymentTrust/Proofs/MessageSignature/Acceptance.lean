import PaymentTrust.MessageSignature.Validator
import PaymentTrust.Proofs.Ledger.Live
import PaymentTrust.Proofs.Signature.Selection

/-! Which message signatures are accepted, and what an acceptance uses up. Headers are accepted if they
and the request meet every rule and their nonce is free; then their nonce is recorded until they
expire, and nothing else is. A rejection leaves the store as it is. -/
namespace PaymentTrust

namespace SignatureInput

theorem exists_baseLines_iff (r : RequestComponents) (names : List String) :
    (∃ lines, baseLines r names = .ok lines) ↔ ∀ name ∈ names, (r.get? name).isSome = true := by
  induction names with
  | nil => simp [baseLines]
  | cons name names ih =>
    rw [List.forall_mem_cons, ← ih, baseLines]
    cases r.get? name with
    | none => simp
    | some value =>
      cases baseLines r names <;> simp [bind, Except.bind, pure, Except.pure]

theorem exists_base_iff (i : SignatureInput) (r : RequestComponents) :
    (∃ text, i.base r = .ok text) ↔ ∀ name ∈ i.components, (r.get? name).isSome = true := by
  rw [← exists_baseLines_iff, base]
  cases baseLines r i.components <;> simp [bind, Except.bind, pure, Except.pure]

end SignatureInput

namespace MessageValidator

variable (v : MessageValidator)

/-- What the two headers, the policy, the clock and the request must meet. Times are compared as
numbers of seconds, so that no difference of two is cut off. -/
structure Admits (i : SignatureInput) (s : DetachedSignature) (request : RequestComponents)
    (now : Timestamp) : Prop where
  label : s.label = i.label
  tag : i.tag ∈ v.policy.tags
  algorithm : Algorithm.ofName? i.algorithm = some v.policy.algorithm
  created : i.created ≤ now
  unexpired : now < i.expires
  window : i.expires.seconds.toNat - i.created.seconds.toNat ≤ v.policy.maxWindow.toNat
  covered : ∀ name ∈ i.components, (request.get? name).isSome = true

/-- The nonce is recorded until the signature expires, and from now on nothing else differs. -/
structure Spends (store store' : Option ReplayLedger) (i : SignatureInput) (now : Timestamp) :
    Prop where
  isSome : store'.isSome = store.isSome
  nonce : ∀ l' ∈ store', ∀ t,
    ReplayStore.contains l' (nonceKey i.nonce) t = decide (t < i.expires)
  others : ∀ l ∈ store, ∀ l' ∈ store', ∀ key ≠ nonceKey i.nonce, ∀ t, now ≤ t →
    ReplayStore.contains l' key t = ReplayStore.contains l key t

theorem readHeaders_eq_ok {input signature : String} {i : SignatureInput} {s : DetachedSignature} :
    readHeaders input signature = .ok (i, s) ↔
      SignatureInput.parse input = .ok i ∧ DetachedSignature.parse signature = .ok s ∧
        s.label = i.label := by
  unfold readHeaders
  simp only [Outcome.bind_eq_ok, Outcome.mapError_eq_ok, Outcome.refuse_bind_eq_ok,
    Outcome.pure_eq_ok, Prod.mk.injEq, not_not]
  constructor
  · rintro ⟨_, hi, _, hs, label, rfl, rfl⟩
    exact ⟨hi, hs, label⟩
  · rintro ⟨hi, hs, label⟩
    exact ⟨i, hi, s, hs, label, rfl, rfl⟩

theorem checkParameters_eq_ok (i : SignatureInput) (now : Timestamp) :
    v.checkParameters i now = .ok () ↔
      i.tag ∈ v.policy.tags ∧ Algorithm.ofName? i.algorithm = some v.policy.algorithm ∧
        i.created ≤ now ∧ now < i.expires ∧
          i.expires.seconds.toNat - i.created.seconds.toNat ≤ v.policy.maxWindow.toNat := by
  unfold checkParameters
  simp only [Outcome.refuse_bind_eq_ok, Outcome.refuse_eq_ok, Outcome.pure_eq_ok, and_true]
  simp [MessagePolicy.allowsAlgorithm, SignatureInput.window, UInt64.le_iff_toNat_le,
    Timestamp.toNat_since]

theorem check_eq_ok {input signature : String} {request : RequestComponents} {now : Timestamp}
    {used : String → Bool} {m : AcceptedMessage} :
    v.check input signature request now used = .ok m ↔
      ∃ s, SignatureInput.parse input = .ok m.input ∧ DetachedSignature.parse signature = .ok s ∧
        v.Admits m.input s request now ∧ used m.input.nonce = false ∧
          m.input.base request = .ok m.base ∧ m.signature = s.bytes := by
  unfold check
  simp only [Outcome.bind_eq_ok, Outcome.mapError_eq_ok, Outcome.refuse_bind_eq_ok,
    Outcome.pure_eq_ok, Prod.exists, readHeaders_eq_ok]
  constructor
  · rintro ⟨i, s, ⟨hi, hs, label⟩, _, parameters, free, base, hbase, rfl⟩
    obtain ⟨tag, algorithm, created, unexpired, window⟩ :=
      (v.checkParameters_eq_ok i now).mp parameters
    have covered := (i.exists_base_iff request).mp ⟨base, hbase⟩
    exact ⟨s, hi, hs, ⟨label, tag, algorithm, created, unexpired, window, covered⟩,
      Bool.not_eq_true _ ▸ free, hbase, rfl⟩
  · rintro ⟨s, hi, hs, admits, free, hbase, bytes⟩
    have parameters := (v.checkParameters_eq_ok m.input now).mpr
      ⟨admits.tag, admits.algorithm, admits.created, admits.unexpired, admits.window⟩
    refine ⟨m.input, s, ⟨hi, hs, admits.label⟩, _, parameters, ?_, m.base, hbase, ?_⟩
    · rw [free]
      exact Bool.false_ne_true
    · rw [← bytes]

open Outcome in
theorem raisesOnly_readHeaders (input signature : String) :
    RaisesOnly (fun e => ∀ nonce, e ≠ .nonceReplayed nonce) (readHeaders input signature) := by
  unfold readHeaders
  refine RaisesOnly.bind (raisesOnly_mapError _ fun _ _ => nofun) fun i => ?_
  refine RaisesOnly.bind (raisesOnly_mapError _ fun _ _ => nofun) fun s => ?_
  exact raisesOnly_refuse (fun _ => nofun) (raisesOnly_ok _ _)

open Outcome in
theorem raisesOnly_checkParameters (i : SignatureInput) (now : Timestamp) :
    RaisesOnly (fun e => ∀ nonce, e ≠ .nonceReplayed nonce) (v.checkParameters i now) := by
  unfold checkParameters
  refine raisesOnly_refuse (fun _ => nofun) ?_
  refine raisesOnly_refuse (fun _ => nofun) ?_
  refine raisesOnly_refuse (fun _ => nofun) ?_
  refine raisesOnly_refuse (fun _ => nofun) ?_
  exact raisesOnly_refuse (fun _ => nofun) (raisesOnly_ok _ _)

open Outcome in
theorem raisesOnly_check (input signature : String) (request : RequestComponents) (now : Timestamp)
    (used : String → Bool) :
    RaisesOnly (fun e => (∀ nonce, e ≠ .nonceReplayed nonce) ∨
      ∃ i, SignatureInput.parse input = .ok i ∧ used i.nonce = true)
      (v.check input signature request now used) := by
  unfold check
  refine RaisesOnly.bind_of_eq_ok (fun e h => .inl (raisesOnly_readHeaders _ _ e h)) ?_
  rintro ⟨i, s⟩ headers
  obtain ⟨parsed, _⟩ := readHeaders_eq_ok.mp headers
  refine RaisesOnly.bind (fun e h => .inl (v.raisesOnly_checkParameters i now e h)) fun _ => ?_
  by_cases spent : used i.nonce = true
  · exact fun _ _ => .inr ⟨i, parsed, spent⟩
  · rw [if_neg spent]
    exact RaisesOnly.bind (raisesOnly_mapError _ fun _ => .inl fun _ => nofun) fun _ =>
      raisesOnly_ok _ _

def isSpent (store : Option ReplayLedger) (now : Timestamp) (nonce : String) : Bool :=
  store.any fun l => l.isLive (nonceKey nonce) now

theorem isSpent_eq_false {store : Option ReplayLedger} {now : Timestamp} {nonce : String} :
    isSpent store now nonce = false ↔ ∀ l ∈ store, l.isLive (nonceKey nonce) now = false := by
  cases store <;> simp [isSpent]

theorem recordNonce_of_free {l : ReplayLedger} {i : SignatureInput} {now : Timestamp}
    (free : l.isLive (nonceKey i.nonce) now = false) :
    recordNonce l i now = (.ok (), (l.claim (nonceKey i.nonce) i.expires now ()).2) := by
  unfold recordNonce
  simp only [ReplayStore.record, ReplayLedger.record, l.claim_of_free _ now i.expires () free]

/-- A store in memory does not turn down a nonce that was free when it was looked up. -/
theorem validate_eq (store : Option ReplayLedger) (input signature : String)
    (request : RequestComponents) (now : Timestamp) :
    v.validate store input signature request now =
      match v.check input signature request now (isSpent store now) with
      | .error e => (.rejected (.ofError e), store)
      | .ok m => (.accepted m,
          store.map fun l => (l.claim (nonceKey m.input.nonce) m.input.expires now ()).2) := by
  unfold validate
  cases checked : v.check input signature request now (isSpent store now) with
  | error e =>
    unfold isSpent at checked
    simp only [ReplayStore.contains, checked]
  | ok m =>
    obtain ⟨s, _, _, _, free, _⟩ := v.check_eq_ok.mp checked
    unfold isSpent at checked
    simp only [ReplayStore.contains, checked]
    cases store with
    | none => rfl
    | some l =>
      simp only [recordNonce_of_free free]
      rfl

section

variable {v} {store : Option ReplayLedger} {input signature : String} {request : RequestComponents}
  {now : Timestamp}

theorem check_of_accepted {m : AcceptedMessage}
    (accepted : (v.validate store input signature request now).1 = .accepted m) :
    v.check input signature request now (isSpent store now) = .ok m := by
  rw [validate_eq] at accepted
  cases checked : v.check input signature request now (isSpent store now) with
  | error e =>
    rw [checked] at accepted
    cases accepted
  | ok m' =>
    rw [checked] at accepted
    cases accepted
    rfl

theorem store_of_accepted {m : AcceptedMessage}
    (accepted : (v.validate store input signature request now).1 = .accepted m) :
    (v.validate store input signature request now).2 =
      store.map fun l => (l.claim (nonceKey m.input.nonce) m.input.expires now ()).2 := by
  rw [validate_eq, check_of_accepted accepted]

theorem store_of_rejected
    (rejected : (v.validate store input signature request now).1.isAccepted = false) :
    (v.validate store input signature request now).2 = store := by
  rw [validate_eq] at rejected ⊢
  cases checked : v.check input signature request now (isSpent store now) with
  | error e => rfl
  | ok m =>
    rw [checked] at rejected
    cases rejected

theorem isAccepted_iff :
    (v.validate store input signature request now).1.isAccepted = true ↔
      ∃ i s, SignatureInput.parse input = .ok i ∧ DetachedSignature.parse signature = .ok s ∧
        v.Admits i s request now ∧ ∀ l ∈ store, l.isLive (nonceKey i.nonce) now = false := by
  simp only [Verdict.isAccepted_iff, ← isSpent_eq_false]
  constructor
  · rintro ⟨m, accepted⟩
    obtain ⟨s, hi, hs, admits, free, _⟩ := v.check_eq_ok.mp (check_of_accepted accepted)
    exact ⟨m.input, s, hi, hs, admits, free⟩
  · rintro ⟨i, s, hi, hs, admits, free⟩
    obtain ⟨base, hbase⟩ := (i.exists_base_iff request).mpr admits.covered
    have checked : v.check input signature request now (isSpent store now) =
        .ok ⟨i, s.bytes, base⟩ :=
      v.check_eq_ok.mpr ⟨s, hi, hs, admits, free, hbase, rfl⟩
    refine ⟨⟨i, s.bytes, base⟩, ?_⟩
    rw [validate_eq, checked]

theorem spends_of_accepted (reachable : ∀ l ∈ store, l.Reachable) {m : AcceptedMessage}
    (accepted : (v.validate store input signature request now).1 = .accepted m) :
    Spends store (v.validate store input signature request now).2 m.input now := by
  obtain ⟨s, _, _, _, free, _⟩ := v.check_eq_ok.mp (check_of_accepted accepted)
  rw [store_of_accepted accepted]
  refine ⟨Option.isSome_map, ?_, ?_⟩
  · intro l' mem t
    obtain ⟨l, rfl, rfl⟩ := Option.map_eq_some_iff.mp mem
    simp only [ReplayStore.contains, Ledger.isLive, Ledger.live?_claim_self m.input.expires () free]
    by_cases live : t < m.input.expires <;> simp [live]
  · rintro l tracked l' mem key other t ordered
    obtain ⟨_, tracked', rfl⟩ := Option.map_eq_some_iff.mp mem
    obtain rfl := Option.some.inj (tracked.symm.trans tracked')
    simp only [ReplayStore.contains, Ledger.isLive,
      Ledger.live?_claim_of_ne key (reachable l tracked).distinct m.input.expires () other ordered]

end

theorem verifyWithKey_eq_accepted (m : AcceptedMessage) (key : PublicKey) :
    v.verifyWithKey m key = .accepted () ↔
      key.algorithm = v.policy.algorithm ∧ ∃ verifier, v.verifiers.get? key.algorithm = some verifier ∧
        verifier.verify (Utf8.encode m.base.toList) m.signature key.bytes = .ok () := by
  unfold verifyWithKey
  rw [Verdict.ofExcept_eq_accepted]
  by_cases same : key.algorithm = v.policy.algorithm
  · rw [if_neg (not_not.mpr same), Outcome.mapError_eq_ok, VerifierRegistry.verify_eq_ok,
      and_iff_right same]
  · simp [same]

/-- Headers are accepted if and only if both have their form and meet every rule and the nonce has no
live record. An acceptance gives the text that is signed and records the nonce alone, for no longer
than the longest window; a rejection leaves the store as it is. A key then verifies the message exactly
if it is of the configured algorithm and its verifier accepts the signature over that text. -/
theorem validate_decides (v : MessageValidator) (store : Option ReplayLedger)
    (reachable : ∀ l ∈ store, l.Reachable) (input signature : String) (request : RequestComponents)
    (now : Timestamp) :
    ((v.validate store input signature request now).1.isAccepted = true ↔
      ∃ i s, SignatureInput.parse input = .ok i ∧ DetachedSignature.parse signature = .ok s ∧
        v.Admits i s request now ∧
          ∀ l ∈ store, ReplayStore.contains l (nonceKey i.nonce) now = false) ∧
    ((v.validate store input signature request now).1.isAccepted = false →
      (v.validate store input signature request now).2 = store) ∧
    ∀ m, (v.validate store input signature request now).1 = .accepted m →
      SignatureInput.parse input = .ok m.input ∧
      DetachedSignature.parse signature = .ok ⟨m.input.label, m.signature⟩ ∧
      m.input.base request = .ok m.base ∧
      Spends store (v.validate store input signature request now).2 m.input now ∧
      m.input.expires.seconds.toNat ≤ now.seconds.toNat + v.policy.maxWindow.toNat ∧
      ∀ key, v.verifyWithKey m key = .accepted () ↔
        key.algorithm = v.policy.algorithm ∧ ∃ verifier,
          v.verifiers.get? key.algorithm = some verifier ∧
            verifier.verify (Utf8.encode m.base.toList) m.signature key.bytes = .ok () := by
  refine ⟨isAccepted_iff, store_of_rejected, ?_⟩
  intro m accepted
  obtain ⟨s, hi, hs, admits, _, hbase, bytes⟩ := v.check_eq_ok.mp (check_of_accepted accepted)
  have signed : s = ⟨m.input.label, m.signature⟩ := by
    rw [← admits.label, bytes]
  have expiry : m.input.expires.seconds.toNat ≤ now.seconds.toNat + v.policy.maxWindow.toNat := by
    have created := (Timestamp.le_iff_toNat m.input.created now).mp admits.created
    have window := admits.window
    omega
  exact ⟨hi, signed ▸ hs, hbase, spends_of_accepted reachable accepted, expiry,
    v.verifyWithKey_eq_accepted m⟩

end MessageValidator

namespace Sample

/-- For this verifier a key is the one signature that it stands for. -/
def passphrase : Verifier where
  algorithm := .ed25519
  verify := fun _ signature key => if signature = key then .ok () else .error .mismatch

def validator : MessageValidator := ⟨.default, .register .empty passphrase⟩

def nonces : Option ReplayLedger := some (.empty 1)

def inputHeader : String :=
  "sig2=(\"@authority\");created=100;keyid=\"k\";alg=\"EdDSA\";expires=580;nonce=\"n-1\";" ++
    "tag=\"agent-payer-auth\""

def signatureHeader : String := "sig2=:AQI=:"

def request : RequestComponents := RequestComponents.empty.setAuthority "Shop.example"

end Sample

theorem MessageValidator.validate_decides_sample :
    (∀ l ∈ Sample.nonces, l.Reachable) ∧
    (Sample.validator.validate Sample.nonces Sample.inputHeader Sample.signatureHeader Sample.request
      ⟨579⟩).1.isAccepted = true ∧
    (∃ i s, SignatureInput.parse Sample.inputHeader = .ok i ∧
      DetachedSignature.parse Sample.signatureHeader = .ok s ∧
      Sample.validator.Admits i s Sample.request ⟨579⟩) ∧
    (Sample.validator.validate Sample.nonces Sample.inputHeader Sample.signatureHeader Sample.request
      ⟨580⟩).2 = Sample.nonces ∧
    ∃ m, (Sample.validator.validate Sample.nonces Sample.inputHeader Sample.signatureHeader
        Sample.request ⟨579⟩).1 = .accepted m ∧
      m.input.expires.seconds.toNat ≤ 579 + 480 := by
  have reachable : ∀ l ∈ Sample.nonces, l.Reachable := by
    rintro _ ⟨⟩
    exact .empty 1
  obtain ⟨decides, _, outcome⟩ := validate_decides Sample.validator Sample.nonces reachable
    Sample.inputHeader Sample.signatureHeader Sample.request ⟨579⟩
  obtain ⟨_, unchanged, _⟩ := validate_decides Sample.validator Sample.nonces reachable
    Sample.inputHeader Sample.signatureHeader Sample.request ⟨580⟩
  have accepted : (Sample.validator.validate Sample.nonces Sample.inputHeader
      Sample.signatureHeader Sample.request ⟨579⟩).1.isAccepted = true := by
    decide +kernel
  have rejected : (Sample.validator.validate Sample.nonces Sample.inputHeader
      Sample.signatureHeader Sample.request ⟨580⟩).1.isAccepted = false := by
    decide +kernel
  obtain ⟨i, s, hi, hs, admits, _⟩ := decides.mp accepted
  obtain ⟨m, hm⟩ := (Verdict.isAccepted_iff _).mp accepted
  obtain ⟨_, _, _, _, expiry, _⟩ := outcome m hm
  exact ⟨reachable, accepted, ⟨i, s, hi, hs, admits⟩, unchanged rejected, m, hm, expiry⟩

end PaymentTrust
