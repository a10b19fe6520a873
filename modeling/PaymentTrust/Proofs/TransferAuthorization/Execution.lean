import PaymentTrust.Proofs.Timestamp
import PaymentTrust.Proofs.TransferAuthorization.Digest
import PaymentTrust.TransferAuthorization.Verifier

/-! A verified transfer authorization is executed as it was signed: the call carries the bytes that
the signed digest is made of and the signature that the sender is recovered from. -/
namespace PaymentTrust

namespace TransferCall

def transfer (c : TransferCall) : TypedTransfer where
  sender := c.sender
  receiver := c.receiver
  value := c.value
  validAfter := c.validAfter
  validBefore := c.validBefore
  nonce := c.nonce

theorem length_selector : selector.length = 4 := by
  rw [selector, List.length_take, Digest.length_keccak256]
  rfl

theorem data_eq (c : TransferCall) : c.data = selector ++ (AbiValue.encode c.transfer.fields ++
    ((AbiValue.uint8 c.v).word.bytes ++ (c.r.bytes ++ c.s.bytes))) := by
  simp [data, arguments, transfer, TypedTransfer.fields, AbiValue.encode, AbiValue.word]

theorem take_data (c : TransferCall) :
    (c.data.drop 4).take 192 = AbiValue.encode c.transfer.fields := by
  have hlength : (AbiValue.encode c.transfer.fields).length = 192 := AbiValue.length_encode _
  rw [data_eq, List.drop_left' length_selector, List.take_left' hlength]

theorem drop_data (c : TransferCall) : c.data.drop 228 = c.r.bytes ++ c.s.bytes := by
  have hlength : (selector ++ AbiValue.encode c.transfer.fields ++
      (AbiValue.uint8 c.v).word.bytes).length = 228 := by
    simp [length_selector, TypedTransfer.fields]
  rw [data_eq, ← List.append_assoc, ← List.append_assoc, List.drop_left' hlength]

end TransferCall

namespace TransferAuthorization

variable (a : TransferAuthorization) (d : TokenDomain)

theorem checkTiming_eq_ok (now : Timestamp) :
    a.checkTiming now = .ok () ↔ a.validAfter ≤ now ∧ now < a.validBefore := by
  simp only [checkTiming, Outcome.refuse_bind_eq_ok, Outcome.refuse_eq_ok, Outcome.pure_eq_ok,
    Timestamp.isReached, decide_eq_true_eq, Timestamp.lt_iff_toNat, Timestamp.le_iff_toNat, and_true]
  omega

theorem parity_eq_ok {v : UInt8} {odd : Bool} :
    parity v = .ok odd ↔ v ∈ [0, 1, 27, 28] ∧ odd = decide (v % 27 = 1) := by
  unfold parity
  split_ifs with heven hodd
  · rcases heven with rfl | rfl <;> simp [eq_comm]
  · rcases hodd with rfl | rfl <;> simp [eq_comm]
  · simp [not_or.mp heven, not_or.mp hodd]

theorem typedTransfer_of_call {c : TransferCall} (h : a.call = .ok c) :
    a.typedTransfer = .ok c.transfer := by
  simp only [call, Outcome.bind_eq_ok, Outcome.pure_eq_ok, hexWords_eq_ok] at h
  obtain ⟨words, hwords, rfl⟩ := h
  rw [typedTransfer, hwords.nonce]
  rfl

theorem signingDigest_eq_ok {digest : Word256} : a.signingDigest d = .ok digest ↔
    ∃ t, a.typedTransfer = .ok t ∧ Word256.ofBytes (Digest.keccak256 (t.signedBytes d)) = digest := by
  unfold signingDigest
  cases a.typedTransfer <;> simp [Except.map]

theorem checkSignature_eq_ok : a.checkSignature d = .ok () ↔ a.v ∈ [0, 1, 27, 28] ∧
    ∃ words digest, a.Denotes words ∧ a.signingDigest d = .ok digest ∧
      recover? digest words.r words.s (a.v % 27 = 1) = some a.sender := by
  unfold checkSignature
  simp only [Outcome.bind_eq_ok, hexWords_eq_ok, parity_eq_ok]
  constructor
  · rintro ⟨digest, hdigest, words, hwords, _, ⟨hv, rfl⟩, hrecover⟩
    refine ⟨hv, words, digest, hwords, hdigest, ?_⟩
    split at hrecover
    · cases hrecover
    · rename_i recovered hrecovered
      rw [Outcome.refuse_eq_ok, not_not] at hrecover
      rw [hrecovered, hrecover.1]
  · rintro ⟨hv, words, digest, hwords, hdigest, hrecover⟩
    refine ⟨digest, hdigest, words, hwords, _, ⟨hv, rfl⟩, ?_⟩
    simp [hrecover]

theorem check_eq_ok (now : Timestamp) : a.check d now = .ok () ↔
    a.validAfter ≤ now ∧ now < a.validBefore ∧ a.v ∈ [0, 1, 27, 28] ∧
      ∃ words digest, a.Denotes words ∧ a.signingDigest d = .ok digest ∧
        recover? digest words.r words.s (a.v % 27 = 1) = some a.sender := by
  unfold check
  rw [Outcome.check_bind_eq_ok, checkTiming_eq_ok, checkSignature_eq_ok, and_assoc]

variable {a}

theorem callData_of_denotes {words : HexWords} (h : a.Denotes words) {digest : Word256}
    (hdigest : a.signingDigest d = .ok digest) :
    ∃ data, a.callData = .ok data ∧
      digest = .ofBytes (Digest.keccak256 ([0x19, 0x01] ++ d.digest.bytes ++
        (Word256.ofBytes (Digest.keccak256 ((textDigest TypedTransfer.typeText).bytes ++
          (data.drop 4).take 192))).bytes)) ∧
      data.drop 228 = words.r.bytes ++ words.s.bytes := by
  obtain ⟨c, hcall, hr, hs⟩ : ∃ c, a.call = .ok c ∧ c.r = words.r ∧ c.s = words.s := by
    unfold call
    rw [a.hexWords_eq_ok.mpr h]
    exact ⟨_, rfl, rfl, rfl⟩
  obtain ⟨t, ht, rfl⟩ := (a.signingDigest_eq_ok d).mp hdigest
  -- The typed data and the call read the nonce each on its own; here they become one transfer.
  cases ht.symm.trans (a.typedTransfer_of_call hcall)
  refine ⟨c.data, ?_, ?_, ?_⟩
  · rw [callData, hcall]
    rfl
  · rw [c.take_data]
    rfl
  · rw [c.drop_data, hr, hs]

theorem sameTransfer_of_typedTransfer {b : TransferAuthorization} {t : TypedTransfer}
    (ha : a.typedTransfer = .ok t) (hb : b.typedTransfer = .ok t) : SameTransfer a b := by
  simp only [typedTransfer, Outcome.bind_eq_ok, Outcome.pure_eq_ok] at ha hb
  obtain ⟨nonce, hnonce, rfl⟩ := ha
  obtain ⟨nonce', hnonce', hsame⟩ := hb
  simp only [TypedTransfer.mk.injEq] at hsame
  obtain ⟨sender, receiver, value, validAfter, validBefore, rfl⟩ := hsame
  exact {
    sender := sender.symm
    receiver := receiver.symm
    value := value.symm
    validAfter := congrArg Timestamp.mk (Word256.ofWord64_injective validAfter.symm)
    validBefore := congrArg Timestamp.mk (Word256.ofWord64_injective validBefore.symm)
    nonce := ⟨nonce', hnonce, hnonce'⟩ }

variable (a)

/-- Verified is what is valid now and signed by its sender: the digest is made of the first six
words of the call, and the sender is recovered from its last two. Another transfer has the same
digest, or the same one in another token, only if Keccak-256 gives two byte strings one digest. -/
theorem verified_is_executed :
    (∀ now, a.check d now = .ok () ↔
      a.validAfter ≤ now ∧ now < a.validBefore ∧ a.v ∈ [0, 1, 27, 28] ∧
      ∃ words digest data, a.Denotes words ∧ a.signingDigest d = .ok digest ∧
        recover? digest words.r words.s (a.v % 27 = 1) = some a.sender ∧
        a.callData = .ok data ∧
        digest = .ofBytes (Digest.keccak256 ([0x19, 0x01] ++ d.digest.bytes ++
          (Word256.ofBytes (Digest.keccak256 ((textDigest TypedTransfer.typeText).bytes ++
            (data.drop 4).take 192))).bytes)) ∧
        data.drop 228 = words.r.bytes ++ words.s.bytes) ∧
    ∀ b e digest, a.signingDigest d = .ok digest → b.signingDigest e = .ok digest →
      (SameTransfer a b ∧ d = e) ∨
      ∃ t u, a.typedTransfer = .ok t ∧ b.typedTransfer = .ok u ∧
        Digest.Collide (t.hashed d) (u.hashed e) := by
  constructor
  · intro now
    rw [check_eq_ok]
    constructor
    · rintro ⟨hafter, hbefore, hv, words, digest, hwords, hdigest, hrecover⟩
      obtain ⟨data, hdata, hsigned, hsignature⟩ := callData_of_denotes d hwords hdigest
      exact ⟨hafter, hbefore, hv, words, digest, data, hwords, hdigest, hrecover, hdata, hsigned,
        hsignature⟩
    · rintro ⟨hafter, hbefore, hv, words, digest, -, hwords, hdigest, hrecover, -⟩
      exact ⟨hafter, hbefore, hv, words, digest, hwords, hdigest, hrecover⟩
  · intro b e digest ha hb
    obtain ⟨t, ht, hdigest⟩ := (a.signingDigest_eq_ok d).mp ha
    obtain ⟨u, hu, hdigest'⟩ := (b.signingDigest_eq_ok e).mp hb
    rcases TypedTransfer.eq_or_collide (hdigest.trans hdigest'.symm) with ⟨rfl, hdomain⟩ | hcollide
    · exact .inl ⟨sameTransfer_of_typedTransfer ht hu, hdomain⟩
    · exact .inr ⟨t, u, ht, hu, hcollide⟩

namespace Sample

def token : TokenDomain where
  name := "USD Coin"
  version := "2"
  chainId := 8453
  contract := ⟨0xcc⟩

def typed : TypedTransfer where
  sender := ⟨0xaa⟩
  receiver := ⟨0xbb⟩
  value := 1000000
  validAfter := 10
  validBefore := 20
  nonce := 0x102

end Sample

theorem verified_is_executed_respelled : ∃ digest,
    Sample.transfer.signingDigest Sample.token = .ok digest ∧
      Sample.respelled.signingDigest Sample.token = .ok digest ∧
      ((SameTransfer Sample.transfer Sample.respelled ∧ Sample.token = Sample.token) ∨
        ∃ t u, Sample.transfer.typedTransfer = .ok t ∧ Sample.respelled.typedTransfer = .ok u ∧
          Digest.Collide (t.hashed Sample.token) (u.hashed Sample.token)) := by
  have htransfer : Sample.transfer.typedTransfer = .ok Sample.typed := by decide +kernel
  have hrespelled : Sample.respelled.typedTransfer = .ok Sample.typed := by decide +kernel
  have hdigest := (Sample.transfer.signingDigest_eq_ok Sample.token).mpr ⟨_, htransfer, rfl⟩
  have hdigest' := (Sample.respelled.signingDigest_eq_ok Sample.token).mpr ⟨_, hrespelled, rfl⟩
  exact ⟨_, hdigest, hdigest',
    (verified_is_executed Sample.transfer Sample.token).2 _ _ _ hdigest hdigest'⟩

end TransferAuthorization

end PaymentTrust
