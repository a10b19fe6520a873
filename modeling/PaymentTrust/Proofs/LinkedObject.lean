import PaymentTrust.LinkedObject
import PaymentTrust.Proofs.Json.Reordering
import PaymentTrust.Proofs.Signature.Selection

/-! Which linked objects are accepted, and what their signatures bind. The text that a signature covers
tells every member of the object but the signature, up to the order of members further inside. -/
namespace PaymentTrust

namespace JwkSet

variable (keys : JwkSet) (verifiers : VerifierRegistry)

structure Accepts (s : LinkedSignature) (key : PublicKey) (bytes : Bytes) (verifier : Verifier) :
    Prop where
  selected : keys.Selects s.keyId key
  algorithm : String.ofList (Text.lowerAscii s.algorithm.toList) ∈ key.algorithm.names
  decoded : Base64.decodeEither (Utf8.encode s.signature.toList) = .ok bytes
  registered : verifiers.get? key.algorithm = some verifier
  verified : verifier.verify (Utf8.encode s.message.toList) bytes key.bytes = .ok ()

theorem verifier_eq_ok_true (s : LinkedSignature) : keys.verifier verifiers s = .ok true ↔
    ∃ key bytes verifier, keys.Accepts verifiers s key bytes verifier := by
  constructor
  · intro accepted
    unfold verifier at accepted
    cases found : keys.find? s.keyId with
    | none => simp [found] at accepted
    | some jwk =>
      cases declared : Algorithm.ofName? s.algorithm with
      | none => simp [found, declared, Outcome.bind_eq_ok] at accepted
      | some algorithm =>
        simp only [found, declared, Outcome.bind_eq_ok, Outcome.refuse_bind_eq_ok,
          Outcome.mapError_eq_ok, not_not] at accepted
        obtain ⟨key, holds, rfl, bytes, decoded, outcome⟩ := accepted
        have verified : verifiers.verify key (Utf8.encode s.message.toList) bytes = .ok () := by
          split at outcome
          · assumption
          · cases outcome
          · cases outcome
        obtain ⟨verifier, registered, verified⟩ := (verifiers.verify_eq_ok key _ bytes).mp verified
        exact ⟨key, bytes, verifier, selects_iff.mpr ⟨jwk, found, holds⟩,
          Algorithm.ofName?_eq_some.mp declared, decoded, registered, verified⟩
  · rintro ⟨key, bytes, verifier, accepts⟩
    obtain ⟨jwk, found, holds⟩ := selects_iff.mp accepts.selected
    have declared := Algorithm.ofName?_eq_some.mpr accepts.algorithm
    have verified := (verifiers.verify_eq_ok key _ bytes).mpr
      ⟨verifier, accepts.registered, accepts.verified⟩
    unfold JwkSet.verifier
    simp only [found, declared, Outcome.bind_eq_ok, Outcome.refuse_bind_eq_ok,
      Outcome.mapError_eq_ok, not_not]
    refine ⟨key, holds, rfl, bytes, accepts.decoded, ?_⟩
    rw [verified]
    rfl

end JwkSet

namespace LinkedKind

variable (kind : LinkedKind)

/-- The text that the signature of an object with these members covers. -/
def signedText (members : List (String × Json)) : String :=
  ((Json.object members).without "signature").canonical

structure Presents (members : List (String × Json)) (nonce : String) (s : LinkedSignature) :
    Prop where
  required : ∀ field ∈ kind.requiredFields,
    ∃ text, members.lookup field = some (.string text) ∧ text ≠ ""
  nonce : members.lookup "nonce" = some (.string nonce)
  keyId : members.lookup "kid" = some (.string s.keyId)
  algorithm : members.lookup "alg" = some (.string s.algorithm)
  named : String.ofList (Text.lowerAscii s.algorithm.toList) ∉ ["none", "null"]
  signature : members.lookup "signature" = some (.string s.signature)
  message : s.message = signedText members

theorem mem_requiredFields {field : String} (h : field ∈ ["nonce", "kid", "alg", "signature"]) :
    field ∈ kind.requiredFields := by
  have common : ∀ field ∈ ["nonce", "kid", "alg", "signature"], field ∈ kind.requiredFields := by
    cases kind <;> decide
  exact common field h

theorem text_eq_ok {members : List (String × Json)} {field s : String} :
    kind.text members field = .ok s ↔ members.lookup field = some (.string s) ∧ s ≠ "" := by
  unfold text
  cases members.lookup field with
  | none => simp
  | some v =>
    cases v with
    | string text =>
      simp only [Option.some.injEq, Json.string.injEq]
      split_ifs with empty
      · refine ⟨nofun, ?_⟩
        rintro ⟨rfl, present⟩
        exact absurd empty present
      · rw [Except.ok.injEq]
        exact ⟨fun same => ⟨same, same ▸ empty⟩, And.left⟩
    | _ => simp

theorem signatureOf_eq_ok {object : Json} {nonce : String} {s : LinkedSignature} :
    kind.signatureOf object nonce = .ok s ↔
      ∃ members, object = .object members ∧ kind.Presents members nonce s := by
  unfold signatureOf
  cases object with
  | object members =>
    rw [Outcome.check_bind_eq_ok, List.forM_eq_forM, Outcome.forM_eq_ok_iff]
    simp only [Outcome.bind_eq_ok, Outcome.refuse_bind_eq_ok, Outcome.pure_eq_ok, text_eq_ok,
      Outcome.discard_eq_ok, not_not]
    constructor
    · rintro ⟨required, _, ⟨hnonce, _⟩, rfl, algorithm, ⟨halgorithm, _⟩, named, keyId, ⟨hkeyId, _⟩,
        signature, ⟨hsignature, _⟩, rfl⟩
      exact ⟨members, rfl, required, hnonce, hkeyId, halgorithm,
        mt List.contains_iff_mem.mpr named, hsignature, rfl⟩
    · rintro ⟨_, ⟨⟩, presents⟩
      have held {field text : String} (h : field ∈ ["nonce", "kid", "alg", "signature"])
          (found : members.lookup field = some (.string text)) :
          members.lookup field = some (.string text) ∧ text ≠ "" := by
        obtain ⟨other, found', present⟩ := presents.required field (kind.mem_requiredFields h)
        obtain rfl : text = other := by simpa using found.symm.trans found'
        exact ⟨found, present⟩
      refine ⟨presents.required, nonce, held (by decide) presents.nonce, rfl, s.algorithm,
        held (by decide) presents.algorithm, mt List.contains_iff_mem.mp presents.named, s.keyId,
        held (by decide) presents.keyId, s.signature, held (by decide) presents.signature, ?_⟩
      exact congrArg (LinkedSignature.mk s.keyId s.algorithm · s.signature) presents.message.symm
  | _ => simp

theorem validate_isAccepted_iff {object : Json} {nonce : String} {verify : LinkedVerifier} :
    (kind.validate object nonce (some verify)).isAccepted = true ↔
      ∃ s, kind.signatureOf object nonce = .ok s ∧ verify s = .ok true := by
  unfold validate
  simp only [Verdict.isAccepted_ofExcept_iff, Outcome.bind_eq_ok]
  refine exists_congr fun s => and_congr_right fun _ => ?_
  generalize verify s = outcome
  rcases outcome with e | _ | _ <;> simp

/-- A linked object is accepted with a set of keys if and only if it holds what it must, repeats the
nonce, and the first key under its identifier, of the algorithm that it names, verifies its signature
over its canonical text without that signature. Objects that have that text in common agree in every
other member, up to the order of members further inside. -/
theorem acceptance_binds (nonce : String) (keys : JwkSet) (verifiers : VerifierRegistry) :
    (∀ object, (kind.validate object nonce (some (keys.verifier verifiers))).isAccepted = true ↔
      ∃ members s key bytes verifier, object = .object members ∧ kind.Presents members nonce s ∧
        keys.Accepts verifiers s key bytes verifier) ∧
    ∀ members members', (Json.object members).IsIntegral → (Json.object members').IsIntegral →
      (Json.object members).IsUnambiguous → (Json.object members').IsUnambiguous →
      (Utf8.encode (signedText members).toList = Utf8.encode (signedText members').toList ↔
        ∀ field ≠ "signature",
          Option.Rel Json.Reordered (members.lookup field) (members'.lookup field)) := by
  constructor
  · intro object
    simp only [validate_isAccepted_iff, signatureOf_eq_ok, JwkSet.verifier_eq_ok_true]
    constructor
    · rintro ⟨s, ⟨members, hobject, presents⟩, key, bytes, verifier, accepts⟩
      exact ⟨members, s, key, bytes, verifier, hobject, presents, accepts⟩
    · rintro ⟨members, s, key, bytes, verifier, hobject, presents, accepts⟩
      exact ⟨s, ⟨members, hobject, presents⟩, key, bytes, verifier, accepts⟩
  · intro members members' integral integral' unambiguous unambiguous'
    rw [← Json.canonical_without_eq_iff "signature" integral integral' unambiguous unambiguous']
    exact ⟨fun same => String.toList_inj.mp (Utf8.encode_injective same),
      fun same => congrArg (fun text => Utf8.encode text.toList) same⟩

end LinkedKind

namespace Sample

/-- For this verifier a signature is the length of the message and the first byte of the key. -/
def tally : Verifier where
  algorithm := .ed25519
  verify := fun message signature key =>
    if signature = UInt8.ofNat message.length :: key.take 1 then .ok () else .error .mismatch

def published : JwkSet where
  keys := ["k-0", "k-1"].map fun kid =>
    { kty := "OKP", crv := some "Ed25519", x := some "BwcHBwcHBwcHBwcHBwcHBwcHBwcHBwcHBwcHBwcHBwc"
      y := none, n := none, e := none, kid := some kid, alg := none }

def containerOf (signature : String) (amount : List (String × Json)) : List (String × Json) :=
  [("signature", .string signature), ("nonce", .string "n-1"), ("kid", .string "k-1"),
    ("alg", .string "EdDSA"), ("amount", .object amount)]

def container : List (String × Json) :=
  containerOf "Ugc=" [("minor", .nat 3240), ("currency", .string "USD")]

def sameContainer : List (String × Json) :=
  (containerOf "AAAA" [("currency", .string "USD"), ("minor", .nat 3240)]).reverse

def otherContainer : List (String × Json) :=
  containerOf "Ugc=" [("minor", .nat 9240), ("currency", .string "USD")]

end Sample

theorem LinkedKind.acceptance_binds_sample :
    (container.validate (.object Sample.container) "n-1"
      (some (Sample.published.verifier (.register .empty Sample.tally)))).isAccepted = true ∧
    (∃ s key bytes verifier, container.Presents Sample.container "n-1" s ∧
      Sample.published.Accepts (.register .empty Sample.tally) s key bytes verifier) ∧
    (∀ members ∈ [Sample.container, Sample.sameContainer, Sample.otherContainer],
      (Json.object members).IsIntegral ∧ (Json.object members).IsUnambiguous) ∧
    Option.Rel Json.Reordered (Sample.container.lookup "amount")
      (Sample.sameContainer.lookup "amount") ∧
    ¬∀ field ≠ "signature", Option.Rel Json.Reordered (Sample.container.lookup field)
      (Sample.otherContainer.lookup field) := by
  obtain ⟨decides, binds⟩ := acceptance_binds container "n-1" Sample.published
    (.register .empty Sample.tally)
  have accepted : (container.validate (.object Sample.container) "n-1"
      (some (Sample.published.verifier (.register .empty Sample.tally)))).isAccepted = true := by
    decide +kernel
  have wellFormed : ∀ members ∈ [Sample.container, Sample.sameContainer, Sample.otherContainer],
      (Json.object members).IsIntegral ∧ (Json.object members).IsUnambiguous := by
    simp [Sample.container, Sample.sameContainer, Sample.otherContainer, Sample.containerOf, Json.nat,
      Json.IsIntegral, Json.MembersAreIntegral, Json.IsUnambiguous, Json.MembersAreUnambiguous,
      Json.HaveDistinctKeys]
  obtain ⟨_, s, key, bytes, verifier, hobject, presents, accepts⟩ := (decides _).mp accepted
  obtain rfl := Json.object.inj hobject
  have first := wellFormed Sample.container (by simp)
  have same := wellFormed Sample.sameContainer (by simp)
  have other := wellFormed Sample.otherContainer (by simp)
  refine ⟨accepted, ⟨s, key, bytes, verifier, presents, accepts⟩, wellFormed, ?_, ?_⟩
  · exact (binds _ _ first.1 same.1 first.2 same.2).mp (by decide +kernel) "amount" (by decide)
  · exact mt (binds _ _ first.1 other.1 first.2 other.2).mpr (by decide +kernel)

end PaymentTrust
