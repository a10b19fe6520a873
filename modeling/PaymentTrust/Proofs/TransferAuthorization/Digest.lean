import PaymentTrust.Proofs.Text.Utf8
import PaymentTrust.Proofs.TransferAuthorization.Encoding

/-! The digest that is signed tells the transfer and the token's contract, unless Keccak-256 gives
the same digest to two of the byte strings that are hashed for it. -/
namespace PaymentTrust

namespace Digest

theorem length_keccak256 (message : Bytes) : (keccak256 message).length = 32 := by
  have hlane (lane : UInt64) : (Bytes.ofNatLE 8 lane.toNat).length = 8 :=
    Bytes.length_ofNatLE 8 lane.toNat
  unfold keccak256
  rw [Bytes.length_flatMap_of_width hlane, List.length_take, Vector.length_toList]
  rfl

/-- A byte string of each list, which differ and have the same digest. -/
def Collide (hashed hashed' : List Bytes) : Prop :=
  ∃ message ∈ hashed, ∃ message' ∈ hashed',
    message ≠ message' ∧ keccak256 message = keccak256 message'

theorem eq_or_collide {hashed hashed' : List Bytes} {message message' : Bytes}
    (hmessage : message ∈ hashed) (hmessage' : message' ∈ hashed')
    (h : Word256.ofBytes (keccak256 message) = Word256.ofBytes (keccak256 message')) :
    message = message' ∨ Collide hashed hashed' := by
  by_cases heq : message = message'
  · exact .inl heq
  · have hdigest := Word256.ofBytes_injective (length_keccak256 message)
      (length_keccak256 message') h
    exact .inr ⟨message, hmessage, message', hmessage', heq, hdigest⟩

end Digest

theorem typedBytes_inj {typeText : String} {fields fields' : List AbiValue}
    (h : typedBytes typeText fields = typedBytes typeText fields') :
    fields.map AbiValue.word = fields'.map AbiValue.word :=
  AbiValue.encode_inj (List.append_cancel_left h)

theorem TokenDomain.fields_inj {d e : TokenDomain}
    (h : d.fields.map AbiValue.word = e.fields.map AbiValue.word) :
    textDigest d.name = textDigest e.name ∧ textDigest d.version = textDigest e.version ∧
      d.chainId = e.chainId ∧ d.contract = e.contract := by
  simp only [fields, AbiValue.word, List.map_cons, List.cons.injEq] at h
  obtain ⟨name, version, chainId, contract, -⟩ := h
  exact ⟨name, version, Word256.ofWord64_injective chainId, Address.toWord_injective contract⟩

namespace TypedTransfer

/-- Every byte string that is hashed on the way to the digest that is signed. -/
def hashed (t : TypedTransfer) (d : TokenDomain) : List Bytes :=
  [Utf8.encode TokenDomain.typeText.toList, Utf8.encode d.name.toList,
    Utf8.encode d.version.toList, typedBytes TokenDomain.typeText d.fields,
    Utf8.encode typeText.toList, typedBytes typeText t.fields, t.signedBytes d]

variable {t u : TypedTransfer} {d e : TokenDomain}

theorem fields_inj (h : t.fields.map AbiValue.word = u.fields.map AbiValue.word) : t = u := by
  cases t
  cases u
  simp only [fields, AbiValue.word, List.map_cons, List.cons.injEq] at h
  obtain ⟨sender, receiver, rfl, rfl, rfl, rfl, -⟩ := h
  rw [Address.toWord_injective sender, Address.toWord_injective receiver]

theorem signedBytes_inj (h : t.signedBytes d = u.signedBytes e) :
    d.digest = e.digest ∧ t.digest = u.digest := by
  unfold signedBytes at h
  obtain ⟨hdomain, htransfer⟩ := List.append_inj' h (by simp)
  exact ⟨Word256.bytes_injective (List.append_cancel_left hdomain),
    Word256.bytes_injective htransfer⟩

theorem transfer_eq_or_collide (h : t.digest = u.digest) :
    t = u ∨ Digest.Collide (t.hashed d) (u.hashed e) := by
  have hmem : typedBytes typeText t.fields ∈ t.hashed d := by simp [hashed]
  have hmem' : typedBytes typeText u.fields ∈ u.hashed e := by simp [hashed]
  apply (Digest.eq_or_collide hmem hmem' h).imp_left
  intro hbytes
  exact fields_inj (typedBytes_inj hbytes)

theorem text_eq_or_collide {s s' : String} (hs : Utf8.encode s.toList ∈ t.hashed d)
    (hs' : Utf8.encode s'.toList ∈ u.hashed e) (h : textDigest s = textDigest s') :
    s = s' ∨ Digest.Collide (t.hashed d) (u.hashed e) := by
  apply (Digest.eq_or_collide hs hs' h).imp_left
  intro hbytes
  exact String.toList_injective (Utf8.encode_injective hbytes)

theorem domain_eq_or_collide (h : d.digest = e.digest) :
    d = e ∨ Digest.Collide (t.hashed d) (u.hashed e) := by
  have hmem : typedBytes TokenDomain.typeText d.fields ∈ t.hashed d := by simp [hashed]
  have hmem' : typedBytes TokenDomain.typeText e.fields ∈ u.hashed e := by simp [hashed]
  rcases Digest.eq_or_collide hmem hmem' h with hbytes | hcollide
  · obtain ⟨hname, hversion, hchainId, hcontract⟩ := TokenDomain.fields_inj (typedBytes_inj hbytes)
    have name_eq : d.name = e.name ∨ Digest.Collide (t.hashed d) (u.hashed e) :=
      text_eq_or_collide (by simp [hashed]) (by simp [hashed]) hname
    have version_eq : d.version = e.version ∨ Digest.Collide (t.hashed d) (u.hashed e) :=
      text_eq_or_collide (by simp [hashed]) (by simp [hashed]) hversion
    rcases name_eq with name_eq | hcollide
    · apply version_eq.imp_left
      intro version_eq
      cases d
      cases e
      simp_all
    · exact .inr hcollide
  · exact .inr hcollide

/-- One digest is of one transfer in one domain, or two of the byte strings hashed for it collide. -/
theorem eq_or_collide (h : Word256.ofBytes (Digest.keccak256 (t.signedBytes d)) =
    Word256.ofBytes (Digest.keccak256 (u.signedBytes e))) :
    (t = u ∧ d = e) ∨ Digest.Collide (t.hashed d) (u.hashed e) := by
  have hmem : t.signedBytes d ∈ t.hashed d := by simp [hashed]
  have hmem' : u.signedBytes e ∈ u.hashed e := by simp [hashed]
  rcases Digest.eq_or_collide hmem hmem' h with hbytes | hcollide
  · obtain ⟨hdomain, htransfer⟩ := signedBytes_inj hbytes
    rcases transfer_eq_or_collide htransfer with heq | hcollide
    · exact (domain_eq_or_collide hdomain).imp_left fun hdomain => ⟨heq, hdomain⟩
    · exact .inr hcollide
  · exact .inr hcollide

end TypedTransfer

end PaymentTrust
