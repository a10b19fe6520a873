import PaymentTrust.Proofs.Bytes.Base64Canonical
import PaymentTrust.Proofs.Signature.EcdsaP256
import PaymentTrust.Proofs.Signature.RsaPss
import PaymentTrust.Proofs.Signature.Selection

/-! What a JSON Web Key says is what its verifier reads: the bytes of an Ed25519 key, the coordinates
of a P-256 key, and the modulus and exponent of an RSA key, which pass through their DER form. -/
namespace PaymentTrust.Jwk

variable {k : Jwk} {key : PublicKey} {member : Option String} {value : Bytes}

def Holds (member : Option String) (value : Bytes) : Prop :=
  ∃ text, member = some text ∧ Utf8.encode text.toList = Base64.urlSafeText value

/-- The public key that the members make up, one way for each type of keys. -/
inductive Carries (k : Jwk) : PublicKey → Prop
  | ed25519 {x : Bytes} (kty : k.kty = "OKP") (crv : k.crv = some "Ed25519") (hx : Holds k.x x)
      (length : x.length = 32) : Carries k ⟨.ed25519, x⟩
  | ecdsaP256 {x y : Bytes} (kty : k.kty = "EC") (crv : k.crv = some "P-256") (hx : Holds k.x x)
      (hy : Holds k.y y) (length : x.length = 32) (length' : y.length = 32) :
      Carries k ⟨.ecdsaP256, 0x04 :: x ++ y⟩
  | rsaPssSha256 {n e : Bytes} {numbers : RsaKey} (kty : k.kty = "RSA") (hn : Holds k.n n)
      (he : Holds k.e e) (valid : RsaKey.check (Bytes.toNat n) (Bytes.toNat e) = .ok numbers) :
      Carries k ⟨.rsaPssSha256, numbers.encode⟩

theorem bytes_eq_ok_iff (name : String) : bytes name member = .ok value ↔ Holds member value := by
  cases member with
  | none => exact ⟨nofun, nofun⟩
  | some text =>
    have read : Base64.urlSafe.decode (Utf8.encode text.toList) = .ok value ↔
        Holds (some text) value := by
      rw [Base64.Variant.decode_eq_ok_iff Base64.Variant.isSound_urlSafe, Base64.encode_urlSafe]
      simp [Holds]
    rw [← read, bytes]
    cases Base64.urlSafe.decode (Utf8.encode text.toList) <;> simp

theorem algorithm_eq_ok_iff {a : Algorithm} :
    k.algorithm = .ok a ↔ Algorithm.ofKeyType? k.kty k.crv = some a := by
  unfold algorithm
  cases Algorithm.ofKeyType? k.kty k.crv <;> simp

theorem publicKey_eq_ok_iff : k.publicKey = .ok key ↔ k.Carries key := by
  simp only [publicKey, Outcome.bind_eq_ok, algorithm_eq_ok_iff, Algorithm.ofKeyType?_eq_some_iff]
  constructor
  · rintro ⟨a, chosen, h⟩
    cases a with
    | ed25519 =>
      simp only [Outcome.bind_eq_ok, bytes_eq_ok_iff, Outcome.refuse_bind_eq_ok, Outcome.pure_eq_ok,
        not_not] at h
      obtain ⟨x, hx, length, rfl⟩ := h
      exact .ed25519 chosen.1 chosen.2 hx length
    | ecdsaP256 =>
      simp only [Outcome.bind_eq_ok, bytes_eq_ok_iff, Outcome.refuse_bind_eq_ok, Outcome.pure_eq_ok,
        not_or, not_not] at h
      obtain ⟨x, hx, y, hy, ⟨length, length'⟩, rfl⟩ := h
      exact .ecdsaP256 chosen.1 chosen.2 hx hy length length'
    | rsaPssSha256 =>
      simp only [Outcome.bind_eq_ok, bytes_eq_ok_iff] at h
      obtain ⟨n, hn, e, he, h⟩ := h
      split at h
      · rename_i numbers valid
        obtain rfl := (Outcome.pure_eq_ok _ _).mp h
        exact .rsaPssSha256 chosen hn he valid
      · cases h
  · intro carries
    cases carries with
    | ed25519 kty crv hx length =>
      refine ⟨.ed25519, ⟨kty, crv⟩, ?_⟩
      simp only [Outcome.bind_eq_ok, bytes_eq_ok_iff, Outcome.refuse_bind_eq_ok, Outcome.pure_eq_ok,
        not_not]
      exact ⟨_, hx, length, rfl⟩
    | ecdsaP256 kty crv hx hy length length' =>
      refine ⟨.ecdsaP256, ⟨kty, crv⟩, ?_⟩
      simp only [Outcome.bind_eq_ok, bytes_eq_ok_iff, Outcome.refuse_bind_eq_ok, Outcome.pure_eq_ok,
        not_or, not_not]
      exact ⟨_, hx, _, hy, ⟨length, length'⟩, rfl⟩
    | rsaPssSha256 kty hn he valid =>
      refine ⟨.rsaPssSha256, kty, ?_⟩
      simp only [Outcome.bind_eq_ok, bytes_eq_ok_iff]
      exact ⟨_, hn, _, he, by rw [valid]; rfl⟩

/-- Whatever zero bytes its members begin with, an RSA key is read back as their numbers. -/
theorem verifier_reads_members (h : k.publicKey = .ok key) :
    (k.kty = "OKP" ∧ ∃ x, Holds k.x x ∧ x.length = 32 ∧ key = ⟨.ed25519, x⟩) ∨
    (k.kty = "EC" ∧ ∃ x y, Holds k.x x ∧ Holds k.y y ∧ x.length = 32 ∧ y.length = 32 ∧
      key = ⟨.ecdsaP256, 0x04 :: x ++ y⟩ ∧
      ∀ point, EcdsaP256.decodePoint? key.bytes = some point →
        point = .affine (Bytes.toNat x) (Bytes.toNat y)) ∨
    (k.kty = "RSA" ∧ ∃ n e, Holds k.n n ∧ Holds k.e e ∧ key.algorithm = .rsaPssSha256 ∧
      RsaPss.decodeKey 0 key.bytes = .ok ⟨Bytes.toNat n, Bytes.toNat e⟩) := by
  cases publicKey_eq_ok_iff.mp h with
  | ed25519 kty crv hx length => exact .inl ⟨kty, _, hx, length, rfl⟩
  | ecdsaP256 kty crv hx hy length length' =>
    refine .inr (.inl ⟨kty, _, _, hx, hy, length, length', rfl, fun point read => ?_⟩)
    rw [EcdsaP256.decodePoint?_uncompressed length length', Option.ite_none_right_eq_some] at read
    exact (Option.some.inj read.2).symm
  | rsaPssSha256 kty hn he valid =>
    refine .inr (.inr ⟨kty, _, _, hn, he, rfl, ?_⟩)
    obtain ⟨rfl, -⟩ := RsaKey.eq_of_check valid
    exact (RsaPss.decodeKey_of_isForm (.inl rfl)).mpr ⟨valid, Nat.zero_le _⟩

theorem verifier_reads_padded_members :
    let k : Jwk := ⟨"RSA", none, none, none, some "ACM", some "AAM", none, none⟩
    let key : PublicKey := ⟨.rsaPssSha256, RsaKey.encode ⟨35, 3⟩⟩
    Holds k.n [0, 35] ∧ Holds k.e [0, 3] ∧ k.publicKey = .ok key ∧
      RsaPss.decodeKey 0 key.bytes = .ok ⟨35, 3⟩ := by
  intro k key
  have hn : bytes "n" k.n = .ok [0, 35] := by decide +kernel
  have he : bytes "e" k.e = .ok [0, 3] := by decide +kernel
  have hkey : k.publicKey = .ok key := by decide +kernel
  refine ⟨(bytes_eq_ok_iff "n").mp hn, (bytes_eq_ok_iff "e").mp he, hkey, ?_⟩
  rcases verifier_reads_members hkey with ⟨kty, -⟩ | ⟨kty, -⟩ | ⟨-, n, e, hn', he', -, read⟩
  · exact absurd kty (by decide)
  · exact absurd kty (by decide)
  · obtain rfl := Except.ok.inj (((bytes_eq_ok_iff "n").mpr hn').symm.trans hn)
    obtain rfl := Except.ok.inj (((bytes_eq_ok_iff "e").mpr he').symm.trans he)
    exact read

end PaymentTrust.Jwk
