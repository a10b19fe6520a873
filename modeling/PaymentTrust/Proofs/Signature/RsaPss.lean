import PaymentTrust.Proofs.Signature.RsaKey
import PaymentTrust.Signature.RsaPss

/-! The bound on the size of RSA keys. A modulus is measured in whole bytes, so that one of fewer bits
than the bound can reach it when its size is rounded up. -/
namespace PaymentTrust.RsaPss

variable {minBits n e : Nat} {key : Bytes} {k : RsaKey}

/-- The key is at fault whatever the message and the signature are. -/
def Refuses (minBits : Nat) (key : Bytes) : Prop :=
  ∀ message signature, ∃ detail,
    (rsaPssVerifier minBits).verify message signature key = .error (.malformedKey detail)

def wholeBits (n : Nat) : Nat := (RsaKey.bitLength n + 7) / 8 * 8

/-- The numbers are a key that only reaches the bound by the bits that fill its last byte. -/
def Slips (minBits n e : Nat) : Prop :=
  (∃ k, RsaKey.check n e = .ok k) ∧ RsaKey.bitLength n < minBits ∧ minBits ≤ wholeBits n

theorem decodeKey_eq_ok_iff : decodeKey minBits key = .ok k ↔
    RsaKey.decode? key = some k ∧ minBits ≤ wholeBits k.modulus := by
  unfold decodeKey
  cases RsaKey.decode? key with
  | none => exact ⟨nofun, nofun⟩
  | some k' =>
    dsimp only [RsaKey.size, wholeBits]
    split
    · rename_i small
      refine ⟨nofun, fun ⟨h, large⟩ => ?_⟩
      obtain rfl := Option.some.inj h
      exact absurd small (Nat.not_lt.mpr large)
    · rename_i large
      constructor
      · rintro ⟨⟩
        exact ⟨rfl, Nat.not_lt.mp large⟩
      · rintro ⟨⟨⟩, -⟩
        rfl

theorem decodeKey_of_isForm (form : RsaKey.IsForm key n e) : decodeKey minBits key = .ok k ↔
    RsaKey.check n e = .ok k ∧ minBits ≤ wholeBits n := by
  rw [decodeKey_eq_ok_iff, RsaKey.decode?_of_isForm form, Outcome.toOption_eq_some]
  refine and_congr_right fun valid => ?_
  rw [(RsaKey.eq_of_check valid).1]

theorem malformedKey_of_decodeKey {error : SignatureError} (h : decodeKey minBits key = .error error) :
    ∃ detail, error = .malformedKey detail := by
  unfold decodeKey at h
  split at h
  · exact ⟨_, (Except.error.inj h).symm⟩
  · dsimp only at h
    split at h
    · exact ⟨_, (Except.error.inj h).symm⟩
    · cases h

theorem verify_of_decodeKey (h : decodeKey minBits key = .ok k) (message signature : Bytes) :
    (rsaPssVerifier minBits).verify message signature key =
      if holds k message signature then .ok () else .error .mismatch := by
  simp only [rsaPssVerifier, verify, h]
  rfl

theorem refuses_iff : Refuses minBits key ↔ ∀ k, decodeKey minBits key ≠ .ok k := by
  constructor
  · intro refused k h
    obtain ⟨detail, hdetail⟩ := refused [] []
    rw [verify_of_decodeKey h] at hdetail
    split at hdetail <;> cases hdetail
  · intro bad message signature
    cases h : decodeKey minBits key with
    | ok k => exact absurd h (bad k)
    | error error =>
      obtain ⟨detail, rfl⟩ := malformedKey_of_decodeKey h
      refine ⟨detail, ?_⟩
      simp only [rsaPssVerifier, verify, h]
      rfl

theorem refuses_of_isForm (form : RsaKey.IsForm key n e) : Refuses minBits key ↔
    ¬((∃ k, RsaKey.check n e = .ok k) ∧ minBits ≤ wholeBits n) := by
  simp only [refuses_iff, ne_eq, decodeKey_of_isForm form, not_and, forall_exists_index]

theorem bitLength_power_add_one {width : Nat} (positive : 0 < width) :
    RsaKey.bitLength (2 ^ width + 1) = width + 1 := by
  have hpower : 1 < 2 ^ width := Nat.one_lt_two_pow (Nat.ne_of_gt positive)
  apply Nat.le_antisymm
  · rw [RsaKey.bitLength_le_iff, Nat.pow_succ]
    omega
  · rw [Nat.succ_le_iff, ← Nat.not_le, RsaKey.bitLength_le_iff]
    omega

theorem check_power_add_one {width : Nat} (hwidth : 2 ≤ width) (limit : width < 4096) :
    RsaKey.check (2 ^ width + 1) 3 = .ok ⟨2 ^ width + 1, 3⟩ := by
  obtain ⟨high, rfl⟩ := Nat.exists_eq_add_of_le hwidth
  have hsize := bitLength_power_add_one (show 0 < 2 + high by omega)
  have hpower : 2 ^ (2 + high) = 4 * 2 ^ high := Nat.pow_add 2 2 high
  have positive : 0 < 2 ^ high := Nat.two_pow_pos high
  rw [RsaKey.check, hsize, hpower, if_neg (by rw [RsaKey.maxModulusBits]; omega), if_neg (by decide),
    if_neg (by omega), if_neg (by decide), if_neg (by decide), if_neg (by decide)]

theorem bitLength_of_check (h : RsaKey.check n e = .ok k) :
    3 ≤ RsaKey.bitLength n ∧ RsaKey.bitLength n ≤ 4096 := by
  unfold RsaKey.check at h
  split_ifs at h with width _ modulus odd small _
  refine ⟨?_, Nat.not_lt.mp width⟩
  by_contra short
  have hn := RsaKey.bitLength_le_iff.mp (Nat.le_of_lt_succ (Nat.not_le.mp short))
  omega

/-- No short key slips through a bound that no key is below or that no key reaches, nor through one
that is a bit above whole bytes. Through any other bound one does. -/
theorem no_slips_iff : (∀ n e, ¬Slips minBits n e) ↔
    minBits ≤ 3 ∨ minBits % 8 = 1 ∨ 4096 < minBits := by
  unfold Slips wholeBits
  constructor
  · intro none
    by_contra between
    have hwidth : 2 ≤ minBits - 2 := by omega
    have valid := check_power_add_one hwidth (by omega)
    have hsize := bitLength_power_add_one (show 0 < minBits - 2 by omega)
    exact none _ 3 ⟨⟨_, valid⟩, by omega, by omega⟩
  · rintro outside n e ⟨⟨k, valid⟩, short, reached⟩
    have hsize := bitLength_of_check valid
    omega

/-- Short moduli are refused but for those that the rounding lets through, and the rounding matters to
all bounds but those that stand one bit above whole bytes or beyond the sizes of all keys. -/
theorem refuses_short_iff (minBits : Nat) :
    (∀ key n e, RsaKey.IsForm key n e →
      ((RsaKey.bitLength n < minBits → Refuses minBits key) ↔ ¬Slips minBits n e)) ∧
    ((∀ key n e, RsaKey.IsForm key n e → RsaKey.bitLength n < minBits → Refuses minBits key) ↔
      minBits ≤ 3 ∨ minBits % 8 = 1 ∨ 4096 < minBits) := by
  have short_iff (key : Bytes) (n e : Nat) (form : RsaKey.IsForm key n e) :
      (RsaKey.bitLength n < minBits → Refuses minBits key) ↔ ¬Slips minBits n e := by
    rw [refuses_of_isForm form, Slips]
    tauto
  refine ⟨short_iff, ?_⟩
  rw [← no_slips_iff]
  constructor
  · intro h n e
    exact (short_iff _ n e (.inl rfl)).mp (h _ n e (.inl rfl))
  · intro h key n e form
    exact (short_iff key n e form).mpr (h n e)

theorem refuses_small_modulus :
    let key := RsaKey.publicKeyInfo (RsaKey.encode ⟨35, 3⟩)
    RsaKey.IsForm key 35 3 ∧ RsaKey.bitLength 35 < 2048 ∧ Refuses 2048 key := by
  intro key
  have form : RsaKey.IsForm key 35 3 := .inr rfl
  have short : RsaKey.bitLength 35 < 2048 := by decide +kernel
  have small : ¬2048 ≤ wholeBits 35 := by decide +kernel
  exact ⟨form, short, ((refuses_short_iff 2048).1 key 35 3 form).mpr (fun slip => small slip.2.2) short⟩

/-- A modulus of 2047 bits passes a bound of 2048 bits. -/
theorem refuses_short_fails :
    let key := RsaKey.encode ⟨2 ^ 2046 + 1, 3⟩
    RsaKey.IsForm key (2 ^ 2046 + 1) 3 ∧ RsaKey.bitLength (2 ^ 2046 + 1) = 2047 ∧
      (rsaPssVerifier 2048).verify [] [] key = .error .mismatch := by
  intro key
  have form : RsaKey.IsForm key (2 ^ 2046 + 1) 3 := .inl rfl
  have hsize : RsaKey.bitLength (2 ^ 2046 + 1) = 2047 := bitLength_power_add_one (by decide)
  have valid := check_power_add_one (show 2 ≤ 2046 by decide) (by decide)
  have reached : 2048 ≤ wholeBits (2 ^ 2046 + 1) :=
    Nat.le_of_eq (congrArg (fun bits => (bits + 7) / 8 * 8) hsize.symm)
  have hkey := (decodeKey_of_isForm form).mpr ⟨valid, reached⟩
  refine ⟨form, hsize, ?_⟩
  rw [verify_of_decodeKey hkey, holds, RsaKey.size, hsize]
  rfl

end PaymentTrust.RsaPss
