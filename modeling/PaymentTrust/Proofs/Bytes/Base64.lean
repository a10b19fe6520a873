import Mathlib.Tactic.IntervalCases
import PaymentTrust.Bytes.Base64

/-! Bytes are read back from their base64 text, in either variant. -/
namespace PaymentTrust.Base64.Variant

/-- Each symbol is read as the number it is written for, and none is the padding symbol. -/
def IsSound (v : Variant) : Prop :=
  ∀ n < 64, v.value? (v.symbol n) = some n ∧ v.symbol n ≠ pad

theorem isSound_standard : standard.IsSound := by
  unfold IsSound
  decide +kernel

theorem isSound_urlSafe : urlSafe.IsSound := by
  unfold IsSound
  decide +kernel

def padding (v : Variant) (count : Nat) : Bytes :=
  if v.padded then List.replicate count pad else []

variable {v : Variant} (sound : v.IsSound)

include sound

theorem values_symbols {values : List Nat} (small : ∀ n ∈ values, n < 64) (offset : Nat) :
    v.values offset (values.map v.symbol) = .ok values := by
  induction values generalizing offset with
  | nil => rfl
  | cons n values ih =>
    obtain ⟨hfirst, hrest⟩ := List.forall_mem_cons.mp small
    rw [List.map_cons, Variant.values, (sound n hfirst).1, ih hrest]
    rfl

theorem takeWhile_symbols {values : List Nat} (small : ∀ n ∈ values, n < 64) (count : Nat) :
    (values.map v.symbol ++ v.padding count).takeWhile (· ≠ pad) = values.map v.symbol := by
  have hsymbols : ∀ b ∈ values.map v.symbol, decide (b ≠ pad) = true := by
    rw [List.forall_mem_map]
    exact fun n mem => decide_eq_true (sound n (small n mem)).2
  rw [List.takeWhile_append_of_pos hsymbols]
  unfold padding
  cases v.padded <;> cases count <;> simp [List.replicate_succ]

omit sound in
theorem decodeGroups_of_short {group : Bytes} (short : group.length ≤ 4) (offset : Nat) :
    v.decodeGroups offset group = v.decodeLast offset group := by
  unfold decodeGroups
  split
  · simp only [List.length_cons] at short
    omega
  · rfl

theorem decodeGroups_symbols {values : List Nat} {count : Nat} (small : ∀ n ∈ values, n < 64)
    (long : 2 ≤ values.length) (full : values.length + count = 4) (offset : Nat) :
    v.decodeGroups offset (values.map v.symbol ++ v.padding count) =
      joinLast ((values.map v.symbol).getLastD 0) offset values := by
  have hlong : ¬values.length < 2 := Nat.not_lt.mpr long
  have hshort : (values.map v.symbol ++ v.padding count).length ≤ 4 := by
    unfold padding
    cases v.padded <;> simp <;> omega
  rw [decodeGroups_of_short hshort]
  unfold decodeLast
  simp only [takeWhile_symbols sound small, values_symbols sound small, List.length_append,
    List.length_map]
  unfold padding
  cases v.padded <;> simp [hlong, full, bind, Except.bind]

omit sound in
theorem encode_ne_nil {bytes : Bytes} (nonempty : bytes ≠ []) : v.encode bytes ≠ [] := by
  unfold encode
  split
  · exact absurd rfl nonempty
  · nofun
  · nofun
  · nofun

theorem decodeGroups_encode (bytes : Bytes) (nonempty : bytes ≠ []) (offset : Nat) :
    v.decodeGroups offset (v.encode bytes) = .ok bytes := by
  induction bytes using Variant.encode.induct generalizing offset with
  | case1 => exact absurd rfl nonempty
  | case2 x =>
    have hx : x.toNat < 256 := x.toNat_lt
    have htext : v.encode [x] = [x.toNat / 4, x.toNat % 4 * 16].map v.symbol ++ v.padding 2 := rfl
    have small : ∀ n ∈ [x.toNat / 4, x.toNat % 4 * 16], n < 64 := by simp; omega
    have hspare : x.toNat % 4 * 16 % 16 = 0 := by omega
    have hjoin : x.toNat / 4 * 4 + x.toNat % 4 * 16 / 16 = x.toNat := by omega
    rw [htext, decodeGroups_symbols sound small (by simp) rfl, joinLast, hspare, hjoin,
      UInt8.ofNat_toNat]
    rfl
  | case3 x y =>
    have hx : x.toNat < 256 := x.toNat_lt
    have hy : y.toNat < 256 := y.toNat_lt
    obtain ⟨n, hn⟩ : ∃ n, n = x.toNat * 256 + y.toNat := ⟨_, rfl⟩
    have htext : v.encode [x, y] =
        [n / 1024, n / 16 % 64, n % 16 * 4].map v.symbol ++ v.padding 1 := hn ▸ rfl
    have small : ∀ m ∈ [n / 1024, n / 16 % 64, n % 16 * 4], m < 64 := by simp; omega
    have hspare : n % 16 * 4 % 4 = 0 := by omega
    have hfirst : n / 1024 * 4 + n / 16 % 64 / 16 = x.toNat := by omega
    have hsecond : n / 16 % 64 % 16 * 16 + n % 16 * 4 / 4 = y.toNat := by omega
    rw [htext, decodeGroups_symbols sound small (by simp) rfl, joinLast, hspare, hfirst, hsecond,
      UInt8.ofNat_toNat, UInt8.ofNat_toNat]
    rfl
  | case4 x y z rest ih =>
    have hx : x.toNat < 256 := x.toNat_lt
    have hy : y.toNat < 256 := y.toNat_lt
    have hz : z.toNat < 256 := z.toNat_lt
    obtain ⟨n, hn⟩ : ∃ n, n = (x.toNat * 256 + y.toNat) * 256 + z.toNat := ⟨_, rfl⟩
    have htext : v.encode (x :: y :: z :: rest) =
        [n / 262144, n / 4096 % 64, n / 64 % 64, n % 64].map v.symbol ++ v.encode rest := hn ▸ rfl
    have small : ∀ m ∈ [n / 262144, n / 4096 % 64, n / 64 % 64, n % 64], m < 64 := by simp; omega
    have hfirst : n / 262144 * 4 + n / 4096 % 64 / 16 = x.toNat := by omega
    have hsecond : n / 4096 % 64 % 16 * 16 + n / 64 % 64 / 4 = y.toNat := by omega
    have hthird : n / 64 % 64 % 4 * 64 + n % 64 = z.toNat := by omega
    -- A full group with nothing after it is still read as the last one.
    by_cases hrest : rest = []
    · have hpadding : v.encode rest = v.padding 0 := by
        rw [hrest, padding]
        cases v.padded <;> rfl
      rw [htext, hpadding, decodeGroups_symbols sound small (by simp) rfl, joinLast, hfirst,
        hsecond, hthird, UInt8.ofNat_toNat, UInt8.ofNat_toNat, UInt8.ofNat_toNat, hrest]
    · obtain ⟨e, more, hmore⟩ := List.exists_cons_of_ne_nil (encode_ne_nil (v := v) hrest)
      have hvalues := values_symbols sound small offset
      have hgroups := ih hrest (offset + 4)
      simp only [List.map_cons, List.map_nil] at hvalues htext
      rw [hmore] at hgroups
      rw [htext, hmore, List.cons_append, List.cons_append, List.cons_append, List.cons_append,
        List.nil_append, decodeGroups, hvalues]
      simp only [bind, Except.bind, hgroups, hfirst, hsecond, hthird, UInt8.ofNat_toNat]
      rfl

omit sound in
theorem length_encode_mod (bytes : Bytes) : (v.encode bytes).length % 4 ≠ 1 := by
  induction bytes using Variant.encode.induct with
  | case1 => simp [encode]
  | case2 x => cases h : v.padded <;> simp [encode, h]
  | case3 x y => cases h : v.padded <;> simp [encode, h]
  | case4 x y z rest ih =>
    simp only [encode, List.length_cons]
    omega

theorem decode_encode (bytes : Bytes) : v.decode (v.encode bytes) = .ok bytes := by
  by_cases hbytes : bytes = []
  · subst hbytes
    rfl
  · have hstray : v.strayLast? (v.encode bytes) = none := by
      unfold strayLast?
      cases (v.encode bytes).getLast? with
      | none => rfl
      | some last => simp [length_encode_mod]
    rw [decode, if_neg (encode_ne_nil hbytes), hstray]
    exact decodeGroups_encode sound bytes hbytes 0

omit sound in
theorem forall_mem_encode {P : UInt8 → Prop} (hpad : v.padded = true → P pad)
    (hsymbol : ∀ n < 64, P (v.symbol n)) (bytes : Bytes) : ∀ b ∈ v.encode bytes, P b := by
  induction bytes using Variant.encode.induct with
  | case1 => nofun
  | case2 x =>
    have hx : x.toNat < 256 := x.toNat_lt
    have h₁ := hsymbol (x.toNat / 4) (by omega)
    have h₂ := hsymbol (x.toNat % 4 * 16) (by omega)
    cases h : v.padded <;> simp_all [encode]
  | case3 x y =>
    have hx : x.toNat < 256 := x.toNat_lt
    have hy : y.toNat < 256 := y.toNat_lt
    have h₁ := hsymbol ((x.toNat * 256 + y.toNat) / 1024) (by omega)
    have h₂ := hsymbol ((x.toNat * 256 + y.toNat) / 16 % 64) (by omega)
    have h₃ := hsymbol ((x.toNat * 256 + y.toNat) % 16 * 4) (by omega)
    cases h : v.padded <;> simp_all [encode]
  | case4 x y z rest ih =>
    have hx : x.toNat < 256 := x.toNat_lt
    have hy : y.toNat < 256 := y.toNat_lt
    have hz : z.toNat < 256 := z.toNat_lt
    simp only [encode, List.forall_mem_cons]
    exact ⟨hsymbol _ (by omega), hsymbol _ (by omega), hsymbol _ (by omega), hsymbol _ (by omega),
      ih⟩

end PaymentTrust.Base64.Variant
