import Mathlib.Data.List.Basic
import PaymentTrust.Proofs.Bytes.Base64
import PaymentTrust.Proofs.Text.Split
import PaymentTrust.Proofs.Verdict

/-! Nothing is read as base64 but the text that is written for the bytes: padding is complete or
absent, and the bits of the last symbol that fill no byte are zero. -/
namespace PaymentTrust.Base64

namespace Variant

variable {v : Variant}

theorem value?_eq_some {b : UInt8} {n : Nat} (h : v.value? b = some n) :
    n < 64 ∧ v.symbol n = b := by
  have hofNat {k : Nat} (hk : k = b.toNat) : UInt8.ofNat k = b := by rw [hk, UInt8.ofNat_toNat]
  unfold value? at h
  simp only [UInt8.le_iff_toNat_le, UInt8.reduceToNat] at h
  unfold symbol
  split at h
  · obtain rfl := Option.some.inj h
    rw [if_pos (by omega)]
    exact ⟨by omega, hofNat (by omega)⟩
  split at h
  · obtain rfl := Option.some.inj h
    rw [if_neg (by omega), if_pos (by omega)]
    exact ⟨by omega, hofNat (by omega)⟩
  split at h
  · obtain rfl := Option.some.inj h
    rw [if_neg (by omega), if_neg (by omega), if_pos (by omega)]
    exact ⟨by omega, hofNat (by omega)⟩
  split at h
  · rename_i hb
    obtain rfl := Option.some.inj h
    exact ⟨by decide, hb.symm⟩
  split at h
  · rename_i hb
    obtain rfl := Option.some.inj h
    exact ⟨by decide, hb.symm⟩
  · cases h

theorem values_eq_ok {offset : Nat} {text : Bytes} {values : List Nat}
    (h : v.values offset text = .ok values) :
    text = values.map v.symbol ∧ ∀ n ∈ values, n < 64 := by
  induction text generalizing offset values with
  | nil =>
    obtain rfl := Except.ok.inj h
    exact ⟨rfl, nofun⟩
  | cons b text ih =>
    rw [Variant.values] at h
    split at h
    · cases h
    · rename_i n hn
      obtain ⟨rest, hrest, rfl⟩ : ∃ rest, v.values (offset + 1) text = .ok rest ∧
          n :: rest = values := by
        cases hrest : v.values (offset + 1) text with
        | error e =>
          rw [hrest] at h
          cases h
        | ok rest =>
          rw [hrest] at h
          exact ⟨rest, rfl, Except.ok.inj h⟩
      obtain ⟨hsmall, hsymbol⟩ := value?_eq_some hn
      obtain ⟨htext, small⟩ := ih hrest
      exact ⟨by rw [List.map_cons, hsymbol, ← htext], List.forall_mem_cons.mpr ⟨hsmall, small⟩⟩

theorem toNat_ofNat_of_lt {n : Nat} (h : n < 256) : (UInt8.ofNat n).toNat = n :=
  UInt8.toNat_ofNat_of_lt h

theorem encode_full {a b c d : Nat} (ha : a < 64) (hb : b < 64) (hc : c < 64) (hd : d < 64)
    (rest : Bytes) :
    v.encode (UInt8.ofNat (a * 4 + b / 16) :: UInt8.ofNat (b % 16 * 16 + c / 4) ::
        UInt8.ofNat (c % 4 * 64 + d) :: rest) = [a, b, c, d].map v.symbol ++ v.encode rest := by
  obtain ⟨n, hn⟩ : ∃ n, n =
      ((a * 4 + b / 16) * 256 + (b % 16 * 16 + c / 4)) * 256 + (c % 4 * 64 + d) := ⟨_, rfl⟩
  have hfirst : n / 262144 = a := by omega
  have hsecond : n / 4096 % 64 = b := by omega
  have hthird : n / 64 % 64 = c := by omega
  have hfourth : n % 64 = d := by omega
  rw [encode, toNat_ofNat_of_lt (by omega), toNat_ofNat_of_lt (by omega),
    toNat_ofNat_of_lt (by omega), ← hn]
  simp only [hfirst, hsecond, hthird, hfourth]
  rfl

theorem encode_of_joinLast {last : UInt8} {offset : Nat} {values : List Nat} {bytes : Bytes}
    (small : ∀ n ∈ values, n < 64) (long : 2 ≤ values.length) (short : values.length ≤ 4)
    (h : joinLast last offset values = .ok bytes) :
    v.encode bytes = values.map v.symbol ++ v.padding (4 - values.length) := by
  match values, h with
  | [a, b], h =>
    obtain ⟨spare, h⟩ := (Outcome.refuse_eq_ok _ _ _).mp h
    obtain rfl := Except.ok.inj h
    obtain ⟨ha, hb⟩ : a < 64 ∧ b < 64 := by simpa using small
    have hfirst : (a * 4 + b / 16) / 4 = a := by omega
    have hsecond : (a * 4 + b / 16) % 4 * 16 = b := by omega
    rw [encode, toNat_ofNat_of_lt (by omega)]
    simp only [hfirst, hsecond]
    rfl
  | [a, b, c], h =>
    obtain ⟨spare, h⟩ := (Outcome.refuse_eq_ok _ _ _).mp h
    obtain rfl := Except.ok.inj h
    obtain ⟨ha, hb, hc⟩ : a < 64 ∧ b < 64 ∧ c < 64 := by simpa using small
    obtain ⟨n, hn⟩ : ∃ n, n = (a * 4 + b / 16) * 256 + (b % 16 * 16 + c / 4) := ⟨_, rfl⟩
    have hfirst : n / 1024 = a := by omega
    have hsecond : n / 16 % 64 = b := by omega
    have hthird : n % 16 * 4 = c := by omega
    rw [encode, toNat_ofNat_of_lt (by omega), toNat_ofNat_of_lt (by omega), ← hn]
    simp only [hfirst, hsecond, hthird]
    rfl
  | [a, b, c, d], h =>
    obtain rfl := Except.ok.inj h
    obtain ⟨ha, hb, hc, hd⟩ : a < 64 ∧ b < 64 ∧ c < 64 ∧ d < 64 := by simpa using small
    have hpadding : v.padding 0 = v.encode [] := by
      rw [padding]
      cases v.padded <;> rfl
    rw [encode_full ha hb hc hd, List.length_cons, List.length_cons, List.length_cons,
      List.length_cons, List.length_nil, hpadding]

theorem eq_encode_of_decodeLast {offset : Nat} {group bytes : Bytes} (short : group.length ≤ 4)
    (h : v.decodeLast offset group = .ok bytes) : group = v.encode bytes := by
  unfold decodeLast at h
  obtain ⟨tail, hgroup⟩ := List.takeWhile_prefix (l := group) (p := (· ≠ pad))
  generalize group.takeWhile (· ≠ pad) = body at h hgroup
  subst hgroup
  simp only [List.drop_left, Outcome.bind_eq_ok, Outcome.refuse_bind_eq_ok] at h
  obtain ⟨values, hvalues, closed, long, full, h⟩ := h
  obtain ⟨rfl, small⟩ := values_eq_ok hvalues
  simp only [List.length_append, List.length_map, Nat.not_lt] at short closed long full
  have pads : ∀ b ∈ tail, b = pad := by
    intro b mem
    have other : ¬b ≠ pad := fun other => closed ⟨List.ne_nil_of_mem mem,
      .inr (List.any_eq_true.mpr ⟨b, mem, decide_eq_true other⟩)⟩
    exact Decidable.not_not.mp other
  have htail : tail = v.padding (4 - values.length) := by
    unfold padding
    cases padded : v.padded with
    | true =>
      simp only [padded, if_true, ne_eq, Decidable.not_not] at full
      exact List.eq_replicate_iff.mpr ⟨by omega, pads⟩
    | false => simpa [padded] using full
  rw [htail, encode_of_joinLast small long (by omega) h]

theorem eq_encode_of_decodeGroups {offset : Nat} {text bytes : Bytes}
    (h : v.decodeGroups offset text = .ok bytes) : text = v.encode bytes := by
  induction offset, text using decodeGroups.induct generalizing bytes with
  | case1 offset a b c d e rest ih =>
    rw [decodeGroups, Outcome.bind_eq_ok] at h
    obtain ⟨values, hvalues, h⟩ := h
    obtain ⟨hgroup, small⟩ := values_eq_ok hvalues
    have hlength : values.length = 4 := by simpa using (congrArg List.length hgroup).symm
    obtain ⟨p, q, r, s, rfl⟩ := List.length_eq_four.mp hlength
    obtain ⟨tail, htail, made⟩ := (Outcome.bind_eq_ok _ _ _).mp h
    obtain rfl := Except.ok.inj made
    obtain ⟨hp, hq, hr, hs⟩ : p < 64 ∧ q < 64 ∧ r < 64 ∧ s < 64 := by simpa using small
    rw [encode_full hp hq hr hs, ← hgroup, ← ih htail]
    rfl
  | case2 offset group short =>
    have hlength : group.length ≤ 4 := by
      rcases group with _ | ⟨a, _ | ⟨b, _ | ⟨c, _ | ⟨d, _ | ⟨e, rest⟩⟩⟩⟩⟩
      case cons.cons.cons.cons.cons => exact (short a b c d e rest rfl).elim
      all_goals simp
    rw [decodeGroups_of_short hlength] at h
    exact eq_encode_of_decodeLast hlength h

theorem decode_eq_ok_iff (sound : v.IsSound) {text bytes : Bytes} :
    v.decode text = .ok bytes ↔ text = v.encode bytes := by
  constructor
  · intro h
    unfold decode at h
    split at h
    · rename_i empty
      obtain rfl := Except.ok.inj h
      exact empty
    · split at h
      · cases h
      · exact eq_encode_of_decodeGroups h
  · rintro rfl
    exact decode_encode sound bytes

end Variant

theorem eq_of_symbol_eq :
    ∀ m < 64, ∀ n < 64, standard.symbol m = urlSafe.symbol n → m = n := by
  decide +kernel

theorem pad_notMem_urlSafe (bytes : Bytes) : pad ∉ urlSafe.encode bytes := by
  intro mem
  have other := Variant.forall_mem_encode (v := urlSafe) (P := (· ≠ pad))
    (fun padded => absurd padded (by decide))
    (fun n hn => (Variant.isSound_urlSafe n hn).2) bytes
  exact other pad mem rfl

theorem eq_of_encode_eq {a b : Bytes} (h : standard.encode a = urlSafe.encode b) : a = b := by
  -- Without padding every group is full.
  have full : pad ∉ standard.encode a := h ▸ pad_notMem_urlSafe b
  induction a using Variant.encode.induct generalizing b with
  | case1 =>
    refine Decidable.byContradiction fun other => ?_
    exact Variant.encode_ne_nil (v := urlSafe) (Ne.symm other) h.symm
  | case2 x => exact absurd (by simp [Variant.encode, standard]) full
  | case3 x y => exact absurd (by simp [Variant.encode, standard]) full
  | case4 x y z rest ih =>
    have hlength := congrArg List.length h
    rcases b with _ | ⟨p, _ | ⟨q, _ | ⟨r, rest'⟩⟩⟩
    iterate 3 · simp [Variant.encode, urlSafe] at hlength
    simp only [Variant.encode, List.cons.injEq] at h
    obtain ⟨h₁, h₂, h₃, h₄, hrest⟩ := h
    have hx := x.toNat_lt
    have hy := y.toNat_lt
    have hz := z.toNat_lt
    have hp := p.toNat_lt
    have hq := q.toNat_lt
    have hr := r.toNat_lt
    replace h₁ := eq_of_symbol_eq _ (by omega) _ (by omega) h₁
    replace h₂ := eq_of_symbol_eq _ (by omega) _ (by omega) h₂
    replace h₃ := eq_of_symbol_eq _ (by omega) _ (by omega) h₃
    replace h₄ := eq_of_symbol_eq _ (by omega) _ (by omega) h₄
    have hfirst : x = p := UInt8.toNat_inj.mp (by omega)
    have hsecond : y = q := UInt8.toNat_inj.mp (by omega)
    have hthird : z = r := UInt8.toNat_inj.mp (by omega)
    have hmore : pad ∉ standard.encode rest := fun mem =>
      full (by simp only [Variant.encode, List.mem_cons, mem, or_true])
    rw [hfirst, hsecond, hthird, ih hrest hmore]

/-- The text is written for the bytes in either variant, with blanks around it. -/
def Spells (text bytes : Bytes) : Prop :=
  ∃ before bare after, text = before ++ bare ++ after ∧
    (∀ b ∈ before, isBlank b = true) ∧ (∀ b ∈ after, isBlank b = true) ∧
    (bare = standard.encode bytes ∨ bare = urlSafe.encode bytes)

theorem isBlank_of_mem_encode {v : Variant} (h : v = standard ∨ v = urlSafe) (bytes : Bytes) :
    ∀ b ∈ v.encode bytes, isBlank b = false := by
  apply Variant.forall_mem_encode
  · exact fun _ => by decide
  · rcases h with rfl | rfl <;> decide +kernel

def decodeInOrder (first second : Variant) (text : Bytes) : Except Error Bytes :=
  let bare := Text.trimBy isBlank text
  match first.decode bare with
  | .ok bytes => .ok bytes
  | .error e =>
    match second.decode bare with
    | .ok bytes => .ok bytes
    | .error _ => .error e

theorem decodeEither_eq : decodeEither = decodeInOrder standard urlSafe :=
  rfl

theorem decodeInOrder_eq_ok_iff {v w : Variant} (hv : v.IsSound) (hw : w.IsSound)
    (agree : ∀ a b, v.encode a = w.encode b → a = b) {text bytes : Bytes} :
    decodeInOrder v w text = .ok bytes ↔
      Text.trimBy isBlank text = v.encode bytes ∨ Text.trimBy isBlank text = w.encode bytes := by
  unfold decodeInOrder
  generalize Text.trimBy isBlank text = bare
  rw [← Variant.decode_eq_ok_iff hv, ← Variant.decode_eq_ok_iff hw]
  dsimp only
  cases first : v.decode bare with
  | error e => cases w.decode bare <;> simp
  | ok bytes' =>
    have same : w.decode bare = .ok bytes → bytes' = bytes := by
      rw [Variant.decode_eq_ok_iff hv] at first
      rw [Variant.decode_eq_ok_iff hw]
      exact fun second => agree _ _ (first.symm.trans second)
    simpa using same

theorem decodeEither_eq_ok_iff_trimmed {text bytes : Bytes} :
    decodeEither text = .ok bytes ↔ Text.trimBy isBlank text = standard.encode bytes ∨
      Text.trimBy isBlank text = urlSafe.encode bytes := by
  rw [decodeEither_eq]
  exact decodeInOrder_eq_ok_iff Variant.isSound_standard Variant.isSound_urlSafe
    fun _ _ => eq_of_encode_eq

theorem decodeEither_eq_ok_iff {text bytes : Bytes} :
    decodeEither text = .ok bytes ↔ Spells text bytes := by
  refine decodeEither_eq_ok_iff_trimmed.trans ⟨fun h => ?_, ?_⟩
  · obtain ⟨before, after, split, hbefore, hafter⟩ := Text.exists_trimBy isBlank text
    exact ⟨before, _, after, split, hbefore, hafter, h⟩
  · rintro ⟨before, bare, after, rfl, hbefore, hafter, h⟩
    have visible : ∀ b ∈ bare, isBlank b = false := by
      rcases h with rfl | rfl
      · exact isBlank_of_mem_encode (.inl rfl) bytes
      · exact isBlank_of_mem_encode (.inr rfl) bytes
    rwa [Text.trimBy_append hbefore visible hafter]

theorem Spells.unique {text a b : Bytes} (ha : Spells text a) (hb : Spells text b) : a = b :=
  Except.ok.inj ((decodeEither_eq_ok_iff.mpr ha).symm.trans (decodeEither_eq_ok_iff.mpr hb))

theorem spells_nil_iff {text : Bytes} : Spells text [] ↔ ∀ b ∈ text, isBlank b = true := by
  constructor
  · rintro ⟨before, bare, after, rfl, hbefore, hafter, rfl | rfl⟩ <;>
      exact List.forall_mem_append.mpr ⟨List.forall_mem_append.mpr ⟨hbefore, nofun⟩, hafter⟩
  · exact fun h => ⟨text, [], [], by simp, h, nofun, .inl rfl⟩

end PaymentTrust.Base64
