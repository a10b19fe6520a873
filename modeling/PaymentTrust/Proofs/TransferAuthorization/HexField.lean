import PaymentTrust.Proofs.Bytes.HexNumeral
import PaymentTrust.Proofs.Word256
import PaymentTrust.TransferAuthorization.Encoding

/-! Which texts the hexadecimal fields of an authorization accept, and as which words. After one `0x`
that is dropped first, the decoder drops a mark of its own, and a missing first digit may complete
it. Apart from texts that have such a second mark, there is one grammar. -/
namespace PaymentTrust.HexField

def digits (text : String) : List Char :=
  match Text.trim text.toList with
  | '0' :: 'x' :: rest => rest
  | rest => rest

/-- The outcome is the word that the digits denote if there are at most 64 of them, and otherwise an
error for their number, or for what is no digit. -/
structure Follows (field : HexField) (digits : List Char)
    (outcome : Except TransferError Word256) : Prop where
  word : ∀ w, outcome = .ok w ↔
    (∀ c ∈ digits, Hex.IsDigit c) ∧ digits.length ≤ 64 ∧ w.toNat = Hex.number digits
  tooLong : ∀ length, outcome = .error (.hexTooLong field length) ↔
    (∀ c ∈ digits, Hex.IsDigit c) ∧ 64 < digits.length ∧ length = (digits.length + 1) / 2
  notHex : outcome = .error (.notHex field) ↔ ∃ c ∈ digits, ¬Hex.IsDigit c

/-- A mark, or a mark that lacks its zero, stands before an even number of digits. -/
def IsMarked (text rest : List Char) : Prop :=
  (∃ mark ∈ ['x', 'X'], text = mark :: rest ∨ text = '0' :: mark :: rest) ∧
    (∀ c ∈ rest, Hex.IsDigit c) ∧ rest.length % 2 = 0

def evened (text : List Char) : List Char :=
  if (Utf8.encode text).length % 2 = 1 then '0' :: text else text

def ofBytes (field : HexField) (bytes : Bytes) : Except TransferError Word256 :=
  if 32 < bytes.length then .error (.hexTooLong field bytes.length)
  else .ok (Word256.ofBytes bytes)

variable {field : HexField} {text rest : List Char} {bytes : Bytes}

theorem read_eq (field : HexField) (text : String) :
    field.read text =
      match Hex.decode (Utf8.encode (evened (digits text))) with
      | .error _ => .error (.notHex field)
      | .ok bytes => ofBytes field bytes := by
  have hencode : Utf8.encode (evened (digits text)) =
      if (Utf8.encode (digits text)).length % 2 = 1 then 0x30 :: Utf8.encode (digits text)
      else Utf8.encode (digits text) := by
    unfold evened
    split <;> rfl
  rw [hencode]
  rfl

theorem read_of_spells {text : String} (h : Hex.Spells (evened (digits text)) bytes) :
    field.read text = ofBytes field bytes := by
  rw [read_eq, Hex.decode_encode_eq_ok_iff.mpr h]

theorem read_of_not_spells {text : String}
    (h : ∀ bytes, ¬Hex.Spells (evened (digits text)) bytes) :
    field.read text = .error (.notHex field) := by
  rw [read_eq]
  cases decoded : Hex.decode (Utf8.encode (evened (digits text))) with
  | error e => rfl
  | ok bytes => exact absurd (Hex.decode_encode_eq_ok_iff.mp decoded) (h bytes)

theorem follows_ofBytes (isDigit : ∀ c ∈ text, Hex.IsDigit c)
    (hlength : (text.length + 1) / 2 = bytes.length)
    (hnumber : Hex.number text = Bytes.toNat bytes) : Follows field text (ofBytes field bytes) := by
  have allDigits : ¬∃ c ∈ text, ¬Hex.IsDigit c := fun ⟨c, mem, other⟩ => other (isDigit c mem)
  unfold ofBytes
  by_cases long : 32 < bytes.length
  · have htext : 64 < text.length := by omega
    rw [if_pos long]
    exact {
      word := fun w => ⟨nofun, fun h => absurd h.2.1 (Nat.not_le.mpr htext)⟩
      tooLong := by
        intro length
        constructor
        · rintro ⟨⟩
          exact ⟨isDigit, htext, hlength.symm⟩
        · rintro ⟨-, -, rfl⟩
          rw [hlength]
      notHex := ⟨nofun, fun h => absurd h allDigits⟩ }
  · have htext : text.length ≤ 64 := by omega
    have hword := Word256.toNat_ofBytes (Nat.not_lt.mp long)
    rw [if_neg long]
    exact {
      word := fun w => by
        rw [hnumber, ← hword, BitVec.toNat_inj, and_iff_right isDigit, and_iff_right htext,
          Except.ok.injEq, eq_comm]
      tooLong := fun length => ⟨nofun, fun h => absurd h.2.1 (Nat.not_lt.mpr htext)⟩
      notHex := ⟨nofun, fun h => absurd h allDigits⟩ }

theorem follows_notHex (other : ∃ c ∈ text, ¬Hex.IsDigit c) :
    Follows field text (.error (.notHex field)) := by
  obtain ⟨c, mem, hc⟩ := other
  exact {
    word := fun w => ⟨nofun, fun h => absurd (h.1 c mem) hc⟩
    tooLong := fun length => ⟨nofun, fun h => absurd (h.1 c mem) hc⟩
    notHex := ⟨fun _ => ⟨c, mem, hc⟩, fun _ => rfl⟩ }

theorem evened_of_isDigit (isDigit : ∀ c ∈ text, Hex.IsDigit c) :
    evened text = if text.length % 2 = 1 then '0' :: text else text := by
  unfold evened
  rw [Utf8.length_encode_of_ascii fun c mem => Hex.toNat_of_isDigit (isDigit c mem)]

theorem follows_of_isDigit {text : String} (isDigit : ∀ c ∈ digits text, Hex.IsDigit c) :
    Follows field (digits text) (field.read text) := by
  have hevened := evened_of_isDigit isDigit
  have even : (evened (digits text)).length % 2 = 0 ∧
      (digits text).length ≤ (evened (digits text)).length ∧
      (evened (digits text)).length ≤ (digits text).length + 1 := by
    rw [hevened]
    split
    · rw [List.length_cons]
      omega
    · omega
  have evenedDigits : ∀ c ∈ evened (digits text), Hex.IsDigit c := by
    rw [hevened]
    split
    · exact List.forall_mem_cons.mpr ⟨by decide, isDigit⟩
    · exact isDigit
  have hnumber : Hex.number (evened (digits text)) = Hex.number (digits text) := by
    rw [hevened]
    split
    · exact Hex.number_zero_cons _
    · rfl
  obtain ⟨bytes, spelled⟩ := Hex.exists_spelled evenedDigits even.1
  obtain ⟨-, hlength, hvalue⟩ := Hex.number_of_spelled spelled
  rw [read_of_spells ⟨_, .inl rfl, spelled⟩]
  exact follows_ofBytes isDigit (by omega) (hnumber.symm.trans hvalue)

theorem eq_of_mem_marks {mark : Char} (mem : mark ∈ ['x', 'X']) : mark = 'x' ∨ mark = 'X' := by
  simpa using mem

theorem IsMarked.not_isDigit (marked : IsMarked text rest) : ∃ c ∈ text, ¬Hex.IsDigit c := by
  obtain ⟨⟨mark, hmark, form⟩, -⟩ := marked
  have other : ¬Hex.IsDigit mark := by
    rcases eq_of_mem_marks hmark with rfl | rfl <;> decide
  rcases form with rfl | rfl
  · exact ⟨mark, List.mem_cons_self, other⟩
  · exact ⟨mark, List.mem_cons_of_mem _ List.mem_cons_self, other⟩

/-- With the zero that is put before an odd number of bytes, either form is a whole mark. -/
theorem IsMarked.evened (marked : IsMarked text rest) :
    ∃ mark ∈ ['x', 'X'], evened text = '0' :: mark :: rest := by
  obtain ⟨⟨mark, hmark, form⟩, isDigit, even⟩ := marked
  have hrest := Utf8.length_encode_of_ascii fun c mem => Hex.toNat_of_isDigit (isDigit c mem)
  have asciiMark : mark.toNat < 0x80 := by
    rcases eq_of_mem_marks hmark with rfl | rfl <;> decide
  have ascii : ∀ c ∈ mark :: rest, c.toNat < 0x80 :=
    List.forall_mem_cons.mpr ⟨asciiMark, fun c mem => Hex.toNat_of_isDigit (isDigit c mem)⟩
  refine ⟨mark, hmark, ?_⟩
  unfold HexField.evened
  rcases form with rfl | rfl
  · rw [Utf8.length_encode_of_ascii ascii, List.length_cons, if_pos (by omega)]
  · rw [Utf8.length_encode_of_ascii (List.forall_mem_cons.mpr ⟨by decide, ascii⟩),
      List.length_cons, List.length_cons, if_neg (by omega)]

theorem exists_isMarked (other : ∃ c ∈ text, ¬Hex.IsDigit c)
    (spells : Hex.Spells (evened text) bytes) : ∃ rest, IsMarked text rest := by
  obtain ⟨c, mem, hc⟩ := other
  obtain ⟨rest, form, spelled⟩ := spells
  obtain ⟨isDigit, hlength, -⟩ := Hex.number_of_spelled spelled
  have even : rest.length % 2 = 0 := by omega
  have marked {mark : Char} (hmark : mark ∈ ['x', 'X']) (h : evened text = '0' :: mark :: rest) :
      IsMarked text rest := by
    refine ⟨⟨mark, hmark, ?_⟩, isDigit, even⟩
    unfold evened at h
    split at h
    · exact .inl (List.cons.inj h).2
    · exact .inr h
  rcases form with h | h | h
  · have kept : c ∈ evened text := by
      unfold evened
      split
      · exact List.mem_cons_of_mem _ mem
      · exact mem
    exact absurd (isDigit c (h ▸ kept)) hc
  · exact ⟨rest, marked (by decide) h⟩
  · exact ⟨rest, marked (by decide) h⟩

theorem follows_of_isMarked {text : String} (marked : IsMarked (digits text) rest) :
    Follows field rest (field.read text) := by
  obtain ⟨mark, hmark, hevened⟩ := marked.evened
  obtain ⟨-, isDigit, even⟩ := marked
  obtain ⟨bytes, spelled⟩ := Hex.exists_spelled isDigit even
  obtain ⟨-, hlength, hvalue⟩ := Hex.number_of_spelled spelled
  have spells : Hex.Spells (evened (digits text)) bytes := by
    refine ⟨rest, .inr ?_, spelled⟩
    rcases eq_of_mem_marks hmark with rfl | rfl
    · exact .inl hevened
    · exact .inr hevened
  rw [read_of_spells spells]
  exact follows_ofBytes isDigit (by omega) hvalue

/-- A field follows the grammar on a text exactly if no second mark is left in it that stands before
an even number of digits. If there is one, the field is read as the digits after it. -/
theorem read_follows_iff (field : HexField) (text : String) :
    (Follows field (digits text) (field.read text) ↔ ∀ rest, ¬IsMarked (digits text) rest) ∧
    ∀ rest, IsMarked (digits text) rest → Follows field rest (field.read text) := by
  refine ⟨⟨fun follows rest marked => ?_, fun unmarked => ?_⟩, fun _ => follows_of_isMarked⟩
  · have refused := follows.notHex.mpr marked.not_isDigit
    obtain ⟨c, mem, other⟩ := (follows_of_isMarked marked).notHex.mp refused
    exact other (marked.2.1 c mem)
  · by_cases isDigit : ∀ c ∈ digits text, Hex.IsDigit c
    · exact follows_of_isDigit isDigit
    · have other : ∃ c ∈ digits text, ¬Hex.IsDigit c := by simpa using isDigit
      rw [read_of_not_spells fun bytes spells => ?_]
      · exact follows_notHex other
      · obtain ⟨rest, marked⟩ := exists_isMarked other spells
        exact unmarked rest marked

theorem read_follows_second_mark :
    IsMarked (digits "\u00a00x0Xabcdef\n") "abcdef".toList ∧
      Follows .r "abcdef".toList (HexField.r.read "\u00a00x0Xabcdef\n") := by
  have isDigit : ∀ c ∈ "abcdef".toList, Hex.IsDigit c := by simp [Hex.IsDigit]
  have marked : IsMarked (digits "\u00a00x0Xabcdef\n") "abcdef".toList :=
    ⟨⟨'X', by decide, .inr (by decide)⟩, isDigit, by decide⟩
  exact ⟨marked, (read_follows_iff .r "\u00a00x0Xabcdef\n").2 _ marked⟩

/-- The zero that completes the digits completes a mark instead. -/
theorem read_half_mark :
    HexField.nonce.read "x12" = .ok 0x12 ∧
      ¬Follows .nonce (digits "x12") (HexField.nonce.read "x12") := by
  have read : HexField.nonce.read "x12" = .ok 0x12 := by decide +kernel
  refine ⟨read, fun follows => ?_⟩
  have isDigit := ((follows.word _).mp read).1
  exact absurd (isDigit 'x' (by decide)) (by decide)

end PaymentTrust.HexField
