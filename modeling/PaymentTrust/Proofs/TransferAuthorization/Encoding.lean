import PaymentTrust.Proofs.Verdict
import PaymentTrust.Proofs.Word256
import PaymentTrust.TransferAuthorization.Encoding

/-! The call of a transfer authorization and its arguments on their own are the same words, and the
words tell everything that the contract acts on. -/
namespace PaymentTrust

namespace AbiValue

theorem encode_eq (values : List AbiValue) :
    encode values = (values.map word).flatMap Word256.bytes :=
  (List.flatMap_map ..).symm

@[simp] theorem length_encode (values : List AbiValue) :
    (encode values).length = 32 * values.length :=
  Bytes.length_flatMap_of_width (fun value => value.word.length_bytes) values

theorem encode_eq_iff (values : List AbiValue) (bytes : Bytes) :
    bytes = encode values ↔ bytes.length = 32 * values.length ∧
      wordNumbers values.length bytes = values.map fun value => value.word.toNat := by
  have hnumbers : (values.map word).map BitVec.toNat = values.map fun value => value.word.toNat :=
    List.map_map
  constructor
  · rintro rfl
    refine ⟨length_encode values, ?_⟩
    have h := wordNumbers_flatMap (values.map word) []
    rwa [List.length_map, List.append_nil, hnumbers, ← encode_eq] at h
  · rintro ⟨hlength, hwords⟩
    rw [encode_eq]
    apply eq_flatMap_of_wordNumbers
    · rwa [List.length_map]
    · rwa [List.length_map, hnumbers]

theorem encode_inj {values values' : List AbiValue} (h : encode values = encode values') :
    values.map word = values'.map word := by
  have hlength := congrArg List.length h
  rw [length_encode, length_encode] at hlength
  have hcount : values.length = values'.length := by omega
  have hwords := ((encode_eq_iff values _).mp rfl).2
  have hwords' := ((encode_eq_iff values' _).mp h).2
  rw [← hcount, hwords] at hwords'
  apply (List.map_inj_right fun _ _ => BitVec.eq_of_toNat_eq).mp
  rw [List.map_map, List.map_map]
  exact hwords'

theorem word_uint8 (n : UInt8) : (uint8 n).word.toNat = n.toNat := by
  have hn : n.toNat < 2 ^ 8 := n.toNat_lt
  rw [word, BitVec.toNat_ofNat]
  apply Nat.mod_eq_of_lt
  omega

end AbiValue

theorem TransferCall.selector_eq : selector = [0xe3, 0xee, 0x16, 0x0e] := by
  decide +kernel

namespace TransferAuthorization

/-- What the hexadecimal texts of an authorization denote, where all of them denote anything. -/
structure Denotes (a : TransferAuthorization) (words : HexWords) : Prop where
  nonce : HexField.nonce.read a.nonce = .ok words.nonce
  r : HexField.r.read a.r = .ok words.r
  s : HexField.s.read a.s = .ok words.s

/-- What the sender signs is the same in both; the nonce is one word, however it is spelled. -/
structure SameTransfer (a b : TransferAuthorization) : Prop where
  sender : a.sender = b.sender
  receiver : a.receiver = b.receiver
  value : a.value = b.value
  validAfter : a.validAfter = b.validAfter
  validBefore : a.validBefore = b.validBefore
  nonce : ∃ w, HexField.nonce.read a.nonce = .ok w ∧ HexField.nonce.read b.nonce = .ok w

structure SameCall (a b : TransferAuthorization) : Prop extends SameTransfer a b where
  v : a.v = b.v
  r : ∃ w, HexField.r.read a.r = .ok w ∧ HexField.r.read b.r = .ok w
  s : ∃ w, HexField.s.read a.s = .ok w ∧ HexField.s.read b.s = .ok w

variable (a b : TransferAuthorization)

def transferNumbers (nonce : Word256) : List Nat :=
  [a.sender.value.toNat, a.receiver.value.toNat, a.value.toNat, a.validAfter.seconds.toNat,
    a.validBefore.seconds.toNat, nonce.toNat]

def callNumbers (words : HexWords) : List Nat :=
  a.transferNumbers words.nonce ++ [a.v.toNat, words.r.toNat, words.s.toNat]

theorem hexWords_eq_ok {words : HexWords} : a.hexWords = .ok words ↔ a.Denotes words := by
  unfold hexWords
  simp only [Outcome.bind_eq_ok, Outcome.pure_eq_ok]
  constructor
  · rintro ⟨nonce, hnonce, r, hr, s, hs, rfl⟩
    exact ⟨hnonce, hr, hs⟩
  · intro h
    exact ⟨words.nonce, h.nonce, words.r, h.r, words.s, h.s, rfl⟩

theorem callArguments_eq_ok {bytes : Bytes} : a.callArguments = .ok bytes ↔
    ∃ words, a.Denotes words ∧ bytes.length = 288 ∧ wordNumbers 9 bytes = a.callNumbers words := by
  unfold callArguments
  simp only [Outcome.bind_eq_ok, Outcome.pure_eq_ok, hexWords_eq_ok]
  apply exists_congr
  intro words
  apply and_congr_right
  intro _
  rw [eq_comm, AbiValue.encode_eq_iff]
  have hv := AbiValue.word_uint8 a.v
  simp only [AbiValue.word] at hv
  simp [AbiValue.word, callNumbers, transferNumbers, hv]

theorem callData_eq : a.callData = a.callArguments.map ([0xe3, 0xee, 0x16, 0x0e] ++ ·) := by
  unfold callData call callArguments
  rw [← TransferCall.selector_eq]
  cases a.hexWords <;> rfl

variable {a b}

theorem sameTransfer_of_numbers {nonce : Word256}
    (ha : HexField.nonce.read a.nonce = .ok nonce) {nonce' : Word256}
    (hb : HexField.nonce.read b.nonce = .ok nonce')
    (h : a.transferNumbers nonce = b.transferNumbers nonce') : SameTransfer a b := by
  simp only [transferNumbers, List.cons.injEq, BitVec.toNat_inj, UInt64.toNat_inj] at h
  obtain ⟨sender, receiver, value, validAfter, validBefore, rfl, -⟩ := h
  exact {
    sender := congrArg Address.mk sender
    receiver := congrArg Address.mk receiver
    value
    validAfter := congrArg Timestamp.mk validAfter
    validBefore := congrArg Timestamp.mk validBefore
    nonce := ⟨nonce, ha, hb⟩ }

theorem sameCall_of_callArguments {bytes : Bytes} (ha : a.callArguments = .ok bytes)
    (hb : b.callArguments = .ok bytes) : SameCall a b := by
  obtain ⟨words, hwords, -, hnumbers⟩ := a.callArguments_eq_ok.mp ha
  obtain ⟨words', hwords', -, hnumbers'⟩ := b.callArguments_eq_ok.mp hb
  have hsplit := List.append_inj (hnumbers.symm.trans hnumbers') rfl
  have hsignature := hsplit.2
  simp only [List.cons.injEq, BitVec.toNat_inj, UInt8.toNat_inj] at hsignature
  obtain ⟨v, r, s, -⟩ := hsignature
  exact {
    sameTransfer_of_numbers hwords.nonce hwords'.nonce hsplit.1 with
    v
    r := ⟨words.r, hwords.r, r ▸ hwords'.r⟩
    s := ⟨words.s, hwords.s, s ▸ hwords'.s⟩ }

theorem callArguments_of_callData {bytes : Bytes} (h : a.callData = .ok bytes) :
    a.callArguments = .ok (bytes.drop 4) := by
  rw [callData_eq] at h
  cases harguments : a.callArguments with
  | error e => simp [harguments, Except.map] at h
  | ok arguments =>
    rw [harguments] at h
    cases h
    rfl

/-- The call is the selector and the arguments, with the same error where a text is not
hexadecimal. The arguments are nine words, and no two authorizations that differ in any of them are
encoded alike. -/
theorem encodings_agree (a : TransferAuthorization) :
    a.callData = a.callArguments.map ([0xe3, 0xee, 0x16, 0x0e] ++ ·) ∧
    (∀ bytes, a.callArguments = .ok bytes ↔ ∃ words, a.Denotes words ∧ bytes.length = 288 ∧
      wordNumbers 9 bytes = [a.sender.value.toNat, a.receiver.value.toNat, a.value.toNat,
        a.validAfter.seconds.toNat, a.validBefore.seconds.toNat, words.nonce.toNat, a.v.toNat,
        words.r.toNat, words.s.toNat]) ∧
    ∀ b bytes, (a.callArguments = .ok bytes ∧ b.callArguments = .ok bytes ∨
      a.callData = .ok bytes ∧ b.callData = .ok bytes) → SameCall a b := by
  refine ⟨a.callData_eq, fun bytes => a.callArguments_eq_ok, ?_⟩
  rintro b bytes (⟨ha, hb⟩ | ⟨ha, hb⟩)
  · exact sameCall_of_callArguments ha hb
  · exact sameCall_of_callArguments (callArguments_of_callData ha) (callArguments_of_callData hb)

namespace Sample

def transfer : TransferAuthorization where
  sender := ⟨0xaa⟩
  receiver := ⟨0xbb⟩
  value := 1000000
  validAfter := ⟨10⟩
  validBefore := ⟨20⟩
  nonce := "0x0102"
  v := 27
  r := "0xABC"
  s := "7f"

def respelled : TransferAuthorization :=
  { transfer with nonce := " 102 ", r := "0abc", s := "0x007F" }

def arguments : Bytes :=
  [0xaa, 0xbb, 1000000, 10, 20, 0x102, 27, 0xabc, 0x7f].flatMap (Bytes.ofNat 32)

end Sample

theorem encodings_agree_respelled :
    Sample.transfer.callArguments = .ok Sample.arguments ∧
      Sample.respelled.callArguments = .ok Sample.arguments ∧
      SameCall Sample.transfer Sample.respelled := by
  have htransfer : Sample.transfer.callArguments = .ok Sample.arguments := by decide +kernel
  have hrespelled : Sample.respelled.callArguments = .ok Sample.arguments := by decide +kernel
  have hsame := (encodings_agree Sample.transfer).2.2 Sample.respelled Sample.arguments
  exact ⟨htransfer, hrespelled, hsame (.inl ⟨htransfer, hrespelled⟩)⟩

end TransferAuthorization

end PaymentTrust
