import PaymentTrust.Paywall.Header
import PaymentTrust.Proofs.Bytes.Base64
import PaymentTrust.Proofs.Json.Reading
import PaymentTrust.Proofs.Json.Record
import PaymentTrust.Proofs.Text.Split

/-! Challenges, payloads and receipts are read back from the headers that carry them. -/
namespace PaymentTrust

theorem Timestamp.decode_ofJson (t : Timestamp) : decode (Json.Draft.ofJson t.toJson) = .ok t :=
  congrArg (Except.map mk) (Json.Decoder.amount_write t.seconds)

namespace PaymentHeader

variable {α : Type} (h : PaymentHeader α)

theorem toNat_of_mem_encode (bytes : Bytes) :
    ∀ b ∈ Base64.standard.encode bytes, 0x21 ≤ b.toNat ∧ b.toNat < 0x80 := by
  apply Base64.Variant.forall_mem_encode
  · decide
  · decide +kernel

theorem isBlank_ofNat {b : UInt8} (low : 0x21 ≤ b.toNat) (high : b.toNat < 0x80) :
    Text.isBlank (Char.ofNat b.toNat) = false := by
  generalize b.toNat = n at low high
  interval_cases n <;> rfl

theorem decode_encode {a : α} (integral : (h.toJson a).IsIntegral)
    (reads : h.record.lenient (Json.Draft.ofJson (h.toJson a)) = .ok a) {before after : String}
    (hbefore : ∀ c ∈ before.toList, Text.isBlank c = true)
    (hafter : ∀ c ∈ after.toList, Text.isBlank c = true) :
    h.decode (before ++ h.encode a ++ after) = .ok a := by
  obtain ⟨text, htext⟩ : ∃ text, text = Utf8.encode (h.toJson a).render.toList := ⟨_, rfl⟩
  have hvisible := toNat_of_mem_encode text
  have hchars : ∀ c ∈ (Base64.standard.encode text).map fun b => Char.ofNat b.toNat,
      Text.isBlank c = false := by
    rw [List.forall_mem_map]
    exact fun b mem => isBlank_ofNat (hvisible b mem).1 (hvisible b mem).2
  have hvalue : Utf8.encode (Text.trim (before ++ h.encode a ++ after).toList) =
      Base64.standard.encode text := by
    rw [String.toList_append, String.toList_append, encode, String.toList_ofList, ← htext,
      Text.trim_append hbefore hchars hafter,
      Utf8.encode_map_ofNat fun b mem => (hvisible b mem).2]
  have hread : Json.Draft.read text = ⟨Json.Draft.ofJson (h.toJson a), false⟩ := by
    rw [htext, Json.render, String.toList_ofList]
    exact Json.Draft.read_write Json.Token.faithful_self integral
  have hrecord : h.record.lenient.ofBytes text = .ok a := by
    rw [Json.Decoder.ofBytes, hread, Json.Decoder.ofDocument, reads]
    rfl
  rw [decode, hvalue, Base64.Variant.decode_encode Base64.Variant.isSound_standard]
  simp only [Except.mapError, bind, Except.bind, hrecord]

end PaymentHeader

open Json Json.Record

namespace PaymentChallenge

instance : record.Lawful := by
  unfold record
  infer_instance

theorem isIntegral_toJson (c : PaymentChallenge) : c.toJson.IsIntegral := by
  cases h : c.terms.token <;>
    simp [toJson, Timestamp.toJson, member?, h, Json.IsIntegral, MembersAreIntegral]

theorem lenient_ofJson (c : PaymentChallenge) : record.lenient (Draft.ofJson c.toJson) = .ok c := by
  apply Json.Record.lenient_ofJson
  · decide
  · decide
  · rw [List.map_append, List.map_append]
    exact ((List.Sublist.refl _).append (keys_member?_sublist _ _)).append (List.Sublist.refl _)
  · refine .seq (.seq (.seq (.seq (.seq (.seq (.seq (.seq (.map _ ?_) ?_) ?_) ?_) ?_) ?_) ?_) ?_) ?_
    iterate 6 exact makes_required rfl rfl
    · apply makes_optionalText
      cases c.terms.token <;> simp [member?, lookup_cons, Draft.ofJson]
    · apply makes_required
      · simp [List.lookup_append, lookup_member?, lookup_cons]
        rfl
      · exact c.expires.decode_ofJson
    · apply makes_required
      · simp [List.lookup_append, lookup_member?, lookup_cons]
        rfl
      · rfl

end PaymentChallenge

namespace PaymentPayload

instance : record.Lawful := by
  unfold record
  infer_instance

theorem isIntegral_toJson (p : PaymentPayload) : p.toJson.IsIntegral := by
  simp [toJson, Json.IsIntegral, MembersAreIntegral]

theorem lenient_ofJson (p : PaymentPayload) : record.lenient (Draft.ofJson p.toJson) = .ok p := by
  apply Json.Record.lenient_ofJson
  · decide
  · decide
  · exact List.Sublist.refl _
  · refine .seq (.seq (.seq (.seq (.map _ ?_) ?_) ?_) ?_) ?_
    all_goals exact makes_required rfl rfl

end PaymentPayload

namespace PaymentReceipt

instance : record.Lawful := by
  unfold record
  infer_instance

theorem isIntegral_toJson (r : PaymentReceipt) : r.toJson.IsIntegral := by
  cases ht : r.transaction <;> cases hp : r.payer <;> cases hf : r.failure <;>
    simp [toJson, member?, ht, hp, hf, Json.IsIntegral, MembersAreIntegral]

theorem lenient_ofJson (r : PaymentReceipt) : record.lenient (Draft.ofJson r.toJson) = .ok r := by
  apply Json.Record.lenient_ofJson
  · decide
  · decide
  · rw [List.map_append, List.map_append, List.map_append]
    exact (((List.Sublist.refl _).append (keys_member?_sublist _ _)).append
      (keys_member?_sublist _ _)).append (keys_member?_sublist _ _)
  · refine .seq (.seq (.seq (.seq (.seq (.map _ ?_) ?_) ?_) ?_) ?_) ?_
    iterate 3 exact makes_required rfl rfl
    all_goals
      apply makes_optionalText
      simp [List.lookup_append, lookup_member?, lookup_cons]
      rfl

end PaymentReceipt

/-- Every challenge, payload and receipt is read back from its header, with any blanks around it. -/
theorem PaymentHeader.round_trip (before after : String)
    (hbefore : ∀ c ∈ before.toList, Text.isBlank c = true)
    (hafter : ∀ c ∈ after.toList, Text.isBlank c = true) :
    (∀ c, PaymentChallenge.header.decode
      (before ++ PaymentChallenge.header.encode c ++ after) = .ok c) ∧
    (∀ p, PaymentPayload.header.decode
      (before ++ PaymentPayload.header.encode p ++ after) = .ok p) ∧
    ∀ r, PaymentReceipt.header.decode
      (before ++ PaymentReceipt.header.encode r ++ after) = .ok r := by
  refine ⟨fun c => ?_, fun p => ?_, fun r => ?_⟩
  · exact PaymentChallenge.header.decode_encode c.isIntegral_toJson c.lenient_ofJson hbefore hafter
  · exact PaymentPayload.header.decode_encode p.isIntegral_toJson p.lenient_ofJson hbefore hafter
  · exact PaymentReceipt.header.decode_encode r.isIntegral_toJson r.lenient_ofJson hbefore hafter

def PaymentReceipt.sample : PaymentReceipt where
  success := false
  id := "p-\u00fc\n"
  network := ""
  transaction := none
  payer := some "\u007f\""
  failure := none

theorem PaymentHeader.round_trip_sample : PaymentReceipt.header.decode
    ("\u00a0\t" ++ PaymentReceipt.header.encode .sample ++ "\r\n") = .ok .sample :=
  (round_trip "\u00a0\t" "\r\n" (List.all_eq_true.mp rfl) (List.all_eq_true.mp rfl)).2.2 .sample

end PaymentTrust
