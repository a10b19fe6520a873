import PaymentTrust.Mandate.Wire
import PaymentTrust.Proofs.Json.Canonical

/-! The content of a payment is all of it but identifier, nonce, expiry and proof. Payments with one
fingerprint have the same content, or their canonical contents collide under SHA-256. -/
namespace PaymentTrust

namespace MandateKind

theorem name_injective {k k' : MandateKind} (h : k.name = k'.name) : k = k' := by
  cases k <;> cases k' <;> first | rfl | exact absurd h (by decide)

end MandateKind

namespace PaymentMandate

/-- The payments differ in nothing but identifier, nonce, expiry and proof. -/
def SameContent (p q : PaymentMandate) : Prop :=
  q = { p with header := { p.header with
    id := q.header.id, nonce := q.header.nonce, expires := q.header.expires,
    proof := q.header.proof } }

instance (p q : PaymentMandate) : Decidable (p.SameContent q) :=
  inferInstanceAs (Decidable (q = _))

def lasting (p : PaymentMandate) : List (String × Json) :=
  [("mandate_type", .string p.header.kind.name), ("issuer", .string p.header.issuer),
    ("subject", .string p.header.subject), ("domain", .string p.header.domain),
    ("purpose", .string p.header.purpose), ("chain", .string p.chain), ("token", .string p.token),
    ("amount_minor", .nat p.amount.toNat), ("destination", .string p.destination),
    ("audit_hash", .string p.auditHash)] ++
    Json.member? "merchant_domain" (p.merchantDomain.map .string) ++
    Json.member? "agent_presence" (p.agentPresence.map .string) ++
    Json.member? "transaction_modality" (p.modality.map .string)

theorem content_eq (p : PaymentMandate) : p.content = .object (Json.sortMembers p.lasting) := by
  cases p with
  | mk header chain token amount destination hash merchant presence modality =>
    unfold content
    congr 2
    cases merchant <;> cases presence <;> cases modality <;> rfl

theorem sameContent_of_content_eq {p q : PaymentMandate} (h : p.content = q.content) :
    p.SameContent q := by
  rw [content_eq, content_eq, Json.object.injEq] at h
  -- A member that is left out is looked up as none, so one look-up for each name tells all.
  have hlookup (key : String) : p.lasting.reverse.lookup key = q.lasting.reverse.lookup key := by
    rw [← Json.lookup_sortMembers, ← Json.lookup_sortMembers, h]
  simp only [lasting, List.reverse_append, List.lookup_append, Json.lookup_reverse_member?]
    at hlookup
  have kind : p.header.kind = q.header.kind :=
    MandateKind.name_injective (by simpa [Json.lookup_cons] using hlookup "mandate_type")
  have issuer : p.header.issuer = q.header.issuer := by
    simpa [Json.lookup_cons] using hlookup "issuer"
  have subject : p.header.subject = q.header.subject := by
    simpa [Json.lookup_cons] using hlookup "subject"
  have domain : p.header.domain = q.header.domain := by
    simpa [Json.lookup_cons] using hlookup "domain"
  have purpose : p.header.purpose = q.header.purpose := by
    simpa [Json.lookup_cons] using hlookup "purpose"
  have chain : p.chain = q.chain := by simpa [Json.lookup_cons] using hlookup "chain"
  have token : p.token = q.token := by simpa [Json.lookup_cons] using hlookup "token"
  have amount : p.amount = q.amount := by
    simpa [Json.lookup_cons, Json.nat, UInt64.toNat_inj] using hlookup "amount_minor"
  have destination : p.destination = q.destination := by
    simpa [Json.lookup_cons] using hlookup "destination"
  have auditHash : p.auditHash = q.auditHash := by
    simpa [Json.lookup_cons] using hlookup "audit_hash"
  have merchantDomain : p.merchantDomain = q.merchantDomain :=
    Option.map_injective (fun _ _ => Json.string.inj)
      (by simpa [Json.lookup_cons] using hlookup "merchant_domain")
  have agentPresence : p.agentPresence = q.agentPresence :=
    Option.map_injective (fun _ _ => Json.string.inj)
      (by simpa [Json.lookup_cons] using hlookup "agent_presence")
  have modality : p.modality = q.modality :=
    Option.map_injective (fun _ _ => Json.string.inj)
      (by simpa [Json.lookup_cons] using hlookup "transaction_modality")
  unfold SameContent
  cases p with
  | mk header =>
    cases q with
    | mk header' =>
      cases header
      cases header'
      simp_all

theorem content_eq_of_sameContent {p q : PaymentMandate} (h : p.SameContent q) :
    p.content = q.content := by
  have hlasting : q.lasting = p.lasting := by
    rw [h]
    rfl
  rw [content_eq, content_eq, hlasting]

theorem mem_member?_string {name : String} {text : Option String} {member : String × Json}
    (mem : member ∈ Json.member? name (text.map .string)) : ∃ s, member.2 = .string s := by
  cases text with
  | none => cases mem
  | some s => exact ⟨s, congrArg Prod.snd (List.mem_singleton.mp mem)⟩

theorem mem_lasting {p : PaymentMandate} {member : String × Json} (mem : member ∈ p.lasting) :
    (∃ s, member.2 = .string s) ∨ member.2 = .nat p.amount.toNat := by
  simp only [lasting, List.mem_append, or_assoc] at mem
  rcases mem with fixed | merchant | presence | modality
  · simp only [List.mem_cons, List.not_mem_nil, or_false] at fixed
    rcases fixed with h | h | h | h | h | h | h | h | h | h <;> rw [h] <;> simp
  · exact .inl (mem_member?_string merchant)
  · exact .inl (mem_member?_string presence)
  · exact .inl (mem_member?_string modality)

theorem isIntegral_content (p : PaymentMandate) : p.content.IsIntegral := by
  rw [content_eq, Json.IsIntegral, Json.membersAreIntegral_iff]
  intro member mem
  rcases mem_lasting (Json.mem_sortMembers mem) with ⟨s, text⟩ | amount
  · rw [text, Json.IsIntegral]
    trivial
  · have fits : p.amount.toNat < UInt64.size := p.amount.toNat_lt_size
    simp only [UInt64.size] at fits
    rw [amount, Json.nat, Json.IsIntegral]
    omega

theorem sorted_content (p : PaymentMandate) : p.content.sorted = p.content := by
  have scalar : ∀ member ∈ Json.sortMembers p.lasting, member.2.sorted = member.2 := by
    intro member mem
    rcases mem_lasting (Json.mem_sortMembers mem) with ⟨s, text⟩ | amount
    · rw [text]
      rfl
    · rw [amount]
      rfl
  rw [content_eq, Json.sorted, Json.sortedMembers_eq scalar, Json.sortMembers_sortMembers]

/-- Content is in canonical order from the start. Evaluated in this form, it is sorted only once. -/
theorem fingerprint_content (p : PaymentMandate) :
    p.content.fingerprint = Hex.encode (Digest.sha256 (Utf8.encode
      (Json.write Json.asciiOnly (.object (Json.sortMembers p.lasting))))) := by
  rw [Json.fingerprint, Json.canonical, sorted_content, content_eq, String.toList_ofList]

theorem sameContent_or_collide {p q : PaymentMandate}
    (h : p.content.fingerprint = q.content.fingerprint) :
    p.SameContent q ∨ Json.Collide p.content q.content := by
  rcases Json.sorted_eq_or_collide p.isIntegral_content q.isIntegral_content h with same | collide
  · rw [sorted_content, sorted_content] at same
    exact .inl (sameContent_of_content_eq same)
  · exact .inr collide

end PaymentMandate

end PaymentTrust
