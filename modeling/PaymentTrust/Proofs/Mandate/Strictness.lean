import PaymentTrust.Mandate.Error
import PaymentTrust.Proofs.Json.Fields
import PaymentTrust.Proofs.Json.Path
import PaymentTrust.Proofs.Mandate.Wire

/-! Bundles are read strictly. Each object of a value that is read as one has only members that are
named for it, and has all those that it must have. -/
namespace PaymentTrust

open Json Json.Record

theorem readMandate_eq_ok {α : Type} {slot : MandateKind} {own : Record (MandateHeader → α)}
    {v : Json} {a : α} (h : readMandate slot own v = .ok a) : ∃ members, v = .object members ∧
      (∀ member ∈ members, member.1 ∈ MandateHeader.record.names ++ own.names) ∧
      (∃ make, own.decodeMembers false (Draft.ofMembers members) = .ok make) ∧
      ∃ header,
        MandateHeader.record.decodeMembers false (Draft.ofMembers members) = .ok header := by
  cases v with
  | object members =>
    simp only [readMandate] at h
    split at h
    · cases h
    · rename_i known
      simp only [Outcome.mapError_eq_ok, Outcome.bind_eq_ok] at h
      obtain ⟨make, hmake, header, hheader, -⟩ := h
      refine ⟨members, rfl, fun member mem => ?_, ⟨make, hmake⟩, header, hheader⟩
      have known := List.find?_eq_none.mp known member mem
      simpa [Json.Record.names, or_iff_not_imp_left] using known
  | _ => cases h

namespace MandateBundle

inductive Place where
  | bundle
  | mandate (slot : MandateKind)
  | proof (slot : MandateKind)
  | item (index : Nat)

namespace Place

def path : Place → List Selector
  | bundle => []
  | mandate slot => [.member slot.name]
  | proof slot => [.member slot.name, .member "proof"]
  | item index => [.member "cart", .member "line_items", .item index]

def headerNames : List String :=
  ["mandate_id", "mandate_type", "issuer", "subject", "expires_at", "nonce", "proof", "domain",
    "purpose"]

def ownNames : MandateKind → List String
  | .intent => ["scope"]
  | .cart => ["line_items", "merchant_domain", "currency", "subtotal_minor", "taxes_minor"]
  | .payment => ["chain", "token", "amount_minor", "destination", "audit_hash"]

/-- The members that must be there, each with every name that it can have. -/
def required : Place → List (List String)
  | bundle => [["intent"], ["cart"], ["payment"]]
  | mandate slot => (headerNames ++ ownNames slot).map fun name => [name]
  | proof _ => [["verification_method"], ["created"], ["proof_purpose"], ["proof_value"]]
  | item _ => [["id", "sku"], ["quantity"], ["price_minor"]]

def optional : Place → List String
  | mandate .intent => ["requested_amount"]
  | mandate .payment => ["merchant_domain", "agent_presence", "transaction_modality"]
  | item _ => ["name"]
  | _ => []

def names (p : Place) : List String :=
  p.required.flatten ++ p.optional

/-- Whether an object at this place has named members only, and each required one of them once. -/
structure Describes (p : Place) (members : List (String × Json)) : Prop where
  named : ∀ member ∈ members, member.1 ∈ p.names
  complete : ∀ names ∈ p.required, StandsUnderOne names members

end Place

instance : Proof.record.Requires
    ["verification_method", "created", "proof_purpose", "proof_value"] := by
  unfold Proof.record
  infer_instance

instance : LineItem.record.Requires ["id", "quantity", "price_minor"] := by
  unfold LineItem.record
  infer_instance

instance : MandateHeader.record.Requires Place.headerNames := by
  unfold MandateHeader.record
  infer_instance

instance : IntentMandate.record.Requires (Place.ownNames .intent) := by
  unfold IntentMandate.record
  infer_instance

instance : CartMandate.record.Requires (Place.ownNames .cart) := by
  unfold CartMandate.record
  infer_instance

instance : PaymentMandate.record.Requires (Place.ownNames .payment) := by
  unfold PaymentMandate.record
  infer_instance

namespace Place

theorem describes_of_strict_proof (slot : MandateKind) {members : List (String × Json)} {p : Proof}
    (h : Proof.record.strict (Draft.ofJson (.object members)) = .ok p) :
    (proof slot).Describes members where
  named := mem_keys_of_strict h
  complete := standsUnderOne_of_mem_required (by decide) h

theorem describes_of_strict_item (index : Nat) {members : List (String × Json)} {i : LineItem}
    (h : LineItem.record.strict (Draft.ofJson (.object members)) = .ok i) :
    (item index).Describes members where
  named member mem :=
    (by decide : LineItem.record.keys ⊆ (item 0).names) (mem_keys_of_strict h member mem)
  complete := standsUnderOne_of_mem_required (by decide) h

theorem strict_of_readMandate {α : Type} {slot : MandateKind}
    {own : Record (MandateHeader → α)} [own.Requires (ownNames slot)] (proper : own.keys.Nodup)
    (named : MandateHeader.record.names ++ own.names ⊆ (mandate slot).names)
    (required : (mandate slot).required =
      (MandateHeader.record.fields.filter (headerNames.contains ·.name)).map Field.keys ++
        (own.fields.filter ((ownNames slot).contains ·.name)).map Field.keys)
    {v : Json} {a : α} (h : readMandate slot own v = .ok a) :
    ∃ members, v = .object members ∧ (mandate slot).Describes members ∧
      ∃ header,
        MandateHeader.record.decodeMembers false (Draft.ofMembers members) = .ok header := by
  obtain ⟨members, rfl, known, ⟨make, hmake⟩, header, hheader⟩ := readMandate_eq_ok h
  refine ⟨members, rfl, ⟨fun member mem => named (known member mem), ?_⟩, header, hheader⟩
  rw [required, List.forall_mem_append]
  exact ⟨standsUnderOne_of_mem_required (by decide) hheader,
    standsUnderOne_of_mem_required proper hmake⟩

theorem strict_of_mandate {slot : MandateKind} {v : Json} {m : Mandate}
    (h : Mandate.ofJson slot v = .ok m) :
    ∃ members, v = .object members ∧ (mandate slot).Describes members ∧
      ∃ header,
        MandateHeader.record.decodeMembers false (Draft.ofMembers members) = .ok header := by
  cases slot
  all_goals
    obtain ⟨_, h, -⟩ := Outcome.map_eq_ok.mp h
    exact strict_of_readMandate (by decide) (by decide) rfl h

theorem strict_of_proof {members : List (String × Json)} {header : MandateHeader}
    (h : MandateHeader.record.decodeMembers false (Draft.ofMembers members) = .ok header) {v : Json}
    (found : members.lookup "proof" = some v) :
    ∃ p, Proof.record.strict (Draft.ofJson v) = .ok p := by
  have checked := check_of_decodeMembers (by decide) (by decide) h
    (f := ⟨"proof", [], none, fun d => (Proof.record.strict d).map fun _ => ()⟩)
    (List.mem_of_getElem? (i := 6) rfl) found
  obtain ⟨p, read, -⟩ := Outcome.map_eq_ok.mp checked
  exact ⟨p, read⟩

theorem strict_of_item {members : List (String × Json)} {m : CartMandate}
    (h : CartMandate.ofJson (.object members) = .ok m) {items : List Json}
    (found : members.lookup "line_items" = some (.array items)) :
    ∀ v ∈ items, ∃ i, LineItem.record.strict (Draft.ofJson v) = .ok i := by
  obtain ⟨_, ⟨⟩, -, ⟨make, hmake⟩, -⟩ := readMandate_eq_ok h
  have checked := check_of_decodeMembers (by decide) (by decide) hmake
    (f := ⟨"line_items", [], none, fun d => (LineItem.record.strict.list d).map fun _ => ()⟩)
    (List.mem_of_getElem? (i := 0) rfl) found
  obtain ⟨values, read, -⟩ := Outcome.map_eq_ok.mp checked
  exact Decoder.of_eachItem read

end Place

theorem slot_eq_ok_iff {slot : MandateKind} {found : Option Json} {w : Json} :
    (match found with
      | some v => .ok v
      | none => .error (.bundleMissing slot) : Except MandateFault Json) = .ok w ↔
        found = some w := by
  cases found <;> simp

theorem ofJson_eq_ok {v : Json} {b : MandateBundle} (h : ofJson v = .ok b) :
    ∃ slots, v = .object slots ∧ (∀ member ∈ slots, member.1 ∈ Place.bundle.names) ∧
      ∀ slot : MandateKind, ∃ w m, slots.lookup slot.name = some w ∧
        Mandate.ofJson slot w = .ok m := by
  cases v with
  | object slots =>
    simp only [ofJson] at h
    split at h
    · cases h
    · rename_i known
      simp only [Outcome.bind_eq_ok] at h
      obtain ⟨intent, hintent, cart, hcart, payment, hpayment, i, hi, c, hc, p, hp, -⟩ := h
      refine ⟨slots, rfl, fun member mem => ?_, fun slot => ?_⟩
      · have known := List.find?_eq_none.mp known member mem
        simpa [Place.names, Place.required, Place.optional, or_iff_not_imp_left] using known
      · cases slot with
        | intent =>
          exact ⟨_, _, slot_eq_ok_iff.mp hintent, Outcome.map_eq_ok.mpr ⟨i, hi, rfl⟩⟩
        | cart =>
          exact ⟨_, _, slot_eq_ok_iff.mp hcart, Outcome.map_eq_ok.mpr ⟨c, hc, rfl⟩⟩
        | payment =>
          exact ⟨_, _, slot_eq_ok_iff.mp hpayment, Outcome.map_eq_ok.mpr ⟨p, hp, rfl⟩⟩
  | _ => cases h

def IsRefused (v : Json) : Prop :=
  ∃ fault, ofJson v = .error fault ∧
    Explained.reason (MandateError.malformed fault) = "malformed_bundle"

theorem isRefused_iff {v : Json} : IsRefused v ↔ ∀ b, ofJson v ≠ .ok b := by
  unfold IsRefused
  cases ofJson v with
  | error fault =>
    constructor
    · rintro - b ⟨⟩
    · exact fun _ => ⟨fault, rfl, rfl⟩
  | ok b =>
    constructor
    · rintro ⟨fault, h, -⟩
      cases h
    · exact fun h => absurd rfl (h b)

theorem exists_mandate_at {v : Json} {b : MandateBundle} (h : ofJson v = .ok b) {slot : MandateKind}
    {path : List Selector} {inner : Json} (found : v.at? (.member slot.name :: path) = some inner) :
    ∃ members m, Mandate.ofJson slot (.object members) = .ok m ∧
      (Json.object members).at? path = some inner := by
  obtain ⟨slots, rfl, -, read⟩ := ofJson_eq_ok h
  obtain ⟨w, m, hw, hm⟩ := read slot
  obtain ⟨_, here, there⟩ := at?_cons_eq_some_iff.mp found
  obtain rfl := Option.some.inj (hw.symm.trans here)
  obtain ⟨members, rfl, -⟩ := Place.strict_of_mandate hm
  exact ⟨members, m, hm, there⟩

theorem describes_of_ofJson {v : Json} {b : MandateBundle} (h : ofJson v = .ok b) {place : Place}
    {members : List (String × Json)} (found : v.at? place.path = some (.object members)) :
    place.Describes members := by
  cases place with
  | bundle =>
    obtain ⟨slots, rfl, known, read⟩ := ofJson_eq_ok h
    obtain rfl := Json.object.inj (Option.some.inj found)
    have slots_eq : Place.bundle.required =
        [MandateKind.intent, .cart, .payment].map fun slot => [slot.name] := rfl
    refine ⟨known, ?_⟩
    rw [slots_eq, List.forall_mem_map]
    intro slot _
    obtain ⟨w, m, hw, -⟩ := read slot
    exact standsUnderOne_of_lookup hw
  | mandate slot =>
    obtain ⟨_, m, hm, ⟨⟩⟩ := exists_mandate_at h found
    obtain ⟨_, ⟨⟩, describes, -⟩ := Place.strict_of_mandate hm
    exact describes
  | proof slot =>
    obtain ⟨inner, m, hm, found⟩ := exists_mandate_at h found
    obtain ⟨_, ⟨⟩, -, header, hheader⟩ := Place.strict_of_mandate hm
    obtain ⟨_, here, ⟨⟩⟩ := at?_cons_eq_some_iff.mp found
    obtain ⟨p, hp⟩ := Place.strict_of_proof hheader here
    exact Place.describes_of_strict_proof slot hp
  | item index =>
    obtain ⟨inner, m, hm, found⟩ := @exists_mandate_at _ _ h .cart _ _ found
    obtain ⟨c, hc, -⟩ := Outcome.map_eq_ok.mp hm
    obtain ⟨list, here, found⟩ := at?_cons_eq_some_iff.mp found
    obtain ⟨_, there, ⟨⟩⟩ := at?_cons_eq_some_iff.mp found
    cases list with
    | array items =>
      obtain ⟨i, hi⟩ := Place.strict_of_item hc here _ (List.mem_of_getElem? there)
      exact Place.describes_of_strict_item index hi
    | _ => cases there

/-- Each member of an object of a value that is read as a bundle has one of the names for that object.
With a member of any other name there, and without any of those that are required, the value is refused.
-/
theorem ofJson_strict {v : Json} {b : MandateBundle} (h : ofJson v = .ok b) {place : Place}
    {members : List (String × Json)} (found : v.at? place.path = some (.object members)) :
    (∀ member ∈ members, member.1 ∈ place.names) ∧
      (∀ before after key value, members = before ++ after → key ∉ place.names →
        IsRefused (put (.object (before ++ (key, value) :: after)) place.path v)) ∧
      ∀ names ∈ place.required, StandsUnderOne names members ∧
        ∀ key ∈ names, key ∈ members.map Prod.fst →
          IsRefused (put (.object (members.filter (·.1 ≠ key))) place.path v) := by
  have describes := describes_of_ofJson h found
  refine ⟨describes.named, ?_, fun names mem => ⟨describes.complete names mem, ?_⟩⟩
  · intro before after key value _ unnamed
    rw [isRefused_iff]
    intro b' h'
    have named := (describes_of_ofJson h' (at?_put found _)).named
    exact unnamed (named (key, value) (List.mem_append_right before List.mem_cons_self))
  · intro key own present
    rw [isRefused_iff]
    intro b' h'
    have describes' := describes_of_ofJson h' (at?_put found _)
    obtain ⟨other, ⟨hother, kept⟩, -⟩ := describes'.complete names mem
    obtain ⟨member, hmember, rfl⟩ := List.mem_map.mp kept
    obtain ⟨mem', differs⟩ := List.mem_filter.mp hmember
    -- Another of the names would be there besides the one that was taken away.
    have same := (describes.complete names mem).unique ⟨hother, List.mem_map_of_mem mem'⟩
      ⟨own, present⟩
    exact of_decide_eq_true differs same

namespace Sample

/-- An item under its other name, with its price as a string and without a display name. -/
def aliasedItem : List (String × Json) :=
  [("sku", .string "sku-1"), ("quantity", .nat 2), ("price_minor", .string "5")]

def aliased : Json :=
  put (.object aliasedItem) (Place.item 0).path bundle.toJson

end Sample

theorem ofJson_strict_aliased : ofJson Sample.aliased = .ok Sample.bundle ∧
    IsRefused (put (.object (("note", .null) :: Sample.aliasedItem)) (Place.item 0).path
      Sample.aliased) ∧
    IsRefused (put (.object (Sample.aliasedItem.filter (·.1 ≠ "sku"))) (Place.item 0).path
      Sample.aliased) := by
  have read : ofJson Sample.aliased = .ok Sample.bundle := by rfl
  have found : Sample.aliased.at? (Place.item 0).path = some (.object Sample.aliasedItem) := rfl
  obtain ⟨-, added, removed⟩ := ofJson_strict read found
  refine ⟨read, added [] Sample.aliasedItem "note" .null rfl (by decide), ?_⟩
  exact (removed ["id", "sku"] (by decide)).2 "sku" (by decide) (by decide)

end MandateBundle

end PaymentTrust
