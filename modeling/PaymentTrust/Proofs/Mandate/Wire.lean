import PaymentTrust.Mandate.Wire
import PaymentTrust.Proofs.Json.Record
import PaymentTrust.Proofs.Mandate.Spelling
import PaymentTrust.Proofs.Timestamp

/-! Bundles of mandates are read back from their JSON, however their amounts and times are spelled. -/
namespace PaymentTrust

open Json Json.Record

/-- Under each key is found what a respelled object holds there, with its own members in order. -/
structure Finds (members : List (String × Json)) (find : String → Option Draft) : Prop where
  absent {key : String} : members.lookup key = none → find key = none
  present {key : String} {v : Json} : members.lookup key = some v →
    ∃ w, RespelledAt key v w ∧ find key = some (Draft.ofJson w.sorted)

section

variable {α : Type} {members members' : List (String × Json)}
  (respelled : MembersRespelled members members')

include respelled

theorem finds_of_respelled :
    Finds members fun key => (members'.lookup key).map fun w => Draft.ofJson w.sorted where
  absent h := by
    rw [lookup_of_respelled_eq_none respelled h]
    rfl
  present h := by
    obtain ⟨w, hw, hat⟩ := exists_lookup_of_respelled respelled h
    rw [hw]
    exact ⟨w, hat, rfl⟩

theorem decodeMembers_of_respelled {r : Record α} [r.Lawful] {closed : Bool}
    (proper : r.keys.Nodup) (admits : r.Admits closed members) (distinct : HaveDistinctKeys members)
    {a : α} (makes : ∀ find, Finds members find → r.Makes find a) :
    r.decodeMembers closed (Draft.ofMembers (sortMembers (sortedMembers members'))) = .ok a := by
  have distinct' : HaveDistinctKeys members' := by
    rwa [HaveDistinctKeys, keys_of_membersRespelled respelled]
  have hsorted := haveDistinctKeys_sortedMembers.mpr distinct'
  have hinner := (inOrder_sortMembers (sortedMembers members')).haveDistinctKeys
  have admits' : r.Admits closed (sortMembers (sortedMembers members')) := by
    apply forall_mem_sorted
    intro member mem
    obtain ⟨v, hv, -⟩ := exists_of_mem_membersRespelled respelled member mem
    exact admits (member.1, v) hv
  have hlookup (key : String) : (sortMembers (sortedMembers members')).lookup key =
      (members'.lookup key).map sorted := by
    rw [(perm_iff_lookup hinner hsorted).mp (perm_sortMembers hsorted), lookup_sortedMembers]
  apply decodeMembers_ofMembers proper admits' hinner
  simp only [hlookup, Option.map_map]
  exact makes _ (finds_of_respelled respelled)

end

section

variable {α : Type} {w : Json}

theorem strict_of_respelled {r : Record α} [r.Lawful] (proper : r.keys.Nodup)
    {members : List (String × Json)} (keys : (members.map Prod.fst).Sublist r.names) {a : α}
    (makes : ∀ find, Finds members find → r.Makes find a)
    (respelled : (Json.object members).Respelled w) : r.strict (Draft.ofJson w.sorted) = .ok a := by
  obtain ⟨members', rfl, h⟩ := respelled
  have admits : r.Admits true members :=
    fun member mem => .inl (keys.subset (List.mem_map_of_mem mem))
  exact decodeMembers_of_respelled h proper admits (haveDistinctKeys_of_sublist proper keys) makes

theorem list_of_respelled {decoder : Decoder α} {toJson : α → Json}
    (reads : ∀ a w, (toJson a).Respelled w → decoder (Draft.ofJson w.sorted) = .ok a)
    {items : List α} (respelled : (Json.array (items.map toJson)).Respelled w) :
    Decoder.list decoder (Draft.ofJson w.sorted) = .ok items := by
  obtain ⟨items', rfl, h⟩ := respelled
  change Decoder.eachItem decoder (Draft.ofJsons (sortedItems items')) = .ok items
  induction items generalizing items' with
  | nil =>
    rw [List.map_nil, ItemsRespelled] at h
    rw [h]
    rfl
  | cons a items ih =>
    obtain ⟨w, rest, rfl, hfirst, hrest⟩ := h
    rw [sortedItems, Draft.ofJsons, Decoder.eachItem, reads a w hfirst, ih rest hrest]
    rfl

theorem amount_of_spellsWord {n : UInt64} (h : w.SpellsWord n) :
    Decoder.amount (Draft.ofJson w.sorted) = .ok n := by
  rcases h with rfl | rfl
  · exact Decoder.amount_integer n
  · exact Decoder.amount_write n

theorem nullable_of_spellsWord {n : UInt64} (h : w.SpellsWord n) :
    Decoder.amount.nullable (Draft.ofJson w.sorted) = .ok (some n) := by
  have hamount : Decoder.amount.nullable (Draft.ofJson w.sorted) =
      (Decoder.amount (Draft.ofJson w.sorted)).map some := by
    rcases h with rfl | rfl <;> rfl
  rw [hamount, amount_of_spellsWord h]
  rfl

end

namespace Finds

variable {members : List (String × Json)} {find : String → Option Draft} (finds : Finds members find)
  {key : String}

include finds

theorem respelled {v : Json} (h : members.lookup key = some v) (other : key ∉ wordKeys) :
    ∃ w, v.Respelled w ∧ find key = some (Draft.ofJson w.sorted) := by
  obtain ⟨w, hw, hfind⟩ := finds.present h
  exact ⟨w, hw.resolve_right fun word => other word.1, hfind⟩

theorem found {v : Json} (h : members.lookup key = some v) (other : key ∉ wordKeys)
    (scalar : ∀ w, v.Respelled w → w = v) : find key = some (Draft.ofJson v.sorted) := by
  obtain ⟨w, hw, hfind⟩ := finds.respelled h other
  rw [hfind, scalar w hw]

theorem text {s : String} (h : members.lookup key = some (.string s)) (other : key ∉ wordKeys) :
    (required key .text).Makes find s :=
  makes_required (finds.found h other fun _ same => same) rfl

theorem optionalText {value : Option String} (h : members.lookup key = value.map .string)
    (other : key ∉ wordKeys) : (Record.optional key .text).Makes find value := by
  apply makes_optionalText
  cases value with
  | none => exact finds.absent h
  | some s => exact finds.found h other fun _ same => same

theorem amount {n : UInt64} (h : members.lookup key = some (.nat n.toNat)) :
    (required key .amount).Makes find n := by
  obtain ⟨w, hw, hfind⟩ := finds.present h
  have hspells : (nat n.toNat).SpellsWord n := .inl rfl
  exact makes_required hfind (amount_of_spellsWord (hspells.of_respelledAt hw))

theorem optionalAmount {value : Option UInt64}
    (h : members.lookup key = value.map fun n => .nat n.toNat) :
    (Record.optional key .amount).Makes find value := by
  cases value with
  | none => exact makes_absent (finds.absent h)
  | some n =>
    obtain ⟨w, hw, hfind⟩ := finds.present h
    have hspells : (nat n.toNat).SpellsWord n := .inl rfl
    exact makes_optional hfind (nullable_of_spellsWord (hspells.of_respelledAt hw))

theorem time {t : Timestamp} (h : members.lookup key = some t.toJson) :
    (required key Timestamp.decode).Makes find t := by
  obtain ⟨w, hw, hfind⟩ := finds.present h
  have hspells : t.toJson.SpellsWord t.seconds := .inr rfl
  apply makes_required hfind
  rw [Timestamp.decode, amount_of_spellsWord (hspells.of_respelledAt hw)]
  rfl

end Finds

instance : Proof.record.Lawful := by
  unfold Proof.record
  infer_instance

theorem Proof.strict_of_respelled (p : Proof) {w : Json} (respelled : p.toJson.Respelled w) :
    record.strict (Draft.ofJson w.sorted) = .ok p := by
  refine PaymentTrust.strict_of_respelled ?_ ?_ ?_ respelled
  · decide
  · exact List.Sublist.refl _
  · intro find finds
    refine .seq (.seq (.seq (.map _ ?_) ?_) ?_) ?_
    · exact finds.text rfl (by decide)
    · exact finds.time rfl
    · exact finds.text rfl (by decide)
    · exact finds.text rfl (by decide)

theorem MandateKind.decode_name (k : MandateKind) : decode (.string (some k.name)) = .ok k := by
  cases k <;> rfl

instance : MandateHeader.record.Lawful := by
  unfold MandateHeader.record
  infer_instance

theorem MandateHeader.makes (h : MandateHeader) {members : List (String × Json)}
    {find : String → Option Draft} (finds : Finds members find)
    (has : ∀ key v, h.members.lookup key = some v → members.lookup key = some v) :
    record.Makes find h := by
  obtain ⟨w, hw, hproof⟩ := finds.respelled (has "proof" h.proof.toJson rfl) (by decide)
  refine .seq (.seq (.seq (.seq (.seq (.seq (.seq (.seq (.map _ ?_) ?_) ?_) ?_) ?_) ?_) ?_) ?_) ?_
  · exact finds.text (has _ _ rfl) (by decide)
  · exact makes_required (finds.found (has _ _ rfl) (by decide) fun _ same => same)
      h.kind.decode_name
  · exact finds.text (has _ _ rfl) (by decide)
  · exact finds.text (has _ _ rfl) (by decide)
  · exact finds.time (has _ _ rfl)
  · exact finds.text (has _ _ rfl) (by decide)
  · exact makes_required hproof (h.proof.strict_of_respelled hw)
  · exact finds.text (has _ _ rfl) (by decide)
  · exact finds.text (has _ _ rfl) (by decide)

theorem Proof.fits (p : Proof) (room : Nat) : p.toJson.Fits (room + 1) := by
  rw [toJson, fits_object]
  refine ⟨by simp [HaveDistinctKeys], ?_⟩
  simp [Timestamp.toJson]

theorem MandateHeader.fits (h : MandateHeader) (room : Nat) :
    ∀ member ∈ h.members, member.2.Fits (room + 1) := by
  simp [members, Timestamp.toJson, h.proof.fits]

section

variable (header : MandateHeader) {members : List (String × Json)} {others : List String}
  (apart : (MandateHeader.record.names ++ others).Nodup)
  (keys : (members.map Prod.fst).Sublist others)

include keys

theorem MandateHeader.keys_sublist : ((header.members ++ members).map Prod.fst).Sublist
    (record.names ++ others) := by
  rw [List.map_append]
  exact (List.Sublist.refl _).append keys

include apart

theorem MandateHeader.fits_object {room : Nat} (fits : ∀ member ∈ members, member.2.Fits (room + 1)) :
    (Json.object (header.members ++ members)).Fits (room + 2) := by
  rw [Json.fits_object]
  refine ⟨apart.sublist (header.keys_sublist keys), ?_⟩
  rw [List.forall_mem_append]
  exact ⟨header.fits room, fits⟩

end

theorem readMandate_of_respelled {α : Type} (own : Json.Record (MandateHeader → α)) [own.Lawful]
    (make : MandateHeader → α) {slot : MandateKind} {header : MandateHeader}
    {members : List (String × Json)} (plain : own.keys = own.names)
    (apart : (MandateHeader.record.names ++ own.names).Nodup)
    (keys : (members.map Prod.fst).Sublist own.names)
    (makes : ∀ find, Finds (header.members ++ members) find → own.Makes find make) {w : Json}
    (respelled : (Json.object (header.members ++ members)).Respelled w) :
    readMandate slot own w.sorted = .ok (make header) := by
  obtain ⟨members', rfl, h⟩ := respelled
  have proper : own.keys.Nodup := plain ▸ (List.nodup_append.mp apart).2.1
  have hkeys := header.keys_sublist keys
  have distinct : HaveDistinctKeys (header.members ++ members) := apart.sublist hkeys
  have hunknown : (sortMembers (sortedMembers members')).find? (fun member =>
      !(MandateHeader.record.fields ++ own.fields).any (·.name == member.1)) = none := by
    rw [List.find?_eq_none]
    apply forall_mem_sorted
    intro member mem
    obtain ⟨v, hv, -⟩ := exists_of_mem_membersRespelled h member mem
    have hname := hkeys.subset (List.mem_map_of_mem hv)
    rw [names, names, ← List.map_append] at hname
    obtain ⟨f, hf, hname⟩ := List.mem_map.mp hname
    have hany : (MandateHeader.record.fields ++ own.fields).any (·.name == member.1) = true :=
      List.any_eq_true.mpr ⟨f, hf, beq_iff_eq.mpr hname⟩
    simp only [hany, Bool.not_true, Bool.false_eq_true, not_false_eq_true]
  -- Both records read the same members, and each passes over those of the other.
  have hown := decodeMembers_of_respelled h proper (admits_of_plain plain _) distinct makes
  have hheader : MandateHeader.record.decodeMembers false
      (Draft.ofMembers (sortMembers (sortedMembers members'))) = .ok header := by
    apply decodeMembers_of_respelled h (by decide) (admits_of_plain (by decide) _) distinct
    intro find finds
    apply header.makes finds
    intro key v hv
    rw [List.lookup_append, hv]
    rfl
  rw [sorted, readMandate]
  simp only [hunknown, hown, hheader]
  rfl

namespace IntentMandate

instance : record.Lawful := by
  unfold record
  infer_instance

def ownMembers (m : IntentMandate) : List (String × Json) :=
  [("scope", .array (m.scope.map .string))] ++
    member? "requested_amount" (m.requestedAmount.map fun n => .nat n.toNat)

theorem toJson_eq (m : IntentMandate) : m.toJson = .object (m.header.members ++ m.ownMembers) := by
  rw [toJson, List.append_assoc]
  rfl

theorem keys_ownMembers (m : IntentMandate) :
    (m.ownMembers.map Prod.fst).Sublist record.names := by
  rw [ownMembers, List.map_append]
  exact (List.Sublist.refl _).append (keys_member?_sublist _ _)

theorem fits (m : IntentMandate) (room : Nat) : m.toJson.Fits (room + 2) := by
  rw [toJson_eq]
  refine m.header.fits_object (by decide) m.keys_ownMembers ?_
  rw [ownMembers, List.forall_mem_append, List.forall_mem_singleton, fits_array, List.forall_mem_map]
  refine ⟨fun s _ => fits_string room s, ?_⟩
  apply forall_mem_member?
  intro v hv
  obtain ⟨n, -, rfl⟩ := Option.map_eq_some_iff.mp hv
  exact fits_nat n.toNat_lt_size _

theorem ofJson_of_respelled (m : IntentMandate) {w : Json} (respelled : m.toJson.Respelled w) :
    ofJson w.sorted = .ok m := by
  rw [toJson_eq] at respelled
  refine readMandate_of_respelled record (fun header => ⟨header, m.scope, m.requestedAmount⟩)
    ?_ ?_ ?_ ?_ respelled
  · decide
  · decide
  · exact m.keys_ownMembers
  · intro find finds
    have hscope : (m.header.members ++ m.ownMembers).lookup "scope" =
      some (.array (m.scope.map .string)) := rfl
    refine .seq (.map _ ?_) ?_
    · obtain ⟨w, hw, hfind⟩ := finds.respelled hscope (by decide)
      apply makes_required hfind
      apply list_of_respelled (fun s w hs => ?_) hw
      rw [hs]
      rfl
    · apply finds.optionalAmount
      simp [ownMembers, lookup_cons, lookup_member?, MandateHeader.members]

end IntentMandate

instance : LineItem.record.Lawful := by
  unfold LineItem.record
  infer_instance

theorem LineItem.strict_of_respelled (i : LineItem) {w : Json} (respelled : i.toJson.Respelled w) :
    record.strict (Draft.ofJson w.sorted) = .ok i := by
  refine PaymentTrust.strict_of_respelled ?_ ?_ ?_ respelled
  · decide
  · exact List.Sublist.refl _
  · intro find finds
    refine .seq (.seq (.seq (.map _ ?_) ?_) ?_) ?_
    · exact makes_requiredAs (finds.found rfl (by decide) fun _ same => same) rfl
    · exact makes_withDefault (finds.found rfl (by decide) fun _ same => same) rfl
    · exact makes_required (finds.found rfl (by decide) fun _ same => same)
        (Decoder.word32_integer i.quantity)
    · exact finds.amount rfl

theorem LineItem.toJson_eq (i : LineItem) : i.toJson =
    .object [("id", .string i.id), ("name", .string i.name), ("quantity", .nat i.quantity.toNat),
      ("price_minor", .nat i.price.toNat)] :=
  rfl

theorem LineItem.fits (i : LineItem) (room : Nat) : i.toJson.Fits (room + 1) := by
  rw [toJson_eq, fits_object]
  have hquantity : i.quantity.toNat < UInt64.size :=
    Nat.lt_trans i.quantity.toNat_lt_size (by decide)
  refine ⟨by simp [HaveDistinctKeys], ?_⟩
  simp only [List.forall_mem_cons, List.not_mem_nil, false_implies, implies_true, and_true,
    fits_string, true_and]
  exact ⟨fits_nat hquantity room, fits_nat i.price.toNat_lt_size room⟩

namespace CartMandate

instance : record.Lawful := by
  unfold record
  infer_instance

def ownMembers (m : CartMandate) : List (String × Json) :=
  [("line_items", .array (m.items.map LineItem.toJson)),
    ("merchant_domain", .string m.merchantDomain), ("currency", .string m.currency),
    ("subtotal_minor", .nat m.subtotal.toNat), ("taxes_minor", .nat m.taxes.toNat)]

theorem toJson_eq (m : CartMandate) : m.toJson = .object (m.header.members ++ m.ownMembers) :=
  rfl

theorem keys_ownMembers (m : CartMandate) :
    (m.ownMembers.map Prod.fst).Sublist record.names :=
  List.Sublist.refl _

theorem fits (m : CartMandate) (room : Nat) : m.toJson.Fits (room + 3) := by
  rw [toJson_eq]
  refine m.header.fits_object (by decide) m.keys_ownMembers ?_
  simp only [ownMembers, List.forall_mem_cons, List.not_mem_nil, false_implies, implies_true,
    and_true, fits_string, true_and]
  refine ⟨?_, fits_nat m.subtotal.toNat_lt_size _, fits_nat m.taxes.toNat_lt_size _⟩
  rw [fits_array, List.forall_mem_map]
  exact fun i _ => i.fits room

theorem ofJson_of_respelled (m : CartMandate) {w : Json} (respelled : m.toJson.Respelled w) :
    ofJson w.sorted = .ok m := by
  rw [toJson_eq] at respelled
  refine readMandate_of_respelled record (fun header =>
    ⟨header, m.items, m.merchantDomain, m.currency, m.subtotal, m.taxes⟩) ?_ ?_ ?_ ?_ respelled
  · decide
  · decide
  · exact m.keys_ownMembers
  · intro find finds
    have hitems : (m.header.members ++ m.ownMembers).lookup "line_items" =
      some (.array (m.items.map LineItem.toJson)) := rfl
    obtain ⟨w, hw, hfind⟩ := finds.respelled hitems (by decide)
    refine .seq (.seq (.seq (.seq (.map _ ?_) ?_) ?_) ?_) ?_
    · exact makes_required hfind (list_of_respelled (fun i _ => i.strict_of_respelled) hw)
    · exact finds.text rfl (by decide)
    · exact finds.text rfl (by decide)
    · exact finds.amount rfl
    · exact finds.amount rfl

end CartMandate

namespace PaymentMandate

instance : record.Lawful := by
  unfold record
  infer_instance

def ownMembers (m : PaymentMandate) : List (String × Json) :=
  [("chain", .string m.chain), ("token", .string m.token), ("amount_minor", .nat m.amount.toNat),
      ("destination", .string m.destination), ("audit_hash", .string m.auditHash)] ++
    member? "merchant_domain" (m.merchantDomain.map .string) ++
    member? "agent_presence" (m.agentPresence.map .string) ++
    member? "transaction_modality" (m.modality.map .string)

theorem toJson_eq (m : PaymentMandate) : m.toJson = .object (m.header.members ++ m.ownMembers) := by
  simp only [toJson, members, ownMembers, List.append_assoc]
  rfl

theorem keys_ownMembers (m : PaymentMandate) :
    (m.ownMembers.map Prod.fst).Sublist record.names := by
  rw [ownMembers, List.map_append, List.map_append, List.map_append]
  exact (((List.Sublist.refl _).append (keys_member?_sublist _ _)).append
    (keys_member?_sublist _ _)).append (keys_member?_sublist _ _)

theorem fits (m : PaymentMandate) (room : Nat) : m.toJson.Fits (room + 2) := by
  have hoptional (name : String) (value : Option String) :
      ∀ member ∈ member? name (value.map .string), member.2.Fits (room + 1) := by
    apply forall_mem_member?
    intro v hv
    obtain ⟨s, -, rfl⟩ := Option.map_eq_some_iff.mp hv
    exact fits_string _ s
  rw [toJson_eq]
  refine m.header.fits_object (by decide) m.keys_ownMembers ?_
  simp only [ownMembers, List.forall_mem_append]
  refine ⟨⟨⟨?_, hoptional _ _⟩, hoptional _ _⟩, hoptional _ _⟩
  simp [fits_nat m.amount.toNat_lt_size]

theorem ofJson_of_respelled (m : PaymentMandate) {w : Json} (respelled : m.toJson.Respelled w) :
    ofJson w.sorted = .ok m := by
  rw [toJson_eq] at respelled
  refine readMandate_of_respelled record (fun header =>
    ⟨header, m.chain, m.token, m.amount, m.destination, m.auditHash, m.merchantDomain,
      m.agentPresence, m.modality⟩) ?_ ?_ ?_ ?_ respelled
  · decide
  · decide
  · exact m.keys_ownMembers
  · intro find finds
    refine .seq (.seq (.seq (.seq (.seq (.seq (.seq (.map _ ?_) ?_) ?_) ?_) ?_) ?_) ?_) ?_
    · exact finds.text rfl (by decide)
    · exact finds.text rfl (by decide)
    · exact finds.amount rfl
    · exact finds.text rfl (by decide)
    · exact finds.text rfl (by decide)
    all_goals
      refine finds.optionalText ?_ (by decide)
      simp [ownMembers, lookup_cons, List.lookup_append, lookup_member?, MandateHeader.members]

end PaymentMandate

namespace MandateBundle

theorem fits (b : MandateBundle) : b.toJson.Fits maxDepth := by
  rw [toJson, maxDepth, fits_object]
  refine ⟨by simp [HaveDistinctKeys], ?_⟩
  simp only [List.forall_mem_cons, List.not_mem_nil, false_implies, implies_true, and_true]
  exact ⟨b.intent.fits 124, b.cart.fits 123, b.payment.fits 124⟩

theorem ofJson_of_respelled (b : MandateBundle) {w : Json} (respelled : b.toJson.Respelled w) :
    ofJson w.sorted = .ok b := by
  obtain ⟨_, rfl, intent, _, rfl, hintent, cart, _, rfl, hcart, payment, _, rfl, hpayment, rfl⟩ :=
    respelled
  have intent_ok := b.intent.ofJson_of_respelled
    (hintent.resolve_right fun word => absurd word.1 (by decide))
  have cart_ok := b.cart.ofJson_of_respelled
    (hcart.resolve_right fun word => absurd word.1 (by decide))
  have payment_ok := b.payment.ofJson_of_respelled
    (hpayment.resolve_right fun word => absurd word.1 (by decide))
  have hsorted :
      (Json.object [("intent", intent), ("cart", cart), ("payment", payment)]).sorted =
        .object [("cart", cart.sorted), ("intent", intent.sorted), ("payment", payment.sorted)] :=
    rfl
  rw [hsorted, ofJson]
  simp [MandateKind.name, List.lookup_cons, intent_ok, cart_ok, payment_ok, bind, Except.bind]

/-- A bundle is read back from its text, with any of its amounts and times in their other spelling. -/
theorem ofText_respelled (b : MandateBundle) :
    ofText b.toJson.render = .ok b ∧ ∀ w, b.toJson.Respelled w → ofText w.render = .ok b := by
  have reads : ∀ w, b.toJson.Respelled w → ofText w.render = .ok b := by
    intro w respelled
    have exchangeable := Exchangeable.of_fits (fits_of_respelled respelled b.fits)
    rw [ofText, readText?_render exchangeable]
    exact b.ofJson_of_respelled respelled
  exact ⟨reads _ (respelled_self _), reads⟩

namespace Sample

def header (kind : MandateKind) : MandateHeader where
  id := "m-1"
  kind := kind
  issuer := "did:example:user"
  subject := ""
  expires := ⟨2000⟩
  nonce := "n"
  proof := ⟨"did:example:user#ed25519:00", ⟨1000⟩, "assertionMethod", "AA=="⟩
  domain := "ap2"
  purpose := "caf\u00e9\n"

def bundle : MandateBundle where
  intent := ⟨header .intent, ["buy"], some 18446744073709551615⟩
  cart := ⟨header .cart, [⟨"sku-1", "", 2, 5⟩], "shop.example", "EUR", 10, 0⟩
  payment := ⟨header .payment, "base", "USDC", 10, "0xaa", "h", none, some "human_present", none⟩

/-- The intent with its times as numbers and its ceiling as a string. -/
def intent : Json :=
  .object [("mandate_id", .string "m-1"), ("mandate_type", .string "intent"),
    ("issuer", .string "did:example:user"), ("subject", .string ""), ("expires_at", .nat 2000),
    ("nonce", .string "n"),
    ("proof", .object [("verification_method", .string "did:example:user#ed25519:00"),
      ("created", .nat 1000), ("proof_purpose", .string "assertionMethod"),
      ("proof_value", .string "AA==")]),
    ("domain", .string "ap2"), ("purpose", .string "caf\u00e9\n"),
    ("scope", .array [.string "buy"]), ("requested_amount", .string "18446744073709551615")]

def respelled : Json :=
  .object [("intent", intent), ("cart", bundle.cart.toJson), ("payment", bundle.payment.toJson)]

end Sample

theorem ofText_respelled_sample :
    Sample.bundle.toJson.Respelled Sample.respelled ∧
      ofText Sample.respelled.render = .ok Sample.bundle := by
  have hcreated : ∃ n, (Json.string (Numeral.write 1000)).SpellsWord n ∧ (nat 1000).SpellsWord n :=
    ⟨1000, .inr rfl, .inl rfl⟩
  have hexpires : ∃ n, (Json.string (Numeral.write 2000)).SpellsWord n ∧ (nat 2000).SpellsWord n :=
    ⟨2000, .inr rfl, .inl rfl⟩
  have hceiling : ∃ n, (nat 18446744073709551615).SpellsWord n ∧
      (Json.string "18446744073709551615").SpellsWord n :=
    ⟨18446744073709551615, .inl rfl, .inr rfl⟩
  have hintent : Sample.bundle.intent.toJson.Respelled Sample.intent := by
    simp [Sample.bundle, Sample.intent, Sample.header, IntentMandate.toJson_eq,
      IntentMandate.ownMembers, member?, MandateHeader.members, MandateKind.name, Proof.toJson,
      Timestamp.toJson, Timestamp.text, Respelled, ItemsRespelled, MembersRespelled, wordKeys,
      hcreated, hexpires, hceiling]
  have hrespelled : Sample.bundle.toJson.Respelled Sample.respelled :=
    ⟨_, rfl, _, _, rfl, .inl hintent, _, _, rfl, .inl (respelled_self _), _, _, rfl,
      .inl (respelled_self _), rfl⟩
  exact ⟨hrespelled, (ofText_respelled Sample.bundle).2 Sample.respelled hrespelled⟩

end MandateBundle

end PaymentTrust
