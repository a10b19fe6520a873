import PaymentTrust.Mandate.Payload
import PaymentTrust.Proofs.SigningPayload
import PaymentTrust.Proofs.Text.Split

/-! What the text that a proof signs says about the mandate. Texts are signed as they are, with
separators between them, so the text tells the mandate exactly where no separator is in its fields.
-/
namespace PaymentTrust

attribute [ext] LineItem

namespace LineItem

def Clean (i : LineItem) : Prop := ':' ∉ i.id.toList ∧ ':' ∉ i.name.toList

def line (i : LineItem) : List Char := i.text.toList ++ [',']

theorem line_append (i : LineItem) (rest : List Char) :
    i.line ++ rest =
      i.id.toList ++ ':' :: (i.name.toList ++ ':' :: (i.quantity.toNat.repr.toList ++
        ':' :: ((Numeral.write i.price).toList ++ ',' :: rest))) := by
  simp [line, text]

theorem line_append_inj {i j : LineItem} {rest rest' : List Char} (hi : i.Clean) (hj : j.Clean)
    (h : i.line ++ rest = j.line ++ rest') : i = j ∧ rest = rest' := by
  rw [line_append, line_append] at h
  -- Numbers have neither colon nor comma, so only identifier and name need to be clean.
  obtain ⟨hid, h⟩ := Text.cut_inj hi.1 hj.1 h
  obtain ⟨hname, h⟩ := Text.cut_inj hi.2 hj.2 h
  obtain ⟨hquantity, h⟩ := Text.cut_inj (notMem_repr _ rfl) (notMem_repr _ rfl) h
  obtain ⟨hprice, hrest⟩ := Text.cut_inj (notMem_repr _ rfl) (notMem_repr _ rfl) h
  exact ⟨LineItem.ext (String.toList_inj.mp hid) (String.toList_inj.mp hname)
    (UInt32.toNat_inj.mp (repr_injective (String.toList_inj.mp hquantity)))
    (Numeral.write_injective (String.toList_inj.mp hprice)), hrest⟩

theorem flatMap_line_inj {items items' : List LineItem} (clean : ∀ i ∈ items, i.Clean)
    (clean' : ∀ i ∈ items', i.Clean) (h : items.flatMap line = items'.flatMap line) :
    items = items' := by
  have nonempty : ∀ (i : LineItem) (rest : List Char), i.line ++ rest ≠ [] := by
    simp [line]
  induction items generalizing items' with
  | nil =>
    cases items' with
    | nil => rfl
    | cons i' items' => exact absurd h.symm (nonempty i' _)
  | cons i items ih =>
    cases items' with
    | nil => exact absurd h (nonempty i _)
    | cons i' items' =>
      obtain ⟨rfl, hrest⟩ :=
        line_append_inj (clean i List.mem_cons_self) (clean' i' List.mem_cons_self) h
      rw [ih (fun j mem => clean j (List.mem_cons_of_mem _ mem))
        (fun j mem => clean' j (List.mem_cons_of_mem _ mem)) hrest]

theorem intercalate_texts (items : List LineItem) (nonempty : items ≠ []) :
    (",".intercalate (items.map text)).toList ++ [','] = items.flatMap line := by
  induction items with
  | nil => exact absurd rfl nonempty
  | cons i items ih =>
    cases items with
    | nil => simp [line]
    | cons next items =>
      rw [List.flatMap_cons, ← ih (List.cons_ne_nil next items)]
      simp [line]

theorem intercalate_texts_ne_empty (items : List LineItem) (nonempty : items ≠ []) :
    ",".intercalate (items.map text) ≠ "" := by
  intro hempty
  have hlines := intercalate_texts items nonempty
  obtain ⟨i, rest, rfl⟩ := List.exists_cons_of_ne_nil nonempty
  have mem : ':' ∈ (i :: rest).flatMap line := by
    rw [List.flatMap_cons, line_append]
    exact List.mem_append_right _ List.mem_cons_self
  rw [← hlines, hempty] at mem
  simp at mem

theorem intercalate_texts_inj {items items' : List LineItem} (clean : ∀ i ∈ items, i.Clean)
    (clean' : ∀ i ∈ items', i.Clean)
    (h : ",".intercalate (items.map text) = ",".intercalate (items'.map text)) :
    items = items' := by
  cases items with
  | nil =>
    cases items' with
    | nil => rfl
    | cons i' items' =>
      exact absurd h.symm (intercalate_texts_ne_empty _ (List.cons_ne_nil i' items'))
  | cons i items =>
    cases items' with
    | nil => exact absurd h (intercalate_texts_ne_empty _ (List.cons_ne_nil i items))
    | cons i' items' =>
      apply flatMap_line_inj clean clean'
      rw [← intercalate_texts _ (List.cons_ne_nil i items), h,
        intercalate_texts _ (List.cons_ne_nil i' items')]

/-- A listing tells its items, though not in which order the cart has them. -/
theorem perm_of_listing_eq {items items' : List LineItem} (clean : ∀ i ∈ items, i.Clean)
    (clean' : ∀ i ∈ items', i.Clean) (h : listing items = listing items') :
    items.Perm items' := by
  have hsorted := intercalate_texts_inj
    (fun i mem => clean i (List.mem_mergeSort.mp mem))
    (fun i mem => clean' i (List.mem_mergeSort.mp mem)) h
  have hperm := List.mergeSort_perm items' comesBefore
  rw [← hsorted] at hperm
  exact (List.mergeSort_perm items comesBefore).symm.trans hperm

end LineItem

namespace IntentMandate

def amountText (m : IntentMandate) : String :=
  match m.requestedAmount with
  | some amount => Numeral.write amount
  | none => ""

theorem notMem_amountText (m : IntentMandate) {c : Char} (h : c.isDigit = false) :
    c ∉ m.amountText.toList := by
  unfold amountText
  cases m.requestedAmount with
  | none => simp
  | some amount => exact notMem_repr _ h

theorem requestedAmount_eq {a b : IntentMandate} (h : a.amountText = b.amountText) :
    a.requestedAmount = b.requestedAmount := by
  unfold amountText at h
  cases ha : a.requestedAmount with
  | none =>
    cases hb : b.requestedAmount with
    | none => rfl
    | some amount =>
      simp only [ha, hb] at h
      exact absurd h.symm (Numeral.write_ne_empty amount)
  | some amount =>
    cases hb : b.requestedAmount with
    | none =>
      simp only [ha, hb] at h
      exact absurd h (Numeral.write_ne_empty amount)
    | some amount' =>
      simp only [ha, hb] at h
      rw [Numeral.write_injective h]

end IntentMandate

theorem eq_blank_of_listed_eq {texts : List String} (clean : ∀ t ∈ texts, ',' ∉ t.toList)
    (nonempty : texts ≠ []) (h : ",".intercalate texts = "") : texts = [""] := by
  have hpieces := pieces_intercalate_of_notMem clean nonempty
  change pieces ',' (",".intercalate texts) = _ at hpieces
  rw [h] at hpieces
  exact eq_of_toList_map_eq hpieces.symm

/-- Texts without commas are told by their list, unless it is that of one empty text. -/
theorem eq_of_listed_eq {texts texts' : List String} (clean : ∀ t ∈ texts, ',' ∉ t.toList)
    (clean' : ∀ t ∈ texts', ',' ∉ t.toList) (notBlank : texts ≠ [""]) (notBlank' : texts' ≠ [""])
    (h : ",".intercalate texts = ",".intercalate texts') : texts = texts' := by
  cases texts with
  | nil =>
    cases texts' with
    | nil => rfl
    | cons t' texts' =>
      exact absurd (eq_blank_of_listed_eq clean' (List.cons_ne_nil t' texts') h.symm) notBlank'
  | cons t texts =>
    cases texts' with
    | nil => exact absurd (eq_blank_of_listed_eq clean (List.cons_ne_nil t texts) h) notBlank
    | cons t' texts' =>
      exact eq_of_intercalate_eq clean clean' (List.cons_ne_nil t texts)
        (List.cons_ne_nil t' texts') h

def MandateHeader.context (h : MandateHeader) : List String :=
  [h.domain, h.nonce, h.purpose, h.id, h.subject]

structure IntentMandate.SameSigned (a b : IntentMandate) : Prop where
  context : a.header.context = b.header.context
  kind : a.header.kind = b.header.kind
  scope : a.scope = b.scope
  requestedAmount : a.requestedAmount = b.requestedAmount
  expires : a.header.expires = b.header.expires

/-- The items may be in another order. -/
structure CartMandate.SameSigned (a b : CartMandate) : Prop where
  context : a.header.context = b.header.context
  items : a.items.Perm b.items
  subtotal : a.subtotal = b.subtotal
  taxes : a.taxes = b.taxes
  currency : a.currency = b.currency
  merchantDomain : a.merchantDomain = b.merchantDomain
  expires : a.header.expires = b.header.expires

structure PaymentMandate.SameSigned (a b : PaymentMandate) : Prop where
  context : a.header.context = b.header.context
  amount : a.amount = b.amount
  token : a.token = b.token
  chain : a.chain = b.chain
  destination : a.destination = b.destination
  auditHash : a.auditHash = b.auditHash

namespace Mandate

def SameSigned : Mandate → Mandate → Prop
  | intent a, intent b => a.SameSigned b
  | cart a, cart b => a.SameSigned b
  | payment a, payment b => a.SameSigned b
  | _, _ => False

def plainTexts : Mandate → List String
  | intent m => m.header.context
  | cart m => m.header.context ++ [m.currency, m.merchantDomain]
  | payment m => m.header.context ++ [m.token, m.chain, m.destination, m.auditHash]

def listedTexts : Mandate → List String
  | intent m => m.scope
  | cart m => m.items.flatMap fun i => [i.id, i.name]
  | payment _ => []

/-- A scope of one empty text is signed as if it were empty. -/
def HasBlankScope : Mandate → Prop
  | intent m => m.scope = [""]
  | _ => False

theorem signingInput_eq_joinFields (m : Mandate) :
    m.signingInput =
      joinFields (m.header.domain :: m.header.nonce :: m.header.purpose :: m.payloadFields) := by
  apply domainSeparated_joinFields
  cases m <;> exact List.cons_ne_nil _ _

end Mandate

theorem signingInput_intent (m : IntentMandate) :
    (Mandate.intent m).signingInput =
      joinFields ((m.header.context ++ [m.header.kind.name]) ++
        ",".intercalate m.scope :: [m.amountText, m.header.expires.text]) :=
  Mandate.signingInput_eq_joinFields (.intent m)

theorem signingInput_cart (m : CartMandate) :
    (Mandate.cart m).signingInput =
      joinFields (m.header.context ++ LineItem.listing m.items ::
        [Numeral.write m.subtotal, Numeral.write m.taxes, m.currency, m.merchantDomain,
          m.header.expires.text]) :=
  Mandate.signingInput_eq_joinFields (.cart m)

theorem signingInput_payment (m : PaymentMandate) :
    (Mandate.payment m).signingInput =
      joinFields (m.header.context ++
        [Numeral.write m.amount, m.token, m.chain, m.destination, m.auditHash]) :=
  Mandate.signingInput_eq_joinFields (.payment m)

theorem IntentMandate.sameSigned_of_signingInput_eq (a b : IntentMandate)
    (clean : ∀ t ∈ a.header.context, '|' ∉ t.toList)
    (clean' : ∀ t ∈ b.header.context, '|' ∉ t.toList)
    (listed : ∀ t ∈ a.scope, ',' ∉ t.toList) (listed' : ∀ t ∈ b.scope, ',' ∉ t.toList)
    (notBlank : a.scope ≠ [""]) (notBlank' : b.scope ≠ [""])
    (h : (Mandate.intent a).signingInput = (Mandate.intent b).signingInput) : a.SameSigned b := by
  have fixed : ∀ m : IntentMandate, (∀ t ∈ m.header.context, '|' ∉ t.toList) →
      ∀ t ∈ (m.header.context ++ [m.header.kind.name]) ++ [m.amountText, m.header.expires.text],
        '|' ∉ t.toList := by
    intro m clean
    have hkind : '|' ∉ m.header.kind.name.toList := by cases m.header.kind <;> decide
    have hamount := m.notMem_amountText (c := '|') rfl
    have hexpires : '|' ∉ m.header.expires.text.toList := notMem_repr _ rfl
    simp only [List.forall_mem_append, List.forall_mem_singleton, List.forall_mem_cons]
    exact ⟨⟨clean, hkind⟩, hamount, hexpires⟩
  rw [signingInput_intent, signingInput_intent] at h
  obtain ⟨hfront, hscope, hback⟩ :=
    eq_of_joinFields_middle_eq (by rfl) (by rfl) (fixed a clean) (fixed b clean') h
  obtain ⟨hcontext, hkind⟩ := List.append_inj hfront rfl
  simp only [List.cons.injEq, and_true] at hkind hback
  have hname : ∀ k k' : MandateKind, k.name = k'.name → k = k' := by
    intro k k'
    cases k <;> cases k' <;> decide
  exact ⟨hcontext, hname _ _ hkind, eq_of_listed_eq listed listed' notBlank notBlank' hscope,
    IntentMandate.requestedAmount_eq hback.1, Timestamp.text_injective hback.2⟩

theorem CartMandate.sameSigned_of_signingInput_eq (a b : CartMandate)
    (clean : ∀ t ∈ a.header.context ++ [a.currency, a.merchantDomain], '|' ∉ t.toList)
    (clean' : ∀ t ∈ b.header.context ++ [b.currency, b.merchantDomain], '|' ∉ t.toList)
    (listed : ∀ i ∈ a.items, i.Clean) (listed' : ∀ i ∈ b.items, i.Clean)
    (h : (Mandate.cart a).signingInput = (Mandate.cart b).signingInput) : a.SameSigned b := by
  have fixed : ∀ m : CartMandate,
      (∀ t ∈ m.header.context ++ [m.currency, m.merchantDomain], '|' ∉ t.toList) →
      ∀ t ∈ m.header.context ++ [Numeral.write m.subtotal, Numeral.write m.taxes, m.currency,
        m.merchantDomain, m.header.expires.text], '|' ∉ t.toList := by
    intro m clean
    have hsubtotal : '|' ∉ (Numeral.write m.subtotal).toList := notMem_repr _ rfl
    have htaxes : '|' ∉ (Numeral.write m.taxes).toList := notMem_repr _ rfl
    have hexpires : '|' ∉ m.header.expires.text.toList := notMem_repr _ rfl
    simp only [List.forall_mem_append, List.forall_mem_singleton, List.forall_mem_cons] at clean ⊢
    exact ⟨clean.1, hsubtotal, htaxes, clean.2.1, clean.2.2, hexpires⟩
  rw [signingInput_cart, signingInput_cart] at h
  obtain ⟨hcontext, hitems, hback⟩ :=
    eq_of_joinFields_middle_eq (by rfl) (by rfl) (fixed a clean) (fixed b clean') h
  simp only [List.cons.injEq, and_true] at hback
  obtain ⟨hsubtotal, htaxes, hcurrency, hmerchant, hexpires⟩ := hback
  exact ⟨hcontext, LineItem.perm_of_listing_eq listed listed' hitems,
    Numeral.write_injective hsubtotal, Numeral.write_injective htaxes, hcurrency, hmerchant,
    Timestamp.text_injective hexpires⟩

theorem PaymentMandate.sameSigned_of_signingInput_eq (a b : PaymentMandate)
    (clean : ∀ t ∈ a.header.context ++ [a.token, a.chain, a.destination, a.auditHash],
      '|' ∉ t.toList)
    (h : (Mandate.payment a).signingInput = (Mandate.payment b).signingInput) :
    a.SameSigned b := by
  have fixed : ∀ t ∈ a.header.context ++
      [Numeral.write a.amount, a.token, a.chain, a.destination, a.auditHash], '|' ∉ t.toList := by
    have hamount : '|' ∉ (Numeral.write a.amount).toList := notMem_repr _ rfl
    simp only [List.forall_mem_append, List.forall_mem_singleton, List.forall_mem_cons] at clean ⊢
    exact ⟨clean.1, hamount, clean.2⟩
  rw [signingInput_payment, signingInput_payment] at h
  have hfields := eq_of_joinFields_eq (by rfl) fixed h
  obtain ⟨hcontext, hrest⟩ := List.append_inj hfields rfl
  simp only [List.cons.injEq, and_true] at hrest
  obtain ⟨hamount, htoken, hchain, hdestination, hhash⟩ := hrest
  exact ⟨hcontext, Numeral.write_injective hamount, htoken, hchain, hdestination, hhash⟩

end PaymentTrust
