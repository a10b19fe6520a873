import PaymentTrust.Proofs.Mandate.SigningInput

/-! Which characters have to be kept out of mandates for their signing inputs to be unambiguous.
Nothing in the signing input escapes them, so this is up to whoever issues the mandates. -/
namespace PaymentTrust

/-- The characters that mandates may have in their signed texts. -/
structure SigningAlphabet where
  plain : Char → Prop
  listed : Char → Prop
  blankScope : Prop

namespace SigningAlphabet

variable (w : SigningAlphabet) (kind : MandateKind)

structure Admits (m : Mandate) : Prop where
  plain : ∀ t ∈ m.plainTexts, ∀ c ∈ t.toList, w.plain c
  listed : ∀ t ∈ m.listedTexts, ∀ c ∈ t.toList, w.listed c
  scope : m.HasBlankScope → w.blankScope

/-- What separates the signed texts of mandates of the kind is in none of them. -/
def Separates : MandateKind → Prop
  | .intent => ¬w.plain '|' ∧ ¬w.listed ',' ∧ ¬w.blankScope
  | .cart => ¬w.plain '|' ∧ ¬w.listed ':'
  | .payment => ¬w.plain '|'

def Tells : Prop :=
  ∀ a b : Mandate, a.kind = kind → b.kind = kind → w.Admits a → w.Admits b →
    a.signingInput = b.signingInput → a.SameSigned b

variable {w kind}

theorem Admits.clean {m : Mandate} (admits : w.Admits m) (bar : ¬w.plain '|') :
    ∀ t ∈ m.plainTexts, '|' ∉ t.toList :=
  fun t mem present => bar (admits.plain t mem '|' present)

theorem Admits.cleanItem {m : CartMandate} (admits : w.Admits (.cart m)) (colon : ¬w.listed ':') :
    ∀ i ∈ m.items, i.Clean := by
  intro i mem
  have text : ∀ t ∈ [i.id, i.name], ':' ∉ t.toList := fun t ht present =>
    colon (admits.listed t (List.mem_flatMap.mpr ⟨i, mem, ht⟩) ':' present)
  exact ⟨text i.id (by simp), text i.name (by simp)⟩

theorem tells_of_separates (separates : w.Separates kind) : w.Tells kind := by
  rintro a b rfl hkind ha hb h
  cases a with
  | intent a =>
    obtain ⟨bar, comma, blank⟩ := separates
    cases b with
    | intent b =>
      exact IntentMandate.sameSigned_of_signingInput_eq a b (ha.clean bar) (hb.clean bar)
        (fun t mem present => comma (ha.listed t mem ',' present))
        (fun t mem present => comma (hb.listed t mem ',' present))
        (fun h => blank (ha.scope h)) (fun h => blank (hb.scope h)) h
    | cart | payment => cases hkind
  | cart a =>
    obtain ⟨bar, colon⟩ := separates
    cases b with
    | cart b =>
      exact CartMandate.sameSigned_of_signingInput_eq a b (ha.clean bar) (hb.clean bar)
        (ha.cleanItem colon) (hb.cleanItem colon) h
    | intent | payment => cases hkind
  | payment a =>
    cases b with
    | payment b => exact PaymentMandate.sameSigned_of_signingInput_eq a b (ha.clean separates) h
    | intent | cart => cases hkind

def blank (domain nonce : String) (scope : List String) (items : List LineItem)
    (kind : MandateKind) : Mandate :=
  let header := ⟨"", kind, "", "", ⟨0⟩, nonce, ⟨"", ⟨0⟩, "", ""⟩, domain, ""⟩
  match kind with
  | .intent => .intent ⟨header, scope, none⟩
  | .cart => .cart ⟨header, items, "", "", 0, 0⟩
  | .payment => .payment ⟨header, "", "", 0, "", "", none, none, none⟩

theorem admits_blank {domain nonce : String} {scope : List String} {items : List LineItem}
    (plain : ∀ t ∈ [domain, nonce], ∀ c ∈ t.toList, w.plain c)
    (listed : ∀ t ∈ scope ++ items.flatMap fun i => [i.id, i.name], ∀ c ∈ t.toList, w.listed c)
    (notBlank : scope = [""] → w.blankScope) : w.Admits (blank domain nonce scope items kind) := by
  cases kind with
  | intent =>
    refine ⟨?_, fun t mem => listed t (List.mem_append_left _ mem), notBlank⟩
    simpa [blank, Mandate.plainTexts, MandateHeader.context] using plain
  | cart =>
    refine ⟨?_, fun t mem => listed t (List.mem_append_right _ mem), False.elim⟩
    simpa [blank, Mandate.plainTexts, MandateHeader.context] using plain
  | payment =>
    refine ⟨?_, fun t mem => (List.not_mem_nil mem).elim, False.elim⟩
    simpa [blank, Mandate.plainTexts, MandateHeader.context] using plain

theorem Tells.bar (tells : w.Tells kind) : ¬w.plain '|' := by
  intro bar
  -- A separator that is in a domain may as well be in the nonce after it.
  have hsame := tells (blank "|" "" [] [] kind) (blank "" "|" [] [] kind)
    (by cases kind <;> rfl) (by cases kind <;> rfl)
    (admits_blank (by simp [bar]) (by simp) (by simp))
    (admits_blank (by simp [bar]) (by simp) (by simp)) (by cases kind <;> decide +kernel)
  have hcontext : (blank "|" "" [] [] kind).header.context =
      (blank "" "|" [] [] kind).header.context := by
    cases kind <;> exact hsame.context
  cases kind <;> simp [blank, Mandate.header, MandateHeader.context] at hcontext

theorem Tells.comma (tells : w.Tells .intent) : ¬w.listed ',' := by
  intro comma
  -- One scope with a comma in it reads like two.
  have hsame := tells (blank "" "" [","] [] .intent) (blank "" "" ["", ""] [] .intent) rfl rfl
    (admits_blank (by simp) (by simp [comma]) (by simp))
    (admits_blank (by simp) (by simp) (by simp)) (by decide +kernel)
  exact absurd hsame.scope (by decide)

theorem Tells.notBlank (tells : w.Tells .intent) : ¬w.blankScope := by
  intro allowed
  have hsame := tells (blank "" "" [] [] .intent) (blank "" "" [""] [] .intent) rfl rfl
    (admits_blank (by simp) (by simp) (by simp))
    (admits_blank (by simp) (by simp) fun _ => allowed) (by decide +kernel)
  exact absurd hsame.scope (by decide)

theorem Tells.colon (tells : w.Tells .cart) : ¬w.listed ':' := by
  intro colon
  -- A colon that is in an identifier may as well be in the name after it.
  have hsame := tells (blank "" "" [] [⟨":", "", 0, 0⟩] .cart)
    (blank "" "" [] [⟨"", ":", 0, 0⟩] .cart) rfl rfl
    (admits_blank (by simp) (by simp [colon]) (by simp))
    (admits_blank (by simp) (by simp [colon]) (by simp)) (by decide +kernel)
  exact absurd hsame.items (by decide)

/-- Mandates are told by their signing inputs exactly if what separates their texts is in none. -/
theorem tells_iff_separates (w : SigningAlphabet) (kind : MandateKind) :
    w.Tells kind ↔ w.Separates kind := by
  constructor
  · intro tells
    cases kind with
    | intent => exact ⟨tells.bar, tells.comma, tells.notBlank⟩
    | cart => exact ⟨tells.bar, tells.colon⟩
    | payment => exact tells.bar
  · exact tells_of_separates

end SigningAlphabet

namespace Sample

def transfer (id nonce purpose : String) : Mandate :=
  .payment ⟨⟨id, .payment, "alice", "alice", ⟨2000⟩, nonce, ⟨"alice#ed25519:00", ⟨0⟩, "", "AA=="⟩,
    "shop.example", purpose⟩, "base", "USDC", 3240, "0xaa", "deadbeef", some "shop.example", none,
    none⟩

end Sample

/-- What is signed as a payment may be shown as a refund, if the nonce has a separator. -/
theorem Mandate.signingInput_shifted :
    (Sample.transfer "pm-1" "n-1|refund" "payment").signingInput =
        (Sample.transfer "payment|pm-1" "n-1" "refund").signingInput ∧
      ¬(Sample.transfer "pm-1" "n-1|refund" "payment").SameSigned
        (Sample.transfer "payment|pm-1" "n-1" "refund") := by
  refine ⟨by decide +kernel, fun same => ?_⟩
  have hcontext := same.context
  simp [MandateHeader.context] at hcontext

end PaymentTrust
