import PaymentTrust.Proofs.Mandate.SigningInput
import PaymentTrust.Proofs.Text.Split

/-! What the order of its items has to do with the text that a cart signs. The listing orders items by
identifier and name, and leaves items that share both as the cart has them, so two carts of the same
items are signed alike exactly if such items stand in the same order in both. -/
namespace PaymentTrust

namespace LineItem

def sharesName (i j : LineItem) : Bool :=
  i.id == j.id && i.name == j.name

theorem sharesName_iff {i j : LineItem} : i.sharesName j = true ↔ i.id = j.id ∧ i.name = j.name := by
  simp [sharesName]

theorem comesBefore_iff {a b : LineItem} :
    a.comesBefore b = true ↔ a.id < b.id ∨ a.id = b.id ∧ a.name ≤ b.name := by
  simp [comesBefore]

theorem comesBefore_trans (a b c : LineItem) (hab : a.comesBefore b = true)
    (hbc : b.comesBefore c = true) : a.comesBefore c = true := by
  rw [comesBefore_iff] at hab hbc ⊢
  rcases hab with hab | ⟨hab, hname⟩
  · rcases hbc with hbc | ⟨hbc, -⟩
    · exact .inl (String.lt_trans hab hbc)
    · exact .inl (hbc ▸ hab)
  · rcases hbc with hbc | ⟨hbc, hname'⟩
    · exact .inl (hab ▸ hbc)
    · exact .inr ⟨hab.trans hbc, String.le_trans hname hname'⟩

theorem comesBefore_total (a b : LineItem) : (a.comesBefore b || b.comesBefore a) = true := by
  rw [Bool.or_eq_true, comesBefore_iff, comesBefore_iff]
  by_cases before : a.id < b.id
  · exact .inl (.inl before)
  · by_cases after : b.id < a.id
    · exact .inr (.inl after)
    · have same : a.id = b.id :=
        String.le_antisymm (String.not_lt.mp after) (String.not_lt.mp before)
      exact (String.le_total a.name b.name).imp (.inr ⟨same, ·⟩) (.inr ⟨same.symm, ·⟩)

theorem comesBefore_of_sharesName {a b : LineItem} (h : a.sharesName b = true) :
    a.comesBefore b = true := by
  obtain ⟨hid, hname⟩ := sharesName_iff.mp h
  exact comesBefore_iff.mpr (.inr ⟨hid, hname ▸ String.le_refl a.name⟩)

theorem sharesName_of_comesBefore {a b : LineItem} (hab : a.comesBefore b = true)
    (hba : b.comesBefore a = true) : a.sharesName b = true := by
  rw [comesBefore_iff] at hab hba
  rcases hab with hab | ⟨hid, hname⟩
  · rcases hba with hba | ⟨hid, -⟩
    · exact absurd (String.lt_trans hab hba) (String.lt_irrefl _)
    · exact absurd (hid ▸ hab) (String.lt_irrefl _)
  · rcases hba with hba | ⟨-, hname'⟩
    · exact absurd (hid ▸ hba) (String.lt_irrefl _)
    · exact sharesName_iff.mpr ⟨hid, String.le_antisymm hname hname'⟩

/-- Items that the listing has no order for stand in the same order in both lists. -/
def SameTies (items items' : List LineItem) : Prop :=
  ∀ i : LineItem, items.filter i.sharesName = items'.filter i.sharesName

theorem sameTies_mergeSort (items : List LineItem) :
    SameTies (items.mergeSort comesBefore) items := by
  intro i
  have ties : (items.filter i.sharesName).Pairwise fun a b => a.comesBefore b = true := by
    refine List.pairwise_of_forall_mem_list fun a ha b hb => ?_
    obtain ⟨hid, hname⟩ := sharesName_iff.mp (List.mem_filter.mp ha).2
    obtain ⟨hid', hname'⟩ := sharesName_iff.mp (List.mem_filter.mp hb).2
    exact comesBefore_of_sharesName
      (sharesName_iff.mpr ⟨hid.symm.trans hid', hname.symm.trans hname'⟩)
  have kept : (items.filter i.sharesName).Sublist (items.mergeSort comesBefore) :=
    List.sublist_mergeSort comesBefore_trans comesBefore_total ties List.filter_sublist
  have inside := kept.filter i.sharesName
  rw [List.filter_filter, List.filter_congr fun a _ => Bool.and_self (i.sharesName a)] at inside
  have length := ((List.mergeSort_perm items comesBefore).filter i.sharesName).length_eq
  exact (inside.eq_of_length length.symm).symm

theorem head_comesBefore {a b : LineItem} {items : List LineItem}
    (sorted : (b :: items).Pairwise fun a b => a.comesBefore b = true) (mem : a ∈ b :: items) :
    b.comesBefore a = true := by
  rcases List.mem_cons.mp mem with rfl | mem
  · exact comesBefore_of_sharesName (sharesName_iff.mpr ⟨rfl, rfl⟩)
  · exact (List.pairwise_cons.mp sorted).1 a mem

theorem SameTies.mem {a : LineItem} {items items' : List LineItem} (ties : SameTies items items')
    (mem : a ∈ items) : a ∈ items' := by
  have found : a ∈ items.filter a.sharesName :=
    List.mem_filter.mpr ⟨mem, sharesName_iff.mpr ⟨rfl, rfl⟩⟩
  rw [ties a] at found
  exact (List.mem_filter.mp found).1

theorem SameTies.symm {items items' : List LineItem} (ties : SameTies items items') :
    SameTies items' items :=
  fun i => (ties i).symm

theorem SameTies.eq_of_sorted {items items' : List LineItem} (ties : SameTies items items')
    (sorted : items.Pairwise fun a b => a.comesBefore b = true)
    (sorted' : items'.Pairwise fun a b => a.comesBefore b = true) : items = items' := by
  induction items generalizing items' with
  | nil =>
    cases items' with
    | nil => rfl
    | cons b items' => exact absurd (ties.symm.mem List.mem_cons_self) List.not_mem_nil
  | cons a items ih =>
    cases items' with
    | nil => exact absurd (ties.mem List.mem_cons_self) List.not_mem_nil
    | cons b items' =>
      have shares : a.sharesName b = true := sharesName_of_comesBefore
        (head_comesBefore sorted (ties.symm.mem List.mem_cons_self))
        (head_comesBefore sorted' (ties.mem List.mem_cons_self))
      have first := ties a
      rw [List.filter_cons_of_pos (sharesName_iff.mpr ⟨rfl, rfl⟩),
        List.filter_cons_of_pos shares] at first
      obtain rfl := (List.cons.inj first).1
      have rest : SameTies items items' := by
        intro i
        have both := ties i
        by_cases h : i.sharesName a = true
        · rw [List.filter_cons_of_pos h, List.filter_cons_of_pos h] at both
          exact (List.cons.inj both).2
        · rwa [List.filter_cons_of_neg h, List.filter_cons_of_neg h] at both
      rw [ih rest (List.pairwise_cons.mp sorted).2 (List.pairwise_cons.mp sorted').2]

theorem flatMap_line_inj_of_names {items items' : List LineItem}
    (names : items.map (fun i => (i.id, i.name)) = items'.map fun i => (i.id, i.name))
    (h : items.flatMap line = items'.flatMap line) : items = items' := by
  induction items generalizing items' with
  | nil => exact (List.map_eq_nil_iff.mp names.symm).symm
  | cons i items ih =>
    cases items' with
    | nil => cases names
    | cons j items' =>
      obtain ⟨name, names⟩ := List.cons.inj names
      obtain ⟨hid, hname⟩ := Prod.mk.inj name
      rw [List.flatMap_cons, List.flatMap_cons, line_append, line_append, hid, hname] at h
      have h := (List.cons.inj (List.append_cancel_left h)).2
      have h := (List.cons.inj (List.append_cancel_left h)).2
      obtain ⟨hquantity, h⟩ := Text.cut_inj (notMem_repr _ rfl) (notMem_repr _ rfl) h
      obtain ⟨hprice, hrest⟩ := Text.cut_inj (notMem_repr _ rfl) (notMem_repr _ rfl) h
      have same : i = j := LineItem.ext hid hname
        (UInt32.toNat_inj.mp (repr_injective (String.toList_inj.mp hquantity)))
        (Numeral.write_injective (String.toList_inj.mp hprice))
      rw [same, ih names hrest]

theorem map_names_eq_of_perm {items items' : List LineItem} (perm : items.Perm items')
    (sorted : items.Pairwise fun a b => a.comesBefore b = true)
    (sorted' : items'.Pairwise fun a b => a.comesBefore b = true) :
    items.map (fun i => (i.id, i.name)) = items'.map fun i => (i.id, i.name) := by
  have ordered : ∀ {list : List LineItem}, (list.Pairwise fun a b => a.comesBefore b = true) →
      (list.map fun i => (i.id, i.name)).Pairwise fun a b =>
        LineItem.comesBefore ⟨a.1, a.2, 0, 0⟩ ⟨b.1, b.2, 0, 0⟩ = true :=
    fun sorted => List.pairwise_map.mpr sorted
  refine List.Perm.eq_of_pairwise (fun a b _ _ hab hba => ?_) (ordered sorted) (ordered sorted')
    (perm.map _)
  obtain ⟨hid, hname⟩ := sharesName_iff.mp (sharesName_of_comesBefore hab hba)
  exact Prod.ext hid hname

/-- Items in another order have the same listing exactly if their ties are the same. -/
theorem listing_eq_iff_sameTies {items items' : List LineItem} (perm : items.Perm items') :
    listing items = listing items' ↔ SameTies items items' := by
  have sorted (list : List LineItem) :=
    List.pairwise_mergeSort comesBefore_trans comesBefore_total list
  constructor
  · intro h
    have perm' : (items.mergeSort comesBefore).Perm (items'.mergeSort comesBefore) :=
      (List.mergeSort_perm items comesBefore).trans
        (perm.trans (List.mergeSort_perm items' comesBefore).symm)
    have same : items.mergeSort comesBefore = items'.mergeSort comesBefore := by
      by_cases empty : items.mergeSort comesBefore = []
      · exact empty.trans (List.perm_nil.mp (empty ▸ perm').symm).symm
      · have nonempty : items'.mergeSort comesBefore ≠ [] :=
          fun empty' => empty (List.perm_nil.mp (empty' ▸ perm'))
        have lines : (items.mergeSort comesBefore).flatMap line =
            (items'.mergeSort comesBefore).flatMap line := by
          rw [← intercalate_texts _ empty, ← intercalate_texts _ nonempty]
          exact congrArg (·.toList ++ [',']) h
        exact flatMap_line_inj_of_names
          (map_names_eq_of_perm perm' (sorted items) (sorted items')) lines
    exact fun i =>
      (sameTies_mergeSort items i).symm.trans (same ▸ sameTies_mergeSort items' i)
  · intro ties
    have same : items.mergeSort comesBefore = items'.mergeSort comesBefore := by
      refine SameTies.eq_of_sorted (fun i => ?_) (sorted items) (sorted items')
      rw [sameTies_mergeSort items i, sameTies_mergeSort items' i, ties i]
    rw [listing, listing, same]

theorem forall_sameTies_iff {items : List LineItem} :
    (∀ items', items'.Perm items → SameTies items' items) ↔
      ∀ i ∈ items, ∀ j ∈ items, i.id = j.id → i.name = j.name → i = j := by
  constructor
  · intro h i hi j hj hid hname
    refine Decidable.byContradiction fun differ => ?_
    -- The two can be put in front in either order.
    have hj' : j ∈ items.erase i := (List.mem_erase_of_ne (Ne.symm differ)).mpr hj
    have perm : items.Perm (i :: j :: (items.erase i).erase j) :=
      (List.perm_cons_erase hi).trans ((List.perm_cons_erase hj').cons i)
    have first := h _ perm.symm i
    have second := h _ ((List.Perm.swap i j _).trans perm.symm) i
    have own : i.sharesName i = true := sharesName_iff.mpr ⟨rfl, rfl⟩
    have other : i.sharesName j = true := sharesName_iff.mpr ⟨hid, hname⟩
    rw [← second, List.filter_cons_of_pos own, List.filter_cons_of_pos other,
      List.filter_cons_of_pos other, List.filter_cons_of_pos own] at first
    exact differ (List.cons.inj first).1
  · intro h items' perm i
    have same : ∀ a ∈ items'.filter i.sharesName, ∀ b ∈ items.filter i.sharesName, a = b := by
      intro a ha b hb
      obtain ⟨ha, hshare⟩ := List.mem_filter.mp ha
      obtain ⟨hb, hshare'⟩ := List.mem_filter.mp hb
      obtain ⟨hid, hname⟩ := sharesName_iff.mp hshare
      obtain ⟨hid', hname'⟩ := sharesName_iff.mp hshare'
      exact h a (perm.subset ha) b hb (hid.symm.trans hid') (hname.symm.trans hname')
    exact List.Perm.eq_of_pairwise (fun a b ha hb _ _ => same a ha b hb)
      (List.pairwise_of_forall fun _ _ => trivial) (List.pairwise_of_forall fun _ _ => trivial)
      (perm.filter i.sharesName)

end LineItem

theorem joinFields_middle_inj (front : List String) {back : List String} {mid mid' : String} :
    joinFields (front ++ mid :: back) = joinFields (front ++ mid' :: back) ↔ mid = mid' := by
  rw [← String.toList_inj, ← String.toList_inj]
  simp only [joinFields, fieldSeparator, String.toList_intercalate, List.map_append, List.map_cons]
  cases front with
  | nil => simp [Text.intercalate_cons]
  | cons first front => simp [Text.intercalate_cons]

namespace CartMandate

theorem payload_eq_iff {m : CartMandate} {items : List LineItem} :
    (Mandate.cart { m with items }).payload = (Mandate.cart m).payload ↔
      LineItem.listing items = LineItem.listing m.items :=
  joinFields_middle_inj [m.header.id, m.header.subject]

theorem signingInput_eq_iff {m : CartMandate} {items : List LineItem} :
    (Mandate.cart { m with items }).signingInput = (Mandate.cart m).signingInput ↔
      LineItem.listing items = LineItem.listing m.items := by
  rw [signingInput_cart, signingInput_cart]
  exact joinFields_middle_inj m.header.context

/-- A cart with its items in another order has the same payload, and so the same signing input, exactly
if items of one identifier and name stand in the same order. Every order will do exactly if no two
different items share both. -/
theorem payload_reordered (m : CartMandate) :
    (∀ items, items.Perm m.items →
      ((Mandate.cart { m with items }).payload = (Mandate.cart m).payload ↔
        LineItem.SameTies items m.items) ∧
      ((Mandate.cart { m with items }).signingInput = (Mandate.cart m).signingInput ↔
        LineItem.SameTies items m.items)) ∧
    ((∀ items, items.Perm m.items →
      (Mandate.cart { m with items }).payload = (Mandate.cart m).payload ∧
        (Mandate.cart { m with items }).signingInput = (Mandate.cart m).signingInput) ↔
      ∀ i ∈ m.items, ∀ j ∈ m.items, i.id = j.id → i.name = j.name → i = j) := by
  have payload : ∀ items, items.Perm m.items →
      ((Mandate.cart { m with items }).payload = (Mandate.cart m).payload ↔
        LineItem.SameTies items m.items) :=
    fun items perm => payload_eq_iff.trans (LineItem.listing_eq_iff_sameTies perm)
  have signingInput : ∀ items, items.Perm m.items →
      ((Mandate.cart { m with items }).signingInput = (Mandate.cart m).signingInput ↔
        LineItem.SameTies items m.items) :=
    fun items perm => signingInput_eq_iff.trans (LineItem.listing_eq_iff_sameTies perm)
  refine ⟨fun items perm => ⟨payload items perm, signingInput items perm⟩, ?_⟩
  rw [← LineItem.forall_sameTies_iff]
  refine forall₂_congr fun items perm => ?_
  rw [payload items perm, signingInput items perm, and_self]

namespace Sample

def pair : LineItem := ⟨"mug", "", 2, 1500⟩

def single : LineItem := ⟨"mug", "", 1, 1600⟩

def lid : LineItem := ⟨"lid", "Lid", 1, 50⟩

/-- A cart with one kind of mugs at two prices. -/
def cart : CartMandate where
  header := ⟨"c-1", .cart, "did:example:shop", "did:example:user", ⟨2000⟩, "n",
    ⟨"did:example:shop#ed25519:00", ⟨1000⟩, "assertionMethod", "AA=="⟩, "ap2", "cart"⟩
  items := [pair, single, lid]
  merchantDomain := "shop.example"
  currency := "EUR"
  subtotal := 4650
  taxes := 0

end Sample

theorem payload_reordered_lid :
    [Sample.lid, Sample.pair, Sample.single].Perm Sample.cart.items ∧
      (Mandate.cart { Sample.cart with items := [Sample.lid, Sample.pair, Sample.single] }).payload =
        (Mandate.cart Sample.cart).payload := by
  have perm : [Sample.lid, Sample.pair, Sample.single].Perm Sample.cart.items := by decide
  have ties : LineItem.SameTies [Sample.lid, Sample.pair, Sample.single] Sample.cart.items := by
    intro i
    by_cases mug : i.id = "mug" <;>
      simp [Sample.cart, Sample.lid, Sample.pair, Sample.single, LineItem.sharesName, mug,
        List.filter_cons]
  exact ⟨perm, ((payload_reordered Sample.cart).1 _ perm).1.mpr ties⟩

/-- The two prices of the mugs may not change places. -/
theorem payload_swapped :
    [Sample.single, Sample.pair, Sample.lid].Perm Sample.cart.items ∧
      (Mandate.cart { Sample.cart with items := [Sample.single, Sample.pair, Sample.lid] }).payload ≠
        (Mandate.cart Sample.cart).payload := by
  have perm : [Sample.single, Sample.pair, Sample.lid].Perm Sample.cart.items := by decide
  refine ⟨perm, fun same => ?_⟩
  have ties := (LineItem.listing_eq_iff_sameTies perm).mp (payload_eq_iff.mp same)
  exact absurd (ties Sample.pair) (by decide)

end CartMandate

end PaymentTrust
