import PaymentTrust.SigningPayload
import PaymentTrust.Timestamp

/-! What a joined text says about its fields. Cutting it at every separator gives the pieces of each
field in turn, so the fields can be told from the text where they are free of separators. -/
namespace PaymentTrust

def pieces (c : Char) (text : String) : List (List Char) := text.toList.splitOn c

section

variable {c : Char}

theorem pieces_of_notMem {text : String} (absent : c ∉ text.toList) :
    pieces c text = [text.toList] :=
  List.splitOn_eq_singleton absent

theorem pieces_injective {a b : String} (h : pieces c a = pieces c b) : a = b := by
  have hjoin := congrArg (List.intercalate [c]) h
  unfold pieces at hjoin
  rw [List.intercalate_splitOn, List.intercalate_splitOn] at hjoin
  exact String.toList_inj.mp hjoin

theorem pieces_intercalate (fields : List String) (nonempty : fields ≠ []) :
    pieces c ((String.singleton c).intercalate fields) = fields.flatMap (pieces c) := by
  induction fields with
  | nil => exact absurd rfl nonempty
  | cons field fields ih =>
    cases fields with
    | nil => simp
    | cons next fields =>
      have htail := ih (List.cons_ne_nil next fields)
      unfold pieces at htail ⊢
      rw [String.intercalate_cons_cons, List.flatMap_cons, ← htail]
      simp only [String.toList_append, String.toList_singleton, List.append_assoc,
        List.singleton_append, List.splitOn_append_cons_self]

theorem flatMap_pieces_of_notMem {fields : List String} (absent : ∀ f ∈ fields, c ∉ f.toList) :
    fields.flatMap (pieces c) = fields.map String.toList := by
  induction fields with
  | nil => rfl
  | cons field fields ih =>
    rw [List.flatMap_cons, pieces_of_notMem (absent field List.mem_cons_self),
      ih fun f mem => absent f (List.mem_cons_of_mem field mem)]
    rfl

theorem eq_of_toList_map_eq {texts texts' : List String}
    (h : texts.map String.toList = texts'.map String.toList) : texts = texts' :=
  (List.map_inj_right fun _ _ => String.toList_inj.mp).mp h

theorem pieces_intercalate_of_notMem {fields : List String}
    (absent : ∀ f ∈ fields, c ∉ f.toList) (nonempty : fields ≠ []) :
    pieces c ((String.singleton c).intercalate fields) = fields.map String.toList := by
  rw [← flatMap_pieces_of_notMem absent]
  exact pieces_intercalate fields nonempty

theorem eq_of_intercalate_eq {fields fields' : List String}
    (absent : ∀ f ∈ fields, c ∉ f.toList) (absent' : ∀ f ∈ fields', c ∉ f.toList)
    (nonempty : fields ≠ []) (nonempty' : fields' ≠ [])
    (h : (String.singleton c).intercalate fields = (String.singleton c).intercalate fields') :
    fields = fields' := by
  have hpieces := congrArg (pieces c) h
  rw [pieces_intercalate_of_notMem absent nonempty, pieces_intercalate_of_notMem absent' nonempty']
    at hpieces
  exact eq_of_toList_map_eq hpieces

theorem length_le_length_pieces (fields : List String) :
    fields.length ≤ (fields.flatMap (pieces c)).length := by
  induction fields with
  | nil => exact Nat.zero_le _
  | cons field fields ih =>
    have hpos : 0 < (pieces c field).length := List.length_pos_iff.mpr (List.splitOn_ne_nil c _)
    rw [List.flatMap_cons, List.length_append, List.length_cons]
    omega

theorem eq_of_flatMap_pieces_eq {fields fields' : List String}
    (same : fields.length = fields'.length)
    (h : fields.map String.toList = fields'.flatMap (pieces c)) : fields = fields' := by
  induction fields' generalizing fields with
  | nil => exact List.length_eq_zero_iff.mp same
  | cons field' fields' ih =>
    cases fields with
    | nil => cases same
    | cons field fields =>
      obtain ⟨piece, more, hpieces⟩ :=
        List.exists_cons_of_ne_nil (List.splitOn_ne_nil c field'.toList)
      rw [List.flatMap_cons, pieces, hpieces, List.map_cons, List.cons_append] at h
      obtain ⟨hfirst, hrest⟩ := List.cons.inj h
      -- The other texts have at least one piece each, so none is left for more of this one.
      have hlength := congrArg List.length hrest
      have hatLeast := length_le_length_pieces (c := c) fields'
      simp only [List.length_map, List.length_append, List.length_cons] at hlength same
      obtain rfl : more = [] := List.length_eq_zero_iff.mp (by omega)
      have hjoin := congrArg (List.intercalate [c]) hpieces
      rw [List.intercalate_splitOn, List.intercalate_singleton] at hjoin
      have hfield : field = field' := String.toList_inj.mp (hfirst.trans hjoin.symm)
      have hfields : fields = fields' := ih (by omega) (by simpa using hrest)
      rw [hfield, hfields]

end

theorem pieces_joinFields (fields : List String) (nonempty : fields ≠ []) :
    pieces '|' (joinFields fields) = fields.flatMap (pieces '|') :=
  pieces_intercalate fields nonempty

/-- Fields that are free of separators are the only ones, of their number, with their joined text.
-/
theorem eq_of_joinFields_eq {fields fields' : List String} (same : fields.length = fields'.length)
    (clean : ∀ f ∈ fields, '|' ∉ f.toList) (joined : joinFields fields = joinFields fields') :
    fields = fields' := by
  cases fields with
  | nil => exact (List.length_eq_zero_iff.mp same.symm).symm
  | cons field rest =>
    have nonempty' : fields' ≠ [] := by
      rintro rfl
      cases same
    have hpieces := congrArg (pieces '|') joined
    rw [pieces_joinFields _ (List.cons_ne_nil field rest), pieces_joinFields _ nonempty',
      flatMap_pieces_of_notMem clean] at hpieces
    exact eq_of_flatMap_pieces_eq same hpieces

theorem eq_of_joinFields_middle_eq {front front' back back' : List String} {mid mid' : String}
    (sameFront : front.length = front'.length) (sameBack : back.length = back'.length)
    (clean : ∀ f ∈ front ++ back, '|' ∉ f.toList) (clean' : ∀ f ∈ front' ++ back', '|' ∉ f.toList)
    (joined : joinFields (front ++ mid :: back) = joinFields (front' ++ mid' :: back')) :
    front = front' ∧ mid = mid' ∧ back = back' := by
  have hpieces := congrArg (pieces '|') joined
  rw [pieces_joinFields _ (by simp), pieces_joinFields _ (by simp), List.flatMap_append,
    List.flatMap_append, List.flatMap_cons, List.flatMap_cons,
    flatMap_pieces_of_notMem fun f mem => clean f (List.mem_append_left back mem),
    flatMap_pieces_of_notMem fun f mem => clean f (List.mem_append_right front mem),
    flatMap_pieces_of_notMem fun f mem => clean' f (List.mem_append_left back' mem),
    flatMap_pieces_of_notMem fun f mem => clean' f (List.mem_append_right front' mem)] at hpieces
  obtain ⟨hfront, hrest⟩ := List.append_inj hpieces (by simpa using sameFront)
  obtain ⟨hmid, hback⟩ := List.append_inj' hrest (by simpa using sameBack)
  exact ⟨eq_of_toList_map_eq hfront, pieces_injective hmid, eq_of_toList_map_eq hback⟩

theorem domainSeparated_joinFields (domain nonce purpose : String) (fields : List String)
    (nonempty : fields ≠ []) :
    domainSeparated domain nonce purpose (joinFields fields) =
      joinFields (domain :: nonce :: purpose :: fields) := by
  obtain ⟨field, rest, rfl⟩ := List.exists_cons_of_ne_nil nonempty
  simp only [domainSeparated, joinFields, String.intercalate_cons_cons,
    String.intercalate_singleton]

theorem notMem_repr (n : Nat) {c : Char} (h : c.isDigit = false) : c ∉ n.repr.toList := by
  intro mem
  rw [Nat.toList_repr] at mem
  rw [Nat.isDigit_of_mem_toDigits (by decide) (by decide) mem] at h
  cases h

theorem repr_injective {m n : Nat} (h : m.repr = n.repr) : m = n := by
  have hdigits : Nat.toDigits 10 m = Nat.toDigits 10 n := by
    rw [← Nat.toList_repr, ← Nat.toList_repr, h]
  rw [← Nat.ofDigitChars_ten_toDigits (n := m), hdigits, Nat.ofDigitChars_ten_toDigits]

theorem Numeral.write_injective {a b : UInt64} (h : Numeral.write a = Numeral.write b) : a = b :=
  UInt64.toNat_inj.mp (repr_injective h)

theorem Numeral.write_ne_empty (n : UInt64) : Numeral.write n ≠ "" := by
  intro hempty
  have htext := congrArg String.toList hempty
  rw [Numeral.write, Nat.toList_repr] at htext
  exact Nat.toDigits_ne_nil htext

theorem Timestamp.text_injective {a b : Timestamp} (h : a.text = b.text) : a = b := by
  cases a with
  | mk a =>
    cases b with
    | mk b => exact congrArg Timestamp.mk (Numeral.write_injective h)

end PaymentTrust
