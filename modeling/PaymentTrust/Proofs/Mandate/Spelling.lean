import PaymentTrust.Proofs.Json.NormalForm
import PaymentTrust.Proofs.Text.Numeral

/-! The two spellings of a word in the JSON of a mandate: a number, or a string of its decimal digits.
A value that is respelled can be exchanged as well as before. -/
namespace PaymentTrust.Json

/-- A value that may be exchanged inside of others, as far as `room` more containers around it allow. -/
structure Fits (room : Nat) (v : Json) : Prop where
  integral : v.IsIntegral
  unambiguous : v.IsUnambiguous
  shallow : v.depth ≤ room

theorem Exchangeable.of_fits {v : Json} (h : v.Fits maxDepth) : v.Exchangeable :=
  ⟨h.integral, h.unambiguous, h.shallow⟩

theorem fits_array {room : Nat} {items : List Json} :
    (array items).Fits (room + 1) ↔ ∀ v ∈ items, v.Fits room := by
  constructor
  · rintro ⟨integral, unambiguous, shallow⟩ v mem
    rw [IsIntegral, areIntegral_iff] at integral
    exact ⟨integral v mem, isUnambiguous_array.mp unambiguous v mem,
      depth_array_le_succ.mp shallow v mem⟩
  · intro h
    refine ⟨?_, isUnambiguous_array.mpr fun v mem => (h v mem).unambiguous,
      depth_array_le_succ.mpr fun v mem => (h v mem).shallow⟩
    rw [IsIntegral, areIntegral_iff]
    exact fun v mem => (h v mem).integral

theorem fits_object {room : Nat} {members : List (String × Json)} :
    (object members).Fits (room + 1) ↔
      HaveDistinctKeys members ∧ ∀ member ∈ members, member.2.Fits room := by
  constructor
  · rintro ⟨integral, unambiguous, shallow⟩
    rw [IsIntegral, membersAreIntegral_iff] at integral
    rw [isUnambiguous_object] at unambiguous
    exact ⟨unambiguous.1, fun member mem => ⟨integral member mem, unambiguous.2 member mem,
      depth_object_le_succ.mp shallow member mem⟩⟩
  · rintro ⟨distinct, h⟩
    refine ⟨?_, isUnambiguous_object.mpr ⟨distinct, fun member mem => (h member mem).unambiguous⟩,
      depth_object_le_succ.mpr fun member mem => (h member mem).shallow⟩
    rw [IsIntegral, membersAreIntegral_iff]
    exact fun member mem => (h member mem).integral

@[simp] theorem fits_string (room : Nat) (s : String) : (string s).Fits room :=
  ⟨trivial, trivial, Nat.zero_le room⟩

theorem fits_nat {n : Nat} (h : n < UInt64.size) (room : Nat) : (nat n).Fits room := by
  refine ⟨?_, trivial, Nat.zero_le room⟩
  simp only [nat, IsIntegral, UInt64.size] at h ⊢
  omega

def SpellsWord (n : UInt64) (v : Json) : Prop :=
  v = .nat n.toNat ∨ v = .string (Numeral.write n)

theorem SpellsWord.fits {n : UInt64} {v : Json} (h : v.SpellsWord n) (room : Nat) : v.Fits room := by
  rcases h with rfl | rfl
  · exact fits_nat n.toNat_lt_size room
  · exact fits_string room _

theorem SpellsWord.unique {m n : UInt64} {v : Json} (hm : v.SpellsWord m) (hn : v.SpellsWord n) :
    m = n := by
  rcases hm with rfl | rfl
  · rcases hn with h | h
    · simpa [nat, UInt64.toNat_inj] using h
    · cases h
  · rcases hn with h | h
    · cases h
    · have hread := Numeral.read?_write n
      rw [← string.inj h, Numeral.read?_write] at hread
      exact Option.some.inj hread

def wordKeys : List String :=
  ["requested_amount", "price_minor", "subtotal_minor", "taxes_minor", "amount_minor", "expires_at",
    "created"]

mutual

/-- The second value is the first with some amounts and times in their other spelling. -/
def Respelled : Json → Json → Prop
  | .array items, w => ∃ items', w = .array items' ∧ ItemsRespelled items items'
  | .object members, w => ∃ members', w = .object members' ∧ MembersRespelled members members'
  | v, w => w = v

def ItemsRespelled : List Json → List Json → Prop
  | [], items' => items' = []
  | v :: rest, items' => ∃ w rest', items' = w :: rest' ∧ v.Respelled w ∧ ItemsRespelled rest rest'

def MembersRespelled : List (String × Json) → List (String × Json) → Prop
  | [], members' => members' = []
  | (k, v) :: rest, members' => ∃ w rest', members' = (k, w) :: rest' ∧
      (v.Respelled w ∨ k ∈ wordKeys ∧ ∃ n, v.SpellsWord n ∧ w.SpellsWord n) ∧
      MembersRespelled rest rest'

end

def RespelledAt (key : String) (v w : Json) : Prop :=
  v.Respelled w ∨ key ∈ wordKeys ∧ ∃ n, v.SpellsWord n ∧ w.SpellsWord n

theorem SpellsWord.of_respelledAt {key : String} {v w : Json} {n : UInt64} (h : v.SpellsWord n)
    (respelled : RespelledAt key v w) : w.SpellsWord n := by
  rcases respelled with same | ⟨-, m, hv, hw⟩
  · rcases h with rfl | rfl
    · exact .inl same
    · exact .inr same
  · rwa [h.unique hv]

section

variable {members members' : List (String × Json)} (h : MembersRespelled members members')

include h

theorem keys_of_membersRespelled : members'.map Prod.fst = members.map Prod.fst := by
  induction members generalizing members' with
  | nil =>
    rw [MembersRespelled] at h
    rw [h]
  | cons member members ih =>
    obtain ⟨w, rest, rfl, -, hrest⟩ := h
    rw [List.map_cons, List.map_cons, ih hrest]

theorem exists_of_mem_membersRespelled :
    ∀ member' ∈ members', ∃ v, (member'.1, v) ∈ members ∧ RespelledAt member'.1 v member'.2 := by
  induction members generalizing members' with
  | nil =>
    rw [MembersRespelled] at h
    rw [h]
    nofun
  | cons member members ih =>
    obtain ⟨w, rest, rfl, hfirst, hrest⟩ := h
    rw [List.forall_mem_cons]
    refine ⟨⟨member.2, List.mem_cons_self, hfirst⟩, ?_⟩
    intro member' mem
    obtain ⟨v, hv, hat⟩ := ih hrest member' mem
    exact ⟨v, List.mem_cons_of_mem member hv, hat⟩

theorem lookup_of_respelled_eq_none {key : String} (absent : members.lookup key = none) :
    members'.lookup key = none := by
  rw [List.lookup_eq_none_iff] at absent ⊢
  intro member mem
  obtain ⟨v, hv, -⟩ := exists_of_mem_membersRespelled h member mem
  exact absent (member.1, v) hv

theorem exists_lookup_of_respelled {key : String} {v : Json} (found : members.lookup key = some v) :
    ∃ w, members'.lookup key = some w ∧ RespelledAt key v w := by
  induction members generalizing members' with
  | nil => cases found
  | cons member members ih =>
    obtain ⟨w, rest, rfl, hfirst, hrest⟩ := h
    cases member with
    | mk k u =>
      rw [lookup_cons] at found ⊢
      by_cases hk : key = k
      · rw [if_pos hk] at found ⊢
        cases found
        exact ⟨w, rfl, hk ▸ hfirst⟩
      · rw [if_neg hk] at found ⊢
        exact ih hrest found

end

theorem exists_of_mem_itemsRespelled {items items' : List Json} (h : ItemsRespelled items items') :
    ∀ w ∈ items', ∃ v ∈ items, v.Respelled w := by
  induction items generalizing items' with
  | nil =>
    rw [ItemsRespelled] at h
    rw [h]
    nofun
  | cons v items ih =>
    obtain ⟨w, rest, rfl, hfirst, hrest⟩ := h
    rw [List.forall_mem_cons]
    refine ⟨⟨v, List.mem_cons_self, hfirst⟩, ?_⟩
    intro w mem
    obtain ⟨v', hv', hat⟩ := ih hrest w mem
    exact ⟨v', List.mem_cons_of_mem v hv', hat⟩

theorem respelled_self (v : Json) : v.Respelled v := by
  induction v using Json.induction with
  | array items ih =>
    refine ⟨items, rfl, ?_⟩
    induction items with
    | nil => rfl
    | cons v items ihItems =>
      obtain ⟨hfirst, hrest⟩ := List.forall_mem_cons.mp ih
      exact ⟨v, items, rfl, hfirst, ihItems hrest⟩
  | object members ih =>
    refine ⟨members, rfl, ?_⟩
    induction members with
    | nil => rfl
    | cons member members ihMembers =>
      obtain ⟨hfirst, hrest⟩ := List.forall_mem_cons.mp ih
      exact ⟨member.2, members, rfl, .inl hfirst, ihMembers hrest⟩
  | _ => rfl

theorem fits_of_respelled {v w : Json} (h : v.Respelled w) {room : Nat} (fits : v.Fits room) :
    w.Fits room := by
  induction v using Json.induction generalizing w room with
  | array items ih =>
    obtain ⟨items', rfl, h⟩ := h
    cases room with
    | zero => exact absurd fits.shallow (Nat.not_succ_le_zero _)
    | succ room =>
      rw [fits_array] at fits ⊢
      intro w mem
      obtain ⟨v, hv, hvw⟩ := exists_of_mem_itemsRespelled h w mem
      exact ih v hv hvw (fits v hv)
  | object members ih =>
    obtain ⟨members', rfl, h⟩ := h
    cases room with
    | zero => exact absurd fits.shallow (Nat.not_succ_le_zero _)
    | succ room =>
      rw [fits_object] at fits ⊢
      obtain ⟨distinct, fits⟩ := fits
      refine ⟨?_, ?_⟩
      · rwa [HaveDistinctKeys, keys_of_membersRespelled h]
      · intro member mem
        obtain ⟨v, hv, hrespelled | ⟨-, n, -, hspells⟩⟩ := exists_of_mem_membersRespelled h member mem
        · exact ih (member.1, v) hv hrespelled (fits _ hv)
        · exact hspells.fits room
  | _ =>
    rw [Respelled] at h
    · rwa [h]
    · rintro _ ⟨⟩
    · rintro _ ⟨⟩

end PaymentTrust.Json
