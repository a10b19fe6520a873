import PaymentTrust.Json.Draft
import PaymentTrust.Proofs.Json.Numerals
import PaymentTrust.Proofs.Json.Strings

/-! A value is read back from its text. The text is a sequence of words, and the words take the machine
that reads them from a place for a value to the place after it, with the value delivered. -/
namespace PaymentTrust.Json

mutual

/-- Its numbers are integers of 64 bits, signed or unsigned. -/
def IsIntegral : Json → Prop
  | .null | .bool _ | .string _ => True
  | .number (.integer n) => -0x8000000000000000 ≤ n ∧ n < 0x10000000000000000
  | .number (.real _) => False
  | .array items => AreIntegral items
  | .object members => MembersAreIntegral members

def AreIntegral : List Json → Prop
  | [] => True
  | v :: rest => v.IsIntegral ∧ AreIntegral rest

def MembersAreIntegral : List (String × Json) → Prop
  | [] => True
  | (_, v) :: rest => v.IsIntegral ∧ MembersAreIntegral rest

end

mutual

def words : Json → List Token
  | .null => [.null]
  | .bool b => [.bool b]
  | .number n => [.number (some n)]
  | .string s => [.string (some s)]
  | .array items => .openArray :: (itemWords items ++ [.closeArray])
  | .object members => .openObject :: (memberWords members ++ [.closeObject])

def itemWords : List Json → List Token
  | [] => []
  | [v] => words v
  | v :: rest => words v ++ .comma :: itemWords rest

def memberWords : List (String × Json) → List Token
  | [] => []
  | [(k, v)] => .string (some k) :: .colon :: words v
  | (k, v) :: rest => .string (some k) :: .colon :: (words v ++ .comma :: memberWords rest)

end

namespace Token

variable {plain : Char → List Char}

theorem all_writeString (faithful : Faithful plain) (s : String) (rest : Bytes) :
    all (Utf8.encode (writeString plain s) ++ rest) = .string (some s) :: all rest :=
  all_cons rfl (first_writeString faithful s rest)

theorem all_writeMember (faithful : Faithful plain) (k : String) {v : Json} {rest : Bytes}
    (hv : all (Utf8.encode (write plain v) ++ rest) = words v ++ all rest) :
    all (Utf8.encode (writeString plain k ++ ':' :: write plain v) ++ rest) =
      .string (some k) :: .colon :: (words v ++ all rest) := by
  have hcolon : all (0x3a :: (Utf8.encode (write plain v) ++ rest)) =
      .colon :: all (Utf8.encode (write plain v) ++ rest) := all_cons rfl rfl
  rw [Utf8.encode_append, List.append_assoc, all_writeString faithful, ← hv, ← hcolon]
  rfl

mutual

-- A numeral ends only where something follows that cannot be a part of it. In a list that is a comma
-- or what closes the list; at the top it is the hypothesis `ends`.
theorem all_write (faithful : Faithful plain) (v : Json) (h : v.IsIntegral) (rest : Bytes)
    (ends : Numeral.EndsBefore rest) :
    all (Utf8.encode (write plain v) ++ rest) = words v ++ all rest := by
  cases v with
  | null => exact all_cons rfl rfl
  | bool b => cases b <;> exact all_cons rfl rfl
  | number n =>
    cases n with
    | integer n =>
      rw [IsIntegral] at h
      exact all_writeInt h.1 h.2 ends
    | real x =>
      rw [IsIntegral] at h
      exact h.elim
  | string s => exact all_writeString faithful s rest
  | array items =>
    rw [IsIntegral] at h
    have hitems :=
      all_writeItems faithful items h (0x5d :: rest) (Numeral.endsBefore_cons (by decide) rest)
    have hclose : all (0x5d :: rest) = .closeArray :: all rest := all_cons rfl rfl
    rw [write, Utf8.encode_append, List.append_assoc, Utf8.encode_cons, List.append_assoc, words,
      List.cons_append, List.append_assoc]
    rw [hclose] at hitems
    exact (all_cons rfl rfl).trans (congrArg (Token.openArray :: ·) hitems)
  | object members =>
    rw [IsIntegral] at h
    have hmembers :=
      all_writeMembers faithful members h (0x7d :: rest) (Numeral.endsBefore_cons (by decide) rest)
    have hclose : all (0x7d :: rest) = .closeObject :: all rest := all_cons rfl rfl
    rw [write, Utf8.encode_append, List.append_assoc, Utf8.encode_cons, List.append_assoc, words,
      List.cons_append, List.append_assoc]
    rw [hclose] at hmembers
    exact (all_cons rfl rfl).trans (congrArg (Token.openObject :: ·) hmembers)

theorem all_writeItems (faithful : Faithful plain) (items : List Json) (h : AreIntegral items)
    (rest : Bytes) (ends : Numeral.EndsBefore rest) :
    all (Utf8.encode (writeItems plain items) ++ rest) = itemWords items ++ all rest := by
  cases items with
  | nil => rfl
  | cons v items =>
    rw [AreIntegral] at h
    cases items with
    | nil => exact all_write faithful v h.1 rest ends
    | cons w items =>
      have hitems := all_writeItems faithful (w :: items) h.2 rest ends
      have hv := all_write faithful v h.1
        (0x2c :: (Utf8.encode (writeItems plain (w :: items)) ++ rest))
        (Numeral.endsBefore_cons (by decide) _)
      have hcomma : all (0x2c :: (Utf8.encode (writeItems plain (w :: items)) ++ rest)) =
          .comma :: all (Utf8.encode (writeItems plain (w :: items)) ++ rest) := all_cons rfl rfl
      rw [hcomma, hitems] at hv
      rw [writeItems, Utf8.encode_append, List.append_assoc, itemWords, List.append_assoc]
      · exact hv
      · exact List.cons_ne_nil w items
      · exact List.cons_ne_nil w items

theorem all_writeMembers (faithful : Faithful plain) (members : List (String × Json))
    (h : MembersAreIntegral members) (rest : Bytes) (ends : Numeral.EndsBefore rest) :
    all (Utf8.encode (writeMembers plain members) ++ rest) = memberWords members ++ all rest := by
  cases members with
  | nil => rfl
  | cons member members =>
    cases member with
    | mk k v =>
      rw [MembersAreIntegral] at h
      cases members with
      | nil => exact all_writeMember faithful k (all_write faithful v h.1 rest ends)
      | cons next members =>
        have hmembers := all_writeMembers faithful (next :: members) h.2 rest ends
        have hv := all_write faithful v h.1
          (0x2c :: (Utf8.encode (writeMembers plain (next :: members)) ++ rest))
          (Numeral.endsBefore_cons (by decide) _)
        have hcomma : all (0x2c :: (Utf8.encode (writeMembers plain (next :: members)) ++ rest)) =
            .comma :: all (Utf8.encode (writeMembers plain (next :: members)) ++ rest) :=
          all_cons rfl rfl
        have hmember := all_writeMember faithful k hv
        rw [hcomma, hmembers] at hmember
        rw [writeMembers, Utf8.encode_append, List.append_assoc, memberWords]
        · simp only [List.cons_append, List.append_assoc]
          exact hmember
        · exact List.cons_ne_nil next members
        · exact List.cons_ne_nil next members

end

end Token

namespace Draft

def resume : Step → List Token → Option Document
  | .next phase stack, rest => some (run phase stack rest)
  | .done v, rest => some ⟨v, !rest.isEmpty⟩
  | .fault, _ => none

variable {d : Document} {stack : List Frame} {rest : List Token}

theorem run_cons {phase : Phase} {t : Token} (h : resume (step phase stack t) rest = some d) :
    run phase stack (t :: rest) = d := by
  rw [run]
  cases hstep : step phase stack t with
  | next phase stack =>
    rw [hstep] at h
    exact Option.some.inj h
  | done v =>
    rw [hstep] at h
    exact Option.some.inj h
  | fault =>
    rw [hstep] at h
    cases h

/-- Where an array may close, its first item may begin as well. -/
theorem run_firstItem {items : List Json} (nonempty : items ≠ []) (stack : List Frame)
    (rest : List Token) :
    run .firstItem (.array [] :: stack) (itemWords items ++ rest) =
      run .value (.array [] :: stack) (itemWords items ++ rest) := by
  cases items with
  | nil => exact absurd rfl nonempty
  | cons v items => cases items <;> cases v <;> rfl

theorem run_firstKey {members : List (String × Json)} (nonempty : members ≠ [])
    (stack : List Frame) (rest : List Token) :
    run .firstKey (.object [] :: stack) (memberWords members ++ rest) =
      run .key (.object [] :: stack) (memberWords members ++ rest) := by
  cases members with
  | nil => exact absurd rfl nonempty
  | cons member members => cases members <;> rfl

mutual

theorem run_words (v : Json) (stack : List Frame) (rest : List Token) {d : Document}
    (h : resume (deliver (ofJson v) stack) rest = some d) :
    run .value stack (words v ++ rest) = d := by
  cases v with
  | null => exact run_cons h
  | bool b => exact run_cons h
  | number n => exact run_cons h
  | string s => exact run_cons h
  | array items =>
    rw [words, List.cons_append, List.append_assoc]
    apply run_cons
    by_cases nonempty : items = []
    · rw [nonempty] at h ⊢
      exact congrArg some (run_cons h)
    · -- The frame holds the items in reverse; closing the array turns them round.
      have hitems := run_itemWords items nonempty [] stack (.closeArray :: rest)
      rw [ofJson, ← List.reverse_reverse (ofJsons items), ← List.append_nil (ofJsons items).reverse]
        at h
      exact congrArg some ((run_firstItem nonempty stack _).trans (hitems.trans (run_cons h)))
  | object members =>
    rw [words, List.cons_append, List.append_assoc]
    apply run_cons
    by_cases nonempty : members = []
    · rw [nonempty] at h ⊢
      exact congrArg some (run_cons h)
    · have hmembers := run_memberWords members nonempty [] stack (.closeObject :: rest)
      rw [ofJson, ← List.reverse_reverse (ofMembers members),
        ← List.append_nil (ofMembers members).reverse] at h
      exact congrArg some ((run_firstKey nonempty stack _).trans (hmembers.trans (run_cons h)))

theorem run_itemWords (items : List Json) (nonempty : items ≠ []) (acc : List Draft)
    (stack : List Frame) (rest : List Token) :
    run .value (.array acc :: stack) (itemWords items ++ rest) =
      run .more (.array ((ofJsons items).reverse ++ acc) :: stack) rest := by
  cases items with
  | nil => exact absurd rfl nonempty
  | cons v items =>
    cases items with
    | nil => exact run_words v (.array acc :: stack) rest rfl
    | cons w items =>
      have htail := run_itemWords (w :: items) (List.cons_ne_nil w items) (ofJson v :: acc) stack rest
      have hcomma : run .more (.array (ofJson v :: acc) :: stack)
          (.comma :: (itemWords (w :: items) ++ rest)) = _ := run_cons (congrArg some htail)
      have hv := run_words v (.array acc :: stack) (.comma :: (itemWords (w :: items) ++ rest))
        (congrArg some hcomma)
      rw [itemWords, List.append_assoc, ofJsons, List.reverse_cons, List.append_assoc]
      · exact hv
      · exact List.cons_ne_nil w items

theorem run_memberWords (members : List (String × Json)) (nonempty : members ≠ [])
    (acc : List (Option String × Draft)) (stack : List Frame) (rest : List Token) :
    run .key (.object acc :: stack) (memberWords members ++ rest) =
      run .more (.object ((ofMembers members).reverse ++ acc) :: stack) rest := by
  cases members with
  | nil => exact absurd rfl nonempty
  | cons member members =>
    cases member with
    | mk k v =>
      cases members with
      | nil => exact run_words v (.member acc (some k) :: stack) rest rfl
      | cons next members =>
        have htail := run_memberWords (next :: members) (List.cons_ne_nil next members)
          ((some k, ofJson v) :: acc) stack rest
        have hcomma : run .more (.object ((some k, ofJson v) :: acc) :: stack)
            (.comma :: (memberWords (next :: members) ++ rest)) = _ := run_cons (congrArg some htail)
        have hv := run_words v (.member acc (some k) :: stack)
          (.comma :: (memberWords (next :: members) ++ rest)) (congrArg some hcomma)
        rw [memberWords, List.cons_append, List.cons_append, List.append_assoc, ofMembers,
          List.reverse_cons, List.append_assoc]
        · exact hv
        · exact List.cons_ne_nil next members

end

/-- The text of a value holds that value and nothing else. -/
theorem read_write {plain : Char → List Char} (faithful : Token.Faithful plain) {v : Json}
    (h : v.IsIntegral) : read (Utf8.encode (write plain v)) = ⟨ofJson v, false⟩ := by
  have hwords := Token.all_write faithful v h [] nofun
  have hend : Token.all [] = [] := by
    rw [Token.all]
    rfl
  rw [List.append_nil, hend] at hwords
  rw [read, hwords]
  exact run_words v [] [] rfl

mutual

theorem ofJson_injective (v w : Json) (h : ofJson v = ofJson w) : v = w := by
  cases v with
  | array items =>
    cases w with
    | array items' => rw [ofJsons_injective items items' (Draft.array.inj h)]
    | _ => cases h
  | object members =>
    cases w with
    | object members' => rw [ofMembers_injective members members' (Draft.object.inj h)]
    | _ => cases h
  | _ =>
    cases w <;> cases h
    rfl

theorem ofJsons_injective (items items' : List Json) (h : ofJsons items = ofJsons items') :
    items = items' := by
  cases items with
  | nil => cases items' with
    | nil => rfl
    | cons => cases h
  | cons v items =>
    cases items' with
    | nil => cases h
    | cons w items' =>
      obtain ⟨hv, hitems⟩ := List.cons.inj h
      rw [ofJson_injective v w hv, ofJsons_injective items items' hitems]

theorem ofMembers_injective (members members' : List (String × Json))
    (h : ofMembers members = ofMembers members') : members = members' := by
  cases members with
  | nil => cases members' with
    | nil => rfl
    | cons => cases h
  | cons member members =>
    cases members' with
    | nil => cases h
    | cons member' members' =>
      obtain ⟨hmember, hmembers⟩ := List.cons.inj h
      obtain ⟨hkey, hvalue⟩ := Prod.mk.inj hmember
      rw [ofMembers_injective members members' hmembers, Prod.ext (Option.some.inj hkey)
        (ofJson_injective member.2 member'.2 hvalue)]

end

end Draft

theorem write_injective {plain : Char → List Char} (faithful : Token.Faithful plain) {v w : Json}
    (hv : v.IsIntegral) (hw : w.IsIntegral) (h : write plain v = write plain w) : v = w := by
  have hread := Draft.read_write faithful hv
  rw [h, Draft.read_write faithful hw] at hread
  exact (Draft.ofJson_injective w v (Draft.Document.mk.inj hread).1).symm

end PaymentTrust.Json
