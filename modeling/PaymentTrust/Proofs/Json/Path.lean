import PaymentTrust.Proofs.Json.Members

/-! Paths into a value: what stands where one leads to, and the value with something else there. -/
namespace PaymentTrust.Json

/-- Into an object to the member of this key, or into an array to the item of this index. -/
inductive Selector where
  | member (key : String)
  | item (index : Nat)

namespace Selector

def find? : Selector → Json → Option Json
  | member key, .object members => members.lookup key
  | item index, .array items => items[index]?
  | _, _ => none

def setMember (key : String) (value : Json) : List (String × Json) → List (String × Json)
  | [] => []
  | (k, v) :: rest => if key = k then (k, value) :: rest else (k, v) :: setMember key value rest

def set (value : Json) : Selector → Json → Json
  | member key, .object members => .object (setMember key value members)
  | item index, .array items => .array (items.set index value)
  | _, v => v

theorem lookup_setMember {key : String} (value : Json) {members : List (String × Json)}
    (present : (members.lookup key).isSome) :
    (setMember key value members).lookup key = some value := by
  induction members with
  | nil => cases present
  | cons member members ih =>
    obtain ⟨k, v⟩ := member
    rw [lookup_cons] at present
    rw [setMember]
    by_cases hk : key = k
    · rw [if_pos hk, lookup_cons, if_pos hk]
    · rw [if_neg hk] at present
      rw [if_neg hk, lookup_cons, if_neg hk, ih present]

theorem find?_set {s : Selector} {v inner : Json} (found : s.find? v = some inner) (value : Json) :
    s.find? (s.set value v) = some value := by
  cases s with
  | member key =>
    cases v with
    | object members => exact lookup_setMember value (Option.isSome_of_eq_some found)
    | _ => cases found
  | item index =>
    cases v with
    | array items =>
      obtain ⟨inside, -⟩ := List.getElem?_eq_some_iff.mp found
      exact List.getElem?_set_self inside
    | _ => cases found

end Selector

def at? (v : Json) : List Selector → Option Json
  | [] => some v
  | s :: path => (s.find? v).bind (at? · path)

def put (value : Json) : List Selector → Json → Json
  | [], _ => value
  | s :: path, v =>
    match s.find? v with
    | some inner => s.set (put value path inner) v
    | none => v

theorem at?_cons_eq_some_iff {v inner : Json} {s : Selector} {path : List Selector} :
    v.at? (s :: path) = some inner ↔ ∃ next, s.find? v = some next ∧ next.at? path = some inner :=
  Option.bind_eq_some_iff

theorem at?_put {v inner : Json} {path : List Selector} (found : v.at? path = some inner)
    (value : Json) : (put value path v).at? path = some value := by
  induction path generalizing v with
  | nil => rfl
  | cons s path ih =>
    obtain ⟨next, here, there⟩ := at?_cons_eq_some_iff.mp found
    simp only [put, here]
    exact at?_cons_eq_some_iff.mpr ⟨_, Selector.find?_set here _, ih there⟩

end PaymentTrust.Json
