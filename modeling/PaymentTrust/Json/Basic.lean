/-! JSON values. The members of an object keep the order in which they stand. -/
namespace PaymentTrust

inductive Json.Number where
  | integer (n : Int)
  | real (x : Float)

inductive Json where
  | null
  | bool (b : Bool)
  | number (n : Json.Number)
  | string (s : String)
  | array (items : List Json)
  | object (members : List (String × Json))

namespace Json

def putSorted {α : Type} (key : String) (value : α) : List (String × α) → List (String × α)
  | [] => [(key, value)]
  | (k, v) :: rest =>
    if key = k then (key, value) :: rest
    else if key < k then (key, value) :: (k, v) :: rest
    else (k, v) :: putSorted key value rest

/-- The members by ascending key; of several with one key, the last. -/
def sortMembers {α : Type} (members : List (String × α)) : List (String × α) :=
  members.foldl (fun sorted (key, value) => putSorted key value sorted) []

def nat (n : Nat) : Json := .number (.integer n)

def member? (name : String) : Option Json → List (String × Json)
  | some value => [(name, value)]
  | none => []

end Json

end PaymentTrust
