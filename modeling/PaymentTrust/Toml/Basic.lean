/-! TOML 1.0 values, and the rules by which statements define the tables that hold them. -/
namespace PaymentTrust

/-- How a table came to be, which decides what may still be added to it. -/
inductive Toml.Origin where
  /-- On the way to a table that a header names. -/
  | implied
  | dotted
  | headed
  | inline
  deriving DecidableEq, Repr

structure Toml.Decimal where
  negative : Bool
  significand : Nat
  exponent : Int
  deriving DecidableEq, Repr

inductive Toml where
  | string (s : String)
  | integer (n : Int)
  | real (x : Toml.Decimal)
  | infinite
  | notANumber
  | boolean (b : Bool)
  | moment (text : String)
  | array (items : List Toml)
  | table (origin : Toml.Origin) (entries : List (String × Toml))
  | tables (earlier : List (List (String × Toml))) (last : List (String × Toml))

namespace Toml

abbrev Entries := List (String × Toml)

def replace (key : String) (value : Toml) : Entries → Entries
  | [] => []
  | (k, v) :: rest => if k = key then (k, value) :: rest else (k, v) :: replace key value rest

/-- Changes the table at the end of a path, and makes the tables on the way that are missing. A key
with dots does not lead through a table that a header names, and no path through an inline one. -/
def within (dotted : Bool) (change : Origin → Entries → Option Entries) :
    (path : List String) → Origin → Entries → Option Entries
  | [], origin, entries => change origin entries
  | key :: path, _, entries =>
    match entries.lookup key with
    | none =>
      let origin := if dotted then .dotted else .implied
      (within dotted change path origin []).map fun inner => entries ++ [(key, .table origin inner)]
    | some (.table origin inner) =>
      if origin = .inline ∨ (dotted ∧ origin = .headed) then none
      else
        (within dotted change path origin inner).map fun inner =>
          replace key (.table origin inner) entries
    | some (.tables earlier last) =>
      (within dotted change path .headed last).map fun last =>
        replace key (.tables earlier last) entries
    | some _ => none

/-- Adds a value under a new key; after dots, only to a table that dots have made. -/
def define (dots : List String) (key : String) (value : Toml) :
    Origin → Entries → Option Entries :=
  within true (fun origin entries =>
    if dots ≠ [] ∧ origin ≠ .dotted then none
    else if (entries.lookup key).isSome then none
    else some (entries ++ [(key, value)])) dots

def openTable (path : List String) (key : String) (root : Entries) : Option Entries :=
  within false (fun _ entries =>
    match entries.lookup key with
    | none => some (entries ++ [(key, .table .headed [])])
    | some (.table .implied inner) => some (replace key (.table .headed inner) entries)
    | some _ => none) path .headed root

def openElement (path : List String) (key : String) (root : Entries) : Option Entries :=
  within false (fun _ entries =>
    match entries.lookup key with
    | none => some (entries ++ [(key, .tables [] [])])
    | some (.tables earlier last) => some (replace key (.tables (earlier ++ [last]) []) entries)
    | some _ => none) path .headed root

end Toml

end PaymentTrust
