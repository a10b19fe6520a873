import PaymentTrust.Identity
import PaymentTrust.Ledger.Consumed
import PaymentTrust.Toml.Reader

/-! Settings of the stores and of identity, from a TOML file that may refer to variables. -/
namespace PaymentTrust

abbrev Variables := List (String × String)

namespace Variables

def isNameChar (c : Char) : Bool := c.isAlphanum || c = '_'

/-- The value of the variable, or the reference as it would stand closed if none is set. -/
def substitute (vars : Variables) (braced : Bool) (name : List Char) : List Char :=
  match name, vars.lookup (String.ofList name) with
  | _ :: _, some value => value.toList
  | [], _ => if braced then ['$', '\x7b'] else ['$']
  | _, none => if braced then '$' :: '\x7b' :: name ++ ['\x7d'] else '$' :: name

/-- Replaces `$NAME` and `${NAME}` by what they refer to. A value put in is not read again. -/
def expand (vars : Variables) : List Char → List Char
  | [] => []
  | '$' :: '\x7b' :: rest =>
    vars.substitute true (rest.takeWhile (· ≠ '\x7d')) ++
      vars.expand ((rest.dropWhile (· ≠ '\x7d')).drop 1)
  | '$' :: rest =>
    vars.substitute false (rest.takeWhile isNameChar) ++ vars.expand (rest.dropWhile isNameChar)
  | c :: rest => c :: vars.expand rest
termination_by text => text.length
decreasing_by
  · have := (List.dropWhile_sublist (· ≠ '\x7d') (l := rest)).length_le
    simp only [List.length_drop, List.length_cons]
    omega
  · have := (List.dropWhile_sublist isNameChar (l := rest)).length_le
    simp only [List.length_cons]
    omega
  · simp

end Variables

structure Settings where
  environment : Environment
  replayBound : Nat
  consumed : ConsumedSettings
  deriving DecidableEq, Repr

inductive SettingsError where
  | unreadable
  | malformed
  deriving DecidableEq, Repr

inductive SettingsFile where
  | absent
  | unreadable
  | content (bytes : Bytes)

namespace Settings

def default : Settings := ⟨.production, Ledger.defaultBound, .default⟩

/-- The values of a record's fields: those under their names in a table, or the items of an array
in their places. A date or a time of day gives no field a value. -/
def fields? (names : List String) : Toml → Option (List (String × Toml))
  | .table _ entries => some entries
  | .array items => some (names.zip items)
  | .tables earlier last => some (names.zip ((earlier ++ [last]).map (.table .headed)))
  | .moment _ => some []
  | _ => none

def natural? : Toml → Option Nat
  | .integer n => if 0 ≤ n then some n.toNat else none
  | _ => none

def isEmpty : Toml → Bool
  | .table _ [] => true
  | .array [] => true
  | _ => false

def environment? (v : Toml) : Option Environment :=
  let name? : Option String := match v with
    | .string name => some name
    | .table _ [(name, content)] => if isEmpty content then some name else none
    | _ => none
  name?.bind fun name => [Environment.production, .development].find? (·.name = name)

def valueOr (default : α) (read : Toml → Option α) (name : String)
    (fields : List (String × Toml)) : Option α :=
  match fields.lookup name with
  | some v => read v
  | none => some default

def replayBound? (v : Toml) : Option Nat := do
  let fields ← fields? ["max_entries"] v
  valueOr Ledger.defaultBound natural? "max_entries" fields

def consumed? (v : Toml) : Option ConsumedSettings := do
  let fields ← fields? ["default_ttl_secs", "max_entries"] v
  let ttl ← valueOr ConsumedSettings.default.defaultTtl.toNat natural? "default_ttl_secs" fields
  let bound ← valueOr ConsumedSettings.default.bound natural? "max_entries" fields
  return ⟨UInt64.ofNat ttl, bound⟩

def ofToml? (entries : Toml.Entries) : Option Settings := do
  let environment ← valueOr default.environment environment? "environment" entries
  let replayBound ← valueOr default.replayBound replayBound? "replay" entries
  let consumed ← valueOr default.consumed consumed? "consumed" entries
  return ⟨environment, replayBound, consumed⟩

def ofText (vars : Variables) (text : List Char) : Except SettingsError Settings :=
  match (Toml.read? (String.ofList (vars.expand text))).bind ofToml? with
  | some settings => .ok settings
  | none => .error .malformed

/-- A file that is not there leaves the defaults. -/
def load (vars : Variables) : SettingsFile → Except SettingsError Settings
  | .absent => .ok default
  | .unreadable => .error .unreadable
  | .content bytes =>
    match Utf8.decode? bytes with
    | some text => ofText vars text
    | none => .error .unreadable

end Settings

end PaymentTrust
