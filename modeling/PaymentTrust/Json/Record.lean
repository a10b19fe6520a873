import PaymentTrust.Json.Stray
import PaymentTrust.Text.Numeral

/-! Reading drafts as values of other types. A record is given by its fields in order: it is read
from an object, or from an array that lists the fields' values. -/
namespace PaymentTrust.Json

inductive Fault where
  | unsuitable
  | missing (field : String)
  | unknown (field : String)
  | duplicate (field : String)
  deriving DecidableEq, Repr

def Fault.message : Fault → String
  | unsuitable => "not of the form asked for"
  | missing field => s!"missing field `{field}`"
  | unknown field => s!"unknown field `{field}`"
  | duplicate field => s!"duplicate field `{field}`"

abbrev Decoder (α : Type) := Draft → Except Fault α

namespace Decoder

def text : Decoder String
  | .string (some s) => .ok s
  | _ => .error .unsuitable

def bool : Decoder Bool
  | .bool b => .ok b
  | _ => .error .unsuitable

def below (limit : Nat) : Decoder Nat
  | .number (some (.integer n)) => if 0 ≤ n ∧ n < limit then .ok n.toNat else .error .unsuitable
  | _ => .error .unsuitable

def word64 : Decoder UInt64 := fun d => (below UInt64.size d).map UInt64.ofNat

def word32 : Decoder UInt32 := fun d => (below UInt32.size d).map UInt32.ofNat

def word8 : Decoder UInt8 := fun d => (below UInt8.size d).map UInt8.ofNat

/-- A number, or a string that holds its decimal numeral. -/
def amount : Decoder UInt64
  | .string (some s) =>
    match Numeral.read? s.toList with
    | some n => .ok n
    | none => .error .unsuitable
  | d => word64 d

def nullable (decoder : Decoder α) : Decoder (Option α)
  | .null => .ok none
  | d => (decoder d).map some

def eachItem (decoder : Decoder α) : List Draft → Except Fault (List α)
  | [] => .ok []
  | d :: rest => do return (← decoder d) :: (← eachItem decoder rest)

def list (decoder : Decoder α) : Decoder (List α)
  | .array items => eachItem decoder items
  | _ => .error .unsuitable

/-- One of several names, alone or as the only key of an object whose value is empty. -/
def oneOf (choices : List (String × α)) : Decoder α := fun d =>
  let name? : Option String := match d with
    | .string s => s
    | .object [(key, .null)] => key
    | .object [(key, .object [])] => key
    | _ => none
  match name?.bind fun name => List.lookup name choices with
  | some a => .ok a
  | none => .error .unsuitable

def ofDocument (decoder : Decoder α) (document : Draft.Document) : Except Fault α := do
  let a ← decoder document.value
  if document.trailing then throw .unsuitable
  return a

def ofBytes (decoder : Decoder α) (text : Bytes) : Except Fault α :=
  decoder.ofDocument (Draft.read text)

def ofText (decoder : Decoder α) (text : String) : Except Fault α :=
  decoder.ofBytes (Utf8.encode text.toList)

def ofJson (decoder : Decoder α) (v : Json) : Except Fault α :=
  decoder (Draft.ofJson v)

end Decoder

/-- A field's own name, other names under which it may stand, how many bytes its value holds if that
may be given as a list of them, and a test of the value. -/
structure Field where
  name : String
  aliases : List String
  byteCount : Option Nat
  check : Draft → Except Fault Unit

def Field.answersTo (f : Field) (key : String) : Bool :=
  key == f.name || f.aliases.contains key

def Field.isFull (f : Field) (items : List Draft) : Bool :=
  f.byteCount.any fun n => (items.take (n + 1)).length == n

/-- The fields of a record, and the record that fields looked up by name make; a field without a
value is reported as the second argument says. -/
structure Record (α : Type) where
  fields : List Field
  build : (String → Option Draft) → (String → Fault) → Except Fault α

namespace Record

instance : Applicative Record where
  pure a := ⟨[], fun _ _ => .ok a⟩
  seq f x :=
    let x := x ()
    ⟨f.fields ++ x.fields, fun find absent => do
      let g ← f.build find absent
      let a ← x.build find absent
      return g a⟩

def field (name : String) (aliases : List String) (byteCount : Option Nat)
    (decoder : Decoder α) (default? : Option α) : Record α where
  fields := [⟨name, aliases, byteCount, fun d => (decoder d).map fun _ => ()⟩]
  build find absent :=
    match find name, default? with
    | some d, _ => decoder d
    | none, some a => .ok a
    | none, none => .error (absent name)

def required (name : String) (decoder : Decoder α) : Record α :=
  field name [] none decoder none

def requiredAs (name : String) (aliases : List String) (decoder : Decoder α) : Record α :=
  field name aliases none decoder none

def requiredBytes (name : String) (count : Nat) (decoder : Decoder α) : Record α :=
  field name [] (some count) decoder none

def optional (name : String) (decoder : Decoder α) : Record (Option α) :=
  field name [] none decoder.nullable (some none)

def withDefault (name : String) (decoder : Decoder α) (default : α) : Record α :=
  field name [] none decoder (some default)

/-- Tests the members in order: each field once and of its form, and, if the record is closed,
nothing but fields. Other members need only be whole. -/
def scan (r : Record α) (closed : Bool) (seen : List String) :
    List (Option String × Draft) → Except Fault Unit
  | [] => .ok ()
  | (none, _) :: _ => .error .unsuitable
  | (some key, d) :: rest =>
    match r.fields.find? (·.answersTo key) with
    | some f =>
      if seen.contains f.name then .error (.duplicate f.name)
      else do
        f.check d
        scan r closed (f.name :: seen) rest
    | none =>
      if closed then .error (.unknown key)
      else if d.isWhole then scan r closed seen rest
      else .error .unsuitable

def lookup (r : Record α) (members : List (Option String × Draft)) (name : String) : Option Draft :=
  match r.fields.find? (·.name == name) with
  | some f => (members.find? fun (key, _) => key.any f.answersTo).map (·.2)
  | none => none

def scanItems : List Field → List Draft → Except Fault Unit
  | f :: fields, d :: items => do
    f.check d
    scanItems fields items
  | _, _ => .ok ()

def decodeMembers (r : Record α) (closed : Bool) (members : List (Option String × Draft)) :
    Except Fault α := do
  r.scan closed [] members
  r.build (r.lookup members) .missing

def decodeItems (r : Record α) (items : List Draft) : Except Fault α := do
  scanItems r.fields items
  let named := (r.fields.map (·.name)).zip items
  let a ← r.build (fun name => List.lookup name named) fun _ => .unsuitable
  if r.fields.length < items.length then throw .unsuitable
  return a

private def decode (r : Record α) (closed : Bool) : Decoder α
  | .object members => r.decodeMembers closed members
  | .array items => r.decodeItems items
  | _ => .error .unsuitable

def lenient (r : Record α) : Decoder α := r.decode false

def strict (r : Record α) : Decoder α := r.decode true

/-- Whether the innermost of the containers begun is the list of a field's bytes and has them all. -/
def isFull (r : Record α) : List Draft.Frame → Bool
  | [.array items, .member _ (some key)] => (r.fields.find? (·.answersTo key)).any (·.isFull items)
  | [.array items, .array earlier] => r.fields[earlier.length]?.any (·.isFull items)
  | _ => false

/-- Reads the record and passes over members that are no fields, and over one stray item after the
bytes of a field. -/
def ofText (r : Record α) (text : String) : Except Fault α :=
  r.lenient.ofDocument (Stray.read r.isFull (Utf8.encode text.toList))

end Record

end PaymentTrust.Json
