import PaymentTrust.Json.Token

/-! What a JSON text holds up to its first fault. A reader that walks a draft in order meets the
members it can use before the place where the text breaks off, and may pass over what it has no use
for without asking what its strings and numerals denote. -/
namespace PaymentTrust.Json

inductive Draft where
  | null
  | bool (b : Bool)
  | number (n : Option Number)
  | string (s : Option String)
  | array (items : List Draft)
  | object (members : List (Option String × Draft))
  | broken

namespace Draft

/-- A container begun, its parts in reverse. A member's frame waits for the value of its key. -/
inductive Frame where
  | array (items : List Draft)
  | object (members : List (Option String × Draft))
  | member (members : List (Option String × Draft)) (key : Option String)

inductive Phase where
  | value
  | firstItem
  | firstKey
  | key
  | colon
  | more

inductive Step where
  | next (phase : Phase) (stack : List Frame)
  | done (value : Draft)
  | fault

def deliver (v : Draft) : List Frame → Step
  | [] => .done v
  | .array items :: stack => .next .more (.array (v :: items) :: stack)
  | .member members key :: stack => .next .more (.object ((key, v) :: members) :: stack)
  | .object _ :: _ => .fault

def beginValue (stack : List Frame) : Token → Step
  | .openArray => .next .firstItem (.array [] :: stack)
  | .openObject => .next .firstKey (.object [] :: stack)
  | .null => deliver .null stack
  | .bool b => deliver (.bool b) stack
  | .number n => deliver (.number n) stack
  | .string s => deliver (.string s) stack
  | _ => .fault

def step : Phase → List Frame → Token → Step
  | .value, stack, t => beginValue stack t
  | .firstItem, .array items :: stack, .closeArray => deliver (.array items.reverse) stack
  | .firstItem, stack, t => beginValue stack t
  | .firstKey, .object members :: stack, .closeObject => deliver (.object members.reverse) stack
  | .firstKey, .object members :: stack, .string s => .next .colon (.member members s :: stack)
  | .key, .object members :: stack, .string s => .next .colon (.member members s :: stack)
  | .colon, stack, .colon => .next .value stack
  | .more, .array items :: stack, .comma => .next .value (.array items :: stack)
  | .more, .array items :: stack, .closeArray => deliver (.array items.reverse) stack
  | .more, .object members :: stack, .comma => .next .key (.object members :: stack)
  | .more, .object members :: stack, .closeObject => deliver (.object members.reverse) stack
  | _, _, _ => .fault

/-- Closes the containers begun around the place where the text breaks off. -/
def unwind (v : Draft) : List Frame → Draft
  | [] => v
  | .array items :: stack => unwind (.array (v :: items).reverse) stack
  | .member members key :: stack => unwind (.object ((key, v) :: members).reverse) stack
  | .object members :: stack => unwind (.object ((none, v) :: members).reverse) stack

structure Document where
  value : Draft
  trailing : Bool

def run (phase : Phase) (stack : List Frame) : List Token → Document
  | [] => ⟨unwind .broken stack, false⟩
  | t :: rest =>
    match step phase stack t with
    | .next phase stack => run phase stack rest
    | .done v => ⟨v, !rest.isEmpty⟩
    | .fault => ⟨unwind .broken stack, false⟩

def read (text : Bytes) : Document :=
  run .value [] (Token.all text)

mutual

def isWhole : Draft → Bool
  | .broken => false
  | .array items => areWhole items
  | .object members => membersAreWhole members
  | _ => true

def areWhole : List Draft → Bool
  | [] => true
  | d :: rest => d.isWhole && areWhole rest

def membersAreWhole : List (Option String × Draft) → Bool
  | [] => true
  | (_, d) :: rest => d.isWhole && membersAreWhole rest

end

mutual

/-- The value of a draft that nests at most `depth` containers, with the members of objects sorted
by key and the last of several with one key kept. -/
def toJson? (depth : Nat) : Draft → Option Json
  | .null => some .null
  | .bool b => some (.bool b)
  | .number n => n.map .number
  | .string s => s.map .string
  | .array items =>
    match depth with
    | 0 => none
    | depth + 1 => (toJsons? depth items).map .array
  | .object members =>
    match depth with
    | 0 => none
    | depth + 1 => (toMembers? depth members).map fun ms => .object (sortMembers ms)
  | .broken => none

def toJsons? (depth : Nat) : List Draft → Option (List Json)
  | [] => some []
  | d :: rest =>
    match toJson? depth d, toJsons? depth rest with
    | some v, some vs => some (v :: vs)
    | _, _ => none

def toMembers? (depth : Nat) : List (Option String × Draft) → Option (List (String × Json))
  | [] => some []
  | (key, d) :: rest =>
    match key, toJson? depth d, toMembers? depth rest with
    | some k, some v, some ms => some ((k, v) :: ms)
    | _, _, _ => none

end

mutual

def ofJson : Json → Draft
  | .null => .null
  | .bool b => .bool b
  | .number n => .number (some n)
  | .string s => .string (some s)
  | .array items => .array (ofJsons items)
  | .object members => .object (ofMembers members)

def ofJsons : List Json → List Draft
  | [] => []
  | v :: rest => ofJson v :: ofJsons rest

def ofMembers : List (String × Json) → List (Option String × Draft)
  | [] => []
  | (k, v) :: rest => (some k, ofJson v) :: ofMembers rest

end

end Draft

def maxDepth : Nat := 127

def read? (text : Bytes) : Option Json :=
  let document := Draft.read text
  if document.trailing then none else document.value.toJson? maxDepth

def readText? (text : String) : Option Json :=
  read? (Utf8.encode text.toList)

end PaymentTrust.Json
