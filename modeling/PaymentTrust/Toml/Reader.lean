import PaymentTrust.Toml.Scalar

/-! Reading a TOML text: values in containers, then the statements line by line. -/
namespace PaymentTrust.Toml

def arrayItems (value : Scanner Toml) (text : List Char) : Option (List Toml × List Char) :=
  match skipGap false text with
  | ']' :: rest => some ([], rest)
  | start =>
    match value start with
    | none => none
    | some (v, rest) =>
      match skipGap false rest with
      | ']' :: rest => some ([v], rest)
      | ',' :: rest =>
        if _h : rest.length < text.length then
          (arrayItems value rest).map fun (items, rest) => (v :: items, rest)
        else none
      | _ => none
termination_by text.length

def assignment (value : Scanner Toml) : Scanner ((List String × String) × Toml) := fun text => do
  let (key, rest) ← keyPath text
  match rest with
  | '=' :: rest =>
    let (v, rest) ← value (skipBlanks rest)
    return ((key, v), rest)
  | _ => none

/-- Reads the assignments of a table between braces; the last has no comma after it. -/
def inlineEntries (value : Scanner Toml) (entries : Entries) (text : List Char) :
    Option (Entries × List Char) :=
  match assignment value text with
  | none => none
  | some (((dots, key), v), rest) =>
    match define dots key v .inline entries, skipBlanks rest with
    | some entries, '\x7d' :: rest => some (entries, rest)
    | some entries, ',' :: rest =>
      if _h : rest.length < text.length then inlineEntries value entries rest else none
    | _, _ => none
termination_by text.length

def value : (depth : Nat) → Scanner Toml
  | _, '"' :: rest => (quotedString ('"' :: rest)).map fun (s, rest) => (.string s, rest)
  | _, '\'' :: rest => (quotedString ('\'' :: rest)).map fun (s, rest) => (.string s, rest)
  | depth + 1, '[' :: rest =>
    (arrayItems (value depth) rest).map fun (items, rest) => (.array items, rest)
  | depth + 1, '\x7b' :: rest =>
    match skipBlanks rest with
    | '\x7d' :: rest => some (.table .inline [], rest)
    | rest =>
      (inlineEntries (value depth) [] rest).map fun (entries, rest) =>
        (.table .inline entries, rest)
  | _, text => scalar text

def maxDepth : Nat := 79

structure Progress where
  root : Entries
  header : List String

def Progress.assign (p : Progress) (dots : List String) (key : String) (v : Toml) :
    Option Progress :=
  (within false (define dots key v) p.header .headed p.root).map fun root => { p with root }

def statement (p : Progress) : Scanner Progress
  | '[' :: '[' :: text => do
    let ((path, key), rest) ← keyPath text
    match rest with
    | ']' :: ']' :: rest =>
      return (⟨← openElement path key p.root, path ++ [key]⟩, ← skipRestOfLine? rest)
    | _ => none
  | '[' :: text => do
    let ((path, key), rest) ← keyPath text
    match rest with
    | ']' :: rest =>
      return (⟨← openTable path key p.root, path ++ [key]⟩, ← skipRestOfLine? rest)
    | _ => none
  | text => do
    let (((dots, key), v), rest) ← assignment (value maxDepth) text
    return (← p.assign dots key v, ← skipRestOfLine? rest)

def statements (p : Progress) (text : List Char) : Option Entries :=
  match skipGap false text with
  | [] => some p.root
  | start =>
    match statement p start with
    | none => none
    | some (p, rest) => if _h : rest.length < text.length then statements p rest else none
termination_by text.length

/-- The entries of the text; a byte order mark in front is skipped. -/
def read? (text : String) : Option Entries :=
  match text.toList with
  | '\ufeff' :: rest => statements ⟨[], []⟩ rest
  | rest => statements ⟨[], []⟩ rest

end PaymentTrust.Toml
