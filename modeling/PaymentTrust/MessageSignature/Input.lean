import PaymentTrust.MessageSignature.Label
import PaymentTrust.Timestamp

/-! The header that says what a message signature covers and how it was made:
`label=("c1" "c2");name=value;...`. Every parameter is there once, in any order. -/
namespace PaymentTrust

structure SignatureInput where
  label : String
  components : List String
  created : Timestamp
  expires : Timestamp
  keyId : String
  algorithm : String
  nonce : String
  tag : String
  deriving DecidableEq, Repr

inductive SignatureInputFault where
  | label (fault : LabelFault)
  | listNotOpened
  | listNotClosed
  | afterList
  | withoutValue (parameter : String)
  | notInteger (name : String)
  | notQuoted (name : String)
  | repeated (name : String)
  | unknown (name : String)
  | badComponent (item : String)
  | missing (name : String)
  deriving DecidableEq, Repr

def SignatureInputFault.message : SignatureInputFault → String
  | label fault => fault.message
  | listNotOpened => "component list must start with `(`"
  | listNotClosed => "component list is not closed"
  | afterList => "parameters must follow the component list"
  | withoutValue parameter => s!"parameter `{parameter}` has no value"
  | notInteger name => s!"`{name}` must be an integer"
  | notQuoted name => s!"`{name}` must be a quoted string"
  | repeated name => s!"parameter `{name}` is repeated"
  | unknown name => s!"unknown parameter `{name}`"
  | badComponent item => s!"component `{item}` is not a quoted string"
  | missing name => s!"missing `{name}` parameter"

namespace SignatureInput

/-- What stands between two double quotes, if it holds neither a quote nor a backslash. -/
def unquote? : List Char → Option String
  | '"' :: rest =>
    if rest.getLast? = some '"' then
      let inner := rest.dropLast
      if inner.any fun c => c == '"' || c == '\\' then none else some (String.ofList inner)
    else none
  | _ => none

def quote (s : String) : String := "\"" ++ s ++ "\""

structure Parameters where
  created : Option Timestamp
  expires : Option Timestamp
  keyId : Option String
  algorithm : Option String
  nonce : Option String
  tag : Option String

namespace Parameters

def empty : Parameters := ⟨none, none, none, none, none, none⟩

def readTime (name : String) (value : List Char) : Except SignatureInputFault Timestamp :=
  match Numeral.read? value with
  | some n => .ok ⟨n⟩
  | none => .error (.notInteger name)

def readText (name : String) (value : List Char) : Except SignatureInputFault String :=
  match unquote? value with
  | some s => .ok s
  | none => .error (.notQuoted name)

def fill (name : String) (place : Option α) (value : Except SignatureInputFault α) :
    Except SignatureInputFault (Option α) := do
  let value ← value
  if place.isSome then throw (.repeated name)
  return some value

def add (p : Parameters) (parameter : List Char) : Except SignatureInputFault Parameters :=
  match Text.splitFirst '=' parameter with
  | none => .error (.withoutValue (String.ofList parameter))
  | some (name, value) => do
    let name := String.ofList name
    match name with
    | "created" => return { p with created := ← fill name p.created (readTime name value) }
    | "expires" => return { p with expires := ← fill name p.expires (readTime name value) }
    | "keyid" => return { p with keyId := ← fill name p.keyId (readText name value) }
    | "alg" => return { p with algorithm := ← fill name p.algorithm (readText name value) }
    | "nonce" => return { p with nonce := ← fill name p.nonce (readText name value) }
    | "tag" => return { p with tag := ← fill name p.tag (readText name value) }
    | _ => throw (.unknown name)

def require (name : String) : Option α → Except SignatureInputFault α
  | some a => .ok a
  | none => .error (.missing name)

end Parameters

def parseComponents (list : List Char) : Except SignatureInputFault (List String) :=
  (Text.words list).mapM fun item =>
    match unquote? item with
    | some name => if name = "" then .error (.badComponent (String.ofList item)) else .ok name
    | none => .error (.badComponent (String.ofList item))

/-- The parameters are read before the components, and both before any is missed. -/
def parse (header : String) : Except SignatureInputFault SignatureInput := do
  let (label, value) ← (Label.split header).mapError .label
  let '(' :: value := value | throw .listNotOpened
  let some (list, parameters) := Text.splitFirst ')' value | throw .listNotClosed
  let segments ← match parameters with
    | [] => pure []
    | ';' :: rest => pure (Text.splitAll (· = ';') rest)
    | _ => throw SignatureInputFault.afterList
  let p ← segments.foldlM Parameters.add .empty
  let components ← parseComponents list
  let created ← Parameters.require "created" p.created
  let expires ← Parameters.require "expires" p.expires
  let keyId ← Parameters.require "keyid" p.keyId
  let algorithm ← Parameters.require "alg" p.algorithm
  let nonce ← Parameters.require "nonce" p.nonce
  let tag ← Parameters.require "tag" p.tag
  return ⟨label, components, created, expires, keyId, algorithm, nonce, tag⟩

def parametersText (i : SignatureInput) : String :=
  "(" ++ " ".intercalate (i.components.map quote) ++ ");created=" ++ i.created.text ++
    ";keyid=" ++ quote i.keyId ++ ";alg=" ++ quote i.algorithm ++ ";expires=" ++ i.expires.text ++
    ";nonce=" ++ quote i.nonce ++ ";tag=" ++ quote i.tag

def header (i : SignatureInput) : String :=
  i.label ++ "=" ++ i.parametersText

def window (i : SignatureInput) : UInt64 :=
  i.expires.since i.created

end SignatureInput

end PaymentTrust
