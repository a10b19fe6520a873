import PaymentTrust.MessageSignature.Input

/-! The parts of a request that a message signature may cover, and the text that is signed. -/
namespace PaymentTrust

/-- Values by component name. Names that begin with `@` stand for parts of the request line, other
names for header fields. -/
structure RequestComponents where
  values : List (String × String)
  deriving DecidableEq, Repr

namespace RequestComponents

def empty : RequestComponents := ⟨[]⟩

def set (r : RequestComponents) (name value : String) : RequestComponents :=
  ⟨(name, value) :: r.values.filter (·.1 ≠ name)⟩

private def lower (s : String) : String := String.ofList (Text.lowerAscii s.toList)

def setMethod (r : RequestComponents) (method : String) : RequestComponents :=
  r.set "@method" (String.ofList (Text.upperAscii method.toList))

def setAuthority (r : RequestComponents) (authority : String) : RequestComponents :=
  r.set "@authority" (lower authority)

def setPath (r : RequestComponents) (path : String) : RequestComponents :=
  r.set "@path" path

def setTargetUri (r : RequestComponents) (uri : String) : RequestComponents :=
  r.set "@target-uri" uri

def setHeader (r : RequestComponents) (name value : String) : RequestComponents :=
  r.set (lower name) (String.ofList (Text.trim value.toList))

/-- The value under the name as it is or, failing that, in lower case. -/
def get? (r : RequestComponents) (name : String) : Option String :=
  (r.values.lookup name).or (r.values.lookup (lower name))

end RequestComponents

namespace SignatureInput

def baseLines (r : RequestComponents) : List String → Except String (List String)
  | [] => .ok []
  | name :: rest =>
    match r.get? name with
    | none => .error name
    | some value => do return (quote name ++ ": " ++ value) :: (← baseLines r rest)

/-- The text that is signed: a line for each covered component, and one for the header itself. -/
def base (i : SignatureInput) (r : RequestComponents) : Except String String := do
  let lines ← baseLines r i.components
  return "\n".intercalate (lines ++ [quote "@signature-params" ++ ": " ++ i.header])

end SignatureInput

end PaymentTrust
