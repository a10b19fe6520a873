import PaymentTrust.Text.Blank

/-! The label in front of a signature header's value, as in `sig2=...`. -/
namespace PaymentTrust

inductive LabelFault where
  | missing
  | invalid (label : String)
  deriving DecidableEq, Repr

namespace LabelFault

def message : LabelFault → String
  | missing => "missing `label=`"
  | invalid label => s!"invalid label `{label}`"

end LabelFault

namespace Label

def isLabelChar (c : Char) : Bool :=
  c.isAlphanum || c == '-' || c == '_' || c == '.' || c == '*'

/-- The label and the value of a header. Blanks around the header are no part of it. -/
def split (header : String) : Except LabelFault (String × List Char) :=
  match Text.splitFirst '=' (Text.trim header.toList) with
  | none => .error .missing
  | some (label, value) =>
    if label ≠ [] ∧ label.all isLabelChar then .ok (String.ofList label, value)
    else .error (.invalid (String.ofList label))

end Label

end PaymentTrust
