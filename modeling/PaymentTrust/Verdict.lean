import PaymentTrust.Json.Render

/-! The outcome of a verification: acceptance with whatever the caller needs to go on, or a rejection
with a stable reason code. -/
namespace PaymentTrust

structure Rejection where
  reason : String
  message : Option String
  deriving DecidableEq, Repr

def Rejection.text (r : Rejection) : String :=
  match r.message with
  | some message => r.reason ++ ": " ++ message
  | none => r.reason

/-- An error with a reason code for programs and a message for people. -/
class Explained (ε : Type) where
  reason : ε → String
  message : ε → String

def Rejection.ofError [Explained ε] (e : ε) : Rejection :=
  ⟨Explained.reason e, some (Explained.message e)⟩

inductive Verdict (α : Type) where
  | accepted (value : α)
  | rejected (r : Rejection)
  deriving Repr

namespace Verdict

def ofExcept [Explained ε] : Except ε α → Verdict α
  | .ok a => accepted a
  | .error e => rejected (.ofError e)

def isAccepted : Verdict α → Bool
  | accepted _ => true
  | rejected _ => false

def value? : Verdict α → Option α
  | accepted a => some a
  | rejected _ => none

def rejection? : Verdict α → Option Rejection
  | accepted _ => none
  | rejected r => some r

def map (f : α → β) : Verdict α → Verdict β
  | accepted a => accepted (f a)
  | rejected r => rejected r

def toJson : Verdict α → Json
  | accepted _ => .object [("accepted", .bool true)]
  | rejected r =>
    .object <| [("accepted", .bool false), ("reason", .string r.reason)] ++
      Json.member? "message" (r.message.map .string)

end Verdict

end PaymentTrust
