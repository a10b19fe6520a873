import PaymentTrust.Json.Record
import PaymentTrust.Signature.Algorithm

/-! What a deployment accepts of message signatures. -/
namespace PaymentTrust

def Algorithm.decode : Json.Decoder Algorithm := fun d => do
  match Algorithm.ofName? (← Json.Decoder.text d) with
  | some a => return a
  | none => throw .unsuitable

structure MessagePolicy where
  tags : List String
  algorithm : Algorithm
  maxWindow : UInt64
  deriving DecidableEq, Repr

namespace MessagePolicy

def default : MessagePolicy := ⟨["agent-browser-auth", "agent-payer-auth"], .ed25519, 480⟩

def record : Json.Record MessagePolicy :=
  mk <$> .withDefault "allowed_tags" (.list .text) default.tags <*>
    .withDefault "algorithm" Algorithm.decode default.algorithm <*>
    .withDefault "max_window_secs" .word64 default.maxWindow

def toJson (p : MessagePolicy) : Json :=
  .object [("allowed_tags", .array (p.tags.map .string)),
    ("algorithm", .string p.algorithm.name), ("max_window_secs", .nat p.maxWindow.toNat)]

def allowsAlgorithm (p : MessagePolicy) (name : String) : Bool :=
  Algorithm.ofName? name = some p.algorithm

end MessagePolicy

end PaymentTrust
