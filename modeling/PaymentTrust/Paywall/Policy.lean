import PaymentTrust.Json.Record

/-! How a deployment issues challenges, and which versions of the x402 protocol it speaks. -/
namespace PaymentTrust

structure PaywallPolicy where
  /-- Seconds for which a challenge may be answered. -/
  challengeTtl : UInt64
  versions : List String
  deriving DecidableEq, Repr

namespace PaywallPolicy

def default : PaywallPolicy := ⟨300, ["1", "2"]⟩

def record : Json.Record PaywallPolicy :=
  mk <$> .withDefault "challenge_ttl_secs" .word64 default.challengeTtl <*>
    .withDefault "supported_versions" (.list .text) default.versions

def toJson (p : PaywallPolicy) : Json :=
  .object [("challenge_ttl_secs", .nat p.challengeTtl.toNat),
    ("supported_versions", .array (p.versions.map .string))]

end PaywallPolicy

end PaymentTrust
