import PaymentTrust.Json.Record

/-! Seconds since the Unix epoch, as a 64-bit word whose arithmetic stops at the ends of its range. -/
namespace PaymentTrust

structure Timestamp where
  seconds : UInt64
  deriving DecidableEq, Repr

namespace Timestamp

instance : LT Timestamp := ⟨fun a b => a.seconds < b.seconds⟩
instance : LE Timestamp := ⟨fun a b => a.seconds ≤ b.seconds⟩
instance (a b : Timestamp) : Decidable (a < b) := inferInstanceAs (Decidable (a.seconds < b.seconds))
instance (a b : Timestamp) : Decidable (a ≤ b) := inferInstanceAs (Decidable (a.seconds ≤ b.seconds))

/-- `secs` seconds later, or the last instant of the range. -/
def later (t : Timestamp) (secs : UInt64) : Timestamp :=
  ⟨UInt64.ofNat (min (t.seconds.toNat + secs.toNat) (UInt64.size - 1))⟩

/-- The seconds from `earlier` to `t`, or zero if `t` comes first. -/
def since (t earlier : Timestamp) : UInt64 :=
  UInt64.ofNat (t.seconds.toNat - earlier.seconds.toNat)

/-- An instant is reached as soon as the clock shows it. -/
def isReached (t now : Timestamp) : Bool := t ≤ now

def text (t : Timestamp) : String := Numeral.write t.seconds

/-- Written as a string, since not every reader of JSON has exact 64-bit numbers. -/
def toJson (t : Timestamp) : Json := .string t.text

def decode : Json.Decoder Timestamp := fun d => (Json.Decoder.amount d).map Timestamp.mk

end Timestamp

end PaymentTrust
