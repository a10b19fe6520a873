import PaymentTrust.Ledger.Basic

/-! A ledger of content that has been used up, by fingerprint, with counters for auditing. -/
namespace PaymentTrust

structure ConsumedSettings where
  defaultTtl : UInt64
  bound : Nat
  deriving DecidableEq, Repr

def ConsumedSettings.default : ConsumedSettings := ⟨3600, Ledger.defaultBound⟩

structure ConsumedLedger (α : Type) where
  ledger : Ledger α
  defaultTtl : UInt64
  consumed : UInt64
  hits : UInt64
  misses : UInt64

namespace ConsumedLedger

def empty (s : ConsumedSettings) : ConsumedLedger α := ⟨.empty s.bound, s.defaultTtl, 0, 0, 0⟩

/-- Records the content for `ttl` seconds, or for the default time, unless the fingerprint has a
live record; tells whether it did. -/
def consume (l : ConsumedLedger α) (fingerprint : String) (content : α) (ttl : Option UInt64)
    (now : Timestamp) : Bool × ConsumedLedger α :=
  let (first, ledger) :=
    l.ledger.claim fingerprint (now.later (ttl.getD l.defaultTtl)) now content
  (first, { l with ledger, consumed := if first then l.consumed + 1 else l.consumed })

def isConsumed (l : ConsumedLedger α) (fingerprint : String) (now : Timestamp) : Bool :=
  l.ledger.isLive fingerprint now

def get (l : ConsumedLedger α) (fingerprint : String) (now : Timestamp) :
    Option α × ConsumedLedger α :=
  match l.ledger.live? fingerprint now with
  | some content => (some content, { l with hits := l.hits + 1 })
  | none => (none, { l with misses := l.misses + 1 })

def revoke (l : ConsumedLedger α) (fingerprint : String) : Bool × ConsumedLedger α :=
  ((l.ledger.find? fingerprint).isSome, { l with ledger := l.ledger.erase fingerprint })

def sweep (l : ConsumedLedger α) (now : Timestamp) : Nat × ConsumedLedger α :=
  let ledger := l.ledger.sweep now
  (l.ledger.size - ledger.size, { l with ledger })

end ConsumedLedger

end PaymentTrust
