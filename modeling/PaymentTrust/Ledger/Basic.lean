import PaymentTrust.Timestamp

/-! Records that expire, at most one for each key. The bound is soft: a claim that finds it reached
first drops the records that have expired, and live records are never dropped. -/
namespace PaymentTrust

structure Ledger.Entry (α : Type) where
  key : String
  expires : Timestamp
  content : α

structure Ledger (α : Type) where
  bound : Nat
  entries : List (Ledger.Entry α)

namespace Ledger

def defaultBound : Nat := 100000

/-- A bound of zero counts as one. -/
def empty (bound : Nat) : Ledger α := ⟨max bound 1, []⟩

/-- A record is live until its expiry, which is the first instant at which it is not. -/
def Entry.isLive (e : Entry α) (now : Timestamp) : Bool := now < e.expires

def size (l : Ledger α) : Nat := l.entries.length

def find? (l : Ledger α) (key : String) : Option (Entry α) :=
  l.entries.find? (·.key = key)

def live? (l : Ledger α) (key : String) (now : Timestamp) : Option α :=
  ((l.find? key).filter (·.isLive now)).map (·.content)

def isLive (l : Ledger α) (key : String) (now : Timestamp) : Bool :=
  (l.live? key now).isSome

def erase (l : Ledger α) (key : String) : Ledger α :=
  { l with entries := l.entries.filter (·.key ≠ key) }

def put (l : Ledger α) (e : Entry α) : Ledger α :=
  { l with entries := e :: (l.erase e.key).entries }

def sweep (l : Ledger α) (now : Timestamp) : Ledger α :=
  { l with entries := l.entries.filter (·.isLive now) }

/-- Sweeps if the bound is reached and the key would be a new one. -/
def makeRoom (l : Ledger α) (key : String) (now : Timestamp) : Ledger α :=
  if l.bound ≤ l.size ∧ (l.find? key).isNone then l.sweep now else l

/-- Records the content if the key has no live record, and tells whether it did. -/
def claim (l : Ledger α) (key : String) (expires now : Timestamp) (content : α) :
    Bool × Ledger α :=
  let l := l.makeRoom key now
  if l.isLive key now then (false, l) else (true, l.put ⟨key, expires, content⟩)

end Ledger

end PaymentTrust
