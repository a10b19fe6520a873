import PaymentTrust.Ledger.Basic
import PaymentTrust.Verdict

/-! Stores that remember identifiers until they expire, so that none is accepted twice. -/
namespace PaymentTrust

inductive ReplayError where
  | backend (detail : String)
  deriving DecidableEq, Repr

instance : Explained ReplayError where
  reason := fun _ => "replay_store_unavailable"
  message := fun (.backend detail) => s!"replay store backend error: {detail}"

structure ReplayStats where
  total : Nat
  active : Nat
  expired : Nat
  deriving DecidableEq, Repr

/-- A store is a value; an operation that changes it also returns what it has become. -/
class ReplayStore (σ : Type) where
  /-- Records the key until it expires, unless it has a live record; tells whether it did. -/
  record : σ → (key : String) → (expires now : Timestamp) → Except ReplayError Bool × σ
  contains : σ → (key : String) → (now : Timestamp) → Bool
  sweep : σ → (now : Timestamp) → Nat × σ
  stats : σ → (now : Timestamp) → ReplayStats

abbrev ReplayLedger := Ledger Unit

namespace ReplayLedger

def record (l : ReplayLedger) (key : String) (expires now : Timestamp) : Bool × ReplayLedger :=
  l.claim key expires now ()

def stats (l : ReplayLedger) (now : Timestamp) : ReplayStats :=
  let active := l.entries.countP (·.isLive now)
  ⟨l.size, active, l.size - active⟩

end ReplayLedger

instance : ReplayStore ReplayLedger where
  record := fun l key expires now =>
    let (recorded, l) := l.record key expires now
    (.ok recorded, l)
  contains := Ledger.isLive
  sweep := fun l now => (l.size - (l.sweep now).size, l.sweep now)
  stats := ReplayLedger.stats

structure BrokenStore where
  detail : String

instance : ReplayStore BrokenStore where
  record := fun s _ _ _ => (.error (.backend s.detail), s)
  contains := fun _ _ _ => false
  sweep := fun s _ => (0, s)
  stats := fun _ _ => ⟨0, 0, 0⟩

/-- A store in which someone else is always first. -/
structure ContestedStore where

instance : ReplayStore ContestedStore where
  record := fun s _ _ _ => (.ok false, s)
  contains := fun _ _ _ => false
  sweep := fun s _ => (0, s)
  stats := fun _ _ => ⟨0, 0, 0⟩

end PaymentTrust
