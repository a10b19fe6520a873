import Mathlib.Order.Defs.LinearOrder
import PaymentTrust.Timestamp

/-! Instants are ordered as their seconds are, and so are the events of a run. -/
namespace PaymentTrust.Timestamp

theorem lt_iff_toNat (a b : Timestamp) : a < b ↔ a.seconds.toNat < b.seconds.toNat :=
  UInt64.lt_iff_toNat_lt

theorem le_iff_toNat (a b : Timestamp) : a ≤ b ↔ a.seconds.toNat ≤ b.seconds.toNat :=
  UInt64.le_iff_toNat_le

instance : LinearOrder Timestamp where
  le_refl a := (le_iff_toNat a a).mpr (Nat.le_refl _)
  le_trans a b c := by
    simp only [le_iff_toNat]
    omega
  lt_iff_le_not_ge a b := by
    simp only [le_iff_toNat, lt_iff_toNat]
    omega
  le_antisymm a b hab hba := by
    rw [le_iff_toNat] at hab hba
    cases a with
    | mk a =>
      cases b with
      | mk b => exact congrArg mk (UInt64.toNat_inj.mp (Nat.le_antisymm hab hba))
  le_total a b := by
    simp only [le_iff_toNat]
    omega
  toDecidableLE := inferInstance
  toDecidableLT := inferInstance

@[simp] theorem isReached_eq_false (t now : Timestamp) : t.isReached now = false ↔ now < t := by
  simp only [isReached, decide_eq_false_iff_not, not_le]

theorem toNat_later (t : Timestamp) (secs : UInt64) :
    (t.later secs).seconds.toNat = min (t.seconds.toNat + secs.toNat) (UInt64.size - 1) := by
  have last : UInt64.size - 1 < UInt64.size := by decide
  exact UInt64.toNat_ofNat_of_lt (Nat.lt_of_le_of_lt (Nat.min_le_right _ _) last)

theorem eq_later_iff (e t : Timestamp) (secs : UInt64) :
    e = t.later secs ↔
      e.seconds.toNat = min (t.seconds.toNat + secs.toNat) (UInt64.size - 1) := by
  rw [← toNat_later, UInt64.toNat_inj]
  constructor
  · exact congrArg seconds
  · cases e
    exact congrArg mk

theorem toNat_since (t earlier : Timestamp) :
    (t.since earlier).toNat = t.seconds.toNat - earlier.seconds.toNat :=
  UInt64.toNat_ofNat_of_lt (Nat.lt_of_le_of_lt (Nat.sub_le _ _) t.seconds.toNat_lt_size)

theorem later_since {now t : Timestamp} (h : now ≤ t) : now.later (t.since now) = t := by
  have hsize : t.seconds.toNat < UInt64.size := t.seconds.toNat_lt_size
  have hle := (le_iff_toNat now t).mp h
  have hsince := toNat_since t now
  have hsum : min (now.seconds.toNat + (t.since now).toNat) (UInt64.size - 1) =
      t.seconds.toNat := by
    omega
  unfold later
  rw [hsum, UInt64.ofNat_toNat]

end PaymentTrust.Timestamp

namespace PaymentTrust

structure Timed (α : Type) where
  now : Timestamp
  what : α
  deriving DecidableEq

/-- The clock never goes back from one to the next. -/
def Timed.Ordered {α : Type} (run : List (Timed α)) : Prop :=
  run.Pairwise fun first later => first.now ≤ later.now

instance {α : Type} (run : List (Timed α)) : Decidable (Timed.Ordered run) :=
  inferInstanceAs (Decidable (run.Pairwise fun first later => first.now ≤ later.now))

end PaymentTrust
