import PaymentTrust.Proofs.Ledger.ConsumedRun
import PaymentTrust.Proofs.Ledger.ReplayRun

/-! How large a ledger gets. It passes its bound only by what is live: a claim that finds the bound
reached drops all that has expired at its time, whatever the clock showed before. -/
namespace PaymentTrust

namespace Ledger

variable {α : Type} (l : Ledger α) (key : String) (now : Timestamp)

def countLive : Nat := l.entries.countP (now < ·.expires)

def countExpired : Nat := l.entries.countP (·.expires ≤ now)

@[simp] theorem size_empty (bound : Nat) : (empty bound : Ledger α).size = 0 :=
  rfl

theorem entries_sweep : (l.sweep now).entries = l.entries.filter (now < ·.expires) :=
  rfl

theorem size_sweep : (l.sweep now).size = l.countLive now :=
  List.countP_eq_length_filter.symm

theorem countLive_add_countExpired : l.countLive now + l.countExpired now = l.size := by
  unfold countLive countExpired size
  rw [List.length_eq_countP_add_countP fun e : Entry α => decide (now < e.expires)]
  simp only [decide_eq_true_eq, not_lt]

theorem countExpired_sweep : (l.sweep now).countExpired now = 0 := by
  unfold countExpired
  rw [List.countP_eq_zero]
  intro e mem
  have live := (e.isLive_iff now).mp (List.mem_filter.mp mem).2
  simpa using live

theorem size_erase_le : (l.erase key).size ≤ l.size :=
  List.length_filter_le _ _

theorem size_erase_lt {key : String} (found : (l.find? key).isSome = true) :
    (l.erase key).size < l.size := by
  obtain ⟨e, found⟩ := Option.isSome_iff_exists.mp found
  obtain ⟨mem, hkey⟩ := mem_of_find? found
  exact List.length_filter_lt_length_iff_exists.mpr ⟨e, mem, by simpa using hkey⟩

theorem size_put (e : Entry α) : (l.put e).size = (l.erase e.key).size + 1 :=
  rfl

theorem makeRoom_of_find? {key : String} (found : (l.find? key).isSome = true) :
    l.makeRoom key now = l :=
  if_neg fun full => by simp [Option.isNone_iff_eq_none.mp full.2] at found

theorem makeRoom_of_full {key : String} (absent : l.find? key = none) (full : l.bound ≤ l.size) :
    l.makeRoom key now = l.sweep now :=
  if_pos ⟨full, Option.isNone_iff_eq_none.mpr absent⟩

theorem makeRoom_of_roomy (roomy : l.size < l.bound) : l.makeRoom key now = l :=
  if_neg fun full => Nat.not_le.mpr roomy full.1

theorem size_makeRoom_le : (l.makeRoom key now).size ≤ l.size := by
  unfold makeRoom
  split
  · exact List.length_filter_le _ _
  · exact Nat.le_refl _

/-- A record replaces one of its key, or is one more where there is room, or comes to what a sweep
leaves. -/
theorem size_makeRoom_put_le (e : Entry α) :
    ((l.makeRoom e.key now).put e).size ≤ max l.size (max l.bound (l.countLive now + 1)) := by
  rw [size_put]
  cases found : l.find? e.key with
  | some old =>
    have present : (l.find? e.key).isSome = true := found ▸ rfl
    have replaced := l.size_erase_lt present
    rw [l.makeRoom_of_find? now present]
    omega
  | none =>
    by_cases full : l.bound ≤ l.size
    · have kept := (l.sweep now).size_erase_le e.key
      have swept := l.size_sweep now
      rw [l.makeRoom_of_full now found full]
      omega
    · have kept := l.size_erase_le e.key
      rw [l.makeRoom_of_roomy e.key now (Nat.not_le.mp full)]
      omega

theorem size_claim_le (expires : Timestamp) (content : α) :
    (l.claim key expires now content).2.size ≤
      max l.size (max l.bound (l.countLive now + 1)) := by
  cases live : l.isLive key now with
  | true =>
    rw [l.claim_of_isLive key now expires content live]
    exact Nat.le_trans (l.size_makeRoom_le key now) (Nat.le_max_left _ _)
  | false =>
    rw [l.claim_of_free key now expires content live]
    exact l.size_makeRoom_put_le now ⟨key, expires, content⟩

theorem bound_claim (expires : Timestamp) (content : α) :
    (l.claim key expires now content).2.bound = l.bound := by
  unfold claim makeRoom
  dsimp only
  split <;> split <;> rfl

end Ledger

namespace ReplayStore

/-- The records that are live when a call is made to record a key. -/
def recordLoad (l : ReplayLedger) (call : ReplayCall) (now : Timestamp) : Nat :=
  match call with
  | .record _ _ => l.countLive now
  | .contains _ | .sweep | .stats => 0

theorem bound_perform (l : ReplayLedger) (call : ReplayCall) (now : Timestamp) :
    (perform l call now).2.bound = l.bound := by
  cases call with
  | record key expires => exact l.bound_claim key now expires ()
  | contains | sweep | stats => rfl

theorem size_perform_le (l : ReplayLedger) (call : ReplayCall) (now : Timestamp) :
    (perform l call now).2.size ≤ max l.size (max l.bound (recordLoad l call now + 1)) := by
  cases call with
  | record key expires => exact l.size_claim_le key now expires ()
  | sweep => exact Nat.le_trans (List.length_filter_le _ _) (Nat.le_max_left _ _)
  | contains | stats => exact Nat.le_max_left _ _

end ReplayStore

namespace ConsumedLedger

variable {α : Type}

def consumeLoad (l : ConsumedLedger α) (call : ConsumedCall α) (now : Timestamp) : Nat :=
  match call with
  | .consume _ _ _ => l.ledger.countLive now
  | .get _ | .isConsumed _ | .revoke _ | .sweep => 0

theorem bound_perform (l : ConsumedLedger α) (call : ConsumedCall α) (now : Timestamp) :
    (l.perform call now).2.ledger.bound = l.ledger.bound := by
  cases call with
  | consume fingerprint content ttl => exact l.ledger.bound_claim fingerprint now _ content
  | get fingerprint => rw [perform, get_ledger]
  | isConsumed | revoke | sweep => rfl

theorem size_perform_le (l : ConsumedLedger α) (call : ConsumedCall α) (now : Timestamp) :
    (l.perform call now).2.ledger.size ≤
      max l.ledger.size (max l.ledger.bound (consumeLoad l call now + 1)) := by
  cases call with
  | consume fingerprint content ttl => exact l.ledger.size_claim_le fingerprint now _ content
  | get fingerprint =>
    rw [perform, get_ledger]
    exact Nat.le_max_left _ _
  | isConsumed => exact Nat.le_max_left _ _
  | revoke | sweep => exact Nat.le_trans (List.length_filter_le _ _) (Nat.le_max_left _ _)

end ConsumedLedger

open Timed in
/-- After any calls, at whatever times, a store holds no more records than its bound, or than one
above the most that were live when one of the calls was to record a key. A bound of zero counts as
one. Its statistics count each record once, and a sweep removes what has expired and nothing else.
Consumed content is held within the same bound. -/
theorem ReplayStore.size_le_peak (bound : Nat) (run : List (Timed ReplayCall)) :
    (after perform (Ledger.empty bound : ReplayLedger) run).size ≤
        max (max bound 1) (peak perform recordLoad (Ledger.empty bound) run + 1) ∧
    (∀ (l : ReplayLedger) (now : Timestamp),
      stats l now = ⟨l.size, l.countLive now, l.countExpired now⟩ ∧
        l.countLive now + l.countExpired now = l.size) ∧
    (∀ (l : ReplayLedger) (now : Timestamp),
      (sweep l now).2.entries = l.entries.filter (now < ·.expires) ∧
        (sweep l now).1 = l.countExpired now ∧ (sweep (sweep l now).2 now).1 = 0) ∧
    ∀ (α : Type) (settings : ConsumedSettings) (run : List (Timed (ConsumedCall α))),
      (after ConsumedLedger.perform (.empty settings) run).ledger.size ≤
        max (max settings.bound 1)
          (peak ConsumedLedger.perform ConsumedLedger.consumeLoad (.empty settings) run + 1) := by
  have removed (l : ReplayLedger) (now : Timestamp) :
      l.size - (l.sweep now).size = l.countExpired now := by
    have counts := l.countLive_add_countExpired now
    rw [l.size_sweep]
    omega
  refine ⟨?_, fun l now => ⟨?_, l.countLive_add_countExpired now⟩, fun l now => ?_, ?_⟩
  · have grown := size_after_le Ledger.size Ledger.bound bound_perform size_perform_le
      (Ledger.empty bound) run
    rwa [Ledger.size_empty, Nat.zero_max] at grown
  · have counts := l.countLive_add_countExpired now
    have rest : l.size - l.countLive now = l.countExpired now := by omega
    exact congrArg (ReplayStats.mk l.size (l.countLive now)) rest
  · exact ⟨l.entries_sweep now, removed l now,
      (removed (l.sweep now) now).trans (l.countExpired_sweep now)⟩
  · intro α settings run
    have grown := size_after_le (fun l => l.ledger.size) (fun l => l.ledger.bound)
      ConsumedLedger.bound_perform ConsumedLedger.size_perform_le (ConsumedLedger.empty settings)
      run
    rwa [ConsumedLedger.empty, Ledger.size_empty, Nat.zero_max] at grown

end PaymentTrust
