import PaymentTrust.Proofs.Ledger.Archive
import PaymentTrust.Proofs.Run

/-! Runs of calls on a store of identifiers. In memory it answers like a store that forgets nothing,
however small its bound is and whenever it is swept. -/
namespace PaymentTrust

inductive ReplayCall where
  | record (key : String) (expires : Timestamp)
  | contains (key : String)
  | sweep
  | stats
  deriving DecidableEq

inductive ReplayAnswer where
  | recorded (outcome : Except ReplayError Bool)
  | contained (live : Bool)
  | active (count : Nat)

namespace ReplayStore

section

variable {σ : Type} [ReplayStore σ]

/-- The answer to a call, and what the store becomes. A sweep is not answered, since what there is to
remove depends on the sweeps before it. -/
def perform (s : σ) (call : ReplayCall) (now : Timestamp) : Option ReplayAnswer × σ :=
  match call with
  | .record key expires =>
    let (outcome, s) := ReplayStore.record s key expires now
    (some (.recorded outcome), s)
  | .contains key => (some (.contained (ReplayStore.contains s key now)), s)
  | .sweep => (none, (ReplayStore.sweep s now).2)
  | .stats => (some (.active (ReplayStore.stats s now).active), s)

def answers (s : σ) : List (Timed ReplayCall) → List ReplayAnswer
  | [] => []
  | ⟨now, call⟩ :: calls =>
    let (answer, s) := perform s call now
    answer.toList ++ answers s calls

end

theorem answers_eq_yields {σ : Type} [ReplayStore σ] (s : σ) (calls : List (Timed ReplayCall)) :
    answers s calls = (Timed.yields perform s calls).map (·.what) := by
  induction calls generalizing s with
  | nil => rfl
  | cons call calls ih =>
    simp only [answers, Timed.yields, ih]
    cases (perform s call.what call.now).1 <;> rfl

theorem perform_simulates :
    Timed.Simulates (perform (σ := ReplayLedger)) (perform (σ := Archive Unit)) Ledger.Reflects where
  later := fun reflects ordered => reflects.later ordered
  alike := by
    intro l a call now reflects
    cases call with
    | record key expires =>
      simp only [perform, ReplayStore.record, ReplayLedger.record, (reflects.claim key expires ()).1]
    | contains key => simp only [perform, ReplayStore.contains, reflects.isLive key now le_rfl]
    | sweep => rfl
    | stats =>
      simp only [perform, ReplayStore.stats, ReplayLedger.stats, reflects.countP_isLive now le_rfl]
  keeps := by
    intro l a call now reflects
    cases call with
    | record key expires => exact (reflects.claim key expires ()).2
    | sweep => exact reflects.sweep
    | contains | stats => exact reflects

theorem answers_of_reflects {l : ReplayLedger} {a : Archive Unit} {now : Timestamp}
    (reflects : l.Reflects a now) {calls : List (Timed ReplayCall)}
    (notBefore : ∀ call ∈ calls, now ≤ call.now) (ordered : Timed.Ordered calls) :
    answers l calls = answers a calls := by
  rw [answers_eq_yields, answers_eq_yields,
    perform_simulates.yields_eq reflects notBefore ordered]

theorem answers_archive_filter (a : Archive Unit) (calls : List (Timed ReplayCall)) :
    answers a (calls.filter (·.what ≠ .sweep)) = answers a calls := by
  induction calls generalizing a with
  | nil => rfl
  | cons call calls ih =>
    by_cases sweep : call.what = .sweep
    · rw [List.filter_cons_of_neg (by simpa using sweep), ih a]
      simp only [answers, sweep]
      rfl
    · rw [List.filter_cons_of_pos (by simpa using sweep)]
      simp only [answers, ih]

/-- A store in memory answers every run like an archive, so neither its bound nor its sweeps can be
told from the answers. -/
theorem answers_eq_archive :
    (∀ (bound : Nat) (calls : List (Timed ReplayCall)), Timed.Ordered calls →
      answers (Ledger.empty bound : ReplayLedger) calls = answers (∅ : Archive Unit) calls) ∧
    ∀ (bound bound' : Nat) (calls calls' : List (Timed ReplayCall)), Timed.Ordered calls →
      Timed.Ordered calls' →
      calls.filter (·.what ≠ .sweep) = calls'.filter (·.what ≠ .sweep) →
      answers (Ledger.empty bound : ReplayLedger) calls =
        answers (Ledger.empty bound' : ReplayLedger) calls' := by
  have archive : ∀ (bound : Nat) (calls : List (Timed ReplayCall)), Timed.Ordered calls →
      answers (Ledger.empty bound : ReplayLedger) calls = answers (∅ : Archive Unit) calls := by
    intro bound calls ordered
    have start : ∀ call ∈ calls, (⟨0⟩ : Timestamp) ≤ call.now :=
      fun call _ => UInt64.zero_le
    exact answers_of_reflects (Ledger.reflects_empty bound ⟨0⟩) start ordered
  refine ⟨archive, ?_⟩
  intro bound bound' calls calls' ordered ordered' same
  rw [archive bound calls ordered, archive bound' calls' ordered', ← answers_archive_filter ∅ calls,
    same, answers_archive_filter]

end ReplayStore

namespace Sample

/-- Two keys at once are more than the bound; the third claim drops the first, which has expired. -/
def crowded : List (Timed ReplayCall) :=
  [⟨⟨100⟩, .record "a" ⟨110⟩⟩, ⟨⟨100⟩, .record "b" ⟨300⟩⟩, ⟨⟨110⟩, .record "c" ⟨120⟩⟩,
    ⟨⟨110⟩, .record "b" ⟨400⟩⟩, ⟨⟨110⟩, .contains "a"⟩, ⟨⟨119⟩, .stats⟩,
    ⟨⟨120⟩, .record "a" ⟨500⟩⟩, ⟨⟨299⟩, .contains "b"⟩, ⟨⟨300⟩, .stats⟩]

def sweptOften : List (Timed ReplayCall) :=
  crowded.flatMap fun call => [⟨call.now, .sweep⟩, call]

end Sample

theorem ReplayStore.answers_of_crowded :
    (Timed.Ordered Sample.crowded ∧ Timed.Ordered Sample.sweptOften ∧
      Sample.crowded.filter (·.what ≠ .sweep) = Sample.sweptOften.filter (·.what ≠ .sweep)) ∧
    answers (Ledger.empty 1 : ReplayLedger) Sample.crowded =
        answers (∅ : Archive Unit) Sample.crowded ∧
      answers (Ledger.empty 1 : ReplayLedger) Sample.crowded =
        answers (Ledger.empty 100 : ReplayLedger) Sample.sweptOften := by
  have ordered : Timed.Ordered Sample.crowded := by decide
  have ordered' : Timed.Ordered Sample.sweptOften := by decide
  have same : Sample.crowded.filter (·.what ≠ .sweep) =
      Sample.sweptOften.filter (·.what ≠ .sweep) := by
    decide
  exact ⟨⟨ordered, ordered', same⟩, answers_eq_archive.1 1 Sample.crowded ordered,
    answers_eq_archive.2 1 100 Sample.crowded Sample.sweptOften ordered ordered' same⟩

end PaymentTrust
