import PaymentTrust.Proofs.Timestamp

/-! Runs of calls at non-decreasing times, each of which may yield something and changes a state. Where
what is yielded leaves a record for some time, and a record keeps its key from being yielded, no key is
yielded twice in that time. Runs yield the same where their steps keep the states related. -/
namespace PaymentTrust.Timed

variable {σ σ' κ β γ : Type}

section

variable (step : σ → κ → Timestamp → Option β × σ)

def yields (s : σ) : List (Timed κ) → List (Timed β)
  | [] => []
  | ⟨now, call⟩ :: run =>
    ((step s call now).1.map (Timed.mk now)).toList ++ yields (step s call now).2 run

def after (s : σ) (run : List (Timed κ)) : σ :=
  run.foldl (fun s call => (step s call.what call.now).2) s

/-- The largest load of the calls of a run, each in the state that it is made in. -/
def peak (load : σ → κ → Timestamp → Nat) (s : σ) : List (Timed κ) → Nat
  | [] => 0
  | ⟨now, call⟩ :: run => max (load s call now) (peak load (step s call now).2 run)

variable {step} {s : σ}

theorem after_cons (call : Timed κ) (run : List (Timed κ)) :
    after step s (call :: run) = after step (step s call.what call.now).2 run :=
  rfl

theorem after_append (run rest : List (Timed κ)) :
    after step s (run ++ rest) = after step (after step s run) rest :=
  List.foldl_append

theorem after_concat (run : List (Timed κ)) (call : Timed κ) :
    after step s (run ++ [call]) = (step (after step s run) call.what call.now).2 :=
  after_append run [call]

theorem mem_yields_cons {now : Timestamp} {call : κ} {run : List (Timed κ)} {t : Timed β} :
    t ∈ yields step s (⟨now, call⟩ :: run) ↔
      (t.now = now ∧ (step s call now).1 = some t.what) ∨
        t ∈ yields step (step s call now).2 run := by
  cases t with
  | mk at_ y =>
    simp only [yields, List.mem_append, Option.mem_toList, Option.map_eq_some_iff, Timed.mk.injEq]
    constructor
    · rintro (⟨y', yielded, rfl, rfl⟩ | later)
      · exact .inl ⟨rfl, yielded⟩
      · exact .inr later
    · rintro (⟨rfl, yielded⟩ | later)
      · exact .inl ⟨y, yielded, rfl, rfl⟩
      · exact .inr later

theorem exists_call_of_mem_yields {run : List (Timed κ)} {t : Timed β}
    (yielded : t ∈ yields step s run) :
    ∃ call ∈ run, call.now = t.now ∧ ∃ s', (step s' call.what call.now).1 = some t.what := by
  induction run generalizing s with
  | nil => cases yielded
  | cons call run ih =>
    rcases mem_yields_cons.mp yielded with ⟨hnow, first⟩ | later
    · exact ⟨call, List.mem_cons_self, hnow.symm, s, first⟩
    · obtain ⟨call', mem, own⟩ := ih later
      exact ⟨call', List.mem_cons_of_mem call mem, own⟩

/-- Where each step adds only what comes from something that it yields, so does a run. -/
theorem mem_after {ρ : Type} (held : σ → ρ → Prop) (origin : β → ρ → Prop)
    (adds : ∀ s call now e, held (step s call now).2 e →
      held s e ∨ ∃ y, (step s call now).1 = some y ∧ origin y e)
    (run : List (Timed κ)) {e : ρ} (mem : held (after step s run) e) :
    held s e ∨ ∃ t ∈ yields step s run, origin t.what e := by
  induction run generalizing s with
  | nil => exact .inl mem
  | cons call run ih =>
    rcases ih mem with first | ⟨t, later, from_⟩
    · rcases adds s call.what call.now e first with old | ⟨y, yielded, from_⟩
      · exact .inl old
      · exact .inr ⟨⟨call.now, y⟩, mem_yields_cons.mpr (.inl ⟨rfl, yielded⟩), from_⟩
    · exact .inr ⟨t, mem_yields_cons.mpr (.inr later), from_⟩

theorem forall_mem_yields {P : Timed β → Prop}
    (sure : ∀ s call now y, (step s call now).1 = some y → P ⟨now, y⟩) (run : List (Timed κ)) :
    ∀ t ∈ yields step s run, P t := by
  induction run generalizing s with
  | nil => nofun
  | cons call run ih =>
    intro t yielded
    rcases mem_yields_cons.mp yielded with ⟨hnow, first⟩ | later
    · rw [← hnow] at first
      exact sure s call.what t.now t.what first
    · exact ih t later

theorem mem_yields_append {before rest : List (Timed κ)} {t : Timed β}
    (yielded : t ∈ yields step (after step s before) rest) :
    t ∈ yields step s (before ++ rest) := by
  induction before generalizing s with
  | nil => exact yielded
  | cons call before ih => exact mem_yields_cons.mpr (.inr (ih yielded))

end

/-- A counter that steps move by one for all that they yield of a kind, and by nothing else, counts what
a run yields of that kind. -/
theorem counter_after {step : σ → κ → Timestamp → Option β × σ} {counter : σ → UInt64}
    {kind : β → Bool} (moves : ∀ s call now, counter (step s call now).2 =
      counter s + ((step s call now).1.any kind).toUInt64) (s : σ) (run : List (Timed κ)) :
    counter (after step s run) =
      counter s + UInt64.ofNat ((yields step s run).countP fun t => kind t.what) := by
  induction run generalizing s with
  | nil => simp [after, yields]
  | cons call run ih =>
    have head := moves s call.what call.now
    have tail := ih (step s call.what call.now).2
    rw [head] at tail
    rw [after_cons, tail, yields, List.countP_append, UInt64.ofNat_add, ← UInt64.add_assoc]
    cases (step s call.what call.now).1 with
    | none => simp [Bool.toUInt64]
    | some y => cases h : kind y <;> simp [h, Bool.toUInt64]

/-- Where no step makes a state larger than its bound, or than one above the load of the call, no run
does so either. -/
theorem size_after_le {step : σ → κ → Timestamp → Option β × σ} {load : σ → κ → Timestamp → Nat}
    (size bound : σ → Nat)
    (fixed : ∀ s call now, bound (step s call now).2 = bound s)
    (grows : ∀ s call now,
      size (step s call now).2 ≤ max (size s) (max (bound s) (load s call now + 1)))
    (s : σ) (run : List (Timed κ)) :
    size (after step s run) ≤ max (size s) (max (bound s) (peak step load s run + 1)) := by
  induction run generalizing s with
  | nil => exact Nat.le_max_left _ _
  | cons call run ih =>
    have head := grows s call.what call.now
    have tail := ih (step s call.what call.now).2
    rw [fixed] at tail
    rw [after_cons, peak]
    omega

/-- What is yielded is recorded under its key for some time, and a key that is recorded is not
yielded. Each holds of the states that `invariant` describes, which a run does not leave. -/
structure Guards (step : σ → κ → Timestamp → Option β × σ) (invariant : σ → Prop)
    (recorded : σ → γ → Timestamp → Prop) (key : β → γ) (expires : β → Timestamp) : Prop where
  holds : ∀ {s call now}, invariant s → invariant (step s call now).2
  keeps : ∀ {s call now k t}, invariant s → recorded s k t → now < t →
    recorded (step s call now).2 k t
  refuses : ∀ {s call now y t}, invariant s → (step s call now).1 = some y →
    recorded s (key y) t → t ≤ now
  records : ∀ {s call now y}, invariant s → (step s call now).1 = some y →
    recorded (step s call now).2 (key y) (expires y)

namespace Guards

variable {step : σ → κ → Timestamp → Option β × σ} {invariant : σ → Prop}
  {recorded : σ → γ → Timestamp → Prop} {key : β → γ} {expires : β → Timestamp}
  (guards : Guards step invariant recorded key expires) {s : σ} (holds : invariant s)
  {run : List (Timed κ)} (ordered : Timed.Ordered run)

include guards holds ordered

theorem key_ne_of_recorded {k : γ} {expiry : Timestamp} (found : recorded s k expiry) {t : Timed β}
    (yielded : t ∈ yields step s run) (early : t.now < expiry) : key t.what ≠ k := by
  induction run generalizing s with
  | nil => cases yielded
  | cons call run ih =>
    obtain ⟨notBefore, ordered⟩ := List.pairwise_cons.mp ordered
    rcases mem_yields_cons.mp yielded with ⟨hnow, first⟩ | later
    · rintro rfl
      exact absurd (hnow ▸ guards.refuses holds first found) (not_le.mpr early)
    · -- The clock does not go back, so this call is before the expiry too and keeps the record.
      obtain ⟨call', mem, hnow, _⟩ := exists_call_of_mem_yields later
      have live : call.now < expiry := lt_of_le_of_lt (hnow ▸ notBefore call' mem) early
      exact ih (guards.holds holds) ordered (guards.keeps holds found live) later

theorem pairwise_key_ne :
    (yields step s run).Pairwise fun first later =>
      later.now < expires first.what → key later.what ≠ key first.what := by
  induction run generalizing s with
  | nil => exact .nil
  | cons call run ih =>
    obtain ⟨_, ordered⟩ := List.pairwise_cons.mp ordered
    have holds' : invariant (step s call.what call.now).2 := guards.holds holds
    rw [yields, List.pairwise_append]
    refine ⟨by cases (step s call.what call.now).1 <;> simp, ih holds' ordered, ?_⟩
    intro first hfirst later hlater early
    obtain ⟨y, yielded, rfl⟩ := Option.map_eq_some_iff.mp (Option.mem_toList.mp hfirst)
    exact guards.key_ne_of_recorded holds' ordered (guards.records holds yielded) hlater early

end Guards

/-- Related states answer every call alike, stay related after it, and are so at any later time. -/
structure Simulates (step : σ → κ → Timestamp → Option β × σ)
    (step' : σ' → κ → Timestamp → Option β × σ') (related : σ → σ' → Timestamp → Prop) : Prop where
  later : ∀ {s s' now t}, related s s' now → now ≤ t → related s s' t
  alike : ∀ {s s' call now}, related s s' now → (step s call now).1 = (step' s' call now).1
  keeps : ∀ {s s' call now}, related s s' now →
    related (step s call now).2 (step' s' call now).2 now

theorem Simulates.yields_eq {step : σ → κ → Timestamp → Option β × σ}
    {step' : σ' → κ → Timestamp → Option β × σ'} {related : σ → σ' → Timestamp → Prop}
    (simulates : Simulates step step' related) {s : σ} {s' : σ'} {now : Timestamp}
    (start : related s s' now) {run : List (Timed κ)} (notBefore : ∀ call ∈ run, now ≤ call.now)
    (ordered : Timed.Ordered run) : yields step s run = yields step' s' run := by
  -- On the run: the states are related from the time of each call on, and no later call is before
  -- that.
  induction run generalizing s s' now with
  | nil => rfl
  | cons call run ih =>
    obtain ⟨first, rest⟩ := List.pairwise_cons.mp ordered
    have atCall := simulates.later start (notBefore call List.mem_cons_self)
    rw [yields, yields, simulates.alike atCall, ih (simulates.keeps atCall) first rest]

end PaymentTrust.Timed
