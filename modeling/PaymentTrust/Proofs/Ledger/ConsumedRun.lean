import Mathlib.Data.List.Induction
import PaymentTrust.Proofs.Ledger.Archive
import PaymentTrust.Proofs.Run

/-! Runs of calls on a ledger of consumed content. What is looked up is what the last call that was
first under its fingerprint left there, until its time is over or it is revoked; no sweep can be seen,
and the counters count what was answered. -/
namespace PaymentTrust

inductive ConsumedCall (α : Type) where
  | consume (fingerprint : String) (content : α) (ttl : Option UInt64)
  | get (fingerprint : String)
  | isConsumed (fingerprint : String)
  | revoke (fingerprint : String)
  | sweep
  deriving DecidableEq

inductive ConsumedAnswer (α : Type) where
  | consumed (first : Bool)
  | content (found : Option α)
  | live (isLive : Bool)
  deriving DecidableEq

namespace ConsumedAnswer

variable {α : Type}

@[simp] def isFirst : ConsumedAnswer α → Bool
  | consumed first => first
  | content _ | live _ => false

@[simp] def isHit : ConsumedAnswer α → Bool
  | content found => found.isSome
  | consumed _ | live _ => false

@[simp] def isMiss : ConsumedAnswer α → Bool
  | content found => found.isNone
  | consumed _ | live _ => false

end ConsumedAnswer

variable {α : Type}

/-- The reference: records last until they are claimed anew or revoked, and nothing is swept. -/
def Archive.perform (defaultTtl : UInt64) (a : Archive α) (call : ConsumedCall α) (now : Timestamp) :
    Option (ConsumedAnswer α) × Archive α :=
  match call with
  | .consume fingerprint content ttl =>
    let (first, a) := a.claim fingerprint (now.later (ttl.getD defaultTtl)) now content
    (some (.consumed first), a)
  | .get fingerprint => (some (.content (a.live? fingerprint now)), a)
  | .isConsumed fingerprint => (some (.live (a.isLive fingerprint now)), a)
  | .revoke fingerprint => (none, a.erase fingerprint)
  | .sweep => (none, a)

namespace Archive

variable (a : Archive α) (key : String) (t : Timestamp)

theorem live?_erase_self : Archive.live? (a.erase key) key t = none := by
  simp [live?]

theorem live?_erase_of_ne {erased : String} (other : key ≠ erased) :
    Archive.live? (a.erase erased) key t = a.live? key t := by
  unfold live?
  rw [AList.lookup_erase_ne other]

end Archive

theorem Ledger.Reflects.erase {l : Ledger α} {a : Archive α} {now : Timestamp}
    (reflects : l.Reflects a now) (key : String) : (l.erase key).Reflects (a.erase key) now where
  distinct := reflects.distinct.erase key
  live := by
    intro other t ordered
    by_cases same : other = key
    · rw [same, l.live?_erase_self, Archive.live?_erase_self]
    · rw [l.live?_erase_of_ne other t same, Archive.live?_erase_of_ne a other t same]
      exact reflects.live other t ordered

namespace ConsumedLedger

/-- What there is to revoke or to sweep depends on earlier sweeps, so neither call is answered. -/
def perform (l : ConsumedLedger α) (call : ConsumedCall α) (now : Timestamp) :
    Option (ConsumedAnswer α) × ConsumedLedger α :=
  match call with
  | .consume fingerprint content ttl =>
    let (first, l) := l.consume fingerprint content ttl now
    (some (.consumed first), l)
  | .get fingerprint =>
    let (found, l) := l.get fingerprint now
    (some (.content found), l)
  | .isConsumed fingerprint => (some (.live (l.isConsumed fingerprint now)), l)
  | .revoke fingerprint => (none, (l.revoke fingerprint).2)
  | .sweep => (none, (l.sweep now).2)

@[simp] theorem perform_defaultTtl (l : ConsumedLedger α) (call : ConsumedCall α)
    (now : Timestamp) : (l.perform call now).2.defaultTtl = l.defaultTtl := by
  cases call with
  | get fingerprint =>
    simp only [perform, get]
    cases l.ledger.live? fingerprint now <;> rfl
  | consume | isConsumed | revoke | sweep => rfl

theorem perform_simulates (defaultTtl : UInt64) :
    Timed.Simulates (perform (α := α)) (Archive.perform defaultTtl)
      fun l a now => l.ledger.Reflects a now ∧ l.defaultTtl = defaultTtl where
  later := fun ⟨reflects, ttl⟩ ordered => ⟨reflects.later ordered, ttl⟩
  alike := by
    rintro l a call now ⟨reflects, rfl⟩
    cases call with
    | consume fingerprint content ttl =>
      exact congrArg (some ∘ ConsumedAnswer.consumed) (reflects.claim fingerprint _ content).1
    | get fingerprint =>
      simp only [perform, Archive.perform, get_fst, reflects.live fingerprint now le_rfl]
    | isConsumed fingerprint =>
      simp only [perform, Archive.perform, isConsumed, reflects.isLive fingerprint now le_rfl]
    | revoke | sweep => rfl
  keeps := by
    rintro l a call now ⟨reflects, rfl⟩
    refine ⟨?_, l.perform_defaultTtl call now⟩
    cases call with
    | consume fingerprint content ttl => exact (reflects.claim fingerprint _ content).2
    | get fingerprint =>
      simp only [perform, Archive.perform, get_ledger]
      exact reflects
    | isConsumed => exact reflects
    | revoke fingerprint => exact reflects.erase fingerprint
    | sweep => exact reflects.sweep

/-- A call of the run was first to claim the entry's key and left the entry there, and no later call
revokes it. -/
def Records (settings : ConsumedSettings) (run : List (Timed (ConsumedCall α)))
    (e : Ledger.Entry α) : Prop :=
  ∃ before winner rest ttl, run = before ++ winner :: rest ∧
    winner.what = .consume e.key e.content ttl ∧
    (perform (Timed.after perform (empty settings) before) winner.what winner.now).1 =
      some (.consumed true) ∧
    (∀ call ∈ rest, call.what ≠ .revoke e.key) ∧
    e.expires.seconds.toNat =
      min (winner.now.seconds.toNat + (ttl.getD settings.defaultTtl).toNat) (UInt64.size - 1)

section

variable {l : ConsumedLedger α} {call : ConsumedCall α} {now : Timestamp} {e : Ledger.Entry α}

theorem isConsumed_eq_false_of_first {fingerprint : String} {content : α} {ttl : Option UInt64}
    (first : (l.perform (.consume fingerprint content ttl) now).1 = some (.consumed true)) :
    l.isConsumed fingerprint now = false := by
  simpa only [perform, consume_fst, Option.some.injEq, ConsumedAnswer.consumed.injEq,
    Bool.not_eq_true'] using first

theorem mem_perform (mem : e ∈ (l.perform call now).2.ledger.entries) :
    (e ∈ l.ledger.entries ∧ call ≠ .revoke e.key) ∨
      ∃ ttl, call = .consume e.key e.content ttl ∧
        (l.perform call now).1 = some (.consumed true) ∧
        e.expires = now.later (ttl.getD l.defaultTtl) := by
  cases call with
  | consume fingerprint content ttl =>
    rcases l.ledger.mem_claim fingerprint now mem with old | ⟨free, rfl⟩
    · exact .inl ⟨old, nofun⟩
    · refine .inr ⟨ttl, rfl, ?_, rfl⟩
      simp only [perform, consume_fst, isConsumed, free, Bool.not_false]
  | get fingerprint =>
    rw [perform, get_ledger] at mem
    exact .inl ⟨mem, nofun⟩
  | isConsumed => exact .inl ⟨mem, nofun⟩
  | revoke fingerprint =>
    obtain ⟨old, other⟩ := List.mem_filter.mp mem
    refine .inl ⟨old, ?_⟩
    rintro ⟨⟩
    simp at other
  | sweep => exact .inl ⟨(List.mem_filter.mp mem).1, nofun⟩

theorem find?_perform_of_unrevoked (found : l.ledger.find? e.key = some e) (live : now < e.expires)
    (unrevoked : call ≠ .revoke e.key) : (l.perform call now).2.ledger.find? e.key = some e := by
  cases call with
  | consume fingerprint content ttl =>
    exact l.ledger.retains_claim fingerprint now _ content e.key e found live
  | get fingerprint =>
    rw [perform, get_ledger]
    exact found
  | isConsumed => exact found
  | revoke fingerprint =>
    have other : e.key ≠ fingerprint := fun same => unrevoked (same ▸ rfl)
    exact (l.ledger.find?_erase_of_ne other).trans found
  | sweep => exact l.ledger.retains_sweep now e.key e found live

theorem find?_after_of_unrevoked {run : List (Timed (ConsumedCall α))}
    (found : l.ledger.find? e.key = some e) (live : ∀ call ∈ run, call.now < e.expires)
    (unrevoked : ∀ call ∈ run, call.what ≠ .revoke e.key) :
    (Timed.after perform l run).ledger.find? e.key = some e := by
  induction run generalizing l with
  | nil => exact found
  | cons call run ih =>
    have kept := find?_perform_of_unrevoked found (live call List.mem_cons_self)
      (unrevoked call List.mem_cons_self)
    exact ih kept (fun c mem => live c (List.mem_cons_of_mem call mem))
      fun c mem => unrevoked c (List.mem_cons_of_mem call mem)

end

variable (settings : ConsumedSettings)

theorem after_defaultTtl (run : List (Timed (ConsumedCall α))) :
    (Timed.after perform (empty settings) run).defaultTtl = settings.defaultTtl := by
  induction run using List.reverseRecOn with
  | nil => rfl
  | append_singleton run call ih => rw [Timed.after_concat, perform_defaultTtl, ih]

variable {settings} {run : List (Timed (ConsumedCall α))} {e : Ledger.Entry α}

theorem Records.concat {call : Timed (ConsumedCall α)} (records : Records settings run e)
    (unrevoked : call.what ≠ .revoke e.key) : Records settings (run ++ [call]) e := by
  obtain ⟨before, winner, rest, ttl, rfl, consumed, first, kept, expires⟩ := records
  refine ⟨before, winner, rest ++ [call], ttl, by simp, consumed, first, ?_, expires⟩
  simpa only [List.forall_mem_append, List.forall_mem_singleton] using ⟨kept, unrevoked⟩

theorem records_of_mem (mem : e ∈ (Timed.after perform (empty settings) run).ledger.entries) :
    Records settings run e := by
  induction run using List.reverseRecOn with
  | nil => cases mem
  | append_singleton run call ih =>
    rw [Timed.after_concat] at mem
    rcases mem_perform mem with ⟨old, unrevoked⟩ | ⟨ttl, consumed, first, expires⟩
    · exact (ih old).concat unrevoked
    · rw [after_defaultTtl, Timestamp.eq_later_iff] at expires
      exact ⟨run, call, [], ttl, rfl, consumed, first, nofun, expires⟩

theorem find?_of_records {now : Timestamp} (records : Records settings run e)
    (notAfter : ∀ call ∈ run, call.now ≤ now) (live : now < e.expires) :
    (Timed.after perform (empty settings) run).ledger.find? e.key = some e := by
  obtain ⟨before, winner, rest, ttl, rfl, consumed, first, kept, expires⟩ := records
  rw [consumed] at first
  rw [← after_defaultTtl settings before, ← Timestamp.eq_later_iff] at expires
  have free := isConsumed_eq_false_of_first first
  have recorded := Ledger.find?_claim_self _ e.key winner.now e.expires e.content free
  have early : ∀ call ∈ rest, call.now < e.expires := fun call mem =>
    lt_of_le_of_lt (notAfter call (List.mem_append_right _ (List.mem_cons_of_mem _ mem))) live
  rw [Timed.after_append, Timed.after_cons, consumed]
  refine find?_after_of_unrevoked ?_ early kept
  rw [perform, consume_ledger, ← expires]
  exact recorded

theorem get_eq_some_iff {fingerprint : String} {content : α} {now : Timestamp}
    (notAfter : ∀ call ∈ run, call.now ≤ now) :
    ((Timed.after perform (empty settings) run).get fingerprint now).1 = some content ↔
      ∃ expires, Records settings run ⟨fingerprint, expires, content⟩ ∧ now < expires := by
  rw [get_fst, Ledger.live?_eq_some_iff]
  constructor
  · rintro ⟨e, found, live, rfl⟩
    obtain ⟨mem, rfl⟩ := Ledger.mem_of_find? found
    exact ⟨e.expires, records_of_mem mem, live⟩
  · rintro ⟨expires, records, live⟩
    exact ⟨_, find?_of_records records notAfter live, live, rfl⟩

theorem perform_counts (l : ConsumedLedger α) (call : ConsumedCall α) (now : Timestamp) :
    (l.perform call now).2.consumed =
        l.consumed + ((l.perform call now).1.any (·.isFirst)).toUInt64 ∧
      (l.perform call now).2.hits =
        l.hits + ((l.perform call now).1.any (·.isHit)).toUInt64 ∧
      (l.perform call now).2.misses =
        l.misses + ((l.perform call now).1.any (·.isMiss)).toUInt64 := by
  cases call with
  | consume fingerprint content ttl =>
    simp only [perform, consume]
    generalize l.ledger.claim fingerprint (now.later (ttl.getD l.defaultTtl)) now content = claimed
    cases claimed with
    | mk first ledger => cases first <;> simp [Bool.toUInt64]
  | get fingerprint =>
    simp only [perform, get]
    cases l.ledger.live? fingerprint now <;> simp [Bool.toUInt64]
  | isConsumed | revoke | sweep => simp [perform, revoke, sweep, Bool.toUInt64]

/-- A ledger answers a run as the reference does, so neither its bound nor a sweep can be told from the
answers. What it has under a fingerprint is what the last call that was first there left, while its
time lasts; and its counters, which are words, count the answers. -/
theorem answers_of_winners (settings : ConsumedSettings) (run : List (Timed (ConsumedCall α))) :
    (Timed.Ordered run →
      Timed.yields perform (empty settings) run =
        Timed.yields (Archive.perform settings.defaultTtl) ∅ run) ∧
    (∀ fingerprint content now, (∀ call ∈ run, call.now ≤ now) →
      (((Timed.after perform (empty settings) run).get fingerprint now).1 = some content ↔
        ∃ expires, Records settings run ⟨fingerprint, expires, content⟩ ∧ now < expires)) ∧
    (Timed.after perform (empty settings) run).consumed.toNat =
        (Timed.yields perform (empty settings) run).countP (·.what.isFirst) % UInt64.size ∧
      (Timed.after perform (empty settings) run).hits.toNat =
        (Timed.yields perform (empty settings) run).countP (·.what.isHit) % UInt64.size ∧
      (Timed.after perform (empty settings) run).misses.toNat =
        (Timed.yields perform (empty settings) run).countP (·.what.isMiss) % UInt64.size := by
  refine ⟨?_, fun fingerprint content now notAfter => get_eq_some_iff notAfter, ?_, ?_, ?_⟩
  · intro ordered
    have start : (empty settings : ConsumedLedger α).ledger.Reflects ∅ ⟨0⟩ ∧
        (empty settings : ConsumedLedger α).defaultTtl = settings.defaultTtl :=
      ⟨Ledger.reflects_empty settings.bound ⟨0⟩, rfl⟩
    exact (perform_simulates settings.defaultTtl).yields_eq start (fun _ _ => UInt64.zero_le) ordered
  · rw [Timed.counter_after fun l call now => (perform_counts l call now).1]
    simp [empty]
  · rw [Timed.counter_after fun l call now => (perform_counts l call now).2.1]
    simp [empty]
  · rw [Timed.counter_after fun l call now => (perform_counts l call now).2.2]
    simp [empty]

end ConsumedLedger

namespace Sample

def brief : ConsumedSettings := ⟨10, 1⟩

/-- A second call comes too late, a third when the record has expired, and the record of the other
fingerprint makes room in between and is revoked. -/
def consumption : List (Timed (ConsumedCall String)) :=
  [⟨⟨100⟩, .consume "f" "first" none⟩, ⟨⟨109⟩, .consume "f" "second" (some 99)⟩,
    ⟨⟨109⟩, .get "f"⟩, ⟨⟨110⟩, .get "f"⟩, ⟨⟨110⟩, .consume "g" "other" (some 50)⟩,
    ⟨⟨120⟩, .consume "f" "third" (some 18446744073709551615)⟩, ⟨⟨120⟩, .sweep⟩, ⟨⟨121⟩, .revoke "g"⟩,
    ⟨⟨121⟩, .isConsumed "g"⟩]

end Sample

theorem ConsumedLedger.answers_of_consumption :
    (Timed.Ordered Sample.consumption ∧
      Timed.yields perform (empty Sample.brief) Sample.consumption =
        Timed.yields (Archive.perform 10) ∅ Sample.consumption) ∧
    (∀ call ∈ Sample.consumption, call.now ≤ ⟨18446744073709551614⟩) ∧
      ∃ expires, Records Sample.brief Sample.consumption ⟨"f", expires, "third"⟩ ∧
        ⟨18446744073709551614⟩ < expires := by
  have ordered : Timed.Ordered Sample.consumption := by decide
  have notAfter : ∀ call ∈ Sample.consumption, call.now ≤ ⟨18446744073709551614⟩ := by decide
  have found : ((Timed.after perform (empty Sample.brief) Sample.consumption).get "f"
      ⟨18446744073709551614⟩).1 = some "third" := by
    decide +kernel
  obtain ⟨alike, winner, _⟩ := answers_of_winners Sample.brief Sample.consumption
  exact ⟨⟨ordered, alike ordered⟩, notAfter, (winner "f" "third" _ notAfter).mp found⟩

end PaymentTrust
