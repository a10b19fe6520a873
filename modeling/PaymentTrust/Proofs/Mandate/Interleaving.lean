import Mathlib.Logic.Function.Basic
import PaymentTrust.Proofs.Mandate.ContentRun

/-! Recordings of payments that interleave. A recording takes up the content, records the
identifier, and gives the content back if the identifier is turned down. Each of these steps is
atomic, and other recordings may come in between. Unless recordings clash, none gives back what
another holds. -/
namespace PaymentTrust

structure AdmittedPayment where
  payment : PaymentMandate
  now : Timestamp
  unexpired : now < payment.header.expires

namespace AdmittedPayment

def id (p : AdmittedPayment) : String := p.payment.header.id

def expires (p : AdmittedPayment) : Timestamp := p.payment.header.expires

def fingerprint (p : AdmittedPayment) : String := p.payment.content.fingerprint

end AdmittedPayment

namespace Concurrent

inductive Progress where
  | idle
  | holding
  /-- The identifier is turned down, and the content not yet given back. -/
  | refused
  | accepted
  | rejected
  deriving DecidableEq, Repr

namespace Progress

def holds : Progress → Bool
  | holding | refused | accepted => true
  | idle | rejected => false

theorem ne_idle_of_holds {p : Progress} (h : p.holds = true) : p ≠ .idle := by
  rintro rfl
  cases h

end Progress

/-- The stores, and how far each recording has come. Content is owned by the recording that took it
up last. -/
structure State (ι : Type) where
  replay : ReplayLedger
  content : ConsumedLedger Json
  progress : ι → Progress
  owner : String → Option ι
  clock : Timestamp

namespace State

def empty (ι : Type) (bound : Nat) (settings : ConsumedSettings) : State ι :=
  ⟨.empty bound, .empty settings, fun _ => .idle, fun _ => none, ⟨0⟩⟩

variable {ι : Type} [DecidableEq ι] (payments : ι → AdmittedPayment) (s : State ι) (i : ι)

def stores : MandateStores ReplayLedger := ⟨s.replay, some s.content⟩

def start : State ι :=
  let p := payments i
  let (first, content) := p.payment.consumeIn s.content p.now
  { s with
    content
    progress := Function.update s.progress i (if first then .holding else .rejected)
    owner := if first then Function.update s.owner p.fingerprint (some i) else s.owner
    clock := p.now }

def record : State ι :=
  let p := payments i
  let (outcome, stores) := MandateVerifier.recordId s.stores p.payment.header p.now
  { s with
    replay := stores.replay
    progress := Function.update s.progress i (if outcome.isOk then .accepted else .refused) }

def giveBack : State ι :=
  { s with
    content := (s.content.revoke (payments i).fingerprint).2
    progress := Function.update s.progress i .rejected }

def advance : State ι :=
  match s.progress i with
  | .idle => s.start payments i
  | .holding => s.record payments i
  | .refused => s.giveBack payments i
  | .accepted | .rejected => s

end State

/-- What can come of the recordings, however their steps interleave, if they start in the order of
their times. -/
inductive Reachable {ι : Type} [DecidableEq ι] (payments : ι → AdmittedPayment) (bound : Nat)
    (settings : ConsumedSettings) : State ι → Prop
  | empty : Reachable payments bound settings (.empty ι bound settings)
  | advance {s : State ι} (i : ι) (reachable : Reachable payments bound settings s)
      (ordered : s.progress i = .idle → s.clock ≤ (payments i).now) :
      Reachable payments bound settings (s.advance payments i)

variable {ι : Type} (payments : ι → AdmittedPayment)

/-- What is about to be given back was taken up last by the recording that does so, and the content
of what was accepted stays consumed until that expires. -/
structure RollsBackOwn (s : State ι) : Prop where
  own : ∀ i, s.progress i = .refused →
    (s.content.ledger.find? (payments i).fingerprint).isSome = true →
      s.owner (payments i).fingerprint = some i
  consumed : ∀ i, s.progress i = .accepted → ∀ t, s.clock ≤ t → t < (payments i).expires →
    s.content.isConsumed (payments i).fingerprint t = true

/-- The content of `i` is that of `j`, which comes when `i` has expired, and the identifier of `i`
can be taken meanwhile by `k`, which is `j` or a payment of other content. -/
structure Clash (i j k : ι) : Prop where
  content : (payments j).fingerprint = (payments i).fingerprint
  expired : (payments i).expires ≤ (payments j).now
  id : (payments k).id = (payments i).id
  early : (payments i).now < (payments k).expires
  taker : k = j ∨ (payments k).fingerprint ≠ (payments i).fingerprint

namespace State

variable [DecidableEq ι] {payments} {s : State ι} {i : ι}

theorem advance_of_consumed (idle : s.progress i = .idle)
    (consumed : s.content.isConsumed (payments i).fingerprint (payments i).now = true) :
    s.advance payments i = { s with
      content := ((payments i).payment.consumeIn s.content (payments i).now).2
      progress := Function.update s.progress i .rejected
      clock := (payments i).now } := by
  have first : ((payments i).payment.consumeIn s.content (payments i).now).1 = false := by
    rw [PaymentMandate.consumeIn, ConsumedLedger.consume_fst]
    exact congrArg not consumed
  simp only [advance, idle, start, first, Bool.false_eq_true, if_false]

theorem advance_of_unconsumed (idle : s.progress i = .idle)
    (unconsumed : s.content.isConsumed (payments i).fingerprint (payments i).now = false) :
    s.advance payments i = { s with
      content := ((payments i).payment.consumeIn s.content (payments i).now).2
      progress := Function.update s.progress i .holding
      owner := Function.update s.owner (payments i).fingerprint (some i)
      clock := (payments i).now } := by
  have first : ((payments i).payment.consumeIn s.content (payments i).now).1 = true := by
    rw [PaymentMandate.consumeIn, ConsumedLedger.consume_fst]
    exact congrArg not unconsumed
  simp only [advance, idle, start, first, if_true]

theorem advance_of_isLive (holding : s.progress i = .holding)
    (live : s.replay.isLive (payments i).id (payments i).now = true) :
    s.advance payments i = { s with
      replay := s.replay.makeRoom (payments i).id (payments i).now
      progress := Function.update s.progress i .refused } := by
  have recorded := MandateVerifier.recordId_of_isLive s.stores (payments i).payment.header
    (payments i).now live
  simp only [advance, holding, record, recorded]
  rfl

theorem advance_of_free (holding : s.progress i = .holding)
    (free : s.replay.isLive (payments i).id (payments i).now = false) :
    s.advance payments i = { s with
      replay := (s.replay.makeRoom (payments i).id (payments i).now).put
        ⟨(payments i).id, (payments i).expires, ()⟩
      progress := Function.update s.progress i .accepted } := by
  have recorded := MandateVerifier.recordId_of_free s.stores (payments i).payment.header
    (payments i).now free
  simp only [advance, holding, record, recorded]
  rfl

theorem advance_of_refused (refused : s.progress i = .refused) :
    s.advance payments i = s.giveBack payments i := by
  simp only [advance, refused]

theorem advance_of_done (done : s.progress i = .accepted ∨ s.progress i = .rejected) :
    s.advance payments i = s := by
  rcases done with h | h <;> simp only [advance, h]

/-- Three steps without interruption are what the verifier does to record a payment. -/
theorem recordPayment_of_idle (idle : s.progress i = .idle) :
    let last := ((s.advance payments i).advance payments i).advance payments i
    (MandateVerifier.recordPayment s.stores (payments i).payment (payments i).now).2 = last.stores ∧
      ((MandateVerifier.recordPayment s.stores (payments i).payment (payments i).now).1 = .ok () ↔
        last.progress i = .accepted) := by
  cases content : s.content.isConsumed (payments i).fingerprint (payments i).now with
  | true =>
    rw [MandateVerifier.recordPayment_of_consumed _ _ rfl content, advance_of_consumed idle content]
    simp [advance, stores]
  | false =>
    have first := advance_of_unconsumed idle content
    have holding : (s.advance payments i).progress i = .holding := by simp [first]
    cases live : s.replay.isLive (payments i).id (payments i).now with
    | true =>
      have second := advance_of_isLive holding (by rwa [first])
      have refused : ((s.advance payments i).advance payments i).progress i = .refused := by
        simp [second]
      rw [MandateVerifier.recordPayment_of_isLive _ _ rfl content live, advance_of_refused refused,
        second, first]
      simp [giveBack, stores, AdmittedPayment.id, AdmittedPayment.fingerprint]
    | false =>
      have second := advance_of_free holding (by rwa [first])
      have accepted : ((s.advance payments i).advance payments i).progress i = .accepted := by
        simp [second]
      rw [MandateVerifier.recordPayment_of_free _ _ rfl content live,
        advance_of_done (.inl accepted), second, first]
      simp [stores, AdmittedPayment.id, AdmittedPayment.expires]

end State

/-- What is recorded of content comes from the recordings that hold it, and what a recording holds
is recorded until it expires. -/
structure Holdings (s : State ι) : Prop where
  started : ∀ i, s.progress i ≠ .idle → (payments i).now ≤ s.clock
  held : ∀ i, (s.progress i).holds = true → s.clock < (payments i).expires →
    s.content.ledger.find? (payments i).fingerprint = some (payments i).payment.contentEntry
  apart : ∀ i j, i ≠ j → (s.progress i).holds = true → (s.progress j).holds = true →
    (payments i).fingerprint = (payments j).fingerprint →
      (payments i).expires ≤ (payments j).now ∨ (payments j).expires ≤ (payments i).now
  owned : ∀ e ∈ s.content.ledger.entries, ∃ j, s.owner e.key = some j ∧
    (payments j).fingerprint = e.key ∧ (s.progress j).holds = true
  latest : ∀ i j, (s.progress i).holds = true → s.owner (payments i).fingerprint = some j →
    (payments i).now ≤ (payments j).now

structure Records (s : State ι) : Prop where
  recorded : ∀ e ∈ s.replay.entries, ∃ k, s.progress k = .accepted ∧ (payments k).id = e.key ∧
    (payments k).expires = e.expires
  taken : ∀ i, s.progress i = .refused → ∃ k, s.progress k = .accepted ∧
    (payments k).id = (payments i).id ∧ (payments i).now < (payments k).expires

variable {payments} {s s' : State ι} {i j : ι}

theorem holdings_empty (bound : Nat) (settings : ConsumedSettings) :
    Holdings payments (.empty ι bound settings) :=
  ⟨nofun, nofun, nofun, nofun, nofun⟩

theorem records_empty (bound : Nat) (settings : ConsumedSettings) :
    Records payments (.empty ι bound settings) :=
  ⟨nofun, nofun⟩

theorem Holdings.shrink (inv : Holdings payments s) (clock : s.clock ≤ s'.clock)
    (owner : s'.owner = s.owner)
    (started : ∀ j, s'.progress j ≠ .idle → (payments j).now ≤ s'.clock)
    (holds : ∀ j, (s'.progress j).holds = true → (s.progress j).holds = true)
    (held : ∀ j, (s'.progress j).holds = true → s'.clock < (payments j).expires →
      s.content.ledger.find? (payments j).fingerprint = some (payments j).payment.contentEntry →
      s'.content.ledger.find? (payments j).fingerprint = some (payments j).payment.contentEntry)
    (owned : ∀ e ∈ s'.content.ledger.entries, e ∈ s.content.ledger.entries ∧
      ∀ j, (payments j).fingerprint = e.key → (s.progress j).holds = true →
        (s'.progress j).holds = true) : Holdings payments s' where
  started := started
  held := fun j h early => held j h early (inv.held j (holds j h) (lt_of_le_of_lt clock early))
  apart := fun j k other hj hk => inv.apart j k other (holds j hj) (holds k hk)
  owned := by
    intro e mem
    obtain ⟨old, still⟩ := owned e mem
    obtain ⟨j, own, key, h⟩ := inv.owned e old
    exact ⟨j, owner ▸ own, key, still j key h⟩
  latest := fun j k h own => inv.latest j k (holds j h) (owner ▸ own)

theorem Records.frame (inv : Records payments s) (replay : s'.replay = s.replay)
    (accepted : ∀ k, s.progress k = .accepted → s'.progress k = .accepted)
    (refused : ∀ k, s'.progress k = .refused → s.progress k = .refused) : Records payments s' where
  recorded := by
    intro e mem
    obtain ⟨k, old, own⟩ := inv.recorded e (replay ▸ mem)
    exact ⟨k, accepted k old, own⟩
  taken := by
    intro j h
    obtain ⟨k, old, own⟩ := inv.taken j (refused j h)
    exact ⟨k, accepted k old, own⟩

/-- A refused recording whose content was taken up once it had expired has clashed. -/
theorem exists_clash (holdings : Holdings payments s) (records : Records payments s)
    (refused : s.progress i = .refused)
    (content : (payments j).fingerprint = (payments i).fingerprint)
    (expired : (payments i).expires ≤ (payments j).now) : ∃ j k, Clash payments i j k := by
  obtain ⟨k, accepted, id, early⟩ := records.taken i refused
  by_cases same : (payments k).fingerprint = (payments i).fingerprint
  · have other : i ≠ k := by
      rintro rfl
      rw [refused] at accepted
      cases accepted
    have apart := holdings.apart i k other (by rw [refused]; rfl) (by rw [accepted]; rfl) same.symm
    have later := apart.resolve_right (not_le.mpr early)
    exact ⟨k, k, same, later, id, early, .inl rfl⟩
  · exact ⟨j, k, content, expired, id, early, .inr same⟩

section step

variable [DecidableEq ι] {p : Progress}

theorem holds_update : (Function.update s.progress i p j).holds = true ↔
    (j = i ∧ p.holds = true) ∨ (j ≠ i ∧ (s.progress j).holds = true) := by
  by_cases same : j = i
  · subst same
    simp
  · simp [same]

theorem Holdings.started_update (inv : Holdings payments s) {clock : Timestamp}
    (moves : s.clock ≤ clock) (own : (payments i).now ≤ clock) :
    ∀ j, Function.update s.progress i p j ≠ .idle → (payments j).now ≤ clock := by
  intro j moved
  by_cases same : j = i
  · exact same ▸ own
  · rw [Function.update_of_ne same] at moved
    exact (inv.started j moved).trans moves

theorem Records.update (inv : Records payments s) (unaccepted : s.progress i ≠ .accepted)
    (unrefused : p ≠ .refused) (replay : s'.replay = s.replay)
    (progress : s'.progress = Function.update s.progress i p) : Records payments s' := by
  refine inv.frame replay (fun k accepted => ?_) fun k refused => ?_
  · have other : k ≠ i := by
      rintro rfl
      exact unaccepted accepted
    rw [progress, Function.update_of_ne other, accepted]
  · rw [progress] at refused
    have other : k ≠ i := by
      rintro rfl
      exact unrefused (by rwa [Function.update_self] at refused)
    rwa [Function.update_of_ne other] at refused

theorem Holdings.update (inv : Holdings payments s) (holding : (s.progress i).holds = true)
    (holds : p.holds = true) (content : s'.content = s.content) (owner : s'.owner = s.owner)
    (clock : s'.clock = s.clock) (progress : s'.progress = Function.update s.progress i p) :
    Holdings payments s' := by
  have same (j : ι) : (s'.progress j).holds = true ↔ (s.progress j).holds = true := by
    rw [progress, holds_update]
    by_cases own : j = i
    · simp [own, holding, holds]
    · simp [own]
  refine inv.shrink clock.ge owner ?_ (fun j => (same j).mp) ?_ ?_
  · rw [progress, clock]
    exact inv.started_update le_rfl (inv.started i (Progress.ne_idle_of_holds holding))
  · exact fun j _ _ found => content ▸ found
  · exact fun e mem => ⟨content ▸ mem, fun j _ => (same j).mpr⟩

section start

variable (inv : Holdings payments s) (idle : s.progress i = .idle)
  (ordered : s.clock ≤ (payments i).now)

include inv idle ordered

theorem holdings_of_consumed
    (consumed : s.content.isConsumed (payments i).fingerprint (payments i).now = true) :
    Holdings payments (s.advance payments i) := by
  have consumes := s.content.ledger.consumes_claim_of_isLive (payments i).payment (payments i).now
    consumed
  rw [← (payments i).payment.consumeIn_ledger_of_unexpired s.content (payments i).unexpired]
    at consumes
  rw [State.advance_of_consumed idle consumed]
  refine inv.shrink ordered rfl (inv.started_update ordered le_rfl) ?_ ?_ ?_
  · intro j holds
    exact ((holds_update.mp holds).resolve_left fun own => Bool.false_ne_true own.2).2
  · exact fun j _ early found => consumes.retains _ _ found early
  · intro e mem
    rcases consumes.new e mem with old | ⟨_, ⟨⟩, _⟩
    refine ⟨old, fun j _ holds => holds_update.mpr (.inr ⟨?_, holds⟩)⟩
    rintro rfl
    exact Progress.ne_idle_of_holds holds idle

theorem holdings_of_unconsumed
    (unconsumed : s.content.isConsumed (payments i).fingerprint (payments i).now = false) :
    Holdings payments (s.advance payments i) := by
  have consumes := s.content.ledger.consumes_claim (payments i).payment (payments i).now unconsumed
  rw [← (payments i).payment.consumeIn_ledger_of_unexpired s.content (payments i).unexpired]
    at consumes
  rw [State.advance_of_unconsumed idle unconsumed]
  have past (j : ι) (holds : (s.progress j).holds = true)
      (content : (payments j).fingerprint = (payments i).fingerprint) :
      (payments j).expires ≤ (payments i).now := by
    by_contra early
    have found := inv.held j holds (lt_of_le_of_lt ordered (not_le.mp early))
    rw [content] at found
    exact early ((Ledger.isLive_eq_false _ _ _).mp unconsumed _ found)
  constructor
  case started => exact inv.started_update ordered le_rfl
  case held =>
    intro j holds early
    rcases holds_update.mp holds with ⟨rfl, _⟩ | ⟨_, old⟩
    · exact consumes.recorded _ rfl
    · exact consumes.retains _ _ (inv.held j old (lt_of_le_of_lt ordered early)) early
  case apart =>
    intro j k other hj hk content
    rcases holds_update.mp hj with ⟨rfl, _⟩ | ⟨_, oldj⟩
    · rcases holds_update.mp hk with ⟨rfl, _⟩ | ⟨_, oldk⟩
      · exact absurd rfl other
      · exact .inr (past k oldk content.symm)
    · rcases holds_update.mp hk with ⟨rfl, _⟩ | ⟨_, oldk⟩
      · exact .inl (past j oldj content)
      · exact inv.apart j k other oldj oldk content
  case owned =>
    intro e mem
    by_cases key : e.key = (payments i).fingerprint
    · refine ⟨i, ?_, key.symm, holds_update.mpr (.inl ⟨rfl, rfl⟩)⟩
      rw [key]
      exact Function.update_self ..
    · rcases consumes.new e mem with old | ⟨_, ⟨⟩, rfl⟩
      · obtain ⟨j, own, content, holds⟩ := inv.owned e old
        refine ⟨j, ?_, content, holds_update.mpr (.inr ⟨?_, holds⟩)⟩
        · rw [← own]
          exact Function.update_of_ne key ..
        · rintro rfl
          exact key content.symm
      · exact absurd rfl key
  case latest =>
    intro j k holds own
    change Function.update s.owner (payments i).fingerprint (some i) (payments j).fingerprint =
      some k at own
    by_cases content : (payments j).fingerprint = (payments i).fingerprint
    · rw [content, Function.update_self] at own
      obtain rfl := Option.some.inj own
      rcases holds_update.mp holds with ⟨rfl, _⟩ | ⟨_, old⟩
      · exact le_rfl
      · exact (inv.started j (Progress.ne_idle_of_holds old)).trans ordered
    · rw [Function.update_of_ne content] at own
      rcases holds_update.mp holds with ⟨rfl, _⟩ | ⟨_, old⟩
      · exact absurd rfl content
      · exact inv.latest j k old own

end start

theorem records_of_isLive (inv : Records payments s) (holding : s.progress i = .holding)
    (live : s.replay.isLive (payments i).id (payments i).now = true) :
    Records payments (s.advance payments i) := by
  rw [State.advance_of_isLive holding live]
  have still {k : ι} (accepted : s.progress k = .accepted) :
      Function.update s.progress i .refused k = .accepted := by
    have other : k ≠ i := by
      rintro rfl
      rw [holding] at accepted
      cases accepted
    rw [Function.update_of_ne other, accepted]
  constructor
  case recorded =>
    intro e mem
    obtain ⟨k, accepted, own⟩ := inv.recorded e (Ledger.mem_makeRoom _ _ _ mem)
    exact ⟨k, still accepted, own⟩
  case taken =>
    intro j refused
    by_cases same : j = i
    · subst same
      obtain ⟨e, found, early⟩ := (Ledger.isLive_iff _ _ _).mp live
      obtain ⟨mem, key⟩ := Ledger.mem_of_find? found
      obtain ⟨k, accepted, id, expires⟩ := inv.recorded e mem
      exact ⟨k, still accepted, id.trans key, expires ▸ early⟩
    · have old : s.progress j = .refused := by
        rw [← refused]
        exact (Function.update_of_ne same ..).symm
      obtain ⟨k, accepted, own⟩ := inv.taken j old
      exact ⟨k, still accepted, own⟩

theorem records_of_free (inv : Records payments s) (holding : s.progress i = .holding)
    (free : s.replay.isLive (payments i).id (payments i).now = false) :
    Records payments (s.advance payments i) := by
  rw [State.advance_of_free holding free]
  have still {k : ι} (accepted : s.progress k = .accepted) :
      Function.update s.progress i .accepted k = .accepted := by
    by_cases same : k = i
    · rw [same, Function.update_self]
    · rw [Function.update_of_ne same, accepted]
  constructor
  case recorded =>
    intro e mem
    rcases List.mem_cons.mp mem with rfl | old
    · exact ⟨i, Function.update_self .., rfl, rfl⟩
    · have mem := Ledger.mem_makeRoom _ _ _ (List.mem_filter.mp old).1
      obtain ⟨k, accepted, own⟩ := inv.recorded e mem
      exact ⟨k, still accepted, own⟩
  case taken =>
    intro j refused
    have other : j ≠ i := by
      rintro rfl
      simp at refused
    have old : s.progress j = .refused := by
      rw [← refused]
      exact (Function.update_of_ne other ..).symm
    obtain ⟨k, accepted, own⟩ := inv.taken j old
    exact ⟨k, still accepted, own⟩

/-- Giving content back leaves alone what others hold, if none took the content up once it had
expired. -/
theorem holdings_of_refused (inv : Holdings payments s) (refused : s.progress i = .refused)
    (apart : ∀ j, (payments j).fingerprint = (payments i).fingerprint →
      ¬(payments i).expires ≤ (payments j).now) :
    Holdings payments (s.advance payments i) := by
  have holding : (s.progress i).holds = true := by rw [refused]; rfl
  rw [State.advance_of_refused refused]
  have others {j : ι} (holds : (Function.update s.progress i .rejected j).holds = true) :
      j ≠ i ∧ (s.progress j).holds = true :=
    (holds_update.mp holds).resolve_left fun own => Bool.false_ne_true own.2
  have begun := inv.started i (Progress.ne_idle_of_holds holding)
  refine inv.shrink le_rfl rfl (inv.started_update le_rfl begun) (fun j h => (others h).2) ?_ ?_
  · intro j holds early found
    obtain ⟨other, old⟩ := others holds
    have content : (payments j).fingerprint ≠ (payments i).fingerprint := by
      intro same
      rcases inv.apart i j other.symm holding old same.symm with late | past
      · exact apart j same late
      · exact absurd (past.trans begun) (not_le.mpr early)
    rw [← found]
    exact Ledger.find?_erase_of_ne _ content
  · intro e mem
    obtain ⟨old, key⟩ := List.mem_filter.mp mem
    refine ⟨old, fun j content holds => holds_update.mpr (.inr ⟨?_, holds⟩)⟩
    rintro rfl
    simp [content] at key

end step

section run

variable [DecidableEq ι]

theorem Reachable.advance_of_ne_idle {bound : Nat} {settings : ConsumedSettings}
    (reachable : Reachable payments bound settings s) (i : ι) (begun : s.progress i ≠ .idle) :
    Reachable payments bound settings (s.advance payments i) :=
  reachable.advance i fun idle => absurd idle begun

theorem invariant_of_reachable {bound : Nat} {settings : ConsumedSettings}
    (apart : ∀ i j k, ¬Clash payments i j k) (reachable : Reachable payments bound settings s) :
    Holdings payments s ∧ Records payments s := by
  induction reachable with
  | empty => exact ⟨holdings_empty bound settings, records_empty bound settings⟩
  | @advance s i _ ordered ih =>
    obtain ⟨holdings, records⟩ := ih
    cases progress : s.progress i with
    | idle =>
      cases content : s.content.isConsumed (payments i).fingerprint (payments i).now with
      | true =>
        refine ⟨holdings_of_consumed holdings progress (ordered progress) content, ?_⟩
        rw [State.advance_of_consumed progress content]
        exact records.update (by rw [progress]; nofun) (by nofun) rfl rfl
      | false =>
        refine ⟨holdings_of_unconsumed holdings progress (ordered progress) content, ?_⟩
        rw [State.advance_of_unconsumed progress content]
        exact records.update (by rw [progress]; nofun) (by nofun) rfl rfl
    | holding =>
      have holds : (s.progress i).holds = true := by rw [progress]; rfl
      cases live : s.replay.isLive (payments i).id (payments i).now with
      | true =>
        refine ⟨?_, records_of_isLive records progress live⟩
        rw [State.advance_of_isLive progress live]
        exact holdings.update holds (p := .refused) rfl rfl rfl rfl rfl
      | false =>
        refine ⟨?_, records_of_free records progress live⟩
        rw [State.advance_of_free progress live]
        exact holdings.update holds (p := .accepted) rfl rfl rfl rfl rfl
    | refused =>
      have unexpired (j : ι) (content : (payments j).fingerprint = (payments i).fingerprint) :
          ¬(payments i).expires ≤ (payments j).now := by
        intro expired
        obtain ⟨j, k, clash⟩ := exists_clash holdings records progress content expired
        exact apart i j k clash
      refine ⟨holdings_of_refused holdings progress unexpired, ?_⟩
      rw [State.advance_of_refused progress]
      exact records.update (by rw [progress]; nofun) (by nofun) rfl rfl
    | accepted =>
      rw [State.advance_of_done (.inl progress)]
      exact ⟨holdings, records⟩
    | rejected =>
      rw [State.advance_of_done (.inr progress)]
      exact ⟨holdings, records⟩

theorem rollsBackOwn_of_invariant (holdings : Holdings payments s) (records : Records payments s)
    (apart : ∀ i j k, ¬Clash payments i j k) : RollsBackOwn payments s where
  own := by
    intro i refused present
    obtain ⟨e, found⟩ := Option.isSome_iff_exists.mp present
    obtain ⟨mem, key⟩ := Ledger.mem_of_find? found
    obtain ⟨j, own, content, holds⟩ := holdings.owned e mem
    rw [key] at own content
    by_cases same : i = j
    · rw [own, same]
    -- Another recording took the content up later, so it had expired.
    have holding : (s.progress i).holds = true := by rw [refused]; rfl
    rcases holdings.apart i j same holding holds content.symm with late | past
    · obtain ⟨j, k, clash⟩ := exists_clash holdings records refused content late
      exact absurd clash (apart i j k)
    · have later := holdings.latest i j holding own
      exact absurd (past.trans later) (not_le.mpr (payments j).unexpired)
  consumed := by
    intro i accepted t ordered early
    have found := holdings.held i (by rw [accepted]; rfl) (lt_of_le_of_lt ordered early)
    exact (Ledger.isLive_iff _ _ _).mpr ⟨_, found, early⟩

end run

end Concurrent

end PaymentTrust
