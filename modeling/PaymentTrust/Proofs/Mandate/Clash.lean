import PaymentTrust.Proofs.Mandate.Interleaving

/-! Recordings that clash have an interleaving in which one gives back the content that another
holds. So the content of an accepted payment can be free again before it expires. -/
namespace PaymentTrust

namespace Concurrent

variable {ι : Type} {payments : ι → AdmittedPayment} {s s' : State ι} {i j : ι}

/-- The recording can begin when these have, and finds its content free. -/
structure Follows (payments : ι → AdmittedPayment) (begun : List ι) (i : ι) : Prop where
  fresh : i ∉ begun
  ordered : ∀ m ∈ begun, (payments m).now ≤ (payments i).now
  past : ∀ m ∈ begun, (payments m).fingerprint = (payments i).fingerprint →
    (payments m).expires ≤ (payments i).now

theorem Clash.ne {k : ι} (clash : Clash payments i j k) : j ≠ i := by
  rintro rfl
  exact not_le.mpr (payments j).unexpired clash.expired

theorem Clash.notBefore {k : ι} (clash : Clash payments i j k) :
    (payments i).now ≤ (payments j).now :=
  (payments i).unexpired.le.trans clash.expired

theorem follows_nil (payments : ι → AdmittedPayment) (i : ι) : Follows payments [] i :=
  ⟨List.not_mem_nil, nofun, nofun⟩

theorem Follows.cons {begun : List ι} (follows : Follows payments begun i) (other : i ≠ j)
    (ordered : (payments j).now ≤ (payments i).now)
    (past : (payments j).fingerprint = (payments i).fingerprint →
      (payments j).expires ≤ (payments i).now) : Follows payments (j :: begun) i where
  fresh := List.not_mem_cons_of_ne_of_not_mem other follows.fresh
  ordered := List.forall_mem_cons.mpr ⟨ordered, follows.ordered⟩
  past := List.forall_mem_cons.mpr ⟨past, follows.past⟩

theorem Clash.follows {k : ι} (clash : Clash payments i j k) : Follows payments [i] j :=
  (follows_nil payments j).cons clash.ne clash.notBefore fun _ => clash.expired

variable [DecidableEq ι]

/-- A point of an interleaving in stores that have room for three records, at which only these
recordings have begun, in this order from the last. -/
structure Midway (payments : ι → AdmittedPayment) (s : State ι) (begun : List ι) : Prop where
  reachable : Reachable payments 3 ⟨0, 3⟩ s
  idle : ∀ m, m ∉ begun → s.progress m = .idle
  clock : ∀ t, (∀ m ∈ begun, (payments m).now ≤ t) → s.clock ≤ t
  among : ∀ e ∈ s.content.ledger.entries, ∃ m ∈ begun, e = (payments m).payment.contentEntry
  bound : s.content.ledger.bound = 3
  size : s.content.ledger.size ≤ begun.length

structure Moves (payments : ι → AdmittedPayment) (s s' : State ι) (i : ι) (p : Progress) :
    Prop where
  progress : s'.progress = Function.update s.progress i p
  owner : s'.owner = Function.update s.owner (payments i).fingerprint (some i)
  own : s'.content.ledger.find? (payments i).fingerprint = some (payments i).payment.contentEntry
  others : ∀ fingerprint ≠ (payments i).fingerprint,
    s'.content.ledger.find? fingerprint = s.content.ledger.find? fingerprint

theorem Moves.progress_of_ne {p : Progress} (moves : Moves payments s s' i p) (other : j ≠ i) :
    s'.progress j = s.progress j := by
  rw [moves.progress, Function.update_of_ne other]

theorem Moves.holding (moves : Moves payments s s' i .holding) : s'.progress i = .holding := by
  rw [moves.progress, Function.update_self]

theorem midway_empty (payments : ι → AdmittedPayment) :
    Midway payments (.empty ι 3 ⟨0, 3⟩) [] where
  reachable := .empty
  idle := fun _ _ => rfl
  clock := fun t _ => (Timestamp.le_iff_toNat ⟨0⟩ t).mpr (Nat.zero_le _)
  among := nofun
  bound := rfl
  size := le_rfl

namespace Midway

variable {begun : List ι} (mid : Midway payments s begun)

include mid

theorem unconsumed (follows : Follows payments begun i) :
    s.content.isConsumed (payments i).fingerprint (payments i).now = false := by
  refine (Ledger.isLive_eq_false _ _ _).mpr fun e found => ?_
  obtain ⟨recorded, key⟩ := Ledger.mem_of_find? found
  obtain ⟨m, mem, rfl⟩ := mid.among e recorded
  exact follows.past m mem key

theorem take (follows : Follows payments begun i) (roomy : begun.length < 3) :
    Midway payments (s.advance payments i) (i :: begun) ∧
      Moves payments s (s.advance payments i) i .holding ∧
      (s.advance payments i).replay = s.replay := by
  have idle := mid.idle i follows.fresh
  have free := mid.unconsumed follows
  have same : s.content.ledger.makeRoom (payments i).fingerprint (payments i).now =
      s.content.ledger := by
    have size := mid.size
    have bound := mid.bound
    rw [Ledger.makeRoom, if_neg (by omega)]
  have put : ((payments i).payment.consumeIn s.content (payments i).now).2.ledger =
      s.content.ledger.put (payments i).payment.contentEntry := by
    have claimed := congrArg Prod.snd (Ledger.claim_of_free _ _ _ (payments i).payment.header.expires
      (payments i).payment.content free)
    rw [(payments i).payment.consumeIn_ledger_of_unexpired s.content (payments i).unexpired]
    exact claimed.trans (congrArg (Ledger.put · _) same)
  have reachable := mid.reachable.advance i fun _ => mid.clock _ follows.ordered
  rw [State.advance_of_unconsumed idle free] at reachable ⊢
  have own := s.content.ledger.find?_put_self (payments i).payment.contentEntry
  refine ⟨⟨reachable, ?idle, ?clock, ?among, ?bound, ?size⟩, ⟨rfl, rfl, put ▸ own, ?others⟩, rfl⟩
  case idle =>
    intro m absent
    obtain ⟨other, absent⟩ := not_or.mp (mt List.mem_cons.mpr absent)
    exact (Function.update_of_ne other ..).trans (mid.idle m absent)
  case clock => exact fun t notBefore => notBefore i List.mem_cons_self
  case among =>
    intro e mem
    dsimp only at mem
    rw [put] at mem
    rcases List.mem_cons.mp mem with new | old
    · exact ⟨i, List.mem_cons_self, new⟩
    · obtain ⟨m, earlier, entry⟩ := mid.among e (List.mem_filter.mp old).1
      exact ⟨m, List.mem_cons_of_mem i earlier, entry⟩
  case bound =>
    dsimp only
    rw [put]
    exact mid.bound
  case size =>
    dsimp only
    rw [put]
    exact Nat.succ_le_succ ((List.length_filter_le ..).trans mid.size)
  case others =>
    intro fingerprint other
    dsimp only
    rw [put]
    exact Ledger.find?_put_of_ne _ _ other

theorem complete (follows : Follows payments begun i) (roomy : begun.length < 3)
    (free : s.replay.isLive (payments i).id (payments i).now = false) :
    Midway payments ((s.advance payments i).advance payments i) (i :: begun) ∧
      Moves payments s ((s.advance payments i).advance payments i) i .accepted ∧
      ∀ t, t < (payments i).expires →
        ((s.advance payments i).advance payments i).replay.isLive (payments i).id t = true := by
  obtain ⟨taken, moves, replay⟩ := mid.take follows roomy
  have holding := moves.holding
  have free' : (s.advance payments i).replay.isLive (payments i).id (payments i).now = false := by
    rw [replay, free]
  have reachable := taken.reachable.advance i fun idle => by
    rw [holding] at idle
    cases idle
  rw [State.advance_of_free holding free'] at reachable ⊢
  refine ⟨?_, ?_, ?_⟩
  · refine ⟨reachable, fun m absent => ?_, taken.clock, taken.among, taken.bound, taken.size⟩
    obtain ⟨other, _⟩ := not_or.mp (mt List.mem_cons.mpr absent)
    exact (Function.update_of_ne other ..).trans (taken.idle m absent)
  · refine ⟨?_, moves.owner, moves.own, moves.others⟩
    dsimp only
    rw [moves.progress, Function.update_idem]
  · intro t early
    exact (Ledger.isLive_iff _ _ _).mpr ⟨_, Ledger.find?_put_self _ _, early⟩

end Midway

/-- The content of `i`, which has yet to record its identifier, is held by `j`. -/
structure Undermined (payments : ι → AdmittedPayment) (s : State ι) (i j : ι) : Prop where
  holding : s.progress i = .holding
  owner : s.owner (payments i).fingerprint = some j
  present : (s.content.ledger.find? (payments i).fingerprint).isSome = true

theorem undermined_of_moves {p : Progress} (holding : s.progress i = .holding)
    (moves : Moves payments s s' j p) (other : j ≠ i)
    (content : (payments j).fingerprint = (payments i).fingerprint) :
    Undermined payments s' i j where
  holding := (moves.progress_of_ne other.symm).trans holding
  owner := by rw [moves.owner, content, Function.update_self]
  present := by
    rw [← content, moves.own]
    rfl

theorem Undermined.moves {k : ι} {p : Progress} (und : Undermined payments s i j)
    (moves : Moves payments s s' k p) (other : k ≠ i)
    (content : (payments k).fingerprint ≠ (payments i).fingerprint) :
    Undermined payments s' i j where
  holding := (moves.progress_of_ne other.symm).trans und.holding
  owner := by rw [moves.owner, Function.update_of_ne content.symm, und.owner]
  present := by rw [moves.others _ content.symm, und.present]

/-- The next step of `i` is refused, and then it is about to give back what `j` holds. -/
theorem Undermined.not_rollsBackOwn (und : Undermined payments s i j) (other : j ≠ i)
    (live : s.replay.isLive (payments i).id (payments i).now = true) :
    ¬RollsBackOwn payments (s.advance payments i) := by
  intro rollsBack
  have own := rollsBack.own i
  rw [State.advance_of_isLive und.holding live] at own
  have owner := own (Function.update_self ..) und.present
  exact other (Option.some.inj (und.owner.symm.trans owner))

omit [DecidableEq ι] in
theorem Undermined.ne_idle (und : Undermined payments s i j) : s.progress i ≠ .idle := by
  rw [und.holding]
  nofun

theorem Undermined.refused (und : Undermined payments s i j)
    (live : s.replay.isLive (payments i).id (payments i).now = true) :
    (s.advance payments i).progress i = .refused := by
  rw [State.advance_of_isLive und.holding live]
  exact Function.update_self ..

theorem Undermined.giveBack (und : Undermined payments s i j) (other : j ≠ i)
    (live : s.replay.isLive (payments i).id (payments i).now = true) :
    ((s.advance payments i).advance payments i).content.ledger.find? (payments i).fingerprint =
        none ∧
      ((s.advance payments i).advance payments i).progress j = s.progress j ∧
      ((s.advance payments i).advance payments i).clock = s.clock := by
  rw [State.advance_of_refused (und.refused live), State.advance_of_isLive und.holding live]
  refine ⟨Ledger.find?_erase_self _ _, ?_, rfl⟩
  exact (Function.update_of_ne other ..).trans (Function.update_of_ne other ..)

theorem Clash.undermined_of_self (clash : Clash payments i j j) :
    let s := (((State.empty ι 3 ⟨0, 3⟩).advance payments i).advance payments j).advance payments j
    Midway payments s [j, i] ∧ Undermined payments s i j ∧ s.progress j = .accepted ∧
      s.replay.isLive (payments i).id (payments i).now = true := by
  obtain ⟨mid, moves, replay⟩ := (midway_empty payments).take (follows_nil payments i) (by simp)
  obtain ⟨mid, moves', recorded⟩ := mid.complete clash.follows (by simp) (by rw [replay]; rfl)
  refine ⟨mid, undermined_of_moves moves.holding moves' clash.ne clash.content, ?_, ?_⟩
  · rw [moves'.progress, Function.update_self]
  · exact clash.id ▸ recorded _ clash.early

theorem Clash.loses_content (clash : Clash payments i j j) :
    let s := [i, j, j, i, i].foldl (·.advance payments ·) (.empty ι 3 ⟨0, 3⟩)
    Reachable payments 3 ⟨0, 3⟩ s ∧ s.progress j = .accepted ∧ s.clock < (payments j).expires ∧
      (∀ t, s.content.isConsumed (payments j).fingerprint t = false) ∧
      ¬RollsBackOwn payments s := by
  obtain ⟨mid, undermined, accepted, live⟩ := clash.undermined_of_self
  obtain ⟨absent, progress, clock⟩ := undermined.giveBack clash.ne live
  have early : ∀ m ∈ [j, i], (payments m).now ≤ (payments j).now := by
    simpa using clash.notBefore
  have begun := mid.reachable.advance_of_ne_idle i undermined.ne_idle
  have reachable := begun.advance_of_ne_idle i (by
    rw [undermined.refused live]
    nofun)
  have unexpired := clock.trans_lt ((mid.clock _ early).trans_lt (payments j).unexpired)
  have lost := fun t => (Ledger.isLive_eq_false _ _ t).mpr fun e found =>
    absurd (absent.symm.trans (clash.content ▸ found)) (Option.some_ne_none e).symm
  refine ⟨reachable, progress.trans accepted, unexpired, lost, fun rollsBack => ?_⟩
  have kept := rollsBack.consumed j (progress.trans accepted) _ le_rfl unexpired
  exact Bool.false_ne_true ((lost _).symm.trans kept)

/-- In some interleaving of recordings that clash, one is about to give back what another holds: `i`
begins before `j`, and `k` is completed without interruption when its time has come. -/
theorem Clash.exists_undermined {k : ι} (clash : Clash payments i j k) :
    ∃ s, Reachable payments 3 ⟨0, 3⟩ s ∧ Undermined payments s i j ∧
      s.replay.isLive (payments i).id (payments i).now = true := by
  have live {s : State ι}
      (recorded : ∀ t, t < (payments k).expires → s.replay.isLive (payments k).id t = true) :
      s.replay.isLive (payments i).id (payments i).now = true :=
    clash.id ▸ recorded _ clash.early
  have first := follows_nil payments i
  have empty := midway_empty payments
  rcases clash.taker with rfl | content
  · obtain ⟨mid, undermined, _, live⟩ := clash.undermined_of_self
    exact ⟨_, mid.reachable, undermined, live⟩
  · have others : k ≠ i := by
      rintro rfl
      exact content rfl
    have content' : (payments k).fingerprint ≠ (payments j).fingerprint := by
      rw [clash.content]
      exact content
    have others' : k ≠ j := by
      rintro rfl
      exact content' rfl
    rcases le_total (payments k).now (payments i).now with early | late
    · obtain ⟨mid, moves, recorded⟩ := empty.complete (follows_nil payments k) (by simp) rfl
      have follows := first.cons others.symm early fun same => absurd same content
      obtain ⟨mid, moves, replay⟩ := mid.take follows (by simp)
      have follows := ((follows_nil payments j).cons others'.symm (early.trans clash.notBefore)
        fun same => absurd same content').cons clash.ne clash.notBefore fun _ => clash.expired
      obtain ⟨mid, moves', replay'⟩ := mid.take follows (by simp)
      refine ⟨_, mid.reachable, undermined_of_moves moves.holding moves' clash.ne clash.content, ?_⟩
      rw [replay', replay]
      exact live recorded
    obtain ⟨mid, moves, replay⟩ := empty.take first (by simp)
    have middle := (follows_nil payments k).cons others late fun same => absurd same.symm content
    rcases le_total (payments k).now (payments j).now with early | later
    · obtain ⟨mid, moves₂, recorded⟩ := mid.complete middle (by simp) (by rw [replay]; rfl)
      have follows := clash.follows.cons others'.symm early fun same => absurd same content'
      obtain ⟨mid, moves', replay'⟩ := mid.take follows (by simp)
      have holding := (moves₂.progress_of_ne others.symm).trans moves.holding
      refine ⟨_, mid.reachable, undermined_of_moves holding moves' clash.ne clash.content, ?_⟩
      rw [replay']
      exact live recorded
    · obtain ⟨mid, moves', replay'⟩ := mid.take clash.follows (by simp)
      have follows := middle.cons others' later fun same => absurd same.symm content'
      obtain ⟨mid, moves₃, recorded⟩ := mid.complete follows (by simp)
        (by rw [replay', replay]; rfl)
      have undermined := undermined_of_moves moves.holding moves' clash.ne clash.content
      exact ⟨_, mid.reachable, undermined.moves moves₃ others content, live recorded⟩

/-- Content is given back by none but the recording that holds it, and stays consumed until what was
accepted for it expires, in every interleaving exactly if no recordings clash. -/
theorem rollsBackOwn_iff (payments : ι → AdmittedPayment) :
    (∀ bound settings s, Reachable payments bound settings s → RollsBackOwn payments s) ↔
      ∀ i j k, ¬Clash payments i j k := by
  constructor
  · intro own i j k clash
    obtain ⟨s, reachable, undermined, live⟩ := clash.exists_undermined
    exact undermined.not_rollsBackOwn clash.ne live
      (own 3 ⟨0, 3⟩ _ (reachable.advance_of_ne_idle i undermined.ne_idle))
  · intro apart bound settings s reachable
    obtain ⟨holdings, records⟩ := invariant_of_reachable apart reachable
    exact rollsBackOwn_of_invariant holdings records apart

end Concurrent

namespace Sample

def contenders : Bool → AdmittedPayment
  | false => ⟨bundle.payment, ⟨1999⟩, by decide⟩
  | true => ⟨{ bundle.payment with header := { bundle.payment.header with expires := ⟨3000⟩ } },
      ⟨2000⟩, by decide⟩

/-- The second is accepted after the first took up the content, and then the first gives it back. -/
def race : Concurrent.State Bool :=
  [false, true, true, false, false].foldl (·.advance contenders ·) (.empty Bool 3 ⟨0, 3⟩)

end Sample

namespace Concurrent

/-- The content of an accepted payment is not consumed, long before that expires. -/
theorem race_loses_content :
    Reachable Sample.contenders 3 ⟨0, 3⟩ Sample.race ∧ Sample.race.progress true = .accepted ∧
      Sample.race.clock < (Sample.contenders true).expires ∧
      (∀ t, Sample.race.content.isConsumed (Sample.contenders true).fingerprint t = false) ∧
      ¬RollsBackOwn Sample.contenders Sample.race := by
  have content : (Sample.contenders true).fingerprint = (Sample.contenders false).fingerprint :=
    congrArg Json.fingerprint (PaymentMandate.content_eq_of_sameContent (by decide))
  have clash : Clash Sample.contenders false true true :=
    ⟨content, by decide, rfl, by decide, .inl rfl⟩
  unfold Sample.race
  exact clash.loses_content

end Concurrent

end PaymentTrust
