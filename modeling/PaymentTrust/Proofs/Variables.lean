import PaymentTrust.Proofs.Text.Split
import PaymentTrust.Settings

/-! References to variables in a text. Where every brace after a `$` closes and has a name before it,
the values of the variables that are set take the place of what refers to them, and nothing else
changes. Empty braces lose the closing one, and a brace that is left open is closed at the end. -/
namespace PaymentTrust.Variables

inductive Piece where
  | character (c : Char)
  | reference (braced : Bool) (name : List Char)

namespace Piece

def text : Piece → List Char
  | character c => [c]
  | reference false name => '$' :: name
  | reference true name => '$' :: '\x7b' :: (name ++ ['\x7d'])

def value (vars : Variables) : Piece → List Char
  | character c => [c]
  | reference braced name =>
    match vars.lookup (String.ofList name) with
    | some value => value.toList
    | none => (reference braced name).text

end Piece

/-- The text begins with a reference, after which comes the rest. A plain name is as long as it can
be; a name in braces ends where the next brace closes. -/
inductive Refers : (text : List Char) → (reference : Piece) → (rest : List Char) → Prop where
  | plain {name rest : List Char} (nonempty : name ≠ [])
      (named : ∀ c ∈ name, isNameChar c = true) (ends : ∀ c ∈ rest.head?, isNameChar c = false) :
      Refers ('$' :: (name ++ rest)) (.reference false name) rest
  | braced {name rest : List Char} (nonempty : name ≠ []) (unclosed : '\x7d' ∉ name) :
      Refers ('$' :: '\x7b' :: (name ++ '\x7d' :: rest)) (.reference true name) rest

/-- The pieces of a text from left to right. A character that begins no reference is its own. -/
inductive Scans : List Char → List Piece → Prop where
  | nil : Scans [] []
  | reference {text rest : List Char} {piece : Piece} {pieces : List Piece}
      (refers : Refers text piece rest) (later : Scans rest pieces) : Scans text (piece :: pieces)
  | character {c : Char} {rest : List Char} {pieces : List Piece}
      (own : ∀ piece after, ¬Refers (c :: rest) piece after) (later : Scans rest pieces) :
      Scans (c :: rest) (.character c :: pieces)

/-- The text has one reading, and the outcome is the text with the value of each reference that is set
in its place; so it is the text itself if none is. -/
structure Follows (vars : Variables) (text outcome : List Char) : Prop where
  replaced : ∃ pieces, (∀ other, Scans text other ↔ other = pieces) ∧
    outcome = pieces.flatMap (·.value vars)
  unchanged : (∀ pieces, Scans text pieces → ∀ braced name, .reference braced name ∈ pieces →
    vars.lookup (String.ofList name) = none) → outcome = text

/-- A brace stands after a `$` that begins no reference, and more comes after it: so it closes at once
or never. -/
def HasSlip (pieces : List Piece) : Prop :=
  ∃ front back, back ≠ [] ∧ pieces = front ++ .character '$' :: .character '\x7b' :: back

def Slips (text : List Char) : Prop :=
  ∃ pieces, Scans text pieces ∧ HasSlip pieces

variable {vars : Variables} {text rest name : List Char} {c : Char} {piece : Piece}
  {pieces : List Piece}

theorem isNameChar_brace : isNameChar '\x7b' = false := by
  decide

theorem Refers.exists_cons (h : Refers text piece rest) : ∃ tail, text = '$' :: tail := by
  cases h <;> exact ⟨_, rfl⟩

theorem Refers.length_lt (h : Refers text piece rest) : rest.length < text.length := by
  cases h <;> simp only [List.length_cons, List.length_append] <;> omega

theorem cut_while {p : Char → Bool} {front : List Char} (rest : List Char)
    (taken : ∀ c ∈ front, p c = true) (stops : ∀ c ∈ rest.head?, p c = false) :
    (front ++ rest).takeWhile p = front ∧ (front ++ rest).dropWhile p = rest := by
  rw [List.takeWhile_append_of_pos taken, List.dropWhile_append_of_pos taken]
  cases rest with
  | nil => simp
  | cons c rest => simp [stops c rfl]

theorem ne_brace_of_unclosed (unclosed : '\x7d' ∉ name) :
    ∀ c ∈ name, decide (c ≠ '\x7d') = true :=
  fun _ mem => decide_eq_true fun h => unclosed (h ▸ mem)

theorem append_ne_brace (nonempty : name ≠ []) (named : ∀ c ∈ name, isNameChar c = true)
    (tail : List Char) : name ++ rest ≠ '\x7b' :: tail := by
  cases name with
  | nil => exact absurd rfl nonempty
  | cons c name =>
    intro h
    obtain ⟨rfl, -⟩ := List.cons.inj h
    exact Bool.false_ne_true (isNameChar_brace.symm.trans (named _ List.mem_cons_self))

theorem Refers.unique {piece' : Piece} {rest' : List Char} (h : Refers text piece rest)
    (h' : Refers text piece' rest') : piece = piece' ∧ rest = rest' := by
  generalize htext : text = whole at h'
  cases h with
  | plain nonempty named ends =>
    cases h' with
    | plain _ named' ends' =>
      obtain ⟨-, same⟩ := List.cons.inj htext
      obtain ⟨hname, hrest⟩ := cut_while _ named ends
      obtain ⟨hname', hrest'⟩ := cut_while _ named' ends'
      rw [same] at hname hrest
      obtain rfl := hname.symm.trans hname'
      obtain rfl := hrest.symm.trans hrest'
      exact ⟨rfl, rfl⟩
    | braced => exact absurd (List.cons.inj htext).2 (append_ne_brace nonempty named _)
  | braced _ unclosed =>
    cases h' with
    | plain nonempty' named' =>
      exact absurd (List.cons.inj htext).2.symm (append_ne_brace nonempty' named' _)
    | braced _ unclosed' =>
      simp only [List.cons.injEq, true_and] at htext
      obtain ⟨rfl, rfl⟩ := Text.cut_inj unclosed unclosed' htext
      exact ⟨rfl, rfl⟩

theorem Scans.unique {pieces' : List Piece} (h : Scans text pieces) (h' : Scans text pieces') :
    pieces = pieces' := by
  induction h generalizing pieces' with
  | nil =>
    cases h' with
    | nil => rfl
    | reference refers => cases refers
  | reference refers _ ih =>
    cases h' with
    | nil => cases refers
    | reference refers' later' =>
      obtain ⟨rfl, rfl⟩ := refers.unique refers'
      rw [ih later']
    | character own' => exact absurd refers (own' _ _)
  | character own _ ih =>
    cases h' with
    | reference refers' => exact absurd refers' (own _ _)
    | character _ later' => rw [ih later']

theorem exists_scans (text : List Char) : ∃ pieces, Scans text pieces := by
  by_cases found : ∃ piece rest, Refers text piece rest
  · obtain ⟨piece, rest, refers⟩ := found
    have shorter := refers.length_lt
    obtain ⟨pieces, later⟩ := exists_scans rest
    exact ⟨piece :: pieces, .reference refers later⟩
  · match text with
    | [] => exact ⟨[], .nil⟩
    | c :: rest =>
      obtain ⟨pieces, later⟩ := exists_scans rest
      exact ⟨_, .character (fun piece after refers => found ⟨piece, after, refers⟩) later⟩
termination_by text.length

theorem Refers.text_append (h : Refers text piece rest) : piece.text ++ rest = text := by
  cases h with
  | plain => rfl
  | braced => simp [Piece.text]

theorem Scans.flatMap_text (h : Scans text pieces) : pieces.flatMap Piece.text = text := by
  induction h with
  | nil => rfl
  | reference refers _ ih => rw [List.flatMap_cons, ih, refers.text_append]
  | character _ _ ih => rw [List.flatMap_cons, ih]; rfl

theorem substitute_eq_value {braced : Bool} (nonempty : name ≠ []) :
    vars.substitute braced name = (Piece.reference braced name).value vars := by
  unfold substitute Piece.value
  cases name with
  | nil => exact absurd rfl nonempty
  | cons c name =>
    dsimp only
    cases vars.lookup (String.ofList (c :: name)) with
    | some value => rfl
    | none => cases braced <;> rfl

theorem expand_brace (vars : Variables) (rest : List Char) :
    vars.expand ('$' :: '\x7b' :: rest) = vars.substitute true (rest.takeWhile (· ≠ '\x7d')) ++
      vars.expand ((rest.dropWhile (· ≠ '\x7d')).drop 1) := by
  rw [expand]

theorem expand_dollar (other : ∀ tail, rest ≠ '\x7b' :: tail) :
    vars.expand ('$' :: rest) =
      vars.substitute false (rest.takeWhile isNameChar) ++ vars.expand (rest.dropWhile isNameChar) := by
  rw [expand]
  exact other

theorem expand_character (other : c ≠ '$') :
    vars.expand (c :: rest) = c :: vars.expand rest := by
  rw [expand]
  · exact fun _ h => absurd h other
  · exact other

theorem expand_of_refers (h : Refers text piece rest) :
    vars.expand text = piece.value vars ++ vars.expand rest := by
  cases h with
  | plain nonempty named ends =>
    obtain ⟨hname, hrest⟩ := cut_while _ named ends
    rw [expand_dollar (append_ne_brace nonempty named), hname, hrest,
      substitute_eq_value nonempty]
  | braced nonempty unclosed =>
    obtain ⟨hname, hrest⟩ := cut_while ('\x7d' :: rest) (ne_brace_of_unclosed unclosed)
      (by rintro _ ⟨⟩; rfl)
    rw [expand_brace, hname, hrest, substitute_eq_value nonempty]
    rfl

theorem expand_emptyBraces (vars : Variables) (rest : List Char) :
    vars.expand ('$' :: '\x7b' :: '\x7d' :: rest) = '$' :: '\x7b' :: vars.expand rest := by
  rw [expand_brace]
  rfl

theorem expand_unclosed (nonempty : name ≠ []) (unclosed : '\x7d' ∉ name) :
    vars.expand ('$' :: '\x7b' :: name) = (Piece.reference true name).value vars := by
  obtain ⟨taken, dropped⟩ := cut_while [] (ne_brace_of_unclosed unclosed) nofun
  rw [List.append_nil] at taken dropped
  rw [expand_brace, taken, dropped, List.drop_nil, expand, List.append_nil,
    substitute_eq_value nonempty]

theorem begins_none_iff : (∀ piece after, ¬Refers ('$' :: '\x7b' :: rest) piece after) ↔
    (∃ after, rest = '\x7d' :: after) ∨ '\x7d' ∉ rest := by
  constructor
  · intro own
    by_cases mem : '\x7d' ∈ rest
    · obtain ⟨name, after, rfl, unclosed⟩ := List.eq_append_cons_of_mem mem
      by_cases empty : name = []
      · subst empty
        exact .inl ⟨after, rfl⟩
      · exact absurd (.braced empty unclosed) (own _ _)
    · exact .inr mem
  · intro h piece after refers
    generalize htext : '$' :: '\x7b' :: rest = text at refers
    cases refers with
    | plain nonempty named =>
      exact append_ne_brace nonempty named _ (List.cons.inj htext).2.symm
    | @braced name _ nonempty unclosed =>
      obtain rfl := (List.cons.inj (List.cons.inj htext).2).2
      rcases h with ⟨after, h⟩ | never
      · cases name with
        | nil => exact nonempty rfl
        | cons c name =>
          obtain ⟨rfl, -⟩ := List.cons.inj h
          exact unclosed List.mem_cons_self
      · exact never (List.mem_append_right _ List.mem_cons_self)

theorem expand_of_own (own : ∀ piece after, ¬Refers (c :: rest) piece after)
    (other : c = '$' → ∀ tail, rest ≠ '\x7b' :: tail) :
    vars.expand (c :: rest) = c :: vars.expand rest := by
  by_cases hc : c = '$'
  · subst hc
    have cut := List.takeWhile_append_dropWhile (p := isNameChar) (l := rest)
    have unnamed : rest.takeWhile isNameChar = [] := by
      apply Decidable.byContradiction
      intro nonempty
      have ends : ∀ c ∈ (rest.dropWhile isNameChar).head?, isNameChar c = false := by
        intro c mem
        have stopped := List.head?_dropWhile_not isNameChar rest
        rw [Option.mem_def.mp mem] at stopped
        simpa using stopped
      have refers := Refers.plain nonempty (List.all_eq_true.mp List.all_takeWhile) ends
      rw [cut] at refers
      exact own _ _ refers
    have kept : rest.dropWhile isNameChar = rest := by
      rwa [unnamed] at cut
    rw [expand_dollar (other rfl), unnamed, kept]
    rfl
  · exact expand_character hc

theorem Scans.eq_nil (h : Scans text []) : text = [] := by
  cases h
  rfl

theorem Scans.exists_of_character (h : Scans text (.character c :: pieces)) :
    ∃ tail, text = c :: tail ∧ Scans tail pieces := by
  cases h with
  | reference refers => cases refers
  | character _ later => exact ⟨_, rfl, later⟩

theorem Scans.exists_of_brace (h : Scans ('\x7b' :: rest) pieces) :
    ∃ later, pieces = .character '\x7b' :: later ∧ Scans rest later := by
  cases h with
  | reference refers =>
    obtain ⟨tail, h⟩ := refers.exists_cons
    cases h
  | character _ later => exact ⟨_, rfl, later⟩

theorem hasSlip_cons_iff : HasSlip (piece :: pieces) ↔
    (piece = .character '$' ∧ ∃ back, back ≠ [] ∧ pieces = .character '\x7b' :: back) ∨
      HasSlip pieces := by
  constructor
  · rintro ⟨front, back, more, h⟩
    cases front with
    | nil =>
      obtain ⟨rfl, rfl⟩ := List.cons.inj h
      exact .inl ⟨rfl, back, more, rfl⟩
    | cons first front => exact .inr ⟨front, back, more, (List.cons.inj h).2⟩
  · rintro (⟨rfl, back, more, rfl⟩ | ⟨front, back, more, rfl⟩)
    · exact ⟨[], back, more, rfl⟩
    · exact ⟨piece :: front, back, more, rfl⟩

theorem HasSlip.length_lt (slip : HasSlip pieces) : 2 < pieces.length := by
  obtain ⟨front, back, more, rfl⟩ := slip
  have some := List.length_pos_iff.mpr more
  simp only [List.length_append, List.length_cons]
  omega

theorem Scans.expand_eq (h : Scans text pieces) (closed : ¬HasSlip pieces) :
    vars.expand text = pieces.flatMap (·.value vars) := by
  induction h with
  | nil => rw [expand, List.flatMap_nil]
  | reference refers _ ih =>
    rw [expand_of_refers refers, ih fun slip => closed (hasSlip_cons_iff.mpr (.inr slip)),
      List.flatMap_cons]
  | @character c rest pieces own later ih =>
    obtain ⟨first, hrest⟩ := not_or.mp (mt hasSlip_cons_iff.mpr closed)
    by_cases opens : c = '$' ∧ ∃ tail, rest = '\x7b' :: tail
    · -- Whatever came after the brace would make it a slip.
      obtain ⟨rfl, tail, rfl⟩ := opens
      obtain ⟨last, rfl, htail⟩ := later.exists_of_brace
      obtain rfl : last = [] := Decidable.byContradiction fun more => first ⟨rfl, last, more, rfl⟩
      obtain rfl := htail.eq_nil
      rw [expand_brace]
      simp [substitute, expand, Piece.value]
    · rw [expand_of_own own fun hc tail h => opens ⟨hc, tail, h⟩, ih hrest]
      rfl

/-! ### Where no variable is set -/

theorem Piece.value_nil (piece : Piece) : piece.value [] = piece.text := by
  cases piece <;> rfl

theorem exists_expand_nil_dollar (rest : List Char) :
    ∃ more, expand [] ('$' :: rest) = '$' :: more := by
  have substituted (braced : Bool) (name : List Char) :
      ∃ more, substitute [] braced name = '$' :: more := by
    cases braced <;> cases name <;> exact ⟨_, rfl⟩
  by_cases opens : ∃ tail, rest = '\x7b' :: tail
  · obtain ⟨tail, rfl⟩ := opens
    obtain ⟨more, h⟩ := substituted true (tail.takeWhile (· ≠ '\x7d'))
    rw [expand_brace, h]
    exact ⟨_, rfl⟩
  · obtain ⟨more, h⟩ := substituted false (rest.takeWhile isNameChar)
    rw [expand_dollar fun tail h => opens ⟨tail, h⟩, h]
    exact ⟨_, rfl⟩

/-- A brace that was dropped is not made up for by what comes after it. -/
theorem expand_nil_ne_brace (text : List Char) : expand [] text ≠ '\x7d' :: text := by
  induction text with
  | nil =>
    rw [expand]
    exact (List.cons_ne_nil _ _).symm
  | cons c rest ih =>
    intro h
    by_cases hc : c = '$'
    · subst hc
      obtain ⟨more, starts⟩ := exists_expand_nil_dollar rest
      rw [starts] at h
      cases h
    · rw [expand_character hc] at h
      obtain ⟨rfl, hrest⟩ := List.cons.inj h
      exact ih hrest

theorem Scans.expand_nil_ne (h : Scans text pieces) (slip : HasSlip pieces) :
    expand [] text ≠ text := by
  induction h with
  | nil => exact absurd slip.length_lt (by decide)
  | reference refers _ ih =>
    rcases hasSlip_cons_iff.mp slip with ⟨rfl, -⟩ | slip
    · cases refers
    · intro h
      rw [expand_of_refers refers, Piece.value_nil, ← refers.text_append] at h
      exact ih slip (List.append_cancel_left h)
  | @character c rest pieces own later ih =>
    by_cases opens : c = '$' ∧ ∃ tail, rest = '\x7b' :: tail
    · obtain ⟨rfl, tail, rfl⟩ := opens
      rcases begins_none_iff.mp own with ⟨after, rfl⟩ | unclosed
      · rw [expand_emptyBraces]
        simpa using expand_nil_ne_brace after
      · have nonempty : tail ≠ [] := by
          rintro rfl
          obtain ⟨last, rfl, htail⟩ := later.exists_of_brace
          cases htail with
          | nil => exact absurd slip.length_lt (by decide)
          | reference refers => cases refers
        rw [expand_unclosed nonempty unclosed, Piece.value_nil]
        intro h
        simpa [Piece.text] using congrArg List.length h
    · rw [expand_of_own own fun hc tail h => opens ⟨hc, tail, h⟩]
      rcases hasSlip_cons_iff.mp slip with ⟨hc, back, -, rfl⟩ | slip
      · obtain ⟨tail, rfl, -⟩ := later.exists_of_character
        exact absurd ⟨Piece.character.inj hc, tail, rfl⟩ opens
      · exact fun h => ih slip (List.cons.inj h).2

theorem Scans.flatMap_value (h : Scans text pieces) (unset : ∀ braced name,
    .reference braced name ∈ pieces → vars.lookup (String.ofList name) = none) :
    pieces.flatMap (·.value vars) = text := by
  have same : ∀ piece ∈ pieces, piece.value vars = piece.text := by
    intro piece mem
    cases piece with
    | character c => rfl
    | reference braced name => rw [Piece.value, unset braced name mem]
  rw [← h.flatMap_text, List.flatMap_def, List.map_congr_left same, ← List.flatMap_def]

theorem follows_of_not_slips (closed : ¬Slips text) : Follows vars text (vars.expand text) := by
  obtain ⟨pieces, scans⟩ := exists_scans text
  have one (other : List Piece) : Scans text other ↔ other = pieces :=
    ⟨fun h => h.unique scans, fun h => h ▸ scans⟩
  have replaced : vars.expand text = pieces.flatMap (·.value vars) :=
    scans.expand_eq fun slip => closed ⟨pieces, scans, slip⟩
  exact ⟨⟨pieces, one, replaced⟩,
    fun unset => replaced.trans (scans.flatMap_value (unset pieces scans))⟩

/-- A text is expanded as its references say, in every environment, exactly if no brace after a `$`
closes at once or never. Where one does, the text is changed although no variable is set. -/
theorem expand_follows_iff (text : List Char) :
    ((∀ vars, Follows vars text (expand vars text)) ↔ ¬Slips text) ∧
      (expand [] text = text ↔ ¬Slips text) := by
  have kept (h : Follows [] text (expand [] text)) : expand [] text = text :=
    h.unchanged fun _ _ _ _ _ => rfl
  have changed : expand [] text = text → ¬Slips text := by
    rintro same ⟨pieces, scans, slip⟩
    exact scans.expand_nil_ne slip same
  exact ⟨⟨fun h => changed (kept (h [])), fun closed vars => follows_of_not_slips closed⟩,
    changed, fun closed => kept (follows_of_not_slips closed)⟩

/-- A reference that is left open is replaced all the same. -/
theorem expand_open_reference :
    expand [("TTL", "30")] ('$' :: '\x7b' :: "TTL".toList) = "30".toList ∧
      ¬Follows [("TTL", "30")] ('$' :: '\x7b' :: "TTL".toList) "30".toList := by
  have unclosed : '\x7d' ∉ "TTL".toList := by decide
  refine ⟨(expand_unclosed (by decide) unclosed).trans (by decide), fun follows => ?_⟩
  obtain ⟨pieces, one, h⟩ := follows.replaced
  cases (one pieces).mpr rfl with
  | reference refers _ => exact begins_none_iff.mpr (.inr unclosed) _ _ refers
  | character _ _ => cases h

end PaymentTrust.Variables
