import PaymentTrust.Text.Blank

/-! What cutting a text into parts says about it: the parts, with their separators, are the text, and
no part has a separator in it. -/
namespace PaymentTrust.Text

theorem splitFirst_eq_some_iff {mark : Char} {text before after : List Char} :
    splitFirst mark text = some (before, after) ↔
      mark ∉ before ∧ text = before ++ mark :: after := by
  induction text generalizing before with
  | nil => simp [splitFirst]
  | cons c text ih =>
    unfold splitFirst
    cases before with
    | nil => by_cases hc : c = mark <;> simp [hc]
    | cons d before =>
      by_cases hc : c = mark
      · simp only [hc, if_true, List.mem_cons, List.cons_append, List.cons.injEq]
        grind
      · simp only [hc, if_false, Option.map_eq_some_iff, Prod.exists, Prod.mk.injEq,
          List.cons.injEq, List.mem_cons, List.cons_append]
        grind

/-- What stands before the first mark, and what stands after it, are told by the whole. -/
theorem cut_inj {mark : Char} {before before' after after' : List Char} (absent : mark ∉ before)
    (absent' : mark ∉ before') (h : before ++ mark :: after = before' ++ mark :: after') :
    before = before' ∧ after = after' := by
  have cut : splitFirst mark (before ++ mark :: after) = some (before, after) :=
    splitFirst_eq_some_iff.mpr ⟨absent, rfl⟩
  rw [splitFirst_eq_some_iff.mpr ⟨absent', h⟩] at cut
  exact (Prod.mk.inj (Option.some.inj cut)).imp Eq.symm Eq.symm

section

variable {p : Char → Bool}

theorem splitAll_eq_splitOnP (p : Char → Bool) (text : List Char) :
    splitAll p text = text.splitOnP p := by
  induction text with
  | nil => rfl
  | cons c text ih =>
    rw [splitAll, ih, List.splitOnP_cons_eq_if_modifyHead]
    split
    · rfl
    · cases h : text.splitOnP p with
      | nil => exact absurd h (List.splitOnP_ne_nil p text)
      | cons piece pieces => rfl

theorem splitAll_eq_splitOn (mark : Char) (text : List Char) :
    splitAll (· = mark) text = text.splitOn mark := by
  rw [splitAll_eq_splitOnP, List.splitOn_eq_splitOnP]
  rfl

theorem splitAll_ne_nil (p : Char → Bool) (text : List Char) : splitAll p text ≠ [] :=
  splitAll_eq_splitOnP p text ▸ List.splitOnP_ne_nil p text

theorem mem_splitAll {text piece : List Char} (mem : piece ∈ splitAll p text) :
    ∀ c ∈ piece, p c = false ∧ c ∈ text := by
  induction text generalizing piece with
  | nil =>
    obtain rfl := List.mem_singleton.mp mem
    nofun
  | cons d text ih =>
    have later : ∀ {piece}, piece ∈ splitAll p text → ∀ c ∈ piece, p c = false ∧ c ∈ d :: text :=
      fun mem c hc => (ih mem c hc).imp_right (List.mem_cons_of_mem d)
    unfold splitAll at mem
    by_cases hd : p d = true
    · rw [if_pos hd] at mem
      rcases List.mem_cons.mp mem with rfl | mem
      · nofun
      · exact later mem
    · have own : p d = false ∧ d ∈ d :: text := ⟨by simpa using hd, List.mem_cons_self⟩
      rw [if_neg hd] at mem
      cases hsplit : splitAll p text with
      | nil =>
        rw [hsplit] at mem
        obtain rfl := List.mem_singleton.mp mem
        exact List.forall_mem_singleton.mpr own
      | cons first rest =>
        rw [hsplit] at mem later
        rcases List.mem_cons.mp mem with rfl | mem
        · exact List.forall_mem_cons.mpr ⟨own, later List.mem_cons_self⟩
        · exact later (List.mem_cons_of_mem first mem)

end

theorem intercalate_cons {α : Type} (mark : α) (first : List α) (rest : List (List α)) :
    [mark].intercalate (first :: rest) = first ++ rest.flatMap (mark :: ·) := by
  induction rest generalizing first with
  | nil => rw [List.intercalate_singleton, List.flatMap_nil, List.append_nil]
  | cons next rest ih =>
    rw [List.intercalate_cons_cons, ih, List.flatMap_cons, List.append_assoc]
    rfl

theorem mem_intercalate_iff {mark c : Char} {parts : List (List Char)} (other : c ≠ mark) :
    c ∈ [mark].intercalate parts ↔ ∃ part ∈ parts, c ∈ part := by
  cases parts with
  | nil => simp
  | cons first rest => simp [intercalate_cons, other]

theorem splitAll_eq_cons_iff {mark : Char} {text first : List Char} {rest : List (List Char)} :
    splitAll (· = mark) text = first :: rest ↔
      text = first ++ rest.flatMap (mark :: ·) ∧ ∀ piece ∈ first :: rest, mark ∉ piece := by
  rw [← intercalate_cons]
  constructor
  · intro h
    refine ⟨?_, fun piece mem hmark => ?_⟩
    · rw [← h, splitAll_eq_splitOn, List.intercalate_splitOn]
    · exact of_decide_eq_false (mem_splitAll (h ▸ mem) mark hmark).1 rfl
  · rintro ⟨rfl, unmarked⟩
    rw [splitAll_eq_splitOn, List.splitOn_intercalate mark unmarked (List.cons_ne_nil first rest)]

theorem eq_of_flatMap_eq {mark : Char} {pieces pieces' : List (List Char)}
    (h : pieces.flatMap (mark :: ·) = pieces'.flatMap (mark :: ·))
    (unmarked : ∀ piece ∈ pieces, mark ∉ piece) (unmarked' : ∀ piece ∈ pieces', mark ∉ piece) :
    pieces = pieces' := by
  cases pieces with
  | nil =>
    cases pieces' with
    | nil => rfl
    | cons first rest => cases h
  | cons first rest =>
    cases pieces' with
    | nil => cases h
    | cons first' rest' =>
      rw [List.flatMap_cons, List.flatMap_cons, List.cons_append, List.cons_append] at h
      rw [← splitAll_eq_cons_iff.mpr ⟨rfl, unmarked⟩,
        ← splitAll_eq_cons_iff.mpr ⟨rfl, unmarked'⟩, (List.cons.inj h).2]

theorem mem_words {text word : List Char} (mem : word ∈ words text) :
    word ≠ [] ∧ ∀ c ∈ word, isAsciiBlank c = false ∧ c ∈ text := by
  obtain ⟨mem, nonempty⟩ := List.mem_filter.mp mem
  exact ⟨by simpa using nonempty, mem_splitAll mem⟩

theorem words_append_blank {c : Char} (blank : isAsciiBlank c = true) (text rest : List Char) :
    words (text ++ c :: rest) = words text ++ words rest := by
  simp only [words, splitAll_eq_splitOnP, List.splitOnP_append_cons _ _ blank, List.filter_append]

theorem words_eq_singleton {word : List Char} (nonempty : word ≠ [])
    (unbroken : ∀ c ∈ word, isAsciiBlank c = false) : words word = [word] := by
  rw [words, splitAll_eq_splitOnP, List.splitOnP_eq_singleton unbroken]
  simp [nonempty]

theorem words_intercalate {list : List (List Char)}
    (unbroken : ∀ word ∈ list, word ≠ [] ∧ ∀ c ∈ word, isAsciiBlank c = false) :
    words ([' '].intercalate list) = list := by
  induction list with
  | nil => rfl
  | cons word list ih =>
    obtain ⟨first, rest⟩ := List.forall_mem_cons.mp unbroken
    have single := words_eq_singleton first.1 first.2
    cases list with
    | nil => simpa using single
    | cons next list =>
      rw [List.intercalate_cons_cons, List.append_assoc, List.singleton_append,
        words_append_blank rfl, single, ih rest, List.singleton_append]

theorem mem_of_mem_trim {text : List Char} {c : Char} (mem : c ∈ trim text) : c ∈ text := by
  rw [trim, trimBy, List.mem_reverse] at mem
  have inner := (List.dropWhile_sublist isBlank).subset mem
  exact (List.dropWhile_sublist isBlank).subset (List.mem_reverse.mp inner)

section

variable {α : Type} {p : α → Bool}

theorem exists_trimBy (p : α → Bool) (text : List α) : ∃ before after,
    text = before ++ trimBy p text ++ after ∧ (∀ c ∈ before, p c = true) ∧
      ∀ c ∈ after, p c = true := by
  have drops (part : List α) : ∀ c ∈ part.takeWhile p, p c = true :=
    List.all_eq_true.mp List.all_takeWhile
  refine ⟨text.takeWhile p, ((text.dropWhile p).reverse.takeWhile p).reverse, ?_, drops text,
    fun c mem => drops _ c (List.mem_reverse.mp mem)⟩
  rw [trimBy, List.append_assoc, ← List.reverse_append, List.takeWhile_append_dropWhile,
    List.reverse_reverse, List.takeWhile_append_dropWhile]

theorem trimBy_append {before text after : List α} (hbefore : ∀ c ∈ before, p c = true)
    (htext : ∀ c ∈ text, p c = false) (hafter : ∀ c ∈ after, p c = true) :
    trimBy p (before ++ text ++ after) = text := by
  have hkeep {part : List α} (h : ∀ c ∈ part, p c = false) : part.dropWhile p = part := by
    cases part with
    | nil => rfl
    | cons c part =>
      exact List.dropWhile_cons_of_neg (Bool.eq_false_iff.mp (h c List.mem_cons_self))
  have htext' : ∀ c ∈ text.reverse, p c = false :=
    fun c mem => htext c (List.mem_reverse.mp mem)
  have hafter' : ∀ c ∈ after.reverse, p c = true :=
    fun c mem => hafter c (List.mem_reverse.mp mem)
  rw [trimBy, List.append_assoc, List.dropWhile_append_of_pos hbefore, List.dropWhile_append,
    hkeep htext]
  cases text with
  | nil =>
    have hdrop : (after ++ []).dropWhile p = [] := List.dropWhile_append_of_pos hafter
    rw [List.append_nil] at hdrop
    simp [hdrop]
  | cons c text =>
    rw [List.isEmpty_cons, if_neg Bool.false_ne_true, List.reverse_append,
      List.dropWhile_append_of_pos hafter', hkeep htext', List.reverse_reverse]

end

theorem trim_append {before text after : List Char} (hbefore : ∀ c ∈ before, isBlank c = true)
    (htext : ∀ c ∈ text, isBlank c = false) (hafter : ∀ c ∈ after, isBlank c = true) :
    trim (before ++ text ++ after) = text :=
  trimBy_append hbefore htext hafter

theorem trim_eq_self {text : List Char} {first last : Char} (starts : text.head? = some first)
    (ends : text.getLast? = some last) (hfirst : isBlank first = false)
    (hlast : isBlank last = false) : trim text = text := by
  have front : text.dropWhile isBlank = text := by
    obtain ⟨rest, rfl⟩ := List.head?_eq_some_iff.mp starts
    exact List.dropWhile_cons_of_neg (Bool.eq_false_iff.mp hfirst)
  obtain ⟨rest, rfl⟩ := List.getLast?_eq_some_iff.mp ends
  rw [trim, trimBy, front, List.reverse_concat,
    List.dropWhile_cons_of_neg (Bool.eq_false_iff.mp hlast), List.reverse_cons, List.reverse_reverse]

end PaymentTrust.Text
