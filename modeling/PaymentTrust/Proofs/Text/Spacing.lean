import PaymentTrust.Proofs.Text.Split

/-! Words with blanks of ASCII between them. The words of a text are those that it is written of,
however many blanks there are and whichever they are. -/
namespace PaymentTrust.Text

def IsWord (word : List Char) : Prop :=
  word ≠ [] ∧ ∀ c ∈ word, isAsciiBlank c = false

/-- The words, in their order, with at least one blank between any two of them. There may be blanks
around them too. -/
inductive Spaced : List (List Char) → List Char → Prop where
  | nil : Spaced [] []
  | blank {c : Char} {list : List (List Char)} {text : List Char} (blank : isAsciiBlank c = true)
      (rest : Spaced list text) : Spaced list (c :: text)
  | last {word : List Char} (isWord : IsWord word) : Spaced [word] word
  | word {word : List Char} {c : Char} {list : List (List Char)} {text : List Char}
      (isWord : IsWord word) (blank : isAsciiBlank c = true) (rest : Spaced list text) :
      Spaced (word :: list) (word ++ c :: text)

theorem words_cons_blank {c : Char} (blank : isAsciiBlank c = true) (text : List Char) :
    words (c :: text) = words text :=
  words_append_blank blank [] text

theorem Spaced.words_eq {list : List (List Char)} {text : List Char} (spaced : Spaced list text) :
    words text = list := by
  induction spaced with
  | nil => rfl
  | blank blank _ ih => rw [words_cons_blank blank, ih]
  | last isWord => exact words_eq_singleton isWord.1 isWord.2
  | word isWord blank _ ih =>
    rw [words_append_blank blank, words_eq_singleton isWord.1 isWord.2, ih, List.singleton_append]

theorem spaced_words (text : List Char) : Spaced (words text) text := by
  -- The text up to its first blank is a word, unless it is empty.
  have unbroken : ∀ c ∈ text.takeWhile (!isAsciiBlank ·), isAsciiBlank c = false :=
    fun c mem => by simpa using List.all_eq_true.mp List.all_takeWhile c mem
  have cut := List.takeWhile_append_dropWhile (p := (!isAsciiBlank ·)) (l := text)
  generalize text.takeWhile (!isAsciiBlank ·) = word at unbroken cut
  cases hrest : text.dropWhile (!isAsciiBlank ·) with
  | nil =>
    rw [hrest, List.append_nil] at cut
    subst cut
    by_cases empty : word = []
    · subst empty
      exact .nil
    · rw [words_eq_singleton empty unbroken]
      exact .last ⟨empty, unbroken⟩
  | cons c rest =>
    have blank : isAsciiBlank c = true := by
      have stopped := List.head?_dropWhile_not (!isAsciiBlank ·) text
      simpa [hrest] using stopped
    have shorter : rest.length < text.length := by
      have dropped := (List.dropWhile_sublist (!isAsciiBlank ·) (l := text)).length_le
      rw [hrest, List.length_cons] at dropped
      omega
    have later := spaced_words rest
    rw [hrest] at cut
    rw [← cut, words_append_blank blank]
    by_cases empty : word = []
    · subst empty
      exact .blank blank later
    · rw [words_eq_singleton empty unbroken]
      exact .word ⟨empty, unbroken⟩ blank later
termination_by text.length

theorem words_eq_iff_spaced {text : List Char} {list : List (List Char)} :
    words text = list ↔ Spaced list text :=
  ⟨fun h => h ▸ spaced_words text, Spaced.words_eq⟩

theorem Spaced.blank_or_mem_word {list : List (List Char)} {text : List Char}
    (spaced : Spaced list text) {c : Char} (mem : c ∈ text) :
    isAsciiBlank c = true ∨ ∃ word ∈ list, c ∈ word := by
  induction spaced with
  | nil => cases mem
  | blank blank _ ih =>
    rcases List.mem_cons.mp mem with rfl | mem
    · exact .inl blank
    · exact ih mem
  | last _ => exact .inr ⟨_, List.mem_cons_self, mem⟩
  | word _ blank _ ih =>
    rcases List.mem_append.mp mem with mem | mem
    · exact .inr ⟨_, List.mem_cons_self, mem⟩
    · rcases List.mem_cons.mp mem with rfl | mem
      · exact .inl blank
      · exact (ih mem).imp_right fun ⟨_, hword, hc⟩ => ⟨_, List.mem_cons_of_mem _ hword, hc⟩

theorem Spaced.not_mem {list : List (List Char)} {text text' : List Char} {mark : Char}
    (spaced : Spaced list text) (spaced' : Spaced list text') (unmarked : mark ∉ text)
    (unblank : isAsciiBlank mark = false) : mark ∉ text' := by
  intro mem
  rcases spaced'.blank_or_mem_word mem with blank | ⟨word, hword, hmark⟩
  · exact Bool.false_ne_true (unblank.symm.trans blank)
  · rw [← spaced.words_eq] at hword
    exact unmarked ((mem_words hword).2 mark hmark).2

end PaymentTrust.Text
