import Mathlib.Data.List.Perm.Basic
import PaymentTrust.Proofs.MessageSignature.RoundTrip
import PaymentTrust.Proofs.Text.Spacing

/-! The grammar of a signature input. From a header of a label, a list of components and segments of
parameters an input is read exactly if these are written as the grammar says, whatever the order of the
segments and the blanks between the components. -/
namespace PaymentTrust

namespace SignatureInput

namespace Parameter

/-- Whether the value is written as the parameter's is: a decimal numeral of the time, or the text
between double quotes. -/
def IsValue (value : List Char) : Parameter → Prop
  | created t | expires t => Numeral.Denotes value t.seconds
  | keyId s | algorithm s | nonce s | tag s => value = (quote s).toList ∧ Avoids ['"', '\\'] s

def IsWrittenAs (segment : String) (q : Parameter) : Prop :=
  ∃ value, segment.toList = q.name.toList ++ '=' :: value ∧ q.IsValue value

theorem isReadFrom_iff {q : Parameter} {value : List Char} :
    q.IsReadFrom value ↔ q.IsValue value := by
  cases q with
  | created t | expires t => exact Numeral.read?_eq_some_iff
  | keyId s | algorithm s | nonce s | tag s => exact Iff.rfl

theorem isSpelled_iff {q : Parameter} {segment : String} :
    q.IsSpelled segment.toList ↔ q.IsWrittenAs segment := by
  simp only [IsSpelled, IsWrittenAs, isReadFrom_iff]

theorem getLast?_of_isValue {q : Parameter} {value : List Char} (isValue : q.IsValue value) :
    ∃ c, value.getLast? = some c ∧ Text.isBlank c = false := by
  cases q with
  | created t | expires t =>
    obtain ⟨c, ends, isDigit⟩ := Numeral.Denotes.getLast? isValue
    exact ⟨c, ends, Label.isBlank_eq_false (.inl (by simp [Char.isAlphanum, isDigit]))⟩
  | keyId s | algorithm s | nonce s | tag s =>
    obtain ⟨rfl, -⟩ := isValue
    exact ⟨'"', by rw [toList_quote, ← List.cons_append, List.getLast?_concat], by decide⟩

theorem getLast?_of_isWrittenAs {q : Parameter} {segment : String}
    (written : q.IsWrittenAs segment) :
    ∃ c, segment.toList.getLast? = some c ∧ Text.isBlank c = false := by
  obtain ⟨value, text, isValue⟩ := written
  obtain ⟨c, ends, unblank⟩ := getLast?_of_isValue isValue
  obtain ⟨before, rfl⟩ := List.getLast?_eq_some_iff.mp ends
  refine ⟨c, ?_, unblank⟩
  rw [text, ← List.cons_append, ← List.append_assoc, List.getLast?_concat]

end Parameter

namespace Parameters

theorem not_holds_of_gains {p p' : Parameters} {q : Parameter} (gained : p.Gains p' q) :
    ¬p.Holds q := by
  cases q
  all_goals
    obtain ⟨vacant, rfl⟩ := gained
    simp [Holds, vacant]

/-- A parameter takes its own place only, so the two of them may come in either order. -/
theorem Gains.swap {p p₁ p₂ : Parameters} {q r : Parameter} (first : p.Gains p₁ q)
    (second : p₁.Gains p₂ r) : ∃ p₁', p.Gains p₁' r ∧ p₁'.Gains p₂ q := by
  cases q
  all_goals
    obtain ⟨vacant, rfl⟩ := first
    cases r
    all_goals
      obtain ⟨vacant', rfl⟩ := second
      -- A second value of the same parameter would find its place taken.
      first
      | exact absurd vacant' (Option.some_ne_none _)
      | exact ⟨_, ⟨vacant', rfl⟩, vacant, rfl⟩

theorem gainsAll_of_perm {p p' : Parameters} {qs rs : List Parameter} (perm : qs.Perm rs)
    (gained : p.GainsAll p' qs) : p.GainsAll p' rs := by
  induction perm generalizing p with
  | nil => exact gained
  | cons q _ ih =>
    obtain ⟨p₁, first, rest⟩ := gained
    exact ⟨p₁, first, ih rest⟩
  | swap r q _ =>
    obtain ⟨p₁, first, p₂, second, rest⟩ := gained
    obtain ⟨p₁', second, first⟩ := first.swap second
    exact ⟨p₁', second, p₂, first, rest⟩
  | trans _ _ ih ih' => exact ih' (ih gained)

theorem nodup_of_gainsAll {p p' : Parameters} {qs : List Parameter} (gained : p.GainsAll p' qs) :
    qs.Nodup ∧ ∀ q ∈ qs, ¬p.Holds q := by
  induction qs generalizing p with
  | nil => exact ⟨List.nodup_nil, nofun⟩
  | cons q qs ih =>
    obtain ⟨p₁, first, rest⟩ := gained
    obtain ⟨nodup, unheld⟩ := ih rest
    have held (r : Parameter) := holds_of_gains (r := r) first
    refine ⟨List.nodup_cons.mpr ⟨fun mem => unheld q mem ((held q).mpr (.inl rfl)), nodup⟩, ?_⟩
    exact List.forall_mem_cons.mpr
      ⟨not_holds_of_gains first, fun r mem own => unheld r mem ((held r).mpr (.inr own))⟩

theorem gainsAll_toParameters_iff {i : SignatureInput} {qs : List Parameter} :
    empty.GainsAll i.toParameters qs ↔ qs.Perm i.parameters := by
  constructor
  · intro gained
    refine (List.perm_ext_iff_of_nodup (nodup_of_gainsAll gained).1
      (nodup_of_gainsAll i.gainsAll_parameters).1).mpr fun q => ?_
    rw [← holds_toParameters, holds_of_gainsAll gained, or_iff_left (not_holds_empty q)]
  · exact fun perm => gainsAll_of_perm perm.symm i.gainsAll_parameters

end Parameters

def assemble (label list : String) (segments : List String) : String :=
  label ++ "=(" ++ list ++ ")" ++ String.join (segments.map (";" ++ ·))

/-- Whether the parts of a header are written for the input: a valid label, quoted names with blanks
between them, and one segment for each of the parameters, in any order. -/
structure IsWrittenAs (i : SignatureInput) (label list : String) (segments : List String) :
    Prop where
  label_eq : i.label = label
  label : Label.IsValid label
  list : Text.Spaced (i.components.map fun name => (quote name).toList) list.toList
  components : ∀ name ∈ i.components, name ≠ "" ∧ Avoids ['"', '\\'] name
  segments : ∃ qs, qs.Perm i.parameters ∧
    List.Forall₂ (fun segment q => Parameter.IsWrittenAs segment q) segments qs

theorem toList_assemble (label list : String) (segments : List String) :
    (assemble label list segments).toList = label.toList ++ '=' :: '(' :: (list.toList ++ ')' ::
      (segments.map String.toList).flatMap (';' :: ·)) := by
  simp [assemble, String.toList_append, List.flatMap_map]

theorem parseComponents_eq_ok_iff_spaced {list : List Char} {names : List String} :
    parseComponents list = .ok names ↔
      Text.Spaced (names.map fun name => (quote name).toList) list ∧
        ∀ name ∈ names, name ≠ "" ∧ Avoids ['"', '\\'] name := by
  rw [parseComponents_eq_ok_iff, Text.words_eq_iff_spaced]

theorem foldlM_add_toParameters_iff {i : SignatureInput} {segments : List String} :
    (segments.map String.toList).foldlM Parameters.add .empty = .ok i.toParameters ↔
      ∃ qs, qs.Perm i.parameters ∧
        List.Forall₂ (fun segment q => Parameter.IsWrittenAs segment q) segments qs := by
  simp only [Parameters.foldlM_add_eq_ok_iff, List.forall₂_map_left_iff, Parameter.isSpelled_iff,
    Parameters.gainsAll_toParameters_iff, and_comm]

namespace IsWrittenAs

variable {i : SignatureInput} {label list : String} {segments : List String}

theorem isReadFrom (written : i.IsWrittenAs label list segments) (unclosed : ')' ∉ list.toList)
    (unbroken : ∀ segment ∈ segments, ';' ∉ segment.toList) :
    i.IsReadFrom (assemble label list segments).toList list.toList
      (segments.map String.toList) where
  text_eq := written.label_eq ▸ toList_assemble label list segments
  label := written.label_eq ▸ written.label
  unclosed := unclosed
  unbroken := List.forall_mem_map.mpr unbroken
  components := parseComponents_eq_ok_iff_spaced.mpr ⟨written.list, written.components⟩
  parameters := foldlM_add_toParameters_iff.mpr written.segments

theorem trim_assemble (written : i.IsWrittenAs label list segments) :
    Text.trim (assemble label list segments).toList = (assemble label list segments).toList := by
  obtain ⟨first, rest, hlabel, hfirst⟩ := written.label.exists_cons
  have starts : (assemble label list segments).toList.head? = some first := by
    rw [toList_assemble, hlabel]
    rfl
  obtain ⟨qs, perm, spelled⟩ := written.segments
  obtain ⟨before, final, rfl⟩ : ∃ before final, segments = before ++ [final] := by
    rcases List.eq_nil_or_concat segments with rfl | ⟨before, final, rfl⟩
    · obtain rfl := List.forall₂_nil_left_iff.mp spelled
      cases perm.length_eq
    · exact ⟨before, final, List.concat_eq_append⟩
  obtain ⟨q, -, hfinal⟩ := exists_mem_of_forall₂ spelled.flip (List.mem_concat_self (a := final))
  obtain ⟨last, ends, hlast⟩ := Parameter.getLast?_of_isWrittenAs hfinal
  obtain ⟨value, hvalue⟩ := List.getLast?_eq_some_iff.mp ends
  have ends : (assemble label list (before ++ [final])).toList.getLast? = some last := by
    simp only [toList_assemble, List.map_append, List.map_cons, List.map_nil, List.flatMap_append,
      List.flatMap_cons, List.flatMap_nil, List.append_nil, hvalue]
    simp only [← List.cons_append, ← List.append_assoc, List.getLast?_concat]
  exact Text.trim_eq_self starts ends hfirst hlast

theorem parse_eq_ok (written : i.IsWrittenAs label list segments) (unclosed : ')' ∉ list.toList)
    (unbroken : ∀ segment ∈ segments, ';' ∉ segment.toList) :
    parse (assemble label list segments) = .ok i :=
  parse_eq_ok_iff.mpr ⟨_, _, written.trim_assemble.symm ▸ written.isReadFrom unclosed unbroken⟩

theorem rearrange (written : i.IsWrittenAs label list segments) {segments' : List String}
    (perm : segments'.Perm segments) {words : List (List Char)} {list' : String}
    (spaced : Text.Spaced words list.toList) (spaced' : Text.Spaced words list'.toList) :
    i.IsWrittenAs label list' segments' where
  label_eq := written.label_eq
  label := written.label
  list := by
    obtain rfl := spaced.words_eq.symm.trans written.list.words_eq
    exact spaced'
  components := written.components
  segments := by
    obtain ⟨qs, permuted, spelled⟩ := written.segments
    obtain ⟨rs, spelled', perm'⟩ := List.perm_comp_forall₂ perm spelled
    exact ⟨rs, perm'.trans permuted, spelled'⟩

end IsWrittenAs

theorem isWrittenAs_of_isReadFrom {i : SignatureInput} {label list : String}
    {segments : List String} (unmarked : '=' ∉ label.toList) (unclosed : ')' ∉ list.toList)
    (unbroken : ∀ segment ∈ segments, ';' ∉ segment.toList) {list' : List Char}
    {segments' : List (List Char)}
    (read : i.IsReadFrom (assemble label list segments).toList list' segments') :
    i.IsWrittenAs label list segments := by
  have text := read.text_eq
  rw [toList_assemble] at text
  obtain ⟨hlabel, value⟩ := Text.cut_inj unmarked read.label.equals_not_mem text
  obtain ⟨rfl, parameters⟩ := Text.cut_inj unclosed read.unclosed (List.cons.inj value).2
  obtain rfl := Text.eq_of_flatMap_eq parameters (List.forall_mem_map.mpr unbroken) read.unbroken
  obtain rfl := String.toList_injective hlabel
  obtain ⟨spaced, components⟩ := parseComponents_eq_ok_iff_spaced.mp read.components
  exact ⟨rfl, read.label, spaced, components, foldlM_add_toParameters_iff.mp read.parameters⟩

theorem parse_assemble_eq_ok_iff {i : SignatureInput} {label list : String} {segments : List String}
    (unmarked : '=' ∉ label.toList) (unclosed : ')' ∉ list.toList)
    (unbroken : ∀ segment ∈ segments, ';' ∉ segment.toList)
    (trimmed : Text.trim (assemble label list segments).toList =
      (assemble label list segments).toList) :
    parse (assemble label list segments) = .ok i ↔ i.IsWrittenAs label list segments := by
  constructor
  · intro h
    obtain ⟨list', segments', read⟩ := parse_eq_ok_iff.mp h
    rw [trimmed] at read
    exact isWrittenAs_of_isReadFrom unmarked unclosed unbroken read
  · exact fun written => written.parse_eq_ok unclosed unbroken

/-- A header of these parts, without blanks around it, is read as an input exactly if the parts are
written for it. Then it is read from every other order of the segments, and with every other blanks
between the components. -/
theorem parse_assemble {label list : String} {segments : List String}
    (unmarked : '=' ∉ label.toList) (unclosed : ')' ∉ list.toList)
    (unbroken : ∀ segment ∈ segments, ';' ∉ segment.toList)
    (trimmed : Text.trim (assemble label list segments).toList =
      (assemble label list segments).toList) :
    (∀ i, parse (assemble label list segments) = .ok i ↔ i.IsWrittenAs label list segments) ∧
      ∀ i, parse (assemble label list segments) = .ok i →
        ∀ segments' : List String, segments'.Perm segments →
          ∀ (words : List (List Char)) (list' : String), Text.Spaced words list.toList →
            Text.Spaced words list'.toList → parse (assemble label list' segments') = .ok i := by
  have accepted (i : SignatureInput) :=
    parse_assemble_eq_ok_iff (i := i) unmarked unclosed unbroken trimmed
  refine ⟨accepted, fun i h segments' perm words list' spaced spaced' => ?_⟩
  have written := ((accepted i).mp h).rearrange perm spaced spaced'
  refine written.parse_eq_ok ?_ fun segment mem => unbroken segment (perm.mem_iff.mp mem)
  exact spaced.not_mem spaced' unclosed (by decide)

end SignatureInput

namespace Sample

def spacedList : String := "\t\"@path\"  \"x-(=é;\" "

def unorderedSegments : List String :=
  ["tag=\"=a)\"", "nonce=\" n\"", "expires=+0580", "alg=\"\"", "keyid=\"é(\"", "created=0"]

end Sample

theorem SignatureInput.parse_assemble_sample :
    SignatureInput.parse (SignatureInput.assemble "s-1.*" Sample.spacedList
        Sample.unorderedSegments) = .ok Sample.orderedInput ∧
      Sample.orderedInput.IsWrittenAs "s-1.*" Sample.spacedList Sample.unorderedSegments ∧
      SignatureInput.parse (SignatureInput.assemble "s-1.*" "\"@path\"\r\n\"x-(=é;\""
        Sample.unorderedSegments.reverse) = .ok Sample.orderedInput := by
  obtain ⟨accepted, rearranged⟩ := @SignatureInput.parse_assemble "s-1.*" Sample.spacedList
    Sample.unorderedSegments (by decide +kernel) (by decide +kernel) (by decide +kernel)
    (by decide +kernel)
  have read : SignatureInput.parse (SignatureInput.assemble "s-1.*" Sample.spacedList
      Sample.unorderedSegments) = .ok Sample.orderedInput := by
    decide +kernel
  refine ⟨read, (accepted _).mp read, ?_⟩
  exact rearranged _ read _ (List.reverse_perm _) (Text.words Sample.spacedList.toList) _
    (Text.spaced_words _) (Text.words_eq_iff_spaced.mp (by decide +kernel))

end PaymentTrust
