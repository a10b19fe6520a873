import PaymentTrust.Proofs.MessageSignature.Header

/-! From the header that is written for an input, the input is read again: when it was read from a
header before, and whenever its texts have no character that ends them in a header. -/
namespace PaymentTrust

namespace SignatureInput

/-- What can be written so that it is read again. -/
structure WellFormed (i : SignatureInput) : Prop where
  label : Label.IsValid i.label
  components : ∀ name ∈ i.components,
    name ≠ "" ∧ Avoids [' ', '\t', '\n', '\x0c', '\r', '"', '\\', ')'] name
  keyId : Avoids ['"', '\\', ';'] i.keyId
  algorithm : Avoids ['"', '\\', ';'] i.algorithm
  nonce : Avoids ['"', '\\', ';'] i.nonce
  tag : Avoids ['"', '\\', ';'] i.tag

def parameters (i : SignatureInput) : List Parameter :=
  [.created i.created, .keyId i.keyId, .algorithm i.algorithm, .expires i.expires, .nonce i.nonce,
    .tag i.tag]

def listText (i : SignatureInput) : List Char :=
  [' '].intercalate (i.components.map fun name => (quote name).toList)

theorem mem_listText {i : SignatureInput} {c : Char} (mem : c ∈ i.listText) :
    c = ' ' ∨ ∃ name ∈ i.components, c ∈ (quote name).toList := by
  by_cases blank : c = ' '
  · exact .inl blank
  · obtain ⟨_, part, mem⟩ := (Text.mem_intercalate_iff blank).mp mem
    obtain ⟨name, hname, rfl⟩ := List.mem_map.mp part
    exact .inr ⟨name, hname, mem⟩

theorem toList_header (i : SignatureInput) :
    i.header.toList = i.label.toList ++ '=' :: '(' :: (i.listText ++ ')' ::
      (i.parameters.map (·.text.toList)).flatMap (';' :: ·)) := by
  unfold header parametersText
  simp only [listText, parameters, Parameter.text, Parameter.name, Parameter.value,
    String.toList_append, String.toList_intercalate, List.map_map, Function.comp_def, List.map_cons,
    List.map_nil, List.flatMap_cons, List.flatMap_nil]
  simp

theorem holds_toParameters {i : SignatureInput} {q : Parameter} :
    i.toParameters.Holds q ↔ q ∈ i.parameters := by
  cases q <;> simp [toParameters, parameters, Parameters.Holds, eq_comm]

theorem gainsAll_parameters (i : SignatureInput) :
    Parameters.empty.GainsAll i.toParameters i.parameters :=
  ⟨_, ⟨rfl, rfl⟩, _, ⟨rfl, rfl⟩, _, ⟨rfl, rfl⟩, _, ⟨rfl, rfl⟩, _, ⟨rfl, rfl⟩, _, ⟨rfl, rfl⟩, rfl⟩

theorem isPlain_iff (i : SignatureInput) :
    (∀ q ∈ i.parameters, q.IsPlain) ↔
      Avoids ['"', '\\', ';'] i.keyId ∧ Avoids ['"', '\\', ';'] i.algorithm ∧
        Avoids ['"', '\\', ';'] i.nonce ∧ Avoids ['"', '\\', ';'] i.tag := by
  simp [parameters, Parameter.IsPlain]

theorem exists_segment_of_isReadFrom {i : SignatureInput} {text list : List Char}
    {segments : List (List Char)} (read : i.IsReadFrom text list segments) {q : Parameter}
    (mem : q ∈ i.parameters) : ∃ segment ∈ segments, q.IsSpelled segment := by
  obtain ⟨qs, spelled, gained⟩ := Parameters.foldlM_add_eq_ok_iff.mp read.parameters
  have met : q ∈ qs :=
    ((Parameters.holds_of_gainsAll gained).mp (holds_toParameters.mpr mem)).resolve_right
      (Parameters.not_holds_empty q)
  exact exists_mem_of_forall₂ spelled met

theorem isPlain_of_isReadFrom {i : SignatureInput} {text list : List Char}
    {segments : List (List Char)} (read : i.IsReadFrom text list segments) :
    ∀ q ∈ i.parameters, q.IsPlain := by
  intro q mem
  obtain ⟨segment, hsegment, spelled⟩ := exists_segment_of_isReadFrom read mem
  exact Parameter.isPlain_of_isSpelled spelled (read.unbroken segment hsegment)

theorem wellFormed_of_isReadFrom {i : SignatureInput} {text list : List Char}
    {segments : List (List Char)} (read : i.IsReadFrom text list segments) : i.WellFormed := by
  obtain ⟨keyId, algorithm, nonce, tag⟩ := i.isPlain_iff.mp (isPlain_of_isReadFrom read)
  refine ⟨read.label, ?_, keyId, algorithm, nonce, tag⟩
  intro name mem
  obtain ⟨words, plain⟩ := parseComponents_eq_ok_iff.mp read.components
  obtain ⟨nonempty, plain⟩ := plain name mem
  have item : (quote name).toList ∈ Text.words list := by
    rw [words]
    exact List.mem_map_of_mem mem
  refine ⟨nonempty, fun c hc found => ?_⟩
  obtain ⟨unblank, own⟩ := (Text.mem_words item).2 c (by simp [toList_quote, hc])
  have marked : Text.isAsciiBlank c = true ∨ c ∈ ['"', '\\'] ∨ c = ')' := by
    simpa [Text.isAsciiBlank, or_assoc] using found
  rcases marked with blank | quoted | rfl
  · exact Bool.false_ne_true (unblank.symm.trans blank)
  · exact plain c hc quoted
  · exact read.unclosed own

namespace WellFormed

variable {i : SignatureInput}

theorem isPlain (wf : i.WellFormed) : ∀ q ∈ i.parameters, q.IsPlain :=
  i.isPlain_iff.mpr ⟨wf.keyId, wf.algorithm, wf.nonce, wf.tag⟩

theorem trim_header (wf : i.WellFormed) : Text.trim i.header.toList = i.header.toList := by
  obtain ⟨first, label, hlabel, hfirst⟩ := wf.label.exists_cons
  have starts : i.header.toList.head? = some first := by
    rw [toList_header, hlabel]
    rfl
  have ends : i.header.toList.getLast? = some '"' := by
    simp only [toList_header, parameters, Parameter.toList_text, Parameter.value, toList_quote,
      List.map_cons, List.map_nil, List.flatMap_cons, List.flatMap_nil, List.append_nil]
    simp only [← List.cons_append, ← List.append_assoc, List.getLast?_concat]
  exact Text.trim_eq_self starts ends hfirst (by decide)

theorem quote_unbroken (wf : i.WellFormed) {name : String} (mem : name ∈ i.components) {c : Char}
    (hc : c ∈ (quote name).toList) : Text.isAsciiBlank c = false ∧ c ≠ ')' := by
  rw [toList_quote] at hc
  have own : c = '"' ∨ c ∈ name.toList := by simpa [or_comm] using hc
  rcases own with rfl | own
  · decide
  · have avoids : Avoids [' ', '\t', '\n', '\x0c', '\r', ')'] name :=
      (wf.components name mem).2.mono (by decide)
    simpa [Text.isAsciiBlank, and_assoc] using avoids c own

theorem isReadFrom_header (wf : i.WellFormed) :
    i.IsReadFrom i.header.toList i.listText (i.parameters.map (·.text.toList)) where
  text_eq := i.toList_header
  label := wf.label
  unclosed := by
    intro mem
    rcases mem_listText mem with blank | ⟨name, hname, hc⟩
    · cases blank
    · exact (wf.quote_unbroken hname hc).2 rfl
  unbroken := by
    intro segment mem
    obtain ⟨q, hq, rfl⟩ := List.mem_map.mp mem
    exact Parameter.semicolon_not_mem_text (wf.isPlain q hq)
  components := by
    refine parseComponents_eq_ok_iff.mpr ⟨Text.words_intercalate ?_, fun name mem => ?_⟩
    · rw [List.forall_mem_map]
      intro name mem
      exact ⟨by simp [toList_quote], fun c hc => (wf.quote_unbroken mem hc).1⟩
    · exact ⟨(wf.components name mem).1, (wf.components name mem).2.mono (by decide)⟩
  parameters := by
    refine Parameters.foldlM_add_eq_ok_iff.mpr ⟨i.parameters, ?_, i.gainsAll_parameters⟩
    rw [List.forall₂_map_left_iff, List.forall₂_same]
    exact fun q hq => Parameter.isSpelled_text (wf.isPlain q hq)

theorem parse_eq_ok (wf : i.WellFormed) : parse i.header = .ok i :=
  parse_eq_ok_iff.mpr ⟨_, _, wf.trim_header.symm ▸ wf.isReadFrom_header⟩

end WellFormed

/-- Reading undoes writing: of an input that was read itself, and of any whose texts have no
character that ends them in a header. -/
theorem parse_header :
    (∀ header i, parse header = .ok i → parse i.header = .ok i) ∧
      ∀ i : SignatureInput, i.WellFormed → parse i.header = .ok i := by
  refine ⟨fun header i h => ?_, fun i wf => wf.parse_eq_ok⟩
  obtain ⟨list, segments, read⟩ := parse_eq_ok_iff.mp h
  exact (wellFormed_of_isReadFrom read).parse_eq_ok

end SignatureInput

namespace Sample

def unorderedHeader : String :=
  " s-1.*=(\t\"@path\"  \"x-(=é;\" );tag=\"=a)\";nonce=\" n\";expires=+0580;alg=\"\";" ++
    "keyid=\"é(\";created=0 "

def orderedInput : SignatureInput :=
  ⟨"s-1.*", ["@path", "x-(=é;"], ⟨0⟩, ⟨580⟩, "é(", "", " n", "=a)"⟩

/-- It covers nothing, and its times are the ends of their range. -/
def bareInput : SignatureInput :=
  ⟨"*", [], ⟨18446744073709551615⟩, ⟨0⟩, "=(", ")", ",", " "⟩

end Sample

theorem SignatureInput.parse_header_sample :
    SignatureInput.parse Sample.unorderedHeader = .ok Sample.orderedInput ∧
      SignatureInput.parse Sample.orderedInput.header = .ok Sample.orderedInput ∧
      Sample.bareInput.WellFormed ∧
      SignatureInput.parse Sample.bareInput.header = .ok Sample.bareInput := by
  obtain ⟨again, written⟩ := SignatureInput.parse_header
  have read : SignatureInput.parse Sample.unorderedHeader = .ok Sample.orderedInput := by
    decide +kernel
  have wf : Sample.bareInput.WellFormed :=
    ⟨by decide, nofun, by decide, by decide, by decide, by decide⟩
  exact ⟨read, again _ _ read, wf, written _ wf⟩

end PaymentTrust
