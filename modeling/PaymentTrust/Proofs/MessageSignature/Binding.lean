import PaymentTrust.Proofs.MessageSignature.Acceptance
import PaymentTrust.Proofs.MessageSignature.RoundTrip
import PaymentTrust.Proofs.SigningPayload

/-! What the text that is signed tells. It has a line for each covered component and one for the header,
and where no value and no header has a line feed, the text tells these lines: the last of them tells the
input, and the others tell the values that it covers. -/
namespace PaymentTrust

def RequestComponents.IsUnbroken (r : RequestComponents) : Prop :=
  ∀ component ∈ r.values, '\n' ∉ component.2.toList

instance (r : RequestComponents) : Decidable r.IsUnbroken :=
  inferInstanceAs (Decidable (∀ component ∈ r.values, _))

theorem RequestComponents.IsUnbroken.notMem_of_get? {r : RequestComponents} {name value : String}
    (unbroken : r.IsUnbroken) (found : r.get? name = some value) : '\n' ∉ value.toList := by
  have own : ∀ key, r.values.lookup key = some value → '\n' ∉ value.toList := by
    intro key found
    obtain ⟨front, back, hvalues, _⟩ := List.lookup_eq_some_iff.mp found
    exact unbroken (key, value) (hvalues ▸ List.mem_append_right front List.mem_cons_self)
  rcases Option.or_eq_some_iff.mp found with found | ⟨_, found⟩
  · exact own _ found
  · exact own _ found

namespace SignatureInput

def line (name value : String) : String :=
  quote name ++ ": " ++ value

theorem line_injective (name : String) {value value' : String}
    (h : line name value = line name value') : value = value' := by
  have htext := congrArg String.toList h
  simp only [line, String.toList_append] at htext
  exact String.toList_inj.mp (List.append_cancel_left htext)

theorem notMem_line {c : Char} {name value : String} (hname : c ∉ (quote name).toList)
    (hvalue : c ∉ value.toList) (separator : c ∉ [':', ' ']) : c ∉ (line name value).toList := by
  simp only [line, String.toList_append, List.mem_append, not_or]
  exact ⟨⟨hname, separator⟩, hvalue⟩

def AreLines (r : RequestComponents) : List String → List String → Prop :=
  List.Forall₂ fun name text => ∃ value, r.get? name = some value ∧ text = line name value

theorem baseLines_eq_ok_iff {r : RequestComponents} {names lines : List String} :
    baseLines r names = .ok lines ↔ AreLines r names lines := by
  induction names generalizing lines with
  | nil => simp [baseLines, AreLines, eq_comm]
  | cons name names ih =>
    rw [baseLines, AreLines, List.forall₂_cons_left_iff]
    cases r.get? name with
    | none => simp
    | some value =>
      simp only [Outcome.bind_eq_ok, Outcome.pure_eq_ok, ih, Option.some.injEq, exists_eq_left']
      constructor
      · rintro ⟨rest, hrest, rfl⟩
        exact ⟨_, rest, rfl, hrest, rfl⟩
      · rintro ⟨_, rest, rfl, hrest, rfl⟩
        exact ⟨rest, hrest, rfl⟩

theorem base_eq_ok_iff {i : SignatureInput} {r : RequestComponents} {text : String} :
    i.base r = .ok text ↔ ∃ lines, AreLines r i.components lines ∧
      "\n".intercalate (lines ++ [line "@signature-params" i.header]) = text := by
  simp only [base, Outcome.bind_eq_ok, Outcome.pure_eq_ok, baseLines_eq_ok_iff, line]

theorem AreLines.get?_eq {r r' : RequestComponents} {names lines : List String}
    (h : AreLines r names lines) (h' : AreLines r' names lines) :
    ∀ name ∈ names, r'.get? name = r.get? name := by
  induction h with
  | nil => nofun
  | cons first _ ih =>
    obtain ⟨value, found, rfl⟩ := first
    obtain ⟨⟨value', found', same⟩, rest'⟩ := List.forall₂_cons.mp h'
    refine List.forall_mem_cons.mpr ⟨?_, ih rest'⟩
    rw [found, found', line_injective _ same]

theorem AreLines.of_get?_eq {r r' : RequestComponents} {names lines : List String}
    (h : AreLines r names lines) (same : ∀ name ∈ names, r'.get? name = r.get? name) :
    AreLines r' names lines := by
  induction h with
  | nil => exact .nil
  | cons first _ ih =>
    obtain ⟨hfirst, hrest⟩ := List.forall_mem_cons.mp same
    exact .cons (hfirst ▸ first) (ih hrest)

/-- A line feed could come into a written parameter only from the segment that it was read from. -/
theorem Parameter.lineFeed_notMem_text {q : Parameter} {segment : List Char}
    (spelled : q.IsSpelled segment) (unbroken : '\n' ∉ segment) : '\n' ∉ q.text.toList := by
  obtain ⟨value, rfl, read⟩ := spelled
  simp only [List.mem_append, List.mem_cons, not_or] at unbroken
  simp only [toList_text, List.mem_append, List.mem_cons, not_or]
  refine ⟨unbroken.1, unbroken.2.1, ?_⟩
  cases q with
  | created t | expires t => exact fun mem => by cases Numeral.isDigit_of_mem_write mem
  | keyId s | algorithm s | nonce s | tag s =>
    obtain ⟨rfl, _⟩ := read
    exact unbroken.2.2

theorem lineFeed_notMem_header {i : SignatureInput} {text list : List Char}
    {segments : List (List Char)} (read : i.IsReadFrom text list segments)
    (unbroken : '\n' ∉ text) : '\n' ∉ i.header.toList := by
  have wf := wellFormed_of_isReadFrom read
  have segment_unbroken : ∀ segment ∈ segments, '\n' ∉ segment := by
    intro segment mem found
    apply unbroken
    have inner : '\n' ∈ segments.flatMap (';' :: ·) :=
      List.mem_flatMap.mpr ⟨segment, mem, List.mem_cons_of_mem _ found⟩
    rw [read.text_eq]
    simp [inner]
  simp only [toList_header, List.mem_append, List.mem_cons, List.mem_flatMap, List.mem_map]
  rintro (label | equals | opening | listed | closing | ⟨_, ⟨q, hq, rfl⟩, mark | written⟩)
  · exact absurd (wf.label.2 _ label) (by decide)
  · cases equals
  · cases opening
  · rcases mem_listText listed with blank | ⟨name, hname, mem⟩
    · cases blank
    · cases (wf.quote_unbroken hname mem).1
  · cases closing
  · cases mark
  · obtain ⟨segment, hsegment, spelled⟩ := exists_segment_of_isReadFrom read hq
    exact Parameter.lineFeed_notMem_text spelled (segment_unbroken segment hsegment) written

structure IsUnbroken (i : SignatureInput) : Prop where
  wellFormed : i.WellFormed
  header : '\n' ∉ i.header.toList

theorem isUnbroken_of_parse {header : String} {i : SignatureInput} (read : parse header = .ok i)
    (unbroken : '\n' ∉ header.toList) : i.IsUnbroken := by
  obtain ⟨list, segments, parts⟩ := parse_eq_ok_iff.mp read
  exact ⟨wellFormed_of_isReadFrom parts,
    lineFeed_notMem_header parts fun mem => unbroken (Text.mem_of_mem_trim mem)⟩

theorem header_injective {i i' : SignatureInput} (wf : i.WellFormed) (wf' : i'.WellFormed)
    (h : i.header = i'.header) : i = i' := by
  have read := wf.parse_eq_ok
  rw [h, wf'.parse_eq_ok] at read
  exact (Except.ok.inj read).symm

theorem AreLines.lineFeed_notMem {i : SignatureInput} {r : RequestComponents} {lines : List String}
    (h : AreLines r i.components lines) (hi : i.IsUnbroken) (hr : r.IsUnbroken) :
    ∀ text ∈ lines ++ [line "@signature-params" i.header], '\n' ∉ text.toList := by
  intro text mem
  rcases List.mem_append.mp mem with mem | mem
  · obtain ⟨name, hname, value, found, rfl⟩ := exists_mem_of_forall₂ h mem
    refine notMem_line (fun broken => ?_) (hr.notMem_of_get? found) (by decide)
    cases (hi.wellFormed.quote_unbroken hname broken).1
  · obtain rfl := List.mem_singleton.mp mem
    exact notMem_line (by decide) hi.header (by decide)

/-- The text that is signed binds all that it covers. Of inputs that were read from headers without
line feeds, over requests without line feeds in their values, two have one text exactly if they are the
same input and each covered component has the same value in both requests. -/
theorem base_eq_iff_same {header header' : String} {i i' : SignatureInput}
    {r r' : RequestComponents} {text : String} (read : parse header = .ok i)
    (read' : parse header' = .ok i') (unbroken : '\n' ∉ header.toList)
    (unbroken' : '\n' ∉ header'.toList) (hr : r.IsUnbroken) (hr' : r'.IsUnbroken)
    (signed : i.base r = .ok text) :
    i'.base r' = .ok text ↔ i' = i ∧ ∀ name ∈ i.components, r'.get? name = r.get? name := by
  have hi := isUnbroken_of_parse read unbroken
  have hi' := isUnbroken_of_parse read' unbroken'
  obtain ⟨lines, hlines, rfl⟩ := base_eq_ok_iff.mp signed
  constructor
  · intro signed'
    obtain ⟨lines', hlines', same⟩ := base_eq_ok_iff.mp signed'
    have hall := eq_of_intercalate_eq (hlines'.lineFeed_notMem hi' hr')
      (hlines.lineFeed_notMem hi hr) (by simp) (by simp) same
    obtain ⟨rfl, last⟩ := List.append_inj' hall rfl
    have hinput := header_injective hi'.wellFormed hi.wellFormed
      (line_injective _ (List.singleton_inj.mp last))
    subst hinput
    exact ⟨rfl, hlines.get?_eq hlines'⟩
  · rintro ⟨rfl, same⟩
    exact base_eq_ok_iff.mpr ⟨lines, hlines.of_get?_eq same, rfl⟩

end SignatureInput

namespace Sample

def coveringHeader : String :=
  "s=(\"@authority\" \"X-Total\");created=1;keyid=\"k\";alg=\"=\";expires=2;nonce=\": \";tag=\"\""

def respacedHeader : String :=
  " s=(\t\"@authority\"  \"X-Total\" );tag=\"\";nonce=\": \";expires=+2;alg=\"=\";" ++
    "keyid=\"k\";created=01"

def covering : SignatureInput :=
  ⟨"s", ["@authority", "X-Total"], ⟨1⟩, ⟨2⟩, "k", "=", ": ", ""⟩

def order : RequestComponents :=
  (RequestComponents.empty.setAuthority "Shop.example").setHeader "X-Total" " 30: "

def sameOrder : RequestComponents :=
  ((RequestComponents.empty.setHeader "x-total" "30:").setPath "/").setAuthority "shop.EXAMPLE"

def otherOrder : RequestComponents :=
  (RequestComponents.empty.setAuthority "shop.example").setHeader "x-total" "3: 0"

end Sample

theorem SignatureInput.base_eq_iff_same_sample :
    parse Sample.coveringHeader = .ok Sample.covering ∧
      parse Sample.respacedHeader = .ok Sample.covering ∧
      Sample.order.IsUnbroken ∧ Sample.sameOrder.IsUnbroken ∧ Sample.otherOrder.IsUnbroken ∧
      ∃ text, Sample.covering.base Sample.order = .ok text ∧
        Sample.covering.base Sample.sameOrder = .ok text ∧
        Sample.covering.base Sample.otherOrder ≠ .ok text := by
  have read : parse Sample.coveringHeader = .ok Sample.covering := by decide +kernel
  have read' : parse Sample.respacedHeader = .ok Sample.covering := by decide +kernel
  have unbroken : Sample.order.IsUnbroken := by decide +kernel
  have unbroken₁ : Sample.sameOrder.IsUnbroken := by decide +kernel
  have unbroken₂ : Sample.otherOrder.IsUnbroken := by decide +kernel
  obtain ⟨text, signed⟩ := (Sample.covering.exists_base_iff Sample.order).mpr (by decide +kernel)
  have same := base_eq_iff_same read read' (by decide +kernel) (by decide +kernel) unbroken unbroken₁
    signed
  have other := base_eq_iff_same read read' (by decide +kernel) (by decide +kernel) unbroken unbroken₂
    signed
  refine ⟨read, read', unbroken, unbroken₁, unbroken₂, text, signed, ?_, fun signed' => ?_⟩
  · exact same.mpr ⟨rfl, by decide +kernel⟩
  · exact absurd (other.mp signed').2 (by decide +kernel)

end PaymentTrust
