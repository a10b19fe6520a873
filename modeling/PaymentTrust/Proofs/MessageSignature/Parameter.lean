import Mathlib.Data.List.Forall2
import PaymentTrust.MessageSignature.Input
import PaymentTrust.Proofs.Text.Numeral
import PaymentTrust.Proofs.Text.Split
import PaymentTrust.Proofs.Verdict

/-! One parameter of a signature. What is added to the parameters met so far is one that a segment
spells, and it takes a place that is still empty. -/
namespace PaymentTrust

namespace SignatureInput

theorem toList_quote (s : String) : (quote s).toList = '"' :: (s.toList ++ ['"']) := by
  simp [quote, String.toList_append]

def Avoids (marks : List Char) (s : String) : Prop :=
  ∀ c ∈ s.toList, c ∉ marks

instance (marks : List Char) (s : String) : Decidable (Avoids marks s) :=
  decidable_of_iff (s.toList.all (!marks.contains ·) = true) (by simp [Avoids])

theorem Avoids.mono {marks fewer : List Char} {s : String} (h : Avoids marks s)
    (subset : fewer ⊆ marks) : Avoids fewer s :=
  fun c mem found => h c mem (subset found)

theorem unquote?_between {inner : List Char} {s : String} :
    unquote? ('"' :: (inner ++ ['"'])) = some s ↔ inner = s.toList ∧ Avoids ['"', '\\'] s := by
  unfold unquote? Avoids
  simp only [List.getLast?_concat, List.dropLast_concat, if_true]
  constructor
  · split
    · nofun
    · rename_i plain
      rintro ⟨⟩
      rw [String.toList_ofList]
      exact ⟨rfl, by simpa using plain⟩
  · rintro ⟨rfl, plain⟩
    rw [if_neg (by simpa using plain), String.ofList_toList]

theorem unquote?_eq_some_iff {text : List Char} {s : String} :
    unquote? text = some s ↔ text = (quote s).toList ∧ Avoids ['"', '\\'] s := by
  rw [toList_quote]
  constructor
  · intro h
    -- What is no text between quotes is not unquoted.
    obtain ⟨inner, rfl⟩ : ∃ inner, text = '"' :: (inner ++ ['"']) := by
      unfold unquote? at h
      split at h
      · rename_i rest
        by_cases hlast : rest.getLast? = some '"'
        · obtain ⟨inner, rfl⟩ := List.getLast?_eq_some_iff.mp hlast
          exact ⟨inner, rfl⟩
        · rw [if_neg hlast] at h
          cases h
      · cases h
    obtain ⟨rfl, plain⟩ := unquote?_between.mp h
    exact ⟨rfl, plain⟩
  · rintro ⟨rfl, plain⟩
    exact unquote?_between.mpr ⟨rfl, plain⟩

theorem exists_mem_of_forall₂ {α β : Type} {R : α → β → Prop} {as : List α} {bs : List β} {b : β}
    (related : List.Forall₂ R as bs) (mem : b ∈ bs) : ∃ a ∈ as, R a b := by
  induction related with
  | nil => cases mem
  | cons first _ ih =>
    rcases List.mem_cons.mp mem with rfl | mem
    · exact ⟨_, List.mem_cons_self, first⟩
    · obtain ⟨a, ha, h⟩ := ih mem
      exact ⟨a, List.mem_cons_of_mem _ ha, h⟩

inductive Parameter where
  | created (t : Timestamp)
  | expires (t : Timestamp)
  | keyId (s : String)
  | algorithm (s : String)
  | nonce (s : String)
  | tag (s : String)

namespace Parameter

def name : Parameter → String
  | created _ => "created"
  | expires _ => "expires"
  | keyId _ => "keyid"
  | algorithm _ => "alg"
  | nonce _ => "nonce"
  | tag _ => "tag"

/-- Whether the value is one that the parameter is read from. -/
def IsReadFrom (value : List Char) : Parameter → Prop
  | created t | expires t => Numeral.read? value = some t.seconds
  | keyId s | algorithm s | nonce s | tag s => value = (quote s).toList ∧ Avoids ['"', '\\'] s

def IsSpelled (segment : List Char) (q : Parameter) : Prop :=
  ∃ value, segment = q.name.toList ++ '=' :: value ∧ q.IsReadFrom value

def value : Parameter → String
  | created t | expires t => t.text
  | keyId s | algorithm s | nonce s | tag s => quote s

def text (q : Parameter) : String :=
  q.name ++ "=" ++ q.value

/-- Whether the parameter can be written as it is. A time always can. -/
def IsPlain : Parameter → Prop
  | created _ | expires _ => True
  | keyId s | algorithm s | nonce s | tag s => Avoids ['"', '\\', ';'] s

theorem equals_not_mem_name (q : Parameter) : '=' ∉ q.name.toList := by
  cases q <;> simp [name]

theorem toList_text (q : Parameter) : q.text.toList = q.name.toList ++ '=' :: q.value.toList := by
  simp [text, String.toList_append]

theorem isPlain_of_isSpelled {q : Parameter} {segment : List Char} (spelled : q.IsSpelled segment)
    (unbroken : ';' ∉ segment) : q.IsPlain := by
  obtain ⟨value, rfl, read⟩ := spelled
  cases q with
  | created t | expires t => trivial
  | keyId s | algorithm s | nonce s | tag s =>
    obtain ⟨rfl, plain⟩ := read
    intro c mem found
    obtain found | rfl : c ∈ ['"', '\\'] ∨ c = ';' := by simpa [or_assoc] using found
    · exact plain c mem found
    · exact unbroken (by simp [toList_quote, mem])

theorem isSpelled_text {q : Parameter} (plain : q.IsPlain) : q.IsSpelled q.text.toList := by
  refine ⟨q.value.toList, q.toList_text, ?_⟩
  cases q with
  | created t | expires t => exact Numeral.read?_write t.seconds
  | keyId s | algorithm s | nonce s | tag s => exact ⟨rfl, plain.mono (by decide)⟩

theorem semicolon_not_mem_text {q : Parameter} (plain : q.IsPlain) : ';' ∉ q.text.toList := by
  rw [toList_text]
  cases q with
  | created t | expires t =>
    have numeral : ';' ∉ t.text.toList := fun mem => by cases Numeral.isDigit_of_mem_write mem
    simpa [name, value] using numeral
  | keyId s | algorithm s | nonce s | tag s =>
    have own : ';' ∉ s.toList := fun mem => plain ';' mem (by decide)
    simpa [name, value, toList_quote] using own

end Parameter

namespace Parameters

theorem readTime_eq_ok {name : String} {value : List Char} {t : Timestamp} :
    readTime name value = .ok t ↔ Numeral.read? value = some t.seconds := by
  obtain ⟨seconds⟩ := t
  unfold readTime
  cases Numeral.read? value <;> simp

theorem readText_eq_ok {name : String} {value : List Char} {s : String} :
    readText name value = .ok s ↔ value = (quote s).toList ∧ Avoids ['"', '\\'] s := by
  rw [← unquote?_eq_some_iff]
  unfold readText
  cases unquote? value <;> simp

theorem fill_bind_eq_ok {α : Type} {name : String} {place : Option α}
    {read : Except SignatureInputFault α} {set : Option α → Parameters} {p' : Parameters} :
    (fill name place read >>= fun filled => pure (set filled)) = .ok p' ↔
      ∃ a, read = .ok a ∧ place = none ∧ set (some a) = p' := by
  rw [Outcome.bind_eq_ok]
  unfold fill
  cases read with
  | error e => exact ⟨nofun, nofun⟩
  | ok a =>
    cases place with
    | none => simp [bind, Except.bind, pure, Except.pure]
    | some b => simp [bind, Except.bind, throw, throwThe, MonadExceptOf.throw]

/-- What the parameters become by one more, in a place that was empty. -/
def Gains (p p' : Parameters) : Parameter → Prop
  | .created t => p.created = none ∧ { p with created := some t } = p'
  | .expires t => p.expires = none ∧ { p with expires := some t } = p'
  | .keyId s => p.keyId = none ∧ { p with keyId := some s } = p'
  | .algorithm s => p.algorithm = none ∧ { p with algorithm := some s } = p'
  | .nonce s => p.nonce = none ∧ { p with nonce := some s } = p'
  | .tag s => p.tag = none ∧ { p with tag := some s } = p'

theorem add_eq_ok_iff {p p' : Parameters} {segment : List Char} :
    p.add segment = .ok p' ↔ ∃ q : Parameter, q.IsSpelled segment ∧ p.Gains p' q := by
  constructor
  · unfold add
    cases hsplit : Text.splitFirst '=' segment with
    | none => nofun
    | some parts =>
      obtain ⟨name, value⟩ := parts
      obtain ⟨_, rfl⟩ := Text.splitFirst_eq_some_iff.mp hsplit
      dsimp only
      split
      case h_7 => exact fun h => absurd h (Outcome.throw_ne_ok _ _)
      all_goals
        rename_i hname
        rw [fill_bind_eq_ok, ← String.toList_ofList (l := name), hname]
        simp only [readTime_eq_ok, readText_eq_ok]
        rintro ⟨a, read, vacant, gained⟩
      · exact ⟨.created a, ⟨value, rfl, read⟩, vacant, gained⟩
      · exact ⟨.expires a, ⟨value, rfl, read⟩, vacant, gained⟩
      · exact ⟨.keyId a, ⟨value, rfl, read⟩, vacant, gained⟩
      · exact ⟨.algorithm a, ⟨value, rfl, read⟩, vacant, gained⟩
      · exact ⟨.nonce a, ⟨value, rfl, read⟩, vacant, gained⟩
      · exact ⟨.tag a, ⟨value, rfl, read⟩, vacant, gained⟩
  · rintro ⟨q, ⟨value, rfl, read⟩, gained⟩
    unfold add
    rw [Text.splitFirst_eq_some_iff.mpr ⟨q.equals_not_mem_name, rfl⟩]
    simp only [String.ofList_toList]
    cases q with
    | created t | expires t => exact fill_bind_eq_ok.mpr ⟨t, readTime_eq_ok.mpr read, gained⟩
    | keyId s | algorithm s | nonce s | tag s =>
      exact fill_bind_eq_ok.mpr ⟨s, readText_eq_ok.mpr read, gained⟩

def GainsAll (p p' : Parameters) : List Parameter → Prop
  | [] => p = p'
  | q :: qs => ∃ p₁, p.Gains p₁ q ∧ p₁.GainsAll p' qs

theorem foldlM_add_eq_ok_iff {p p' : Parameters} {segments : List (List Char)} :
    segments.foldlM add p = .ok p' ↔
      ∃ qs, List.Forall₂ (fun segment q => q.IsSpelled segment) segments qs ∧ p.GainsAll p' qs := by
  induction segments generalizing p with
  | nil => simp [GainsAll]
  | cons segment segments ih =>
    rw [List.foldlM_cons, Outcome.bind_eq_ok]
    constructor
    · rintro ⟨p₁, added, rest⟩
      obtain ⟨q, spelled, gained⟩ := add_eq_ok_iff.mp added
      obtain ⟨qs, spelledAll, gainedAll⟩ := ih.mp rest
      exact ⟨q :: qs, .cons spelled spelledAll, p₁, gained, gainedAll⟩
    · rintro ⟨_, _ | ⟨spelled, spelledAll⟩, p₁, gained, gainedAll⟩
      exact ⟨p₁, add_eq_ok_iff.mpr ⟨_, spelled, gained⟩, ih.mpr ⟨_, spelledAll, gainedAll⟩⟩

def Holds (p : Parameters) : Parameter → Prop
  | .created t => p.created = some t
  | .expires t => p.expires = some t
  | .keyId s => p.keyId = some s
  | .algorithm s => p.algorithm = some s
  | .nonce s => p.nonce = some s
  | .tag s => p.tag = some s

theorem holds_of_gains {p p' : Parameters} {q r : Parameter} (gained : p.Gains p' q) :
    p'.Holds r ↔ r = q ∨ p.Holds r := by
  cases q
  all_goals
    obtain ⟨vacant, rfl⟩ := gained
    cases r <;> simp [Holds, vacant, eq_comm]

theorem holds_of_gainsAll {p p' : Parameters} {qs : List Parameter} {r : Parameter}
    (gained : p.GainsAll p' qs) : p'.Holds r ↔ r ∈ qs ∨ p.Holds r := by
  induction qs generalizing p with
  | nil =>
    obtain rfl := gained
    simp
  | cons q qs ih =>
    obtain ⟨p₁, first, rest⟩ := gained
    rw [ih rest, holds_of_gains first, List.mem_cons, or_left_comm, or_assoc]

theorem not_holds_empty (r : Parameter) : ¬empty.Holds r := by
  cases r <;> nofun

end Parameters

end SignatureInput

end PaymentTrust
