import Mathlib.Data.List.Induction
import Mathlib.Data.Set.Defs
import PaymentTrust.MessageSignature.Request
import PaymentTrust.Proofs.Json.Members

/-! What a request has under a name. The calls that fill in a request put their values under names in
lower case, and a look-up that finds nothing under a name goes on to its lower case; so the case of
letters does not count. One call takes any name as it is: a value under a name with a capital letter
is found by that spelling alone, and hides there what is set in lower case. -/
namespace PaymentTrust

theorem Text.toLower_toLower (c : Char) : c.toLower.toLower = c.toLower := by
  by_cases capital : c.val ≥ 'A'.val ∧ c.val ≤ 'Z'.val
  · have lowered : c.toLower.val = c.val + ('a'.val - 'A'.val) :=
      congrArg Char.val (dif_pos capital)
    -- What was moved out of the capital letters is beyond the last of them.
    refine dif_neg fun again => ?_
    rw [lowered] at again
    simp only [ge_iff_le, UInt32.le_iff_toNat_le, UInt32.toNat_add, Char.reduceVal,
      UInt32.reduceSub, UInt32.reduceToNat] at capital again
    omega
  · have same : c.toLower = c := dif_neg capital
    rw [same, same]

theorem Text.lowerAscii_lowerAscii (text : List Char) :
    lowerAscii (lowerAscii text) = lowerAscii text := by
  rw [lowerAscii, lowerAscii, List.map_map]
  exact List.map_congr_left fun c _ => toLower_toLower c

theorem RequestComponents.lookup_set (r : RequestComponents) (name value other : String) :
    (r.set name value).values.lookup other =
      if other = name then some value else r.values.lookup other := by
  have kept := Json.lookup_filter (fun key => decide (key ≠ name)) r.values other
  rw [set, Json.lookup_cons, kept]
  by_cases same : other = name <;> simp [same]

/-- What sets a component of a request. The method, the authority, the path and the target have names
of their own, the name of a header field is lowered, and `named` takes any name as it is. -/
inductive ComponentCall where
  | method (value : String)
  | authority (value : String)
  | path (value : String)
  | targetUri (value : String)
  | header (name value : String)
  | named (name value : String)
  deriving DecidableEq, Repr

namespace ComponentCall

def lowerCase (name : String) : String :=
  String.ofList (Text.lowerAscii name.toList)

/-- Equal but for the case of letters of ASCII. -/
def SameName (name name' : String) : Prop :=
  lowerCase name = lowerCase name'

instance (name name' : String) : Decidable (SameName name name') :=
  inferInstanceAs (Decidable (lowerCase name = lowerCase name'))

def perform (r : RequestComponents) : ComponentCall → RequestComponents
  | .method value => r.setMethod value
  | .authority value => r.setAuthority value
  | .path value => r.setPath value
  | .targetUri value => r.setTargetUri value
  | .header name value => r.setHeader name value
  | .named name value => r.set name value

def request (calls : List ComponentCall) : RequestComponents :=
  calls.foldl perform .empty

def name : ComponentCall → String
  | .method _ => "@method"
  | .authority _ => "@authority"
  | .path _ => "@path"
  | .targetUri _ => "@target-uri"
  | .header name _ | .named name _ => name

/-- The spelling of the name that the value is put under. -/
def key : ComponentCall → String
  | .header name _ => lowerCase name
  | call => call.name

def value : ComponentCall → String
  | .method value => String.ofList (Text.upperAscii value.toList)
  | .authority value => lowerCase value
  | .path value | .targetUri value | .named _ value => value
  | .header _ value => String.ofList (Text.trim value.toList)

def lastValue? (p : ComponentCall → Prop) [DecidablePred p] (calls : List ComponentCall) :
    Option String :=
  (calls.findRev? (p ·)).map value

/-- Each spelling of the name finds the same: what the last call for the name, however spelled there,
has set. -/
def IgnoresCase (calls : List ComponentCall) (name : String) : Prop :=
  ∀ spelling, SameName spelling name →
    (request calls).get? spelling = (request calls).get? name ∧
      (request calls).get? name = lastValue? (SameName ·.name name) calls

/-- The value that was last put under this spelling was not last put under its lower case. -/
def Strays (calls : List ComponentCall) (spelling : String) : Prop :=
  ∃ value, lastValue? (·.key = spelling) calls = some value ∧
    lastValue? (·.key = lowerCase spelling) calls ≠ some value

def NamesFrom (names : Set String) (calls : List ComponentCall) : Prop :=
  ∀ name value, .named name value ∈ calls → name ∈ names

variable {calls : List ComponentCall} {call : ComponentCall} {name spelling : String}

theorem lowerCase_lowerCase (name : String) : lowerCase (lowerCase name) = lowerCase name := by
  rw [lowerCase, lowerCase, String.toList_ofList, Text.lowerAscii_lowerAscii]

theorem sameName_refl (name : String) : SameName name name :=
  Eq.refl (lowerCase name)

theorem sameName_lowerCase (name : String) : SameName (lowerCase name) name :=
  lowerCase_lowerCase name

theorem sameName_key_iff : SameName call.key name ↔ SameName call.name name := by
  cases call with
  | header given value => rw [SameName, SameName, key, ComponentCall.name, lowerCase_lowerCase]
  | method _ | authority _ | path _ | targetUri _ | named _ _ => exact Iff.rfl

/-- Only a free name is not lowered. -/
theorem lowerCase_key (call : ComponentCall) :
    lowerCase call.key = call.key ∨ ∃ value, call = .named call.key value := by
  have own : ∀ name ∈ ["@method", "@authority", "@path", "@target-uri"],
      lowerCase name = name := by
    decide +kernel
  cases call with
  | named name value => exact .inr ⟨value, rfl⟩
  | header name value => exact .inl (lowerCase_lowerCase name)
  | method _ | authority _ | path _ | targetUri _ => exact .inl (own _ (by simp [key, name]))

theorem perform_eq_set (r : RequestComponents) (call : ComponentCall) :
    perform r call = r.set call.key call.value := by
  cases call <;> rfl

theorem request_concat (calls : List ComponentCall) (call : ComponentCall) :
    request (calls ++ [call]) = perform (request calls) call := by
  rw [request, List.foldl_append, List.foldl_cons, List.foldl_nil, ← request]

theorem lastValue?_nil (p : ComponentCall → Prop) [DecidablePred p] : lastValue? p [] = none :=
  rfl

theorem lastValue?_concat (p : ComponentCall → Prop) [DecidablePred p]
    (calls : List ComponentCall) (call : ComponentCall) : lastValue? p (calls ++ [call]) =
      if p call then some call.value else lastValue? p calls := by
  simp only [lastValue?, List.findRev?_eq_find?_reverse, List.reverse_concat, List.find?_cons]
  by_cases h : p call <;> simp [h]

theorem lastValue?_eq_none_iff {p : ComponentCall → Prop} [DecidablePred p] :
    lastValue? p calls = none ↔ ∀ call ∈ calls, ¬p call := by
  simp [lastValue?, List.findRev?_eq_find?_reverse]

theorem lookup_request (calls : List ComponentCall) (spelling : String) :
    (request calls).values.lookup spelling = lastValue? (·.key = spelling) calls := by
  induction calls using List.reverseRecOn with
  | nil => rfl
  | append_singleton calls call ih =>
    rw [request_concat, perform_eq_set, RequestComponents.lookup_set, lastValue?_concat, ih]
    by_cases same : spelling = call.key <;> simp [same, eq_comm]

theorem get?_request (calls : List ComponentCall) (name : String) :
    (request calls).get? name = (lastValue? (·.key = name) calls).or
      (lastValue? (·.key = lowerCase name) calls) := by
  rw [← lookup_request, ← lookup_request]
  rfl

theorem get?_lowerCase (calls : List ComponentCall) (name : String) :
    (request calls).get? (lowerCase name) = lastValue? (·.key = lowerCase name) calls := by
  rw [get?_request, lowerCase_lowerCase, Option.or_self]

theorem strays_iff : Strays calls spelling ↔
    (request calls).get? spelling ≠ (request calls).get? (lowerCase spelling) := by
  rw [Strays, get?_lowerCase, get?_request]
  cases lastValue? (·.key = spelling) calls with
  | none => simp
  | some value => simp [eq_comm]

theorem exists_spelling (calls : List ComponentCall) (name : String) :
    ∃ spelling, SameName spelling name ∧
      lastValue? (·.key = spelling) calls = lastValue? (SameName ·.name name) calls := by
  induction calls using List.reverseRecOn with
  | nil => exact ⟨name, sameName_refl name, by rw [lastValue?_nil, lastValue?_nil]⟩
  | append_singleton calls call ih =>
    by_cases called : SameName call.name name
    · refine ⟨call.key, sameName_key_iff.mpr called, ?_⟩
      rw [lastValue?_concat, lastValue?_concat, if_pos rfl, if_pos called]
    · obtain ⟨spelling, same, found⟩ := ih
      have other : call.key ≠ spelling := by
        rintro rfl
        exact called (sameName_key_iff.mp same)
      refine ⟨spelling, same, ?_⟩
      rw [lastValue?_concat, lastValue?_concat, if_neg other, if_neg called, found]

/-- A name that finds the same by all its spellings finds what was set last: the last call for it put
its value under one of them. -/
theorem ignoresCase_iff_not_strays :
    IgnoresCase calls name ↔ ∀ spelling, SameName spelling name → ¬Strays calls spelling := by
  constructor
  · intro ignores spelling same strays
    have lowered := (sameName_lowerCase spelling).trans same
    exact strays_iff.mp strays ((ignores _ same).1.trans (ignores _ lowered).1.symm)
  · intro straight
    have lowered : ∀ spelling, SameName spelling name →
        (request calls).get? spelling = (request calls).get? (lowerCase name) := by
      intro spelling same
      rw [← show lowerCase spelling = lowerCase name from same]
      exact not_ne_iff.mp (mt strays_iff.mpr (straight spelling same))
    have last : (request calls).get? (lowerCase name) =
        lastValue? (SameName ·.name name) calls := by
      obtain ⟨spelling, same, found⟩ := exists_spelling calls name
      cases hlast : lastValue? (SameName ·.name name) calls with
      | some value => rw [← lowered spelling same, get?_request, found, hlast, Option.some_or]
      | none =>
        rw [get?_lowerCase, lastValue?_eq_none_iff]
        intro call mem own
        refine lastValue?_eq_none_iff.mp hlast call mem (sameName_key_iff.mp ?_)
        rw [own]
        exact sameName_lowerCase name
    intro spelling same
    have own := lowered name (sameName_refl name)
    exact ⟨(lowered spelling same).trans own.symm, own.trans last⟩

theorem Strays.exists_named (strays : Strays calls spelling) :
    lowerCase spelling ≠ spelling ∧ ∃ value, .named spelling value ∈ calls := by
  obtain ⟨value, found, lost⟩ := strays
  have capital : lowerCase spelling ≠ spelling := by
    intro lowered
    rw [lowered] at lost
    exact lost found
  have put : ¬∀ call ∈ calls, call.key ≠ spelling := by
    intro none
    rw [lastValue?_eq_none_iff.mpr none] at found
    cases found
  push Not at put
  obtain ⟨call, mem, rfl⟩ := put
  rcases lowerCase_key call with lowered | ⟨value, free⟩
  · exact absurd lowered capital
  · exact ⟨capital, value, free ▸ mem⟩

/-- The look-up of a name ignores the case of letters, and finds what the last call for the name has
set, exactly if no spelling of the name strays. It does so for every name and after whatever calls
exactly if the names that may be given freely are in lower case. -/
theorem ignoresCase_iff (names : Set String) :
    (∀ calls name, IgnoresCase calls name ↔
      ∀ spelling, SameName spelling name → ¬Strays calls spelling) ∧
    ((∀ calls, NamesFrom names calls → ∀ name, IgnoresCase calls name) ↔
      ∀ name ∈ names, lowerCase name = name) := by
  refine ⟨fun calls name => ignoresCase_iff_not_strays, ?_, ?_⟩
  · intro ignores name allowed
    have among : NamesFrom names [.named name ""] := by
      intro other value mem
      cases List.mem_singleton.mp mem
      exact allowed
    have found := (ignores _ among name (lowerCase name) (sameName_lowerCase name)).1
    rw [get?_lowerCase, get?_request] at found
    by_contra capital
    simp [lastValue?, key, ComponentCall.name, Ne.symm capital] at found
  · intro lowered calls named name
    refine ignoresCase_iff_not_strays.mpr fun spelling _ strays => ?_
    obtain ⟨capital, value, mem⟩ := strays.exists_named
    exact capital (lowered spelling (named spelling value mem))

end ComponentCall

namespace Sample

def totals : List ComponentCall :=
  [.named "X-Total" "30", .header "X-Total" "31"]

end Sample

/-- A field that is named freely with a capital letter hides the value that is set after it, and
without that value it is missing in lower case. -/
theorem ComponentCall.get?_capital :
    (request Sample.totals).get? "X-Total" = some "30" ∧
      (request Sample.totals).get? "x-total" = some "31" ∧
      (request (Sample.totals.take 1)).get? "x-total" = none ∧
      ¬IgnoresCase Sample.totals "X-Total" := by
  have hidden : (request Sample.totals).get? "X-Total" = some "30" := by
    decide +kernel
  have lowered : (request Sample.totals).get? "x-total" = some "31" := by
    decide +kernel
  refine ⟨hidden, lowered, by decide +kernel, fun ignores => ?_⟩
  have same := (ignores "x-total" (by decide +kernel)).1
  rw [hidden, lowered] at same
  exact absurd same (by decide)

end PaymentTrust
