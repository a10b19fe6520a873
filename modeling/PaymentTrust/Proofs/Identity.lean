import PaymentTrust.Identity
import PaymentTrust.Proofs.Bytes.Hex
import PaymentTrust.Proofs.Signature.Selection
import PaymentTrust.Proofs.Text.Split
import PaymentTrust.Proofs.Verdict

/-! Which keys are trusted: a reference is resolved to the key that it spells and to no other, and
only if that key was registered for the controller that it names, or if keys need not be registered.
-/
namespace PaymentTrust

namespace VerificationMethod

/-- The reference is `controller#scheme:hex`, for the parts of the method. -/
structure Spelling (m : VerificationMethod) (reference : String) (scheme hex : List Char) :
    Prop where
  text : reference.toList = m.controller.toList ++ '#' :: (scheme ++ ':' :: hex)
  firstHash : '#' ∉ m.controller.toList
  firstColon : ':' ∉ scheme
  algorithm : String.ofList (Text.lowerAscii scheme) ∈ m.key.algorithm.names
  digits : Hex.Spells hex m.key.bytes
  nonempty : m.key.bytes ≠ []

variable {m : VerificationMethod} {reference : String}

theorem Spelling.parse_eq {scheme hex : List Char} (s : m.Spelling reference scheme hex) :
    parse reference = .ok m := by
  have named : Algorithm.ofName? (String.ofList scheme) = some m.key.algorithm :=
    Algorithm.ofName?_eq_some.mpr (String.toList_ofList.symm ▸ s.algorithm)
  have decoded := Hex.decode_encode_eq_ok_iff.mpr s.digits
  unfold parse
  simp only [Text.splitFirst_eq_some_iff.mpr ⟨s.firstHash, s.text⟩,
    Text.splitFirst_eq_some_iff.mpr ⟨s.firstColon, rfl⟩, named, decoded, String.ofList_toList,
    s.nonempty, imp_false, not_false_eq_true]

theorem parse_eq_ok_iff :
    parse reference = .ok m ↔ ∃ scheme hex, m.Spelling reference scheme hex := by
  constructor
  · intro parsed
    unfold parse at parsed
    split at parsed
    · cases parsed
    rename_i controller fragment atHash
    split at parsed
    · cases parsed
    rename_i scheme hex atColon
    split at parsed
    · cases parsed
    rename_i algorithm named
    split at parsed
    · cases parsed
    · cases parsed
    rename_i bytes nonempty decoded
    cases parsed
    obtain ⟨firstHash, text⟩ := Text.splitFirst_eq_some_iff.mp atHash
    obtain ⟨firstColon, rfl⟩ := Text.splitFirst_eq_some_iff.mp atColon
    exact ⟨scheme, hex, {
      text := by rw [text, String.toList_ofList]
      firstHash := by rwa [String.toList_ofList]
      firstColon := firstColon
      algorithm := by
        have h := Algorithm.ofName?_eq_some.mp named
        rwa [String.toList_ofList] at h
      digits := Hex.decode_encode_eq_ok_iff.mp decoded
      nonempty := nonempty }⟩
  · rintro ⟨scheme, hex, spelling⟩
    exact spelling.parse_eq

example : parse "did:web:alice#EdDSA:0X0aFF" = .ok ⟨"did:web:alice", .ed25519, [10, 255]⟩ := by
  rfl

end VerificationMethod

namespace StaticRegistry

theorem keys_insert (r : StaticRegistry) (controller : String) (key : PublicKey) (other : String) :
    (r.insert controller key).keys other =
      r.keys other ++ if controller = other then [key] else [] := by
  unfold insert keys
  dsimp only
  by_cases h : controller = other
  · simp [h]
  · have kept : (r.entries.filter (·.1 ≠ controller)).find? (·.1 = other) =
        r.entries.find? (·.1 = other) := by
      rw [List.find?_filter]
      congr 1
      funext entry
      by_cases same : entry.1 = other
      · simp [same, Ne.symm h]
      · simp [same]
    rw [List.find?_cons_of_neg (by simpa using h), kept, if_neg h, List.append_nil]

def insertAll (r : StaticRegistry) (inserts : List (String × PublicKey)) : StaticRegistry :=
  inserts.foldl (fun r entry => r.insert entry.1 entry.2) r

theorem keys_insertAll (r : StaticRegistry) (inserts : List (String × PublicKey))
    (controller : String) : (r.insertAll inserts).keys controller =
      r.keys controller ++ (inserts.filter (·.1 = controller)).map (·.2) := by
  induction inserts generalizing r with
  | nil => simp [insertAll]
  | cons entry inserts ih =>
    rw [insertAll, List.foldl_cons, ← insertAll, ih, keys_insert, List.append_assoc]
    by_cases h : entry.1 = controller <;> simp [h]

theorem resolve?_eq_some {r : StaticRegistry} {m : VerificationMethod} {key : PublicKey} :
    r.toRegistry.resolve? m = some key ↔ m.key = key ∧ key ∈ r.keys m.controller := by
  change (r.keys m.controller).find? (· = m.key) = some key ↔ _
  generalize r.keys m.controller = known
  have claimed {other : PublicKey} (found : known.find? (· = m.key) = some other) :
      m.key = other := by
    simpa [eq_comm] using List.find?_some found
  constructor
  · intro found
    exact ⟨claimed found, List.mem_of_find?_eq_some found⟩
  · rintro ⟨rfl, mem⟩
    have isSome : (known.find? (· = m.key)).isSome = true := by simpa using mem
    obtain ⟨other, found⟩ := Option.isSome_iff_exists.mp isSome
    rw [found, claimed found]

theorem resolve?_insertAll_eq_some {inserts : List (String × PublicKey)} {m : VerificationMethod}
    {key : PublicKey} : (empty.insertAll inserts).toRegistry.resolve? m = some key ↔
      m.key = key ∧ (m.controller, key) ∈ inserts := by
  have mem : key ∈ (empty.insertAll inserts).keys m.controller ↔
      (m.controller, key) ∈ inserts := by
    rw [keys_insertAll]
    simp [keys, empty]
  rw [resolve?_eq_some, mem]

end StaticRegistry

namespace SignerResolver

def ofInserts (environment : Environment) (inserts? : Option (List (String × PublicKey))) :
    SignerResolver :=
  ⟨environment, inserts?.map fun inserts => (StaticRegistry.empty.insertAll inserts).toRegistry⟩

def trusted? (r : SignerResolver) (m : VerificationMethod) : Option PublicKey :=
  match r.registry, r.environment with
  | some registry, _ => registry.resolve? m
  | none, .development => some m.key
  | none, .production => none

theorem resolve_eq_ok_iff {r : SignerResolver} {reference : String} {key : PublicKey} :
    r.resolve reference = .ok key ↔
      ∃ m, VerificationMethod.parse reference = .ok m ∧ r.trusted? m = some key := by
  obtain ⟨environment, registry⟩ := r
  unfold resolve trusted?
  cases registry with
  | none =>
    cases environment with
    | production => simp
    | development => simp only [Outcome.bind_eq_ok, Outcome.pure_eq_ok, Option.some.injEq]
  | some registry =>
    simp only [Outcome.bind_eq_ok]
    refine exists_congr fun m => and_congr_right fun _ => ?_
    cases registry.resolve? m <;> simp

theorem trusted?_ofInserts {environment : Environment}
    {inserts? : Option (List (String × PublicKey))} {m : VerificationMethod} {key : PublicKey} :
    (ofInserts environment inserts?).trusted? m = some key ↔ m.key = key ∧
      ((∃ inserts ∈ inserts?, (m.controller, key) ∈ inserts) ∨
        inserts? = none ∧ environment = .development) := by
  unfold ofInserts trusted?
  cases inserts? with
  | none => cases environment <;> simp
  | some inserts => simp [StaticRegistry.resolve?_insertAll_eq_some]

/-- Only registered keys are resolved: the key that the reference spells, if it was inserted for the
controller that the reference names, or if there is no registry in development. In production,
nothing is resolved without a registry, whatever the reference. -/
theorem resolve_ofInserts (environment : Environment)
    (inserts? : Option (List (String × PublicKey))) (reference : String) :
    (∀ key, (ofInserts environment inserts?).resolve reference = .ok key ↔
      ∃ controller scheme hex,
        (⟨controller, key⟩ : VerificationMethod).Spelling reference scheme hex ∧
          ((∃ inserts ∈ inserts?, (controller, key) ∈ inserts) ∨
            inserts? = none ∧ environment = .development)) ∧
      ∃ e, (ofInserts .production none).resolve reference = .error e ∧
        Explained.reason e = "identity_registry_required" := by
  refine ⟨fun key => ?_, .registryRequired, rfl, rfl⟩
  simp only [resolve_eq_ok_iff, trusted?_ofInserts, VerificationMethod.parse_eq_ok_iff]
  constructor
  · rintro ⟨⟨controller, _⟩, ⟨scheme, hex, spelling⟩, rfl, trusted⟩
    exact ⟨controller, scheme, hex, spelling, trusted⟩
  · rintro ⟨controller, scheme, hex, spelling, trusted⟩
    exact ⟨⟨controller, key⟩, ⟨scheme, hex, spelling⟩, rfl, trusted⟩

end SignerResolver

end PaymentTrust
