import Mathlib.Tactic.SplitIfs
import PaymentTrust.Proofs.Verdict
import PaymentTrust.Signature.Jwk

/-! What is chosen to verify a signature: the algorithm that a name denotes, the key that a set holds
under an identifier, and the verifier that a registry has for the key. -/
namespace PaymentTrust

namespace Algorithm

theorem eq_of_mem_names {a b : Algorithm} {name : String} (h : name ∈ a.names)
    (h' : name ∈ b.names) : a = b := by
  have disjoint : ∀ name ∈ a.names, name ∈ b.names → a = b := by
    cases a <;> cases b <;> decide
  exact disjoint name h h'

theorem mem_all (a : Algorithm) : a ∈ all := by
  cases a <;> decide

theorem ofName?_eq_some {name : String} {a : Algorithm} :
    ofName? name = some a ↔ String.ofList (Text.lowerAscii name.toList) ∈ a.names := by
  unfold ofName?
  dsimp only
  generalize String.ofList (Text.lowerAscii name.toList) = lower
  have hasName {b : Algorithm} (found : all.find? (fun b => b.names.contains lower) = some b) :
      lower ∈ b.names := by
    simpa using List.find?_some found
  constructor
  · exact hasName
  · intro mem
    have isSome : (all.find? fun b => b.names.contains lower).isSome = true :=
      List.find?_isSome.mpr ⟨a, mem_all a, List.contains_iff_mem.mpr mem⟩
    obtain ⟨b, found⟩ := Option.isSome_iff_exists.mp isSome
    rw [found, eq_of_mem_names mem (hasName found)]

theorem ofKeyType?_eq_some_iff {kty : String} {crv : Option String} {a : Algorithm} :
    ofKeyType? kty crv = some a ↔
      match a with
      | ed25519 => kty = "OKP" ∧ crv = some "Ed25519"
      | ecdsaP256 => kty = "EC" ∧ crv = some "P-256"
      | rsaPssSha256 => kty = "RSA" := by
  unfold ofKeyType?
  cases a <;> split_ifs <;> simp_all

end Algorithm

theorem VerifierRegistry.verify_eq_ok (r : VerifierRegistry) (key : PublicKey)
    (message signature : Bytes) : r.verify key message signature = .ok () ↔
      ∃ verifier, r.get? key.algorithm = some verifier ∧
        verifier.verify message signature key.bytes = .ok () := by
  unfold verify
  cases r.get? key.algorithm <;> simp

namespace JwkSet

/-- The first member of the set with this identifier holds this public key. -/
def Selects (keys : JwkSet) (kid : String) (key : PublicKey) : Prop :=
  ∃ front jwk back, keys.keys = front ++ jwk :: back ∧ (∀ other ∈ front, other.kid ≠ some kid) ∧
    jwk.kid = some kid ∧ jwk.publicKey = .ok key

theorem find?_eq_some {keys : JwkSet} {kid : String} {jwk : Jwk} :
    keys.find? kid = some jwk ↔ jwk.kid = some kid ∧ ∃ front back,
      keys.keys = front ++ jwk :: back ∧ ∀ other ∈ front, other.kid ≠ some kid := by
  simp [find?, List.find?_eq_some_iff_append]

theorem selects_iff {keys : JwkSet} {kid : String} {key : PublicKey} :
    keys.Selects kid key ↔ ∃ jwk, keys.find? kid = some jwk ∧ jwk.publicKey = .ok key := by
  simp only [find?_eq_some]
  constructor
  · rintro ⟨front, jwk, back, hkeys, others, named, holds⟩
    exact ⟨jwk, ⟨named, front, back, hkeys, others⟩, holds⟩
  · rintro ⟨jwk, ⟨named, front, back, hkeys, others⟩, holds⟩
    exact ⟨front, jwk, back, hkeys, others, named, holds⟩

end JwkSet

end PaymentTrust
