import PaymentTrust.Verdict

/-! When a sequence of checks succeeds, and when its verdict is acceptance. -/
namespace PaymentTrust

namespace Outcome

variable {ε ε' α β : Type}

theorem bind_eq_ok (x : Except ε α) (f : α → Except ε β) (b : β) :
    (x >>= f) = .ok b ↔ ∃ a, x = .ok a ∧ f a = .ok b := by
  cases x <;> simp [bind, Except.bind]

@[simp] theorem check_bind_eq_ok (x : Except ε Unit) (f : Unit → Except ε β) (b : β) :
    (x >>= f) = .ok b ↔ x = .ok () ∧ f () = .ok b := by
  cases x <;> simp [bind, Except.bind]

@[simp] theorem mapError_eq_ok (x : Except ε α) (f : ε → ε') (a : α) :
    x.mapError f = .ok a ↔ x = .ok a := by
  cases x with
  | error e => exact ⟨nofun, nofun⟩
  | ok b => constructor <;> rintro ⟨⟩ <;> rfl

theorem map_eq_ok {x : Except ε α} {g : α → β} {b : β} :
    x.map g = .ok b ↔ ∃ a, x = .ok a ∧ g a = b := by
  cases x <;> simp [Except.map]

theorem toOption_eq_some {x : Except ε α} {a : α} : x.toOption = some a ↔ x = .ok a := by
  cases x <;> simp [Except.toOption]

theorem eq_ok_iff_isOk (x : Except ε Unit) : x = .ok () ↔ x.isOk = true := by
  cases x <;> simp [Except.isOk, Except.toBool]

@[simp] theorem throw_ne_ok (e : ε) (a : α) : (throw e : Except ε α) ≠ .ok a :=
  nofun

@[simp] theorem refuse_eq_ok {c : Prop} [Decidable c] (e : ε) (x : Except ε α) (a : α) :
    (if c then throw e else x) = .ok a ↔ ¬c ∧ x = .ok a := by
  by_cases h : c <;> simp [h]

@[simp] theorem refuse_bind_eq_ok {c : Prop} [Decidable c] (e : ε) (f : β → Except ε α)
    (x : Except ε α) (a : α) :
    (if c then (throw e : Except ε β) >>= f else x) = .ok a ↔ ¬c ∧ x = .ok a :=
  refuse_eq_ok e x a

@[simp] theorem pure_eq_ok (a b : α) : (pure a : Except ε α) = .ok b ↔ a = b := by
  simp [pure, Except.pure]

/-- Where each result is had from one item only, the results are had from their own items. -/
theorem mapM_eq_ok_iff {f : α → Except ε β} {item : β → α} {P : β → Prop}
    (h : ∀ a b, f a = .ok b ↔ a = item b ∧ P b) {items : List α} {results : List β} :
    items.mapM f = .ok results ↔ items = results.map item ∧ ∀ b ∈ results, P b := by
  induction items generalizing results with
  | nil => cases results <;> simp
  | cons a items ih =>
    simp only [List.mapM_cons, bind_eq_ok, pure_eq_ok, h, ih]
    constructor
    · rintro ⟨b, ⟨rfl, hb⟩, results, ⟨rfl, hresults⟩, rfl⟩
      exact ⟨rfl, List.forall_mem_cons.mpr ⟨hb, hresults⟩⟩
    · rintro ⟨hitems, hresults⟩
      cases results with
      | nil => cases hitems
      | cons b results =>
        obtain ⟨rfl, rfl⟩ := List.cons.inj hitems
        obtain ⟨hb, hresults⟩ := List.forall_mem_cons.mp hresults
        exact ⟨b, ⟨rfl, hb⟩, results, ⟨rfl, hresults⟩, rfl⟩

theorem discard_eq_ok (x : Except ε α) : discard x = .ok () ↔ ∃ a, x = .ok a := by
  cases x <;> simp [discard, Functor.mapConst, Except.map]

theorem forM_eq_ok_iff {f : α → Except ε Unit} {items : List α} :
    forM items f = .ok () ↔ ∀ a ∈ items, f a = .ok () := by
  induction items with
  | nil => simp
  | cons a items ih => rw [List.forM_cons, check_bind_eq_ok, ih, List.forall_mem_cons]

def RaisesOnly (P : ε → Prop) (x : Except ε α) : Prop :=
  ∀ e, x = .error e → P e

theorem raisesOnly_ok (P : ε → Prop) (a : α) : RaisesOnly P (.ok a) :=
  nofun

theorem raisesOnly_error {P : ε → Prop} {e : ε} (h : P e) :
    RaisesOnly P (.error e : Except ε α) := by
  rintro _ ⟨⟩
  exact h

theorem RaisesOnly.bind_of_eq_ok {P : ε → Prop} {x : Except ε α} {f : α → Except ε β}
    (hx : RaisesOnly P x) (hf : ∀ a, x = .ok a → RaisesOnly P (f a)) : RaisesOnly P (x >>= f) := by
  cases x with
  | error e => exact raisesOnly_error (hx e rfl)
  | ok a => exact hf a rfl

theorem RaisesOnly.bind {P : ε → Prop} {x : Except ε α} {f : α → Except ε β}
    (hx : RaisesOnly P x) (hf : ∀ a, RaisesOnly P (f a)) : RaisesOnly P (x >>= f) :=
  hx.bind_of_eq_ok fun a _ => hf a

theorem raisesOnly_refuse {P : ε → Prop} {c : Prop} [Decidable c] {e : ε} {x : Except ε α}
    (he : P e) (hx : RaisesOnly P x) : RaisesOnly P (if c then throw e else x) := by
  by_cases h : c
  · rw [if_pos h]
    exact raisesOnly_error he
  · rw [if_neg h]
    exact hx

theorem raisesOnly_mapError {P : ε' → Prop} (x : Except ε α) {f : ε → ε'} (h : ∀ e, P (f e)) :
    RaisesOnly P (x.mapError f) := by
  cases x with
  | error e => exact raisesOnly_error (h e)
  | ok a => exact raisesOnly_ok P a

end Outcome

namespace Verdict

variable {ε α : Type} [Explained ε]

@[simp] theorem ofExcept_eq_accepted (x : Except ε α) (a : α) :
    (ofExcept x : Verdict α) = .accepted a ↔ x = .ok a := by
  cases x <;> simp [ofExcept]

@[simp] theorem value?_eq_some (v : Verdict α) (a : α) : v.value? = some a ↔ v = .accepted a := by
  cases v <;> simp [value?]

theorem isAccepted_iff (v : Verdict α) : v.isAccepted = true ↔ ∃ a, v = .accepted a := by
  cases v <;> simp [isAccepted]

theorem isAccepted_ofExcept_iff (x : Except ε Unit) :
    (ofExcept x).isAccepted = true ↔ x = .ok () := by
  cases x <;> simp [ofExcept, isAccepted]

end Verdict

end PaymentTrust
