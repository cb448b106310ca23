import Mathlib.Init

/-! # Results in sequence -/
namespace Reckon
set_option autoImplicit false

variable {ε δ α β : Type}

@[simp] theorem ok_bind (a : α) (f : α → Except ε β) : (Except.ok a >>= f) = f a := rfl

@[simp] theorem error_bind (e : ε) (f : α → Except ε β) : (Except.error e >>= f) = .error e := rfl

theorem bind_eq_ok_iff {r : Except ε α} {f : α → Except ε β} {b : β} :
    r >>= f = .ok b ↔ ∃ a, r = .ok a ∧ f a = .ok b := by
  cases r with
  | error e => simp
  | ok a => simp

theorem bind_eq_error_iff {r : Except ε α} {f : α → Except ε β} {e : ε} :
    r >>= f = .error e ↔ r = .error e ∨ ∃ a, r = .ok a ∧ f a = .error e := by
  cases r with
  | error e => simp
  | ok a => simp

theorem map_eq_ok_iff {r : Except ε α} {f : α → β} {b : β} :
    f <$> r = .ok b ↔ ∃ a, r = .ok a ∧ f a = b := by
  cases r with
  | error e => simp [Functor.map, Except.map]
  | ok a => simp [Functor.map, Except.map]

theorem map_eq_error_iff {r : Except ε α} {f : α → β} {e : ε} :
    f <$> r = .error e ↔ r = .error e := by
  cases r with
  | error e => simp [Functor.map, Except.map]
  | ok a => simp [Functor.map, Except.map]

theorem mapError_bind (r : Except ε α) (f : α → Except ε β) (g : ε → δ) :
    (r >>= f).mapError g = r.mapError g >>= fun a => (f a).mapError g := by
  cases r <;> rfl

theorem mapError_eq_ok_iff {r : Except ε α} {f : ε → δ} {a : α} :
    r.mapError f = .ok a ↔ r = .ok a := by
  constructor
  · intro h
    cases r with
    | error e => cases h
    | ok b => exact congrArg Except.ok (Except.ok.inj h)
  · rintro rfl
    rfl

theorem mapError_eq_error_iff {r : Except ε α} {f : ε → δ} {d : δ} :
    r.mapError f = .error d ↔ ∃ e, r = .error e ∧ f e = d := by
  constructor
  · intro h
    cases r with
    | error e => exact ⟨e, rfl, Except.error.inj h⟩
    | ok b => cases h
  · rintro ⟨e, rfl, rfl⟩
    rfl

end Reckon
