import Mathlib.Control.Monad.Basic

/-!
# Computations that may fail

When a computation of several stages succeeds, so does every stage, and the other
way round.
-/

namespace PeerMail

variable {Fault Other α β : Type}

theorem bind_eq_ok_iff {first : Except Fault α} {rest : α → Except Fault β} {result : β} :
    first >>= rest = .ok result ↔ ∃ value, first = .ok value ∧ rest value = .ok result := by
  cases first with
  | error fault => simp [bind, Except.bind]
  | ok value => simp [bind, Except.bind]

@[simp] theorem map_eq_ok_iff {step : Except Fault α} {change : α → β} {result : β} :
    change <$> step = .ok result ↔ ∃ value, step = .ok value ∧ change value = result := by
  cases step <;> simp [Functor.map, Except.map]

@[simp] theorem mapError_eq_ok_iff {step : Except Fault α} {wrap : Fault → Other} {value : α} :
    step.mapError wrap = .ok value ↔ step = .ok value := by
  cases step <;> simp [Except.mapError]

@[simp] theorem pure_eq_ok_iff {value result : α} :
    (pure value : Except Fault α) = .ok result ↔ value = result := by
  simp [pure, Except.pure]

@[simp] theorem throw_eq_error (fault : Fault) :
    (throw fault : Except Fault α) = .error fault := rfl

end PeerMail
