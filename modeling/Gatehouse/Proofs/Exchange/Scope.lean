import Gatehouse.Exchange.Basic

/-!
# What a scope lets through

A scope interrupts an operation that it gives up. Whatever else comes out of it is what the operation
itself came to, within the limit of the scope.
-/

namespace Gatehouse

/-- Whether an error is that of an exchange that was interrupted. -/
def Error.IsInterruption : Error → Prop
  | .deadlineExceeded | .canceled => True
  | _ => False

namespace Scope

/-- The instant at which an operation of a scope is given up. -/
def limit (s : Scope) (now : Instant) (gone : Option Instant) : Option Instant :=
  earlier (earlier (s.deadline.map (max now)) s.cancelAt) gone

variable {α σ : Type} {s : Scope} {now finish : Instant} {gone : Option Instant} {unstarted after : σ}
  {operation : Option Instant → Waited (Except Error α) × σ} {result : Except Error α}

/-- An operation that is given up within a scope was interrupted, or its caller is gone. -/
theorem isInterruption_of_reason {e : Error} {limit : Option Instant}
    (h : s.reason now gone limit = .done finish e) : e.IsInterruption := by
  unfold reason at h
  split at h
  · cases h
  · split at h
    · cases h
    · split at h <;> cases h <;> trivial

/-- What is no interruption comes of the operation. -/
theorem operation_of_run (h : s.run now gone unstarted operation = (.done finish result, after))
    (hresult : ∀ e, result = .error e → ¬ e.IsInterruption) :
    s.isCancelled now = false ∧ operation (s.limit now gone) = (.done finish result, after) := by
  unfold run at h
  split at h
  · cases h
    exact absurd trivial (hresult _ rfl)
  · next hcancelled =>
    refine ⟨Bool.eq_false_iff.mpr hcancelled, ?_⟩
    dsimp only at h
    rw [limit]
    split at h
    · next hoperation => rw [hoperation, h]
    · split at h
      · cases h
      · next hreason =>
        cases h
        exact absurd (isInterruption_of_reason hreason) (hresult _ rfl)

end Scope

end Gatehouse
