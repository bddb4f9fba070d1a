import Gatehouse.Proofs.Regex.Group

/-!
# Characters that stand for themselves

Most characters of a regular expression are read as themselves. This module reads them, and the
repetition that a plus sign says of what stands before it.
-/

namespace Gatehouse.Regex

open Reader

variable {inside : Flags → Reader Piece} {c : Char} {cs : List Char} {groups : Nat}
  {names : List (String × Nat)}

/-- The characters that do not stand for themselves in a regular expression. -/
def specials : List Char := "|()[*+?\x7b.^$\\".toList

theorem run_repetition_none (hc : c ∉ specials) (flags : Flags) :
    (repetition? flags).run ⟨c :: cs, groups, names⟩ = some (none, ⟨c :: cs, groups, names⟩) := by
  refine run_bind_eq_some.mpr ⟨some c, ⟨c :: cs, groups, names⟩, rfl, ?_⟩
  split
  case h_5 => rfl
  all_goals
    next heq =>
      obtain rfl := Option.some_inj.mp heq
      exact absurd (by decide) hc

theorem run_groupPart_literal (hc : c ∉ specials) (flags : Flags) :
    (groupPart inside flags c).run ⟨c :: cs, groups, names⟩ =
      some ((flags, .piece (.one (foldCase flags (.single c))) 0), ⟨cs, groups, names⟩) := by
  have hatom : (atom flags c).run ⟨cs, groups, names⟩ =
      some (.one (foldCase flags (.single c)), ⟨cs, groups, names⟩) := by
    unfold atom
    split
    case h_5 => rfl
    all_goals exact absurd (by decide) hc
  unfold groupPart
  split
  case h_4 =>
    exact run_bind_eq_some.mpr ⟨none, _, run_repetition_none hc flags,
      run_bind_eq_some.mpr ⟨(), _, rfl, run_bind_eq_some.mpr ⟨_, _, hatom, rfl⟩⟩⟩
  all_goals exact absurd (by decide) hc

/-- A plus sign without a question mark behind it. -/
theorem run_groupPart_plus (hcs : cs.head? ≠ some '?') (flags : Flags) :
    (groupPart inside flags '+').run ⟨'+' :: cs, groups, names⟩ =
      some ((flags, .repetition 1 none (false == flags.swapGreed)), ⟨cs, groups, names⟩) := by
  have hlazy : (accept "?").run ⟨cs, groups, names⟩ = some (false, ⟨cs, groups, names⟩) := by
    rw [run_accept, if_neg]
    intro htake
    cases cs with
    | nil => cases htake
    | cons c cs => exact hcs (congrArg some (List.cons_eq_cons.mp htake).1)
  exact run_bind_eq_some.mpr ⟨_, _, rfl, run_bind_eq_some.mpr ⟨_, _, hlazy, rfl⟩⟩

end Gatehouse.Regex
