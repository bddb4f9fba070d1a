import Gatehouse.Proofs.Regex.Class

/-!
# Reading groups with a dollar sign behind

A group is read part by part. What is read of it is the same with a dollar sign behind the text,
where something of the text is left (`local_groupParts`); a group within it always leaves its
parenthesis.
-/

namespace Gatehouse.Regex

open Reader

variable {α : Type} {i j : Input} {flags : Flags}

/-! ## Repetitions and groups -/

theorem firm_decimal : Firm decimal decimal := by
  refine Closed.firm ?_ fun _ _ => rfl
  refine (closed_takeWhile (by decide)).bind fun _ => (closed_takeWhile (by decide)).bind fun digits =>
    (closed_takeWhile (by decide)).bind fun _ => closed_if firm_failure.closed ?_
  exact closed_if (closed_pure _) firm_failure.closed

theorem firm_counts : Firm (counts flags) (counts flags) := by
  refine (local_blanks flags).bind_firm fun _ => firm_decimal.bind fun low =>
    closed_accept_if (by decide) ?_ ?_
  · refine ((local_blanks flags).bind_firm fun _ => firm_accept_if (by decide) (by decide)
      (closed_pure _) (firm_decimal.bind fun high => ?_)).closed
    exact (closed_accept (by decide)).bind fun _ => closed_if (closed_pure _) firm_failure.closed
  · exact closed_accept_if (by decide) (closed_pure _) firm_failure.closed

theorem closed_repetition : Closed (repetition? flags) (repetition? flags) := by
  refine closed_peek_bind ?_ fun c => ?_
  · rintro groups names _ _ ⟨⟩
    exact ⟨rfl, rfl⟩
  · split
    · exact closedAt_skip (closed_pure _)
    · exact closedAt_skip (closed_pure _)
    · exact closedAt_skip (closed_pure _)
    · exact closedAt_skip (firm_counts.bind fun _ => closed_pure _).closed
    · exact (closed_pure _).closedAt

/-- Where no repetition comes next, nothing is read. -/
theorem eq_of_repetition_none (h : (repetition? flags).run i = some (none, j)) : j = i := by
  obtain ⟨c, _, ⟨⟩, h⟩ := run_bind_eq_some.mp h
  split at h
  case h_4 =>
    obtain ⟨_, _, -, h⟩ := run_bind_eq_some.mp h
    obtain ⟨_, _, -, h⟩ := run_bind_eq_some.mp h
    cases h
  case h_5 =>
    cases h
    rfl
  all_goals
    obtain ⟨_, _, -, h⟩ := run_bind_eq_some.mp h
    cases h

theorem closed_groupName : Closed groupName groupName := by
  refine ((local_takeWhile _).bind_firm fun name => firm_next.bind fun _ => ?_).closed
  split
  · exact firm_failure.closed
  · exact closed_get_bind fun i => closed_if (closed_pure _) firm_failure.closed

theorem closed_openCapture (name : Option String) : Closed (openCapture name) (openCapture name) := by
  rintro i _ _ ⟨⟩
  exact ⟨id, rfl⟩

theorem closed_opened : Closed (opened flags) (opened flags) := by
  refine (closed_accept (by decide)).bind fun _ => (closed_accept (by decide)).bind fun _ =>
    (closed_accept (by decide)).bind fun _ => (closed_accept (by decide)).bind fun _ =>
    closed_if firm_failure.closed ?_
  have hnamed : Closed (do openCapture (some (← groupName))) (do openCapture (some (← groupName))) :=
    closed_groupName.bind fun name => closed_openCapture _
  refine closed_accept_if (by decide) hnamed (closed_accept_if (by decide) hnamed
    (closed_accept_if (by decide) ?_ (closed_openCapture _)))
  exact ((local_takeWhile _).bind_firm fun letters => firm_next.bind fun closing =>
    (closed_lift _).bind fun updated => closed_if (closed_pure _)
      (closed_if firm_failure.closed (closed_pure _))).closed

theorem closed_atom (c : Char) : Closed (atom flags c) (atom flags c) := by
  unfold atom
  split
  · exact closed_lift _
  · exact closed_pure _
  · exact closed_pure _
  · refine (firm_escaped.bind fun p => ?_).closed
    split
    · exact closed_lift _
    · exact closed_pure _
    · exact closed_pure _
  · exact closed_lift _

section

variable {inside inside' : Flags → Reader Piece} (hinside : ∀ inner, Local (inside inner) (inside' inner))

include hinside

/-- A group ends with its parenthesis. -/
theorem firm_inside (inner : Flags) {k : Piece → Flags × GroupPart} :
    Firm (do let p ← inside inner; if (← next) != ')' then failure else return k p)
      (do let p ← inside' inner; if (← next) != ')' then failure else return k p) :=
  (hinside inner).bind_firm fun _ => firm_next.bind fun _ =>
    closed_if firm_failure.closed (closed_pure _)

theorem closedAt_groupPart (c : Char) :
    ClosedAt c (groupPart inside flags c) (groupPart inside' flags c) := by
  unfold groupPart
  split
  · exact closedAt_skip (closed_pure _)
  · refine closedAt_skip ?_
    rw [opening, bind_assoc, bind_assoc]
    refine ((local_blanks flags).bind_firm fun _ => Closed.firm (closed_opened.bind fun opening => ?_)
      fun groups names => ?_).closed
    · split
      · exact closed_pure _
      · exact (firm_inside hinside _).closed
      · exact (firm_inside hinside _).closed
    · -- at the end of the text a group opens that nothing closes
      have hcapture := firm_inside hinside flags (k := fun p =>
        (flags, .piece (.group (groups + 1) p.expr) (p.depth + 1)))
      exact hcapture.run_nil
  · have hle (i : Input) : 2 * i.rest.length + 2 ≤ 2 * i.dollared.rest.length + 2 := by
      simp only [Input.dollared, List.length_append]
      omega
    exact closedAt_skip (closed_get_bind fun i =>
      ((firm_classBody (hle i)).bind fun _ => closed_pure _).closed)
  · intro cs groups names a j h
    obtain ⟨rep, i, hrep, h⟩ := run_bind_eq_some.mp h
    refine run_bind_eq_some.mpr ⟨rep, i.dollared, (closed_repetition hrep).2, ?_⟩
    cases rep with
    | none =>
      obtain rfl := eq_of_repetition_none hrep
      exact closedAt_skip ((closed_atom c).bind fun e => closed_pure _) h
    | some rep => exact ((closed_accept (by decide)).bind fun _ => closed_pure _) h |>.2

end

/-! ### The parts of a group -/

/-- Reads the inside of a group. -/
def insideOf (fuel : Nat) (inner : Flags) : Reader Piece := do
  return (← groupParts fuel inner {}).2.result

variable {n m : Nat} {state : GroupState} {x : Flags × GroupState} {groups : Nat}
  {names : List (String × Nat)} {c : Char} {cs rest : List Char}

theorem run_groupParts_succ : (groupParts (n + 1) flags state).run ⟨rest, groups, names⟩ =
    (match (unblanked flags rest).head? with
      | none => pure (flags, state)
      | some ')' => pure (flags, state)
      | some c => do
        let (flags, part) ← groupPart (insideOf n) flags c
        groupParts n flags (← state.add part) : Reader (Flags × GroupState)).run
      ⟨unblanked flags rest, groups, names⟩ := rfl

/-- At the end of a group its reading stops. -/
theorem run_groupParts_stop (h : ∀ c ∈ (unblanked flags rest).head?, c = ')') :
    (groupParts (n + 1) flags state).run ⟨rest, groups, names⟩ =
      some ((flags, state), ⟨unblanked flags rest, groups, names⟩) := by
  rw [run_groupParts_succ]
  cases hrest : (unblanked flags rest).head? with
  | none => rfl
  | some c =>
    rw [hrest] at h
    obtain rfl := h c rfl
    rfl

/-- Before the end of a group one more part is read. -/
theorem run_groupParts_cons (h : unblanked flags rest = c :: cs) (hc : c ≠ ')') :
    (groupParts (n + 1) flags state).run ⟨rest, groups, names⟩ = (do
      let (flags, part) ← groupPart (insideOf n) flags c
      groupParts n flags (← state.add part) : Reader (Flags × GroupState)).run
        ⟨c :: cs, groups, names⟩ := by
  rw [run_groupParts_succ, h]
  split
  case h_1 heq => cases heq
  case h_2 heq => exact absurd (Option.some_inj.mp heq) hc
  case h_3 heq =>
    obtain rfl := Option.some_inj.mp heq
    rfl

theorem run_groupParts_cons_eq_some (h : unblanked flags rest = c :: cs) (hc : c ≠ ')') :
    (groupParts (n + 1) flags state).run ⟨rest, groups, names⟩ = some (x, j) ↔
      ∃ flags' part i state', (groupPart (insideOf n) flags c).run ⟨c :: cs, groups, names⟩ =
          some ((flags', part), i) ∧ state.add part = some state' ∧
        (groupParts n flags' state').run i = some (x, j) := by
  rw [run_groupParts_cons h hc]
  simp only [run_bind_eq_some, run_lift_eq_some]
  constructor
  · rintro ⟨⟨flags', part⟩, i, hpart, state', _, ⟨hadd, rfl⟩, hparts⟩
    exact ⟨flags', part, i, state', hpart, hadd, hparts⟩
  · rintro ⟨flags', part, i, state', hpart, hadd, hparts⟩
    exact ⟨(flags', part), i, hpart, state', i, ⟨hadd, rfl⟩, hparts⟩

theorem run_groupParts_of_part {part : GroupPart} {flags' : Flags} {state' : GroupState}
    (h : unblanked flags rest = c :: cs) (hc : c ≠ ')')
    (hpart : (groupPart (insideOf n) flags c).run ⟨c :: cs, groups, names⟩ =
      some ((flags', part), i)) (hadd : state.add part = some state') :
    (groupParts (n + 1) flags state).run ⟨rest, groups, names⟩ = (groupParts n flags' state').run i := by
  rw [run_groupParts_cons h hc]
  simp [StateT.run_bind, hpart, hadd]

/-- What is read of a group that something is left behind is read of it with a dollar sign, too. -/
theorem local_groupParts (hle : n ≤ m) : Local (groupParts n flags state) (groupParts m flags state) := by
  induction n generalizing m flags state with
  | zero => exact firm_failure.toLocal
  | succ n ih =>
    obtain ⟨m, rfl⟩ := Nat.exists_eq_add_of_le' (Nat.le_trans (Nat.le_add_left 1 n) hle)
    replace ih {flags state} := @ih flags m state (Nat.le_of_succ_le_succ hle)
    have hinside (inner : Flags) : Local (insideOf n inner) (insideOf m inner) :=
      ih.bind fun _ => (closed_pure _).toLocal
    rintro ⟨rest, groups, names⟩ x j h hrest
    cases hblank : unblanked flags rest with
    | nil =>
      rw [run_groupParts_stop (by simp [hblank]), hblank] at h
      cases h
      exact absurd rfl hrest
    | cons c cs =>
      have hne : unblanked flags rest ≠ [] := hblank ▸ List.cons_ne_nil c cs
      have hblank' : unblanked flags (rest ++ ['$']) = c :: (cs ++ ['$']) := by
        rw [unblanked_dollar hne, hblank, List.cons_append]
      refine ⟨fun (hnil : rest = []) => hne (by rw [hnil, unblanked_nil]), ?_⟩
      by_cases hc : c = ')'
      · subst hc
        rw [run_groupParts_stop (by simp [hblank]), hblank] at h
        cases h
        rw [Input.dollared, run_groupParts_stop (by simp [hblank']), hblank']
        rfl
      · obtain ⟨flags', part, i, state', hpart, hadd, hparts⟩ :=
          (run_groupParts_cons_eq_some hblank hc).mp h
        obtain ⟨-, hparts'⟩ := ih hparts hrest
        exact (run_groupParts_cons_eq_some hblank' hc).mpr
          ⟨flags', part, _, state', closedAt_groupPart hinside c hpart, hadd, hparts'⟩

end Gatehouse.Regex
