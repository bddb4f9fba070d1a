import Gatehouse.Proofs.Regex.Reader

/-!
# Reading characters and classes with a dollar sign behind

What follows a backslash and what stands in brackets is read the same with a dollar sign behind the
text. A class ends with its bracket, however deep classes nest in it (`firm_classBody`).
-/

namespace Gatehouse.Regex

open Reader

variable {i j : Input} {flags : Flags}

/-! ## Characters behind a backslash -/

theorem closed_hexEscape (digits : Nat) : Closed (hexEscape digits) (hexEscape digits) := by
  refine (closed_accept (by decide)).bind fun braces => ?_
  cases braces with
  | true =>
    exact ((local_takeWhile _).bind_firm fun ds => firm_next.bind fun _ => closed_lift _).closed
  | false =>
    intro i c j h
    simp only [skip, Bool.false_eq_true, if_false, StateT.run_bind, StateT.run_get, StateT.run_modify,
      Option.pure_def, Option.bind_eq_bind, Option.bind_some] at h ⊢
    by_cases hlt : i.rest.length < digits
    · rw [if_pos hlt] at h
      cases h
    · have hle : digits ≤ i.rest.length := Nat.le_of_not_lt hlt
      have hle' : ¬ i.dollared.rest.length < digits := by simp [Input.dollared]; omega
      rw [if_neg hlt] at h
      rw [if_neg hle', Input.dollared, List.take_append_of_le_length hle,
        List.drop_append_of_le_length hle]
      obtain ⟨hrest, hrun⟩ := closed_lift _ h
      exact ⟨fun hj hnil => hrest hj (by simp [hnil]), hrun⟩

theorem firm_unicodeClass (negated : Bool) :
    Firm (unicodeClass flags negated) (unicodeClass flags negated) := by
  rw [unicodeClass]
  split
  · exact firm_failure
  · refine firm_next.bind fun c => ?_
    split
    · exact (closed_lift _).bind fun s => closed_lift _
    · refine ((local_takeWhile _).bind_firm fun text => firm_next.bind fun _ => ?_).closed
      dsimp only
      split
      all_goals exact (closed_lift _).bind fun s => closed_lift _

theorem drop_length_takeWhile (p : Char → Bool) (cs : List Char) :
    cs.drop (cs.takeWhile p).length = cs.dropWhile p := by
  induction cs with
  | nil => rfl
  | cons c cs ih => by_cases hc : p c = true <;> simp [hc, ih]

theorem closed_boundary : Closed (boundary flags) (boundary flags) := by
  rintro ⟨rest, groups, names⟩ l j h
  have hblank (cs : List Char) := (@takeWhile_dollar Text.isBlank cs (.inl (by decide))).2
  have hname (cs : List Char) :=
    @takeWhile_dollar (fun c => c.isAlpha || c == '-') cs (.inl (by decide))
  simp only [boundary, StateT.run_bind, StateT.run_get, Option.pure_def, Option.bind_eq_bind,
    Option.bind_some, Input.dollared, drop_length_takeWhile] at h ⊢
  split at h
  case h_1 cs =>
    rw [List.cons_append]
    simp only [hblank]
    split at h
    case h_1 => cases h
    case h_2 c inner heq =>
      simp only [heq, List.cons_append] at h ⊢
      simp only [← List.cons_append, (hname (c :: inner)).1, (hname (c :: inner)).2, hblank]
      refine ⟨fun _ => List.cons_ne_nil _ cs, ?_⟩
      split at h
      case isTrue hc =>
        rw [if_pos hc]
        split at h
        case h_1 behind heq' =>
          rw [heq', List.cons_append]
          simp only [StateT.run_bind, StateT.run_set, Option.pure_def, Option.bind_eq_bind,
            Option.bind_some] at h ⊢
          exact (closed_lift _ h).2
        case h_2 => cases h
      case isFalse hc =>
        rw [if_neg hc]
        exact (closed_pure _ h).2
  case h_2 hne =>
    obtain ⟨hrest, hrun⟩ := closed_pure _ h
    refine ⟨hrest, ?_⟩
    split
    case h_1 heq =>
      obtain ⟨cs, rfl, -⟩ := append_dollar_eq_cons heq (by decide)
      exact absurd rfl (hne cs)
    case h_2 => exact hrun

theorem firm_escaped : Firm (escaped flags) (escaped flags) := by
  refine firm_next.bind fun c => ?_
  split
  any_goals exact closed_pure _
  any_goals exact (closed_hexEscape _).bind fun _ => closed_pure _
  any_goals exact (firm_unicodeClass _).closed.bind fun _ => closed_pure _
  any_goals exact (closed_lift _).bind fun _ => closed_pure _
  any_goals exact closed_boundary.bind fun _ => closed_pure _
  split
  · exact closed_pure _
  · exact firm_failure.closed

/-! ## Classes -/

theorem namedRanges_dollar (cs : List Char) : namedRanges? (cs ++ ['$']) =
    (namedRanges? cs).map fun (ranges, rest) => (ranges, rest ++ ['$']) := by
  rw [namedRanges?, namedRanges?]
  simp only [drop_length_takeWhile]
  by_cases hnil : cs.dropWhile (· != ':') = []
  · rw [List.dropWhile_append, hnil]
    rfl
  · rw [(takeWhile_dollar (.inr hnil)).1, (takeWhile_dollar (.inr hnil)).2]
    generalize cs.dropWhile (· != ':') = behind
    rcases behind with _ | ⟨x, _ | ⟨y, behind⟩⟩
    · rfl
    · rw [List.singleton_append]
      split
      all_goals simp_all
    · simp only [List.cons_append]
      split
      all_goals simp_all

theorem leadingClass_dollar (cs : List Char) : leadingClass? (cs ++ ['$']) =
    (leadingClass? cs).map fun (negated, ranges, rest) => (negated, ranges, rest ++ ['$']) := by
  have hmap (negated : Bool) (rest : List Char) :
      (namedRanges? (rest ++ ['$'])).map (negated, ·) = ((namedRanges? rest).map (negated, ·)).map
        fun (negated, ranges, rest) => (negated, ranges, rest ++ ['$']) := by
    rw [namedRanges_dollar, Option.map_map, Option.map_map]
    rfl
  fun_cases leadingClass? cs with
  | case1 rest => exact hmap true rest
  | case2 rest hne =>
    rw [List.cons_append, List.cons_append, leadingClass?, hmap]
    intro tail htail
    obtain ⟨tail, rfl, -⟩ := append_dollar_eq_cons htail (by decide)
    exact hne tail rfl
  | case3 cs hne hne' =>
    rw [leadingClass?]
    · rfl
    all_goals
      intro rest hrest
      obtain ⟨_, rfl, h⟩ := append_dollar_eq_cons hrest (by decide)
      obtain ⟨_, rfl, -⟩ := append_dollar_eq_cons h.symm (by decide)
      exact hne' _ rfl

theorem closed_namedClass : Closed (namedClass? flags) (namedClass? flags) := by
  rintro ⟨rest, groups, names⟩ l j h
  simp only [namedClass?, StateT.run_bind, StateT.run_get, Option.pure_def, Option.bind_eq_bind,
    Option.bind_some, Input.dollared, leadingClass_dollar] at h ⊢
  cases hlead : leadingClass? rest with
  | none =>
    rw [hlead] at h
    exact closed_pure _ h
  | some found =>
    obtain ⟨negated, ranges, behind⟩ := found
    rw [hlead] at h
    refine ⟨fun _ hnil => ?_, ?_⟩
    · rw [hnil] at hlead
      cases hlead
    · simp only [StateT.run_bind, StateT.run_set, Option.pure_def, Option.bind_eq_bind,
        Option.bind_some, Option.map_some] at h ⊢
      exact ((closed_lift _).bind fun s => closed_pure (some s)) h |>.2

theorem firm_classItem : Firm (classItem flags) (classItem flags) := by
  refine firm_next.bind fun c => ?_
  split
  · exact firm_escaped.closed
  · exact closed_pure _

/-- A dash with something behind it makes a range or does not. -/
theorem continuesRange_dollar {cs : List Char} (hne : cs ≠ [])
    (h : continuesRange flags cs = true → unblanked flags cs.tail ≠ []) :
    continuesRange flags (cs ++ ['$']) = continuesRange flags cs := by
  fun_cases continuesRange flags cs with
  | case1 behind next =>
    have hbehind : unblanked flags behind ≠ [] := fun hnil => by
      have hrange : continuesRange flags ('-' :: behind) = true := by rw [continuesRange, hnil]; rfl
      exact h hrange hnil
    rw [List.cons_append, continuesRange, unblanked_dollar hbehind,
      List.head?_append_of_ne_nil _ hbehind]
  | case2 cs hdash =>
    rw [continuesRange]
    intro behind hbehind
    obtain ⟨tail, rfl, -⟩ := append_dollar_eq_cons hbehind (by decide)
    exact hdash tail rfl

theorem firm_rangeEnd (first : Primitive) :
    Firm (rangeEnd flags first) (rangeEnd flags first) := by
  refine (local_skip 1).bind_firm fun _ => (local_blanks flags).bind_firm fun _ =>
    firm_classItem.bind fun last => (closed_lift _).bind fun a => (closed_lift _).bind fun b => ?_
  split
  · exact firm_failure.closed
  · exact closed_pure _

/-- There is an item behind the dash of a range. -/
theorem unblanked_of_rangeEnd {first : Primitive} {s : Unicode.CharSet}
    (h : (rangeEnd flags first).run i = some (s, j)) : unblanked flags i.rest.tail ≠ [] := by
  obtain ⟨_, _, ⟨⟩, h⟩ := run_bind_eq_some.mp h
  obtain ⟨_, _, ⟨⟩, h⟩ := run_bind_eq_some.mp h
  obtain ⟨last, _, hlast, -⟩ := run_bind_eq_some.mp h
  rw [← List.drop_one]
  exact (firm_classItem hlast).1

theorem local_classRange : Local (classRange flags) (classRange flags) := by
  refine firm_classItem.toLocal.bind fun first => (local_blanks flags).bind fun _ => ?_
  intro i s j h hrest
  rw [run_get_bind] at h
  rw [run_get_bind, Input.dollared]
  by_cases hc : continuesRange flags i.rest = true
  · rw [if_pos hc] at h
    obtain ⟨hne, hrun⟩ := firm_rangeEnd first h
    refine ⟨hne, ?_⟩
    rw [continuesRange_dollar hne fun _ => unblanked_of_rangeEnd h, if_pos hc]
    exact hrun
  · rw [if_neg hc] at h
    obtain ⟨hne, hrun⟩ := (closed_lift _).toLocal h hrest
    refine ⟨hne, ?_⟩
    rw [continuesRange_dollar hne fun h => absurd h hc, if_neg hc]
    exact hrun

theorem closed_setOp : Closed setOp? setOp? :=
  closed_accept_if (by decide) (closed_pure _) (closed_accept_if (by decide) (closed_pure _)
    (closed_accept_if (by decide) (closed_pure _) (closed_pure _)))

/-- A class ends with its bracket, whatever stands behind. -/
theorem firm_classBody {n m : Nat} (hle : n ≤ m) {open_ negated : Bool} {depth : Nat}
    {state : ClassState} : Firm (classBody flags n open_ negated depth state)
      (classBody flags m open_ negated depth state) := by
  induction n generalizing m open_ negated depth state with
  | zero => exact firm_failure
  | succ n ih =>
    obtain ⟨m, rfl⟩ := Nat.exists_eq_add_of_le' (Nat.le_trans (Nat.le_add_left 1 n) hle)
    replace ih {open_ negated depth state} := @ih m (Nat.le_of_succ_le_succ hle) open_ negated depth state
    cases open_ with
    | true =>
      refine (local_blanks flags).bind_firm fun _ => (closed_accept (by decide)).toLocal.bind_firm
        fun negated => (local_blanks flags).bind_firm fun _ =>
        (local_takeWhile _).bind_firm fun dashes => (local_blanks flags).bind_firm fun _ =>
        local_peek.bind_firm fun next => ?_
      split
      · exact (local_skip 1).bind_firm fun _ => ih
      · exact ih
    | false =>
      refine (local_blanks flags).bind_firm fun _ => firm_peek_bind firm_failure fun c => ?_
      split
      case h_1 heq => cases heq
      case h_2 =>
        refine (closed_namedClass.bind fun named => ?_).closedAt
        split
        · exact ih.closed
        · exact ((local_skip 1).bind_firm fun _ => ih.bind fun inner => ih.closed).closed
      case h_3 => exact closedAt_skip ((closed_lift _).bind fun s => closed_pure _)
      case h_4 =>
        refine (closed_setOp.bind fun op => ?_).closedAt
        split
        · exact ih.closed
        · exact (local_classRange.bind_firm fun s => ih).closed

end Gatehouse.Regex
