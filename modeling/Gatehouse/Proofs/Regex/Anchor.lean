import Gatehouse.Proofs.Regex.Branch

/-!
# Anchors around a text

A `^` in front of a text and a `$` behind it become pieces of its first and of its last branch. This
module follows both through the reading of the text: `Over` relates what is read with and without
the pieces in front, and `run_groupParts_dollar` adds the one behind.
-/

namespace Gatehouse.Regex

open Reader

variable {front : List (Option Piece)} {s s' t : GroupState} {part : GroupPart} {n m : Nat}
  {flags flags' : Flags} {i j : Input}

/-! ## Pieces in front -/

/-- What has been read of a group, without and with some pieces in front of everything. -/
inductive Over (front : List (Option Piece)) : GroupState → GroupState → Prop
  | first (pieces : List (Option Piece)) : Over front ⟨[], pieces⟩ ⟨[], pieces ++ front⟩
  | later (alternatives : List Piece) (pieces rest : List (Option Piece)) :
    Over front ⟨alternatives ++ [concat pieces], rest⟩
      ⟨alternatives ++ [concat (pieces ++ front)], rest⟩

/-- A part is added behind the pieces in front. -/
theorem Over.add (h : Over front s t) (hadd : s.add part = some s') :
    ∃ t', t.add part = some t' ∧ Over front s' t' := by
  cases part with
  | bar =>
    cases hadd
    cases h with
    | first pieces => exact ⟨_, rfl, .later [] pieces []⟩
    | later alternatives pieces rest => exact ⟨_, rfl, .later (concat rest :: alternatives) pieces []⟩
  | flags =>
    cases hadd
    cases h with
    | first pieces => exact ⟨_, rfl, .first (none :: pieces)⟩
    | later alternatives pieces rest => exact ⟨_, rfl, .later alternatives pieces (none :: rest)⟩
  | piece e depth =>
    cases hadd
    cases h with
    | first pieces => exact ⟨_, rfl, .first (some ⟨e, depth⟩ :: pieces)⟩
    | later alternatives pieces rest =>
      exact ⟨_, rfl, .later alternatives pieces (some ⟨e, depth⟩ :: rest)⟩
  | repetition low high greedy =>
    cases h with
    | first pieces =>
      match pieces, hadd with
      | some p :: pieces, hadd =>
        cases hadd
        exact ⟨_, rfl, .first (some _ :: pieces)⟩
    | later alternatives pieces rest =>
      match rest, hadd with
      | some p :: rest, hadd =>
        cases hadd
        exact ⟨_, rfl, .later alternatives pieces (some _ :: rest)⟩

/-! ## A dollar sign behind -/

/-- What has been read of a group with the condition of a dollar sign behind. -/
def GroupState.ended (s : GroupState) (flags : Flags) : GroupState :=
  { s with pieces := some ⟨.look (dollar flags), 0⟩ :: s.pieces }

theorem run_groupParts_at_dollar {groups : Nat} {names : List (String × Nat)}
    (hverbose : flags.verbose = false) :
    (groupParts (n + 2) flags s).run ⟨['$'], groups, names⟩ =
      some ((flags, s.ended flags), ⟨[], groups, names⟩) := by
  have hpart : (groupPart (insideOf (n + 1)) flags '$').run ⟨['$'], groups, names⟩ =
      some ((flags, .piece (.look (dollar flags)) 0), ⟨[], groups, names⟩) := rfl
  rw [run_groupParts_of_part (unblanked_of_not_verbose hverbose _) (by decide) hpart rfl,
    run_groupParts_stop (by simp [unblanked_nil]), unblanked_nil]
  rfl

/-- The dollar sign behind a text becomes its last piece. -/
theorem run_groupParts_dollar (hlt : n < m) (hover : Over front s t)
    (h : (groupParts n flags s).run i = some ((flags', s'), j)) (hrest : j.rest = [])
    (hverbose : flags'.verbose = false) :
    ∃ t', Over front s' t' ∧
      (groupParts m flags t).run i.dollared = some ((flags', t'.ended flags'), j) := by
  induction n generalizing m flags s t i with
  | zero => cases h
  | succ n ih =>
    obtain ⟨m, rfl⟩ : ∃ k, m = k + 1 := Nat.exists_eq_add_one_of_ne_zero (Nat.ne_zero_of_lt hlt)
    replace hlt : n < m := Nat.lt_of_succ_lt_succ hlt
    obtain ⟨rest, groups, names⟩ := i
    cases hblank : unblanked flags rest with
    | nil =>
      rw [run_groupParts_stop (by simp [hblank]), hblank] at h
      cases h
      have hnil : rest = [] := by rwa [unblanked_of_not_verbose hverbose] at hblank
      subst hnil
      obtain ⟨m, rfl⟩ : ∃ k, m = k + 1 := Nat.exists_eq_add_one_of_ne_zero (Nat.ne_zero_of_lt hlt)
      exact ⟨t, hover, run_groupParts_at_dollar hverbose⟩
    | cons c cs =>
      have hblank' : unblanked flags (rest ++ ['$']) = c :: (cs ++ ['$']) := by
        rw [unblanked_dollar (hblank ▸ List.cons_ne_nil c cs), hblank, List.cons_append]
      by_cases hc : c = ')'
      · -- a parenthesis that closes nothing is left behind
        subst hc
        rw [run_groupParts_stop (by simp [hblank]), hblank] at h
        cases h
        cases hrest
      · obtain ⟨flags₁, part, i, s₁, hpart, hadd, hparts⟩ :=
          (run_groupParts_cons_eq_some hblank hc).mp h
        have hinside (inner : Flags) : Local (insideOf n inner) (insideOf m inner) :=
          (local_groupParts (Nat.le_of_lt hlt)).bind fun _ => (closed_pure _).toLocal
        obtain ⟨t₁, hadd', hover'⟩ := hover.add hadd
        obtain ⟨t', hover'', hparts'⟩ := ih hlt hover' hparts
        exact ⟨t', hover'', (run_groupParts_cons_eq_some hblank' hc).mpr
          ⟨flags₁, part, _, t₁, closedAt_groupPart hinside c hpart, hadd', hparts'⟩⟩

/-! ## The prefix -/

/-- The pieces in front of a pattern: case does not count, and then the start of the text. -/
def startPieces : List (Option Piece) := [some ⟨.look .textStart, 0⟩, none]

theorem run_groupParts_prefix {cs : List Char} :
    (groupParts (n + 2) {} {}).run { rest := "(?i)^".toList ++ cs } =
      (groupParts n { ignoreCase := true } ⟨[], startPieces⟩).run { rest := cs } := by
  have hflags : (groupPart (insideOf (n + 1)) {} '(').run { rest := "(?i)^".toList ++ cs } =
      some (({ ignoreCase := true }, .flags), { rest := '^' :: cs }) := rfl
  have hcaret : (groupPart (insideOf n) { ignoreCase := true } '^').run { rest := '^' :: cs } =
      some (({ ignoreCase := true }, .piece (.look .textStart) 0), { rest := cs }) := rfl
  exact (run_groupParts_of_part rfl (by decide) hflags rfl).trans
    (run_groupParts_of_part rfl (by decide) hcaret rfl)

/-- A text between the anchors of a pattern is read as it is by itself, its first branch behind the
start of the text, and the condition of the dollar sign behind its last branch. -/
theorem run_groupParts_anchored {cs : List Char} (hlt : n < m)
    (h : (groupParts n { ignoreCase := true } {}).run { rest := cs } = some ((flags, s), i))
    (hrest : i.rest = []) (hverbose : flags.verbose = false) :
    ∃ t, Over startPieces s t ∧
      (groupParts (m + 2) {} {}).run { rest := "(?i)^".toList ++ (cs ++ ['$']) } =
        some ((flags, t.ended flags), i) := by
  obtain ⟨t, hover, ht⟩ := run_groupParts_dollar hlt (.first []) h hrest hverbose
  exact ⟨t, hover, run_groupParts_prefix.trans ht⟩

/-! ## What anchored branches describe -/

variable {pre part post text : List Char}

theorem look_then_iff {l : Look} {P : Occurrence} :
    Then (Expr.look l).Spans P pre text post ↔
      l.holds (.between pre (text ++ post)) = true ∧ P pre text post := by
  constructor
  · rintro ⟨_, v, rfl, ⟨rfl, hl⟩, hP⟩
    rw [List.append_nil] at hP
    exact ⟨hl, hP⟩
  · rintro ⟨hl, hP⟩
    refine ⟨[], text, rfl, ⟨rfl, hl⟩, ?_⟩
    rwa [List.append_nil]

theorem then_look_iff {l : Look} {P : Occurrence} :
    Then P (Expr.look l).Spans pre text post ↔
      P pre text post ∧ l.holds (.between (pre ++ text) post) = true := by
  constructor
  · rintro ⟨u, _, rfl, hP, rfl, hl⟩
    rw [List.append_nil]
    exact ⟨hP, hl⟩
  · rintro ⟨hP, hl⟩
    exact ⟨text, [], (List.append_nil text).symm, hP, rfl, hl⟩

theorem textStart_holds_iff : Look.textStart.holds (.between pre post) = true ↔ pre = [] := by
  simp [Look.holds, Place.between]

/-- A part of a text is what one of some branches describes, at the start of the text if it is the
first branch, and at an end where `stop` holds if it is the last. -/
def Anchored (branches : List Expr) (stop : Look) : Occurrence := fun pre text post =>
  ∃ front branch back, branches = front ++ branch :: back ∧ branch.Spans pre text post ∧
    (front = [] → pre = []) ∧ (back = [] → stop.holds (.between (pre ++ text) post) = true)

theorem anchored_singleton {e : Expr} {stop : Look} : Anchored [e] stop pre text post ↔
    (pre = [] ∧ e.Spans pre text post) ∧ stop.holds (.between (pre ++ text) post) = true := by
  constructor
  · rintro ⟨front, branch, back, heq, hspans, hpre, hstop⟩
    obtain ⟨rfl, rfl, rfl⟩ : front = [] ∧ branch = e ∧ back = [] := by
      rcases List.cons_eq_append_iff.mp heq with ⟨rfl, h⟩ | ⟨front, rfl, h⟩
      · exact ⟨rfl, List.cons_eq_cons.mp h⟩
      · cases front <;> cases h
    exact ⟨⟨hpre rfl, hspans⟩, hstop rfl⟩
  · rintro ⟨⟨hpre, hspans⟩, hstop⟩
    exact ⟨[], e, [], rfl, hspans, fun _ => hpre, fun _ => hstop⟩

theorem anchored_cons_concat {e last : Expr} {es : List Expr} {stop : Look} :
    Anchored (e :: (es ++ [last])) stop pre text post ↔ (pre = [] ∧ e.Spans pre text post) ∨
      (∃ branch ∈ es, branch.Spans pre text post) ∨
        (last.Spans pre text post ∧ stop.holds (.between (pre ++ text) post) = true) := by
  constructor
  · rintro ⟨front, branch, back, heq, hspans, hpre, hstop⟩
    cases front with
    | nil =>
      obtain ⟨rfl, -⟩ := List.cons_eq_cons.mp heq
      exact .inl ⟨hpre rfl, hspans⟩
    | cons first front =>
      have htail : es ++ [last] = front ++ branch :: back := (List.cons_eq_cons.mp heq).2
      rcases List.eq_nil_or_concat back with rfl | ⟨back, final, rfl⟩
      · obtain ⟨-, hlast⟩ := List.append_inj' htail rfl
        obtain rfl := List.singleton_inj.mp hlast
        exact .inr (.inr ⟨hspans, hstop rfl⟩)
      · have hinit : es ++ [last] = (front ++ branch :: back) ++ [final] := by simpa using htail
        obtain ⟨rfl, -⟩ := List.append_inj' hinit rfl
        exact .inr (.inl ⟨branch, by simp, hspans⟩)
  · rintro (⟨hpre, hspans⟩ | ⟨branch, hmem, hspans⟩ | ⟨hspans, hstop⟩)
    · exact ⟨[], e, es ++ [last], rfl, hspans, fun _ => hpre, by simp⟩
    · obtain ⟨front, back, rfl⟩ := List.append_of_mem hmem
      exact ⟨e :: front, branch, back ++ [last], by simp, hspans, by simp, by simp⟩
    · exact ⟨e :: es, last, [], rfl, hspans, by simp, fun _ => hstop⟩

theorem branches_append (alternatives : List Piece) (p : Piece) (rest : List (Option Piece)) :
    GroupState.branches ⟨alternatives ++ [p], rest⟩ =
      p.expr :: ((alternatives.map Piece.expr).reverse ++ [(concat rest).expr]) := by
  simp [GroupState.branches]

/-- The anchors stand in the first and in the last branch only. -/
theorem spans_ended_iff (h : Over startPieces s t) :
    (∃ branch ∈ (t.ended flags).branches, branch.Spans pre text post) ↔
      Anchored s.branches (dollar flags) pre text post := by
  have hfirst (pieces : List (Option Piece)) {pre text post : List Char} :
      (concat (pieces ++ startPieces)).expr.Spans pre text post ↔
        pre = [] ∧ (concat pieces).expr.Spans pre text post := by
    rw [spans_concat_append]
    exact look_then_iff.trans (and_congr_left' textStart_holds_iff)
  have hlast (pieces : List (Option Piece)) {pre text post : List Char} :
      (concat (some ⟨.look (dollar flags), 0⟩ :: pieces)).expr.Spans pre text post ↔
        (concat pieces).expr.Spans pre text post ∧
          (dollar flags).holds (.between (pre ++ text) post) = true :=
    (spans_concat_append [some ⟨.look (dollar flags), 0⟩] pieces).trans then_look_iff
  cases h with
  | first pieces =>
    simp only [GroupState.branches, GroupState.ended, List.map_cons, List.map_nil,
      List.reverse_singleton, List.mem_singleton, exists_eq_left, anchored_singleton, hlast, hfirst]
  | later alternatives pieces rest =>
    rw [GroupState.ended, branches_append, branches_append, anchored_cons_concat]
    simp only [List.mem_cons, List.mem_append, List.not_mem_nil, or_false, or_and_right, exists_or,
      exists_eq_left, hlast, hfirst]

end Gatehouse.Regex
