import Gatehouse.Proofs.Regex.Expr
import Gatehouse.Proofs.Regex.Group
import Gatehouse.Proofs.Regex.Search

/-!
# What has been read of a group

The branches of a group are its alternatives, each made of pieces in a row. A group describes what
one of its branches describes (`spans_result_iff`), and pieces that are put before or behind others
describe what stands before or behind (`spans_concat_append`). All that is read is ordered.
-/

namespace Gatehouse.Regex

open Reader

variable {pre text post : List Char}

/-! ## Pieces in a row -/

/-- The texts that pieces describe one behind the other, the last piece first. -/
def Row : List Piece → Occurrence
  | [] => fun _ text _ => text = []
  | p :: pieces => Then (Row pieces) p.expr.Spans

theorem row_append (ps qs : List Piece) :
    Row (ps ++ qs) pre text post ↔ Then (Row qs) (Row ps) pre text post := by
  induction ps generalizing pre text post with
  | nil => exact then_nothing.symm
  | cons p ps ih => exact (then_congr (fun _ _ _ => ih) fun _ _ _ => Iff.rfl).trans then_assoc

theorem spans_foldl_seq (pieces : List Piece) (e : Expr) :
    (pieces.foldl (fun e p => .seq p.expr e) e).Spans pre text post ↔
      Then (Row pieces) e.Spans pre text post := by
  induction pieces generalizing e with
  | nil => exact nothing_then.symm
  | cons p pieces ih => exact (ih (.seq p.expr e)).trans then_assoc.symm

theorem spans_concat (pieces : List (Option Piece)) :
    (concat pieces).expr.Spans pre text post ↔ Row (pieces.filterMap id) pre text post := by
  rw [concat]
  cases pieces.filterMap id with
  | nil => exact Iff.rfl
  | cons last rest =>
    cases rest with
    | nil => exact nothing_then.symm
    | cons p rest => exact spans_foldl_seq (p :: rest) last.expr

/-- Later pieces describe what stands behind. -/
theorem spans_concat_append (ps qs : List (Option Piece)) :
    (concat (ps ++ qs)).expr.Spans pre text post ↔
      Then (concat qs).expr.Spans (concat ps).expr.Spans pre text post := by
  rw [spans_concat, List.filterMap_append, row_append]
  exact then_congr (fun _ _ _ => (spans_concat qs).symm) fun _ _ _ => (spans_concat ps).symm

/-- Pieces in a row nest one deeper than they do by themselves. -/
theorem depth_concat_le {pieces : List (Option Piece)} {d : Nat}
    (h : ∀ p, some p ∈ pieces → p.depth ≤ d) : (concat pieces).depth ≤ d + 1 := by
  have hall : ∀ p ∈ pieces.filterMap id, p.depth ≤ d := by simpa using h
  have hmax (ps : List Piece) (m : Nat) (hm : m ≤ d) (hps : ∀ p ∈ ps, p.depth ≤ d) :
      ps.foldl (fun d p => max d p.depth) m ≤ d := by
    induction ps generalizing m with
    | nil => exact hm
    | cons p ps ih =>
      rw [List.forall_mem_cons] at hps
      exact ih _ (Nat.max_le.mpr ⟨hm, hps.1⟩) hps.2
  rw [concat]
  split
  · exact Nat.zero_le _
  · next p hp => exact Nat.le_succ_of_le (hall p (hp ▸ List.mem_singleton_self p))
  · next last rest _ hrest => exact Nat.succ_le_succ (hmax _ 0 (Nat.zero_le d) (hrest ▸ hall))

/-! ## Alternatives -/

/-- The alternatives of a group, the first one first. -/
def GroupState.branches (s : GroupState) : List Expr :=
  ((concat s.pieces :: s.alternatives).map Piece.expr).reverse

theorem spans_foldl_alt (pieces : List Piece) (e : Expr) :
    (pieces.foldl (fun e p => .alt p.expr e) e).Spans pre text post ↔
      (∃ p ∈ pieces, p.expr.Spans pre text post) ∨ e.Spans pre text post := by
  induction pieces generalizing e with
  | nil => simp
  | cons p pieces ih =>
    refine (ih (.alt p.expr e)).trans ?_
    simp only [List.mem_cons, or_and_right, exists_or, exists_eq_left]
    exact or_left_comm.trans or_assoc.symm

theorem spans_alternate (p : Piece) (pieces : List Piece) :
    (alternate (p :: pieces)).expr.Spans pre text post ↔
      ∃ q ∈ p :: pieces, q.expr.Spans pre text post := by
  cases pieces with
  | nil => simp [alternate]
  | cons q pieces =>
    refine (spans_foldl_alt (q :: pieces) p.expr).trans ?_
    simp [or_comm]

/-- A group describes what one of its branches describes. -/
theorem spans_result_iff {s : GroupState} : s.result.expr.Spans pre text post ↔
    ∃ branch ∈ s.branches, branch.Spans pre text post := by
  rw [GroupState.result, spans_alternate]
  simp [GroupState.branches, or_comm]

/-! ## Order -/

/-- All that has been read is ordered. -/
structure GroupState.Ordered (s : GroupState) : Prop where
  alternatives : ∀ p ∈ s.alternatives, p.expr.Ordered
  pieces : ∀ p, some p ∈ s.pieces → p.expr.Ordered

/-- A part that keeps what has been read ordered. -/
def GroupPart.Ordered : GroupPart → Prop
  | .bar => True
  | .flags => True
  | .piece e _ => e.Ordered
  | .repetition low high _ => Expr.Within low high low

theorem ordered_foldl {op : Expr → Expr → Expr} {pieces : List Piece} {e : Expr}
    (hop : ∀ a b : Expr, a.Ordered → b.Ordered → (op a b).Ordered)
    (hpieces : ∀ p ∈ pieces, p.expr.Ordered) (he : e.Ordered) :
    (pieces.foldl (fun e p => op p.expr e) e).Ordered := by
  induction pieces generalizing e with
  | nil => exact he
  | cons p pieces ih =>
    rw [List.forall_mem_cons] at hpieces
    exact ih hpieces.2 (hop p.expr e hpieces.1 he)

theorem ordered_concat {pieces : List (Option Piece)}
    (h : ∀ p, some p ∈ pieces → p.expr.Ordered) : (concat pieces).expr.Ordered := by
  have hall : ∀ p ∈ pieces.filterMap id, p.expr.Ordered := by simpa using h
  rw [concat]
  generalize pieces.filterMap id = ps at hall
  cases ps with
  | nil => trivial
  | cons last rest =>
    rw [List.forall_mem_cons] at hall
    cases rest with
    | nil => exact hall.1
    | cons p rest => exact ordered_foldl (fun _ _ => And.intro) hall.2 hall.1

theorem GroupState.Ordered.result {s : GroupState} (h : s.Ordered) : s.result.expr.Ordered := by
  have hlast : (concat s.pieces).expr.Ordered := ordered_concat h.pieces
  rw [GroupState.result]
  cases halts : s.alternatives with
  | nil => exact hlast
  | cons p pieces =>
    exact ordered_foldl (fun _ _ => And.intro) (halts ▸ h.alternatives) hlast

theorem GroupState.Ordered.add {s t : GroupState} {part : GroupPart} (h : s.Ordered)
    (hpart : part.Ordered) (hadd : s.add part = some t) : t.Ordered := by
  obtain ⟨alternatives, pieces⟩ := s
  cases part with
  | bar =>
    cases hadd
    exact ⟨List.forall_mem_cons.mpr ⟨ordered_concat h.pieces, h.alternatives⟩, by simp⟩
  | flags =>
    cases hadd
    exact ⟨h.alternatives, by simpa using h.pieces⟩
  | piece e depth =>
    cases hadd
    exact ⟨h.alternatives, by simpa using ⟨hpart, h.pieces⟩⟩
  | repetition low high greedy =>
    match pieces, h.pieces, hadd with
    | some p :: pieces, hpieces, hadd =>
      cases hadd
      refine ⟨h.alternatives, fun q hq => ?_⟩
      rcases List.mem_cons.mp hq with heq | hq
      · obtain rfl := Option.some_inj.mp heq
        exact ⟨hpart, hpieces p List.mem_cons_self⟩
      · exact hpieces q (List.mem_cons_of_mem _ hq)

/-! ### Readers -/

variable {α β : Type} {P : β → Prop} {flags : Flags}

/-- What a reader yields has a property. -/
def Yields (r : Reader α) (P : α → Prop) : Prop := ∀ ⦃i a j⦄, r.run i = some (a, j) → P a

theorem yields_pure {b : β} (h : P b) : Yields (pure b) P := by
  rintro i _ _ ⟨⟩
  exact h

theorem yields_failure : Yields (failure : Reader β) P := by
  intro i b j h
  cases h

theorem yields_bind {r : Reader α} {Q : α → Prop} {f : α → Reader β} (h : Yields r Q)
    (hf : ∀ a, Q a → Yields (f a) P) : Yields (r >>= f) P := by
  intro i b k hrun
  obtain ⟨a, j, hr, hb⟩ := run_bind_eq_some.mp hrun
  exact hf a (h hr) hb

theorem yields_bind_of_forall {r : Reader α} {f : α → Reader β} (hf : ∀ a, Yields (f a) P) :
    Yields (r >>= f) P :=
  yields_bind (fun _ _ _ _ => trivial) fun a (_ : True) => hf a

theorem yields_if {p : Prop} [Decidable p] {r s : Reader β} (hr : p → Yields r P)
    (hs : ¬ p → Yields s P) : Yields (if p then r else s) P := by
  split
  · exact hr ‹p›
  · exact hs ‹¬ p›

theorem yields_lift {o : Option β} (h : ∀ b ∈ o, P b) : Yields (liftM o) P := by
  intro i b j hrun
  obtain ⟨rfl, -⟩ := run_lift_eq_some.mp hrun
  exact h b rfl

/-- The upper end of a repetition is compared with its lower one. -/
theorem yields_counts : Yields (counts flags) fun (low, high) => Expr.Within low high low := by
  refine yields_bind_of_forall fun _ => yields_bind_of_forall fun low => yields_bind_of_forall
    fun _ => yields_if (fun _ => yields_bind_of_forall fun _ => yields_bind_of_forall fun _ =>
      yields_if (fun _ => ?_) fun _ => yields_bind_of_forall fun high => yields_bind_of_forall fun _ =>
        yields_if (fun hclosing => ?_) fun _ => yields_failure)
      fun _ => yields_bind_of_forall fun _ => yields_if (fun _ => ?_) fun _ => yields_failure
  · exact yields_pure ⟨Nat.le_refl low, by simp⟩
  · have hle : low ≤ high := of_decide_eq_true (Bool.and_eq_true_iff.mp hclosing).2
    exact yields_pure ⟨Nat.le_refl low, by simpa using hle⟩
  · exact yields_pure ⟨Nat.le_refl low, by simp⟩

theorem yields_repetition : Yields (repetition? flags) fun found =>
    ∀ counts ∈ found, Expr.Within counts.1 counts.2 counts.1 := by
  refine yields_bind_of_forall fun c => ?_
  split
  · exact yields_bind_of_forall fun _ => yields_pure (by simp [Expr.Within])
  · exact yields_bind_of_forall fun _ => yields_pure (by simp [Expr.Within])
  · exact yields_bind_of_forall fun _ => yields_pure (by simp [Expr.Within])
  · exact yields_bind_of_forall fun _ => yields_bind yields_counts fun found hfound =>
      yields_pure (by simpa using hfound)
  · exact yields_pure (by simp)

theorem ordered_literal (c : Char) : ∀ e ∈ literal flags c, e.Ordered := by
  simp [literal, Expr.Ordered]

theorem ordered_dot : ∀ e ∈ dot flags, e.Ordered := by
  intro e he
  rw [dot] at he
  split at he
  · cases he
  · split at he
    · cases he
      trivial
    · split at he <;> cases he <;> trivial

theorem yields_atom (c : Char) : Yields (atom flags c) Expr.Ordered := by
  unfold atom
  split
  · exact yields_lift ordered_dot
  · exact yields_pure trivial
  · exact yields_pure trivial
  · refine yields_bind_of_forall fun p => ?_
    split
    · exact yields_lift (ordered_literal _)
    · exact yields_pure trivial
    · exact yields_pure trivial
  · exact yields_lift (ordered_literal _)

theorem yields_groupPart {inside : Flags → Reader Piece} (c : Char)
    (hinside : ∀ inner, Yields (inside inner) fun p => p.expr.Ordered) :
    Yields (groupPart inside flags c) fun (_, part) => part.Ordered := by
  have hclose (inner : Flags) {k : Piece → GroupPart}
      (hk : ∀ p : Piece, p.expr.Ordered → (k p).Ordered) :
      Yields (do let p ← inside inner; if (← next) != ')' then failure else return (flags, k p))
        fun (_, part) => part.Ordered :=
    yields_bind (hinside inner) fun p hp => yields_bind_of_forall fun _ =>
      yields_if (fun _ => yields_failure) fun _ => yields_pure (hk p hp)
  unfold groupPart
  split
  · exact yields_bind_of_forall fun _ => yields_pure trivial
  · refine yields_bind_of_forall fun _ => yields_bind_of_forall fun opening => ?_
    split
    · exact yields_pure trivial
    · exact hclose _ fun p hp => hp
    · exact hclose _ fun p hp => hp
  · exact yields_bind_of_forall fun _ => yields_bind_of_forall fun _ => yields_bind_of_forall
      fun _ => yields_pure trivial
  · refine yields_bind yields_repetition fun found hfound => ?_
    split
    · exact yields_bind_of_forall fun _ => yields_pure (hfound _ rfl)
    · exact yields_bind_of_forall fun _ => yields_bind (yields_atom c) fun e he => yields_pure he

theorem ordered_groupParts {n : Nat} {state : GroupState} (h : state.Ordered) :
    Yields (groupParts n flags state) fun (_, s) => s.Ordered := by
  induction n generalizing flags state with
  | zero => exact yields_failure
  | succ n ih =>
    have hinside (inner : Flags) : Yields (insideOf n inner) fun p => p.expr.Ordered :=
      yields_bind (ih ⟨by simp, by simp⟩) fun x hx => yields_pure (GroupState.Ordered.result hx)
    refine yields_bind_of_forall fun _ => yields_bind_of_forall fun c => ?_
    split
    · exact yields_pure h
    · exact yields_pure h
    · exact yields_bind (yields_groupPart _ hinside) fun x hx =>
        yields_bind (yields_lift fun t ht => h.add hx ht) fun t ht => ih ht

/-! ## Whole texts -/

theorem parse_eq_some {text : List Char} {e : Expr} {names : List (String × Nat)} :
    parse? text = some (e, names) ↔ ∃ flags state i,
      (groupParts (2 * text.length + 2) {} {}).run { rest := text } = some ((flags, state), i) ∧
        i.rest = [] ∧ state.result.depth ≤ nestLimit ∧ state.result.expr = e ∧ i.names = names := by
  simp only [parse?, Option.bind_eq_bind, Option.bind_eq_some_iff]
  constructor
  · rintro ⟨⟨⟨flags, state⟩, i⟩, hrun, h⟩
    split at h
    · next hend =>
      obtain ⟨hexpr, hnames⟩ : state.result.expr = e ∧ i.names = names := by simpa using h
      exact ⟨flags, state, i, hrun, List.isEmpty_iff.mp hend.1, hend.2, hexpr, hnames⟩
    · cases h
  · rintro ⟨flags, state, i, hrun, hrest, hdepth, rfl, rfl⟩
    exact ⟨((flags, state), i), hrun, if_pos ⟨List.isEmpty_iff.mpr hrest, hdepth⟩⟩

theorem ofText_eq_ok {room : Capacity} {text : String} {re : Regex} :
    ofText room text = .ok re ↔
      ∃ e names, parse? text.toList = some (e, names) ∧ room e = true ∧
        { node := e.toNode, names } = re := by
  rw [ofText]
  cases parse? text.toList with
  | none => simp
  | some result =>
    obtain ⟨e, names⟩ := result
    by_cases hroom : room e = true <;> simp [hroom]

/-- A text that spells a regular expression is read to its end, and the regular expression matches
where one of the branches read describes a part of the text. -/
theorem exists_branches_of_ofText {room : Capacity} {text : String} {re : Regex}
    (h : ofText room text = .ok re) :
    ∃ flags state i, (groupParts (2 * text.toList.length + 2) {} {}).run { rest := text.toList } =
        some ((flags, state), i) ∧ i.rest = [] ∧
      ∀ cs, re.isMatch cs = true ↔ ∃ branch ∈ state.branches,
        ∃ pre part post, cs = pre ++ (part ++ post) ∧ branch.Spans pre part post := by
  obtain ⟨e, names, hparse, -, rfl⟩ := ofText_eq_ok.mp h
  obtain ⟨flags, state, i, hrun, hrest, -, rfl, -⟩ := parse_eq_some.mp hparse
  have hordered : state.Ordered := ordered_groupParts ⟨by simp, by simp⟩ hrun
  refine ⟨flags, state, i, hrun, hrest, fun cs => ?_⟩
  simp only [isMatch_iff, Expr.runs_toNode_iff hordered.result, spans_result_iff]
  constructor
  · rintro ⟨pre, part, post, hcs, branch, hbranch, hspans⟩
    exact ⟨branch, hbranch, pre, part, post, hcs, hspans⟩
  · rintro ⟨branch, hbranch, pre, part, post, hcs, hspans⟩
    exact ⟨pre, part, post, hcs, branch, hbranch, hspans⟩

end Gatehouse.Regex
