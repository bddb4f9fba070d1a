import Gatehouse.Regex.Expr
import Gatehouse.Proofs.Regex.Node

/-!
# What an expression describes

`Expr.Spans` says which texts an expression describes, where they stand: a sequence describes one
text behind the other, a repetition so many of them. The node that an expression is made into for
matching runs through exactly these (`runs_toNode_iff`): what is copied, left out or done only once
on the way makes no difference.
-/

namespace Gatehouse.Regex

open Unicode (CharSet)

variable {P Q P' Q' : Occurrence} {pre text post : List Char} {m n : Nat}

/-! ## Texts in a row -/

theorem then_congr (hP : ∀ pre text post, P pre text post ↔ P' pre text post)
    (hQ : ∀ pre text post, Q pre text post ↔ Q' pre text post) :
    Then P Q pre text post ↔ Then P' Q' pre text post := by
  simp only [Then, hP, hQ]

theorem then_assoc {R : Occurrence} :
    Then (Then P Q) R pre text post ↔ Then P (Then Q R) pre text post := by
  constructor
  · rintro ⟨_, w, rfl, ⟨u, v, rfl, hP, hQ⟩, hR⟩
    rw [← List.append_assoc] at hP hR
    exact ⟨u, v ++ w, List.append_assoc u v w, hP, v, w, rfl, hQ, hR⟩
  · rintro ⟨u, _, rfl, hP, v, w, rfl, hQ, hR⟩
    rw [List.append_assoc] at hP hR
    exact ⟨u ++ v, w, (List.append_assoc u v w).symm, ⟨u, v, rfl, hP, hQ⟩, hR⟩

theorem nothing_then : Then (fun _ text _ => text = []) P pre text post ↔ P pre text post := by
  constructor
  · rintro ⟨_, v, rfl, rfl, hP⟩
    rwa [List.append_nil] at hP
  · intro hP
    refine ⟨[], text, rfl, rfl, ?_⟩
    rwa [List.append_nil]

theorem then_nothing : Then P (fun _ text _ => text = []) pre text post ↔ P pre text post := by
  constructor
  · rintro ⟨u, _, rfl, hP, rfl⟩
    rwa [List.append_nil]
  · intro hP
    exact ⟨text, [], (List.append_nil text).symm, hP, rfl⟩

theorem times_one : Times P 1 pre text post ↔ P pre text post := then_nothing

theorem times_congr (hP : ∀ pre text post, P pre text post ↔ P' pre text post) :
    ∀ n, ∀ pre text post, Times P n pre text post ↔ Times P' n pre text post
  | 0, _, _, _ => Iff.rfl
  | n + 1, _, _, _ => then_congr hP (times_congr hP n)

theorem times_add :
    Times P (m + n) pre text post ↔ Then (Times P m) (Times P n) pre text post := by
  induction m generalizing pre text post with
  | zero =>
    rw [Nat.zero_add]
    exact nothing_then.symm
  | succ m ih =>
    rw [Nat.add_right_comm]
    exact (then_congr (fun _ _ _ => Iff.rfl) fun _ _ _ => ih).trans then_assoc.symm

theorem then_exists_iff {F : Nat → Occurrence} {p : Nat → Prop} :
    Then P (fun pre text post => ∃ k, p k ∧ F k pre text post) pre text post ↔
      ∃ k, p k ∧ Then P (F k) pre text post := by
  constructor
  · rintro ⟨u, v, rfl, hu, k, hk, hv⟩
    exact ⟨k, hk, u, v, rfl, hu, hv⟩
  · rintro ⟨k, hk, u, v, rfl, hu, hv⟩
    exact ⟨u, v, rfl, hu, k, hk, hv⟩

/-- What takes nothing can be done once or any number of times more. -/
theorem times_succ_of_empty (hP : ∀ pre text post, P pre text post → text = []) :
    Times P (n + 1) pre text post ↔ P pre text post := by
  induction n generalizing pre text with
  | zero => exact times_one
  | succ n ih =>
    constructor
    · rintro ⟨u, v, rfl, hu, hv⟩
      obtain rfl := hP _ _ _ hu
      rw [List.append_nil] at hv
      exact ih.mp hv
    · intro h
      obtain rfl := hP _ _ _ h
      exact then_nil_iff.mpr ⟨h, ih.mpr h⟩

namespace Expr

/-! ## Meaning -/

/-- A number of rounds that a repetition allows. -/
def Within (low : Nat) (high : Option Nat) (n : Nat) : Prop := low ≤ n ∧ ∀ most ∈ high, n ≤ most

/-- The texts that an expression describes, where they stand. -/
def Spans : Expr → Occurrence
  | .empty => fun _ text _ => text = []
  | .one set => fun _ text _ => ∃ c, text = [c] ∧ set.contains c = true
  | .look l => fun pre text post => text = [] ∧ l.holds (.between pre post) = true
  | .seq a b => Then a.Spans b.Spans
  | .alt a b => fun pre text post => a.Spans pre text post ∨ b.Spans pre text post
  | .repetition low high _ a => fun pre text post =>
    ∃ n, Within low high n ∧ Times a.Spans n pre text post
  | .group _ a => a.Spans

/-- Every repetition allows some number of rounds. -/
def Ordered : Expr → Prop
  | .empty => True
  | .one _ => True
  | .look _ => True
  | .seq a b => a.Ordered ∧ b.Ordered
  | .alt a b => a.Ordered ∧ b.Ordered
  | .repetition low high _ a => Within low high low ∧ a.Ordered
  | .group _ a => a.Ordered

theorem eq_nil_of_widthless {e : Expr} (hwidthless : e.widthless = true)
    (h : e.Spans pre text post) : text = [] := by
  induction e generalizing pre text post with
  | empty => exact h
  | one set => cases hwidthless
  | look l => exact h.1
  | seq a b iha ihb =>
    obtain ⟨ha, hb⟩ := Bool.and_eq_true_iff.mp hwidthless
    obtain ⟨u, v, rfl, hu, hv⟩ := h
    rw [iha ha hu, ihb hb hv, List.append_nil]
  | alt a b iha ihb =>
    obtain ⟨ha, hb⟩ := Bool.and_eq_true_iff.mp hwidthless
    exact h.elim (iha ha) (ihb hb)
  | repetition low high greedy a ih =>
    obtain ⟨n, hn, htimes⟩ := h
    rcases Bool.or_eq_true_iff.mp hwidthless with hzero | ha
    · obtain rfl : n = 0 := Nat.le_zero.mp (hn.2 0 (beq_iff_eq.mp hzero))
      exact htimes
    · cases n with
      | zero => exact htimes
      | succ n => exact ih ha ((times_succ_of_empty fun _ _ _ => ih ha).mp htimes)
  | group index a ih => exact ih hwidthless h

/-- What takes nothing counts once at most: the numbers of rounds may be brought down to one. -/
theorem exists_within_widthless {low : Nat} {high : Option Nat} (hordered : Within low high low)
    (hP : ∀ pre text post, P pre text post → text = []) :
    (∃ n, Within (min low 1) (some (min (high.getD 1) 1)) n ∧ Times P n pre text post) ↔
      ∃ n, Within low high n ∧ Times P n pre text post := by
  have hiff (n : Nat) : Times P n pre text post ↔ Times P (min n 1) pre text post := by
    cases n with
    | zero => exact Iff.rfl
    | succ n =>
      rw [Nat.min_eq_right (Nat.le_add_left 1 n), times_succ_of_empty hP, times_one]
  constructor
  · rintro ⟨n, ⟨hlow, hhigh⟩, h⟩
    have hn : n ≤ min (high.getD 1) 1 := hhigh _ rfl
    refine ⟨max low n, ⟨Nat.le_max_left low n, fun most hmost => ?_⟩, ?_⟩
    · obtain rfl := Option.mem_def.mp hmost
      exact Nat.max_le.mpr ⟨hordered.2 most rfl, Nat.le_trans hn (Nat.min_le_left most 1)⟩
    · have hmin : min (max low n) 1 = min n 1 := by omega
      rwa [hiff, hmin, ← hiff]
  · rintro ⟨n, ⟨hlow, hhigh⟩, h⟩
    refine ⟨min n 1, ⟨by omega, fun most hmost => ?_⟩, (hiff n).mp h⟩
    obtain rfl := Option.some_inj.mp hmost
    cases high with
    | none => exact Nat.min_le_right n 1
    | some most =>
      have hn := hhigh most rfl
      rw [Option.getD_some]
      omega

/-! ## Nodes -/

/-- However its letters are numbered, a node runs through the texts with a property. -/
def Means (node : Numbered Node) (P : Occurrence) : Prop :=
  ∀ first pre text post, (node.run first).1.Runs pre text post ↔ P pre text post

variable {node other : Numbered Node} {greedy : Bool}

theorem Means.congr (h : Means node P) (hP : ∀ pre text post, P pre text post ↔ P' pre text post) :
    Means node P' := fun first pre text post => (h first pre text post).trans (hP pre text post)

theorem means_pure {a : Node} (h : ∀ pre text post, a.Runs pre text post ↔ P pre text post) :
    Means (pure a) P := fun _ => h

theorem Means.seq (h : Means node P) (h' : Means other Q) :
    Means (do return .seq (← node) (← other)) (Then P Q) := fun first _ _ _ =>
  Node.runs_seq_iff.trans (then_congr (h first) (h' _))

theorem Means.followedBy (h : Means node P) (h' : Means other Q) :
    Means (do return (← node).followedBy (← other)) (Then P Q) := fun first _ _ _ =>
  Node.runs_followedBy_iff.trans (then_congr (h first) (h' _))

theorem Means.alt (h : Means node P) (h' : Means other Q) :
    Means (do return .alt (← node) (← other)) fun pre text post =>
      P pre text post ∨ Q pre text post := fun first pre text post =>
  Node.runs_alt_iff.trans (or_congr (h first pre text post) (h' _ pre text post))

theorem Means.optional (h : Means node P) :
    Means (do return .optional greedy (← node)) fun pre text post =>
      text = [] ∨ P pre text post := fun first pre text post =>
  Node.runs_optional_iff.trans (or_congr_right (h first pre text post))

theorem Means.again (h : Means node P) :
    Means (do return .again greedy (← node)) fun pre text post =>
      ∃ n, Times P n pre text post := fun first pre text post =>
  Node.runs_again_iff.trans (exists_congr fun n => times_congr (h first) n pre text post)

theorem Means.plus (h : Means node P) :
    Means (do return .plus greedy (← node)) fun pre text post =>
      ∃ n, 1 ≤ n ∧ Times P n pre text post := fun first pre text post => by
  refine Node.runs_plus_iff.trans ⟨?_, ?_⟩
  · rintro ⟨n, hn⟩
    exact ⟨n + 1, Nat.le_add_left 1 n, (times_congr (h first) (n + 1) pre text post).mp hn⟩
  · rintro ⟨n, hpos, hn⟩
    obtain ⟨n, rfl⟩ := Nat.exists_eq_add_of_le' hpos
    exact ⟨n, (times_congr (h first) (n + 1) pre text post).mpr hn⟩

theorem Means.copies (h : Means node P) : ∀ n, Means (copies node n) (Times P n)
  | 0 => means_pure fun _ _ _ => Node.runs_empty_iff
  | 1 => h.congr fun _ _ _ => times_one.symm
  | n + 2 => h.seq (h.copies (n + 1))

theorem Means.upTo (h : Means node P) : ∀ most, Means (upTo greedy node most) fun pre text post =>
    ∃ n, n ≤ most ∧ Times P n pre text post
  | 0 => means_pure fun pre text post => by
    rw [Node.runs_empty_iff]
    constructor
    · exact fun htext => ⟨0, Nat.le_refl 0, htext⟩
    · rintro ⟨n, hn, h⟩
      obtain rfl := Nat.le_zero.mp hn
      exact h
  | most + 1 => by
    refine ((h.followedBy (h.upTo most)).optional).congr fun pre text post => ?_
    rw [then_exists_iff]
    constructor
    · rintro (htext | ⟨n, hn, h⟩)
      · exact ⟨0, Nat.zero_le _, htext⟩
      · exact ⟨n + 1, Nat.succ_le_succ hn, h⟩
    · rintro ⟨n, hn, h⟩
      cases n with
      | zero => exact .inl h
      | succ n => exact .inr ⟨n, Nat.le_of_succ_le_succ hn, h⟩

/-- A repetition as it is spelled out: so many copies, and then more of them. -/
theorem Means.repeated {low : Nat} {p : Nat → Prop} (h : Means node P)
    (hmore : Means other fun pre text post => ∃ n, p n ∧ Times P n pre text post) :
    Means (do return (← Expr.copies node low).followedBy (← other)) fun pre text post =>
      ∃ n, p n ∧ Times P (low + n) pre text post :=
  ((h.copies low).followedBy hmore).congr fun pre text post => by
    rw [then_exists_iff]
    simp only [times_add]

/-- What takes nothing is spelled out for one round at most. -/
theorem exists_rounds {low : Nat} {high : Option Nat} {a : Expr} (hordered : Within low high low) :
    ∃ low' high', (if a.widthless then (min low 1, some (min (high.getD 1) 1)) else (low, high)) =
        (low', high') ∧ Within low' high' low' ∧ ∀ pre text post,
      (∃ n, Within low' high' n ∧ Times a.Spans n pre text post) ↔
        ∃ n, Within low high n ∧ Times a.Spans n pre text post := by
  by_cases ha : a.widthless = true
  · refine ⟨min low 1, some (min (high.getD 1) 1), if_pos ha, ⟨Nat.le_refl _, ?_⟩, fun _ _ _ =>
      exists_within_widthless hordered fun _ _ _ => eq_nil_of_widthless ha⟩
    intro _ hmost
    obtain rfl := Option.some_inj.mp hmost
    cases high with
    | none => exact Nat.min_le_right low 1
    | some most =>
      have hmost := hordered.2 most rfl
      rw [Option.getD_some]
      omega
  · exact ⟨low, high, if_neg ha, hordered, fun _ _ _ => Iff.rfl⟩

theorem means_repetition {low : Nat} {high : Option Nat} {a : Expr}
    (hordered : Within low high low) (h : Means a.numberedNode a.Spans) :
    Means (Expr.repetition low high greedy a).numberedNode
      (Expr.repetition low high greedy a).Spans := by
  obtain ⟨low', high', heq, hordered', hrounds⟩ := exists_rounds (a := a) hordered
  rw [numberedNode, heq]
  refine Means.congr ?_ hrounds
  match high', low' with
  | none, 0 =>
    have hany (pre text post : List Char) : (∃ n, Times a.Spans n pre text post) ↔
        ∃ n, Within 0 none n ∧ Times a.Spans n pre text post :=
      exists_congr fun n => (and_iff_right ⟨Nat.zero_le n, by simp⟩).symm
    by_cases hnullable : a.nullable = true
    · simp only [hnullable, if_true]
      refine h.plus.optional.congr fun pre text post => Iff.trans ?_ (hany pre text post)
      constructor
      · rintro (htext | ⟨n, -, hn⟩)
        · exact ⟨0, htext⟩
        · exact ⟨n, hn⟩
      · rintro ⟨n, hn⟩
        cases n with
        | zero => exact .inl hn
        | succ n => exact .inr ⟨n + 1, Nat.le_add_left 1 n, hn⟩
    · simp only [hnullable]
      exact h.again.congr hany
  | none, low + 1 =>
    refine (h.repeated h.plus).congr fun pre text post => ⟨?_, ?_⟩
    · rintro ⟨n, hpos, hn⟩
      exact ⟨low + n, ⟨Nat.add_le_add_left hpos low, by simp⟩, hn⟩
    · rintro ⟨n, ⟨hlow, -⟩, hn⟩
      refine ⟨n - low, Nat.le_sub_of_add_le' hlow, ?_⟩
      rwa [Nat.add_sub_of_le (Nat.le_of_succ_le hlow)]
  | some most, low =>
    have hmost : low ≤ most := hordered'.2 most rfl
    refine (h.repeated (h.upTo (most - low))).congr fun pre text post => ⟨?_, ?_⟩
    · rintro ⟨n, hle, hn⟩
      refine ⟨low + n, ⟨Nat.le_add_right low n, fun _ hlast => ?_⟩, hn⟩
      obtain rfl := Option.some_inj.mp hlast
      omega
    · rintro ⟨n, ⟨hlow, hhigh⟩, hn⟩
      refine ⟨n - low, Nat.sub_le_sub_right (hhigh most rfl) low, ?_⟩
      rwa [Nat.add_sub_of_le hlow]

/-- The node of an expression runs through the texts that the expression describes. -/
theorem means_numberedNode {e : Expr} (hordered : e.Ordered) : Means e.numberedNode e.Spans := by
  induction e with
  | empty => exact means_pure fun _ _ _ => Node.runs_empty_iff
  | one set => exact fun _ _ _ _ => Node.runs_letter_iff
  | look l => exact means_pure fun _ _ _ => Node.runs_look_iff
  | seq a b iha ihb => exact (iha hordered.1).followedBy (ihb hordered.2)
  | alt a b iha ihb => exact (iha hordered.1).alt (ihb hordered.2)
  | repetition low high greedy a ih => exact means_repetition hordered.1 (ih hordered.2)
  | group index a ih =>
    have hmark (slot : Nat) : Means (pure (Node.mark slot)) fun _ text _ => text = [] :=
      means_pure fun _ _ _ => Node.runs_mark_iff
    have hgroup := (hmark (2 * index)).seq ((ih hordered).seq (hmark (2 * index + 1)))
    exact hgroup.congr fun _ _ _ => nothing_then.trans then_nothing

theorem runs_toNode_iff {e : Expr} (hordered : e.Ordered) :
    e.toNode.Runs pre text post ↔ e.Spans pre text post :=
  means_numberedNode hordered 0 pre text post

end Expr

end Gatehouse.Regex
